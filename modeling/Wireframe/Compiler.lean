import Wireframe.Analysis
import Wireframe.Design.Params
import Wireframe.Outline.Reader

/-!
# Compiling source texts

The whole way from a source text to a document. Every step reports what is wrong and goes on, so
that a compilation fails only when there is no document at all.
-/

namespace Wireframe

/-- All that comes of a source text. -/
structure Compilation where
  document : Option Document
  diagnostics : List Diagnostic

/-- Whether there is a document and no error was reported. -/
def Compilation.success (c : Compilation) : Bool :=
  c.document.isSome && !c.diagnostics.any Diagnostic.isError

/-- A document with what was reported about its source. -/
structure Compiled where
  document : Document
  diagnostics : List Diagnostic

/-- The tokens of a design that is made for a document and its context; a missing one is empty. -/
def Compiled.tokens (c : Compiled) (context : Option String) : Design.Tokens :=
  ({ context := context.getD "", platform := c.document.platform } : Design.Params).tokens

/-- A source text from which no document came. -/
structure NoDocument where
  diagnostics : List Diagnostic

def NoDocument.message (e : NoDocument) : String :=
  s!"no usable UI structure could be compiled ({e.diagnostics.length} diagnostic(s))"

namespace Compiler

/-- What comes of a source text: first its characters are looked at, then its lines, then what
they mean. -/
def run (source : String) (options : Options) : Compilation :=
  let (outline, syntactic) := Outline.read source
  let (document, semantic) := Analysis.document? outline options
  ⟨document, syntactic ++ semantic⟩

/-- The document of a source text. -/
def compile (source : String) (options : Options) : Except NoDocument Compiled :=
  let result := run source options
  match result.document with
  | some document => .ok ⟨document, result.diagnostics⟩
  | none => .error ⟨result.diagnostics⟩

end Compiler

end Wireframe
