import Wireframe.CommandLine.Arguments
import Wireframe.Kind
import Wireframe.Split

/-!
# Commands

What the program can be asked to do, and how that is written on a command line.
-/

namespace Wireframe.CommandLine

inductive Command where
  /-- Writes the document of a source. -/
  | compile (file : String) (platform : Option Platform) (strict : Bool)
      (navigation : Option (List String)) (compact : Bool)
  /-- Reports what is wrong with a source. -/
  | check (file : String) (platform : Option Platform) (strict : Bool)
  /-- Writes the tokens of a design. -/
  | tokens (context : String) (session : Option String) (platform : Option Platform)
      (overrides : List (String × String))
  /-- Makes a session and writes its snapshot into a file. -/
  | exportSession (context : String) (platform : Option Platform) (out : Option String)
  /-- Writes the tokens of the session in a snapshot. -/
  | showSession (file : String)
deriving Repr, DecidableEq

namespace Command

/-- A name and a value on both sides of an equals sign; the name may stand between blanks. -/
def pair? (s : String) : Option (String × String) := do
  let (name, value) ← Text.cutAt? '=' s.toList
  let name := Text.trim (String.ofList name)
  if name = "" then none else some (name, String.ofList value)

def flag (name : String) : Parameter := ⟨name, none, false⟩

def option (name : String) : Parameter := ⟨name, some fun _ => true, false⟩

/-- Whether a text is a path. -/
def isPath (s : String) : Bool := s ≠ ""

def platformOption : Parameter :=
  ⟨"platform", some fun s => (Platform.read s).isOk, false⟩

def sourceParameters : List Parameter := [platformOption, flag "strict"]

def compileSignature : Signature :=
  ⟨sourceParameters ++ [⟨"mobile-nav", some fun _ => true, true⟩, flag "compact"], some isPath⟩

def checkSignature : Signature :=
  ⟨sourceParameters, some isPath⟩

def tokensSignature : Signature :=
  ⟨[option "context", option "session-id", platformOption,
    ⟨"set", some fun s => (pair? s).isSome, true⟩], none⟩

def exportSignature : Signature :=
  ⟨[option "context", platformOption, ⟨"out", some isPath, false⟩], none⟩

def showSignature : Signature :=
  ⟨[], some isPath⟩

/-- A value that must be there. -/
def required : Option α → Except Stop α
  | some a => .ok a
  | none => .error .misuse

def platform? (g : Given) : Option Platform :=
  (g.value? "platform").bind fun s => (Platform.read s).toOption

/-- The entries of the bottom navigation, if it is given; commas set them off. -/
def navigation? (g : Given) : Option (List String) :=
  if g.has "mobile-nav" then
    some ((g.all "mobile-nav").flatMap fun s =>
      (splitWhere (· = ',') s.toList).map String.ofList)
  else none

def readCompile (args : List String) : Except Stop Command := do
  let g ← compileSignature.take {} args
  return compile (← required g.operand) (platform? g) (g.has "strict") (navigation? g)
    (g.has "compact")

def readCheck (args : List String) : Except Stop Command := do
  let g ← checkSignature.take {} args
  return check (← required g.operand) (platform? g) (g.has "strict")

def readTokens (args : List String) : Except Stop Command := do
  let g ← tokensSignature.take {} args
  return tokens (← required (g.value? "context")) (g.value? "session-id") (platform? g)
    ((g.all "set").filterMap pair?)

def readExport (args : List String) : Except Stop Command := do
  let g ← exportSignature.take {} args
  return exportSession (← required (g.value? "context")) (platform? g) (g.value? "out")

def readShow (args : List String) : Except Stop Command := do
  let g ← showSignature.take {} args
  return showSession (← required g.operand)

/-- The names of commands within groups that help can be asked about. -/
def topics : List (List String) :=
  [[], ["compile"], ["check"], ["tokens"], ["session"], ["help"], ["session", "export"],
    ["session", "show"], ["session", "help"]]

/-- An answer to the argument that stands where the name of a command should. -/
def stray (versioned : Bool) (arg : String) : Stop :=
  match Form.of arg with
  | .long "help" none => .help
  | .long "version" none => if versioned then .version else .misuse
  | .short ('h' :: _) => .help
  | .short ('V' :: _) => if versioned then .version else .misuse
  | _ => .misuse

def readSession : List String → Except Stop Command
  | "export" :: args => readExport args
  | "show" :: args => readShow args
  | "help" :: names => .error (if "session" :: names ∈ topics then .help else .misuse)
  | arg :: _ => .error (stray false arg)
  | [] => .error .misuse

/-- The command that a command line gives. -/
def read : List String → Except Stop Command
  | "compile" :: args => readCompile args
  | "check" :: args => readCheck args
  | "tokens" :: args => readTokens args
  | "session" :: args => readSession args
  | "help" :: names => .error (if names ∈ topics then .help else .misuse)
  | arg :: _ => .error (stray true arg)
  | [] => .error .misuse

end Command

end Wireframe.CommandLine
