import Wireframe.CommandLine.Command
import Wireframe.CommandLine.Host
import Wireframe.Compiler
import Wireframe.Document.Json
import Wireframe.Session.Registry
import Wireframe.Settings

/-!
# Running commands

A command gives a text for each of the two output streams and a code: 0 where all went well, 1 where
something failed, 2 where the command line is wrong, 101 where an update could not be counted.
-/

namespace Wireframe.CommandLine

/-- Why a command fails. -/
inductive Failure where
  | source (f : FileFailure)
  | noDocument (e : NoDocument)
  | snapshotFile (f : FileFailure)
  | malformedSnapshot
  | session (f : Registry.Failure)

def Failure.message : Failure → String
  | source f => f.message
  | noDocument e => e.message
  | snapshotFile f => s!"session I/O failed: {f.message}"
  | malformedSnapshot => "session snapshot is not valid YAML: it holds no session"
  | session f => f.message

/-- The lines that report diagnostics. -/
def reportLines (ds : List Diagnostic) : String :=
  String.join (ds.map fun d => d.render ++ "\n")

/-- The outcome of a command that fails, behind what it has reported. -/
def failed (f : Failure) (reported : String := "") : Outcome :=
  { code := 1, errors := reported ++ s!"Error: {f.message}\n" }

/-- The outcome of a command that breaks off at an update that cannot be counted. -/
def brokenOff : Outcome :=
  { code := 101, errors := "attempt to add with overflow\n" }

/-- The outcome of a command that writes a line. -/
def wrote (line : String) (reported : String := "") : Outcome :=
  { code := 0, output := line ++ "\n", errors := reported }

/-- The options for a source: what the command says goes before what is set. -/
def sourceOptions (settings : Settings) (platform : Option Platform) (strict : Bool) : Options :=
  let options := settings.options
  { options with
    platform := platform <|> options.platform
    strict := options.strict || strict }

section

variable {m : Type → Type} [Monad m]

/-- The source in a file, or on the input for a single hyphen. -/
def readSource (host : Host m) (file : String) : m (Except FileFailure String) :=
  if file = "-" then host.input else host.load file

/-- The settings in the home directory; where there are none that can be read, none is made. -/
def loadSettings (host : Host m) : m Settings := do
  match ← host.home with
  | none => return {}
  | some home =>
    match ← host.load (Settings.path home) with
    | .ok text => return (Settings.read? text).getD {}
    | .error _ => return {}

/-- The session in a snapshot. -/
def loadSession (host : Host m) (file : String) : m (Except Failure Session) := do
  match ← host.load file with
  | .error f => return .error (.snapshotFile f)
  | .ok text =>
    match Session.read? text with
    | some s => return .ok s
    | none => return .error .malformedSnapshot

def compile (host : Host m) (options : Options) (file : String) (compact : Bool) : m Outcome := do
  match ← readSource host file with
  | .error f => return failed (.source f)
  | .ok source =>
    match Compiler.compile source options with
    | .error e => return failed (.noDocument e) (reportLines e.diagnostics)
    | .ok c =>
      let text := if compact then c.document.compact else c.document.pretty
      return wrote text (reportLines c.diagnostics)

def check (host : Host m) (options : Options) (file : String) : m Outcome := do
  match ← readSource host file with
  | .error f => return failed (.source f)
  | .ok source =>
    let c := Compiler.run source options
    return { code := if c.success then 0 else 1, errors := reportLines c.diagnostics }

def exportSession (host : Host m) (settings : Settings) (context : String) (platform : Platform)
    (out : Option String) : m Outcome := do
  let id ← host.freshId
  let (s, _) := Registry.empty.create id (some context) platform (← host.now)
  let file := out.getD (Session.path (settings.snapshots (← host.home)) s.id)
  match ← host.save file s.render with
  | .error f => return failed (.snapshotFile f)
  | .ok () => return wrote file

def showSession (host : Host m) (file : String) : m Outcome := do
  match ← loadSession host file with
  | .error f => return failed f
  | .ok s =>
    match Registry.empty.install s (← host.now) with
    | .error f => return failed (.session f)
    | .brokenOff _ => return brokenOff
    | .ok (s, _) => return wrote (Design.Tokens.toJson s.tokens).pretty

/-- Runs a command. -/
def Command.run (host : Host m) (settings : Settings) : Command → m Outcome
  | .compile file platform strict navigation compact =>
    let options := sourceOptions settings platform strict
    CommandLine.compile host { options with navigation } file compact
  | .check file platform strict =>
    CommandLine.check host (sourceOptions settings platform strict) file
  | .tokens context session platform overrides =>
    let params : Design.Params :=
      { context, session
        platform := platform.getD settings.platform
        overrides := .ofList overrides }
    return wrote (Design.Tokens.toJson params.tokens).pretty
  | .exportSession context platform out =>
    CommandLine.exportSession host settings context (platform.getD settings.platform) out
  | .showSession file => CommandLine.showSession host file

/-- The name of the program and its version. -/
def versionLine : String := "stitch 0.1.0"

def usage : String :=
  String.intercalate "\n"
    ["Usage: stitch COMMAND",
      "",
      "Commands:",
      "  compile FILE [--platform P] [--strict] [--mobile-nav LIST] [--compact]",
      "  check FILE [--platform P] [--strict]",
      "  tokens --context TEXT [--session-id ID] [--platform P] [--set KEY=VALUE]",
      "  session export --context TEXT [--platform P] [--out FILE]",
      "  session show FILE",
      "  help [COMMAND]"]

/-- Runs the program with its arguments. -/
def run (host : Host m) (args : List String) : m Outcome := do
  match Command.read args with
  | .error .help => return wrote usage
  | .error .version => return wrote versionLine
  | .error .misuse => return { code := 2, errors := usage ++ "\n" }
  | .ok command => command.run host (← loadSettings host)

end

end Wireframe.CommandLine
