import Wireframe.Analysis
import Wireframe.Session.Snapshot

/-!
# Settings

What a user sets once and for all in a file in the home directory. Every setting may be left out.
-/

namespace Wireframe

structure Settings where
  /-- The platform where none is given. -/
  platform : Platform := .web
  /-- Whether misplaced children are left out. -/
  strictNesting : Bool := false
  /-- The directory for snapshots of sessions. -/
  sessionDirectory : Option String := none
deriving Repr, DecidableEq, Inhabited

namespace Settings

/-- The settings in a YAML value. -/
def ofYaml? (y : Yaml) : Option Settings :=
  match y.fields? ["platform", "strict_nesting", "session_dir"] with
  | some [platform, strictNesting, sessionDirectory] => do
    some {
      platform := ← Yaml.fieldOr .web Platform.ofYaml? platform
      strictNesting := ← Yaml.fieldOr false Yaml.bool? strictNesting
      sessionDirectory := ← Yaml.fieldOr none (Yaml.optional? Yaml.text?) sessionDirectory }
  | _ => none

/-- The settings that a text holds. -/
def read? (text : String) : Option Settings :=
  (Yaml.read? text).bind ofYaml?

/-- The directory of the program in the home directory. -/
def directory (home : String) : String :=
  Path.join home ".stitch"

/-- The file that holds the settings. -/
def path (home : String) : String :=
  Path.join (directory home) "config.yaml"

/-- The directory for snapshots where none is set. -/
def defaultSessionDirectory (home : Option String) : String :=
  Path.join (directory (home.getD ".")) "sessions"

/-- The directory for snapshots. -/
def snapshots (s : Settings) (home : Option String) : String :=
  match s.sessionDirectory with
  | some path => Path.expandHome home path
  | none => defaultSessionDirectory home

/-- The options that the settings stand for. -/
def options (s : Settings) : Options :=
  { platform := some s.platform, strict := s.strictNesting }

end Settings

end Wireframe
