import Wireframe.Session.Basic
import Wireframe.Path
import Wireframe.Timestamp.Text
import Wireframe.Yaml.Printer
import Wireframe.Yaml.Reader

/-!
# Snapshots of sessions

A snapshot is a session as a YAML text. `Session.render` writes the fields in a fixed order and
tables by their keys. `Session.read?` accepts them in any order and other fields beside them.
-/

namespace Wireframe

def Platform.ofYaml? (y : Yaml) : Option Platform :=
  y.caseName?.bind ofName?

namespace Session

/-- The snapshot of a session. -/
def render (s : Session) : String :=
  Yaml.textMember 0 "id" s.id ++
    Yaml.textMember 0 "context" s.context ++
    Yaml.textMember 0 "platform" s.platform.name ++
    Yaml.tableMember 0 "overrides" s.overrides ++
    Yaml.tableMember 0 "tokens" s.tokens ++
    Yaml.textMember 0 "created_at" s.createdAt.render ++
    Yaml.textMember 0 "updated_at" s.updatedAt.render ++
    Yaml.numberMember 0 "revision" s.revision.toNat ++
    Yaml.textMember 0 "status" s.status.name

def status? (y : Yaml) : Option Status :=
  y.caseName?.bind Status.ofName?

def timestamp? (y : Yaml) : Option Timestamp :=
  y.text?.bind Timestamp.read?

/-- The fields of a snapshot. -/
def fieldNames : List String :=
  ["id", "context", "platform", "overrides", "tokens", "created_at", "updated_at", "revision",
    "status"]

/-- The session in a YAML value. -/
def ofYaml? (y : Yaml) : Option Session :=
  match y.fields? fieldNames with
  | some [some id, some context, platform, overrides, some tokens, some createdAt, some updatedAt,
      revision, some status] => do
    some {
      id := ← id.text?
      context := ← context.text?
      platform := ← Yaml.fieldOr .web Platform.ofYaml? platform
      overrides := ← Yaml.fieldOr .empty Yaml.table? overrides
      tokens := ← tokens.table?
      createdAt := ← timestamp? createdAt
      updatedAt := ← timestamp? updatedAt
      revision := ← Yaml.fieldOr 0 Yaml.word? revision
      status := ← status? status }
  | _ => none

/-- The session that a snapshot holds. -/
def read? (text : String) : Option Session :=
  (Yaml.read? text).bind ofYaml?

/-- The file for the snapshot of the session with an id. -/
def path (directory id : String) : String :=
  Path.join directory (id ++ ".yaml")

end Session

end Wireframe
