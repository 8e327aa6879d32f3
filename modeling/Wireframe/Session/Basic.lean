import Wireframe.Design.Params
import Wireframe.Timestamp.Basic

/-!
# Sessions

A session pins one design so that several documents can share it. Its tokens are the design of its
context, its id, its platform and the values set by hand. Every update makes them anew, notes the
time and counts one revision. No update is counted behind the last revision: it breaks off there,
with the tokens and the time already new.
-/

namespace Wireframe

/-- Whether a session is as it was made. -/
inductive Session.Status where
  | active
  | updated
deriving Repr, DecidableEq

namespace Session.Status

def name : Status → String
  | active => "active"
  | updated => "updated"

/-- The status with a given name. -/
def ofName? (s : String) : Option Status :=
  [active, updated].find? fun t => t.name = s

end Session.Status

structure Session where
  id : String
  context : String
  platform : Platform := .web
  /-- The values set by hand. -/
  overrides : Table String := .empty
  tokens : Design.Tokens
  createdAt : Timestamp
  updatedAt : Timestamp
  /-- The number of updates. -/
  revision : UInt64 := 0
  status : Session.Status
deriving DecidableEq

namespace Session

/-- The context of a session that is made without one. -/
def defaultContext : String := "default"

/-- What the design of a session is made from. -/
def params (s : Session) : Design.Params :=
  { context := s.context, session := some s.id, platform := s.platform, overrides := s.overrides }

/-- A session that has not been updated. -/
def make (id context : String) (platform : Platform) (now : Timestamp) : Session :=
  let params : Design.Params := { context, session := some id, platform }
  { id, context, platform
    tokens := params.tokens
    createdAt := now
    updatedAt := now
    status := .active }

theorem tokens_make (id context : String) (platform : Platform) (now : Timestamp) :
    (make id context platform now).tokens = (make id context platform now).params.tokens :=
  rfl

/-- The greatest revision that there is. -/
def lastRevision : UInt64 := 18446744073709551615

/-- A session whose tokens are made anew, before this is counted. -/
def renew (s : Session) (now : Timestamp) : Session :=
  { s with
    tokens := s.params.tokens
    updatedAt := now }

@[simp] theorem revision_renew (s : Session) (now : Timestamp) :
    (s.renew now).revision = s.revision :=
  rfl

/-- A session with one more update counted, unless its revision is the last one. -/
def count? (s : Session) : Option Session :=
  if s.revision = lastRevision then none
  else some { s with revision := s.revision + 1, status := .updated }

/-- Makes the tokens of a session anew and counts the update. Where it cannot be counted it breaks
off, and what is left is the session as it was then. -/
def refresh (s : Session) (now : Timestamp) : Except Session Session :=
  match (s.renew now).count? with
  | some t => .ok t
  | none => .error (s.renew now)

/-- Whether `s` is listed before `t`: the older one, and by their ids where they are of one age. -/
def listedBefore (s t : Session) : Bool :=
  s.createdAt < t.createdAt ∨ s.createdAt = t.createdAt ∧ s.id ≤ t.id

end Session

end Wireframe
