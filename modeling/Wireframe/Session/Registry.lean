import Wireframe.Session.Basic
import Wireframe.Text.Basic

/-!
# Registries of sessions

A registry holds sessions by their ids. Every operation on it is one step, which takes the time and
the id of a new session from its caller. A step that fails leaves the registry as it is. A step that
breaks off, because an update cannot be counted, gives no answer and leaves what it had done.
-/

namespace Wireframe

structure Registry where
  /-- The sessions, each under its id. -/
  sessions : Table Session
deriving DecidableEq

namespace Registry

/-- Why an operation fails. -/
inductive Failure where
  | notFound (id : String)
  /-- A snapshot has nothing but blanks for its id. -/
  | emptyId
  /-- A snapshot tells an update before the session was made. -/
  | updatedBeforeCreated (id : String)
deriving Repr, DecidableEq

def Failure.message : Failure → String
  | notFound id => s!"session '{id}' not found"
  | emptyId => "invalid session snapshot: empty session id"
  | updatedBeforeCreated id =>
    s!"invalid session snapshot: session '{id}' was updated before it was created"

/-- What becomes of a step that may fail. -/
inductive Result where
  | ok (made : Session × Registry)
  | error (f : Failure)
  /-- An update cannot be counted: there is no answer, only the registry that is left. -/
  | brokenOff (left : Registry)

def empty : Registry := ⟨.empty⟩

def get? (r : Registry) (id : String) : Option Session :=
  r.sessions.get? id

def tokens? (r : Registry) (id : String) : Option Design.Tokens :=
  (r.get? id).map (·.tokens)

def size (r : Registry) : Nat :=
  r.sessions.size

/-- The registry with a session in the place of any other with its id. -/
def put (r : Registry) (s : Session) : Registry :=
  ⟨r.sessions.insert s.id s⟩

/-- Makes a session under an id. -/
def create (r : Registry) (id : String) (context : Option String) (platform : Platform)
    (now : Timestamp) : Session × Registry :=
  let s := Session.make id (context.getD Session.defaultContext) platform now
  (s, r.put s)

/-- The session with an id, which is made if there is none. -/
def getOrCreate (r : Registry) (id context : String) (now : Timestamp) : Session × Registry :=
  match r.get? id with
  | some s => (s, r)
  | none => r.create id (some context) .web now

/-- Changes a session and makes its tokens anew. The session is changed where it stands, so an
update that breaks off leaves it there as far as it came. -/
def update (r : Registry) (id : String) (change : Session → Session) (now : Timestamp) : Result :=
  match r.get? id with
  | some s =>
    match (change s).refresh now with
    | .ok s => .ok (s, ⟨r.sessions.insert id s⟩)
    | .error s => .brokenOff ⟨r.sessions.insert id s⟩
  | none => .error (.notFound id)

/-- Gives a session another context. -/
def updateContext (r : Registry) (id context : String) (now : Timestamp) : Result :=
  r.update id (fun s => { s with context }) now

/-- Makes the tokens of a session anew. -/
def refresh (r : Registry) (id : String) (now : Timestamp) : Result :=
  r.update id (fun s => s) now

/-- Sets values of a session by hand. -/
def override (r : Registry) (id : String) (values : Table String) (now : Timestamp) : Result :=
  r.update id (fun s => { s with overrides := s.overrides.insertAll values.entries }) now

/-- Removes a session and tells whether there was one. -/
def delete (r : Registry) (id : String) : Bool × Registry :=
  (r.sessions.contains id, ⟨r.sessions.erase id⟩)

/-- Removes all sessions and tells how many there were. -/
def clear (r : Registry) : Nat × Registry :=
  (r.size, empty)

/-- The sessions, the oldest first. -/
def list (r : Registry) : List Session :=
  r.sessions.values.mergeSort Session.listedBefore

/-- A snapshot of a session. -/
def snapshot (r : Registry) (id : String) : Except Failure Session :=
  match r.get? id with
  | some s => .ok s
  | none => .error (.notFound id)

/-- Puts a snapshot into the registry. Without a context it gets the default one; where its tokens
leave out a dimension they are made anew, before the snapshot is put anywhere. -/
def install (r : Registry) (s : Session) (now : Timestamp) : Result :=
  if Text.trim s.id = "" then .error .emptyId
  else if s.updatedAt < s.createdAt then .error (.updatedBeforeCreated s.id)
  else
    let s := if Text.trim s.context = "" then { s with context := Session.defaultContext } else s
    if Design.Tokens.isComplete s.tokens then .ok (s, r.put s)
    else
      match s.refresh now with
      | .ok s => .ok (s, r.put s)
      | .error _ => .brokenOff r

end Registry

end Wireframe
