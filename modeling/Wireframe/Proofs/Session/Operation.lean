import Mathlib.Data.List.Induction
import Wireframe.Proofs.Table
import Wireframe.Session.Registry

/-!
# Operations on registries

All that a caller may ask of a registry, with the clock reading and the id that a step may need.
`Registry.apply` answers one operation and `Registry.run` is a run on a fresh registry. An operation
that concerns one id is an `Action` on the session under that id: it looks at no other session and
changes no other (`apply_eq`).

An update of a session leaves `refreshed` behind, whether it is counted or breaks off; only the
answer tells the two apart (`apply_update`).
-/

namespace Wireframe

namespace Session

/-- What an update leaves of a session, counted or broken off. -/
def refreshed (s : Session) (now : Timestamp) : Session :=
  ((s.renew now).count?).getD (s.renew now)

variable {s t : Session} {now : Timestamp}

theorem count?_eq_some_iff :
    s.count? = some t ↔
      s.revision ≠ lastRevision ∧ { s with revision := s.revision + 1, status := .updated } = t := by
  unfold count?
  split
  next last => simp [last]
  next counted => simp [counted]

theorem count?_eq_none_iff : s.count? = none ↔ s.revision = lastRevision := by
  simp [count?]

theorem refreshed_of_ne (h : s.revision ≠ lastRevision) (now : Timestamp) :
    s.refreshed now = { s.renew now with revision := s.revision + 1, status := .updated } := by
  have counted : (s.renew now).count? = some _ := count?_eq_some_iff.mpr ⟨h, rfl⟩
  rw [refreshed, counted, Option.getD_some]
  rfl

theorem refreshed_of_eq (h : s.revision = lastRevision) (now : Timestamp) :
    s.refreshed now = s.renew now := by
  have uncounted : (s.renew now).count? = none := count?_eq_none_iff.mpr h
  rw [refreshed, uncounted, Option.getD_none]

/-- An update that is counted. -/
theorem refresh_of_ne (h : s.revision ≠ lastRevision) (now : Timestamp) :
    s.refresh now = .ok (s.refreshed now) := by
  have counted : (s.renew now).count? = some _ := count?_eq_some_iff.mpr ⟨h, rfl⟩
  rw [refresh, refreshed, counted, Option.getD_some]

/-- An update that breaks off. -/
theorem refresh_of_eq (h : s.revision = lastRevision) (now : Timestamp) :
    s.refresh now = .error (s.refreshed now) := by
  have uncounted : (s.renew now).count? = none := count?_eq_none_iff.mpr h
  rw [refresh, refreshed, uncounted, Option.getD_none]

/-- Whatever becomes of an update, all but the revision and the status is as it makes it. -/
theorem refreshed_cases (s : Session) (now : Timestamp) :
    ∃ revision status, s.refreshed now =
      { s with tokens := s.params.tokens, updatedAt := now, revision, status } := by
  by_cases last : s.revision = lastRevision
  · exact ⟨s.revision, s.status, refreshed_of_eq last now⟩
  · exact ⟨s.revision + 1, .updated, refreshed_of_ne last now⟩

@[simp] theorem id_refreshed (s : Session) (now : Timestamp) : (s.refreshed now).id = s.id := by
  obtain ⟨revision, status, left⟩ := refreshed_cases s now
  rw [left]

@[simp] theorem createdAt_refreshed (s : Session) (now : Timestamp) :
    (s.refreshed now).createdAt = s.createdAt := by
  obtain ⟨revision, status, left⟩ := refreshed_cases s now
  rw [left]

@[simp] theorem updatedAt_refreshed (s : Session) (now : Timestamp) :
    (s.refreshed now).updatedAt = now := by
  obtain ⟨revision, status, left⟩ := refreshed_cases s now
  rw [left]

@[simp] theorem params_refreshed (s : Session) (now : Timestamp) :
    (s.refreshed now).params = s.params := by
  obtain ⟨revision, status, left⟩ := refreshed_cases s now
  rw [left]
  rfl

/-- The tokens behind an update are the design of what the session says. -/
theorem tokens_refreshed (s : Session) (now : Timestamp) :
    (s.refreshed now).tokens = (s.refreshed now).params.tokens := by
  rw [params_refreshed]
  obtain ⟨revision, status, left⟩ := refreshed_cases s now
  rw [left]

end Session

namespace Registry

/-- A change after which the tokens of a session are made anew. -/
inductive Update where
  | context (context : String)
  | refresh
  | override (values : Table String)

namespace Update

/-- The session with the change in it, before its tokens are made anew. -/
def change (s : Session) : Update → Session
  | context c => { s with context := c }
  | refresh => s
  | override values => { s with overrides := s.overrides.insertAll values.entries }

@[simp] theorem id_change (s : Session) (u : Update) : (u.change s).id = s.id := by
  cases u <;> rfl

@[simp] theorem createdAt_change (s : Session) (u : Update) :
    (u.change s).createdAt = s.createdAt := by
  cases u <;> rfl

@[simp] theorem revision_change (s : Session) (u : Update) :
    (u.change s).revision = s.revision := by
  cases u <;> rfl

/-- The step of a registry that makes the change. -/
def perform (r : Registry) (id : String) (now : Timestamp) : Update → Result
  | context c => r.updateContext id c now
  | refresh => r.refresh id now
  | override values => r.override id values now

theorem perform_eq (u : Update) (r : Registry) (id : String) (now : Timestamp) :
    u.perform r id now = r.update id u.change now := by
  cases u <;> rfl

end Update

inductive Operation where
  | create (id : String) (context : Option String) (platform : Platform) (now : Timestamp)
  | getOrCreate (id context : String) (now : Timestamp)
  | update (id : String) (change : Update) (now : Timestamp)
  | delete (id : String)
  | clear
  | install (snapshot : Session) (now : Timestamp)
  | get (id : String)
  | tokens (id : String)
  | snapshot (id : String)
  | list
  | size

/-- What an operation gives back. -/
inductive Answer where
  | session (s : Session)
  | found (s : Option Session)
  | tokens (t : Option Design.Tokens)
  | sessions (all : List Session)
  | removed (existed : Bool)
  | count (n : Nat)
  | failure (f : Failure)
  /-- Nothing, as the operation broke off. -/
  | brokenOff

/-- A step that may fail; the registry stays when it does. -/
def settle (r : Registry) : Result → Answer × Registry
  | .ok (s, r') => (.session s, r')
  | .error f => (.failure f, r)
  | .brokenOff left => (.brokenOff, left)

/-- The answer to an operation, and the registry behind it. -/
def apply (r : Registry) : Operation → Answer × Registry
  | .create id context platform now =>
    let (s, r) := r.create id context platform now
    (.session s, r)
  | .getOrCreate id context now =>
    let (s, r) := r.getOrCreate id context now
    (.session s, r)
  | .update id u now => r.settle (u.perform r id now)
  | .delete id =>
    let (existed, r) := r.delete id
    (.removed existed, r)
  | .clear =>
    let (n, r) := r.clear
    (.count n, r)
  | .install s now => r.settle (r.install s now)
  | .get id => (.found (r.get? id), r)
  | .tokens id => (.tokens (r.tokens? id), r)
  | .snapshot id =>
    (match r.snapshot id with
      | .ok s => .session s
      | .error f => .failure f, r)
  | .list => (.sessions r.list, r)
  | .size => (.count r.size, r)

/-- A run on a fresh registry. -/
def run (os : List Operation) : Registry :=
  os.foldl (fun r o => (r.apply o).2) empty

@[simp] theorem run_nil : run [] = empty := rfl

theorem run_concat (os : List Operation) (o : Operation) :
    run (os ++ [o]) = ((run os).apply o).2 := by
  rw [run, List.foldl_append]
  rfl

/-- What holds of the fresh registry and is kept by every operation holds behind every run. -/
theorem run_induction {P : Registry → Prop} (fresh : P empty)
    (step : ∀ r o, P r → P (r.apply o).2) (os : List Operation) : P (run os) := by
  induction os using List.reverseRecOn with
  | nil => exact fresh
  | append_singleton os o ih => rw [run_concat]; exact step (run os) o ih

/-- A session with the default context in the place of a blank one. -/
def withContext (s : Session) : Session :=
  if Text.trim s.context = "" then { s with context := Session.defaultContext } else s

/-- A session whose tokens are made anew where they are not complete; none where that cannot be
counted. -/
def completed (s : Session) (now : Timestamp) : Option Session :=
  if Design.Tokens.isComplete s.tokens then some s else (s.renew now).count?

theorem withContext_cases (s : Session) : ∃ context, withContext s = { s with context } := by
  unfold withContext
  split
  · exact ⟨_, rfl⟩
  · exact ⟨s.context, rfl⟩

@[simp] theorem id_withContext (s : Session) : (withContext s).id = s.id := by
  obtain ⟨context, h⟩ := withContext_cases s
  rw [h]

@[simp] theorem tokens_withContext (s : Session) : (withContext s).tokens = s.tokens := by
  obtain ⟨context, h⟩ := withContext_cases s
  rw [h]

@[simp] theorem createdAt_withContext (s : Session) : (withContext s).createdAt = s.createdAt := by
  obtain ⟨context, h⟩ := withContext_cases s
  rw [h]

@[simp] theorem updatedAt_withContext (s : Session) : (withContext s).updatedAt = s.updatedAt := by
  obtain ⟨context, h⟩ := withContext_cases s
  rw [h]

@[simp] theorem revision_withContext (s : Session) : (withContext s).revision = s.revision := by
  obtain ⟨context, h⟩ := withContext_cases s
  rw [h]

variable {s t : Session} {now : Timestamp}

/-- What is stored is complete already, or it is made anew and counted. -/
theorem completed_eq_some_iff :
    completed s now = some t ↔
      Design.Tokens.isComplete s.tokens = true ∧ s = t ∨
        Design.Tokens.isComplete s.tokens = false ∧ s.revision ≠ Session.lastRevision ∧
          s.refreshed now = t := by
  unfold completed
  cases complete : Design.Tokens.isComplete s.tokens with
  | true => simp
  | false =>
    by_cases last : s.revision = Session.lastRevision
    · have uncounted : (s.renew now).count? = none := Session.count?_eq_none_iff.mpr last
      simp [uncounted, last]
    · have counted : (s.renew now).count? = some (s.refreshed now) :=
        Session.count?_eq_some_iff.mpr ⟨last, (Session.refreshed_of_ne last now).symm⟩
      simp [counted, last]

/-- What a snapshot is stored as, if it is accepted and does not break off. -/
def accept (s : Session) (now : Timestamp) : Except Failure (Option Session) :=
  if Text.trim s.id = "" then .error .emptyId
  else if s.updatedAt < s.createdAt then .error (.updatedBeforeCreated s.id)
  else .ok (completed (withContext s) now)

/-- A snapshot is put into the registry as what it is stored as, and nothing else is done. -/
theorem install_eq (r : Registry) (s : Session) (now : Timestamp) :
    r.install s now =
      match accept s now with
      | .ok (some t) => .ok (t, r.put t)
      | .ok none => .brokenOff r
      | .error f => .error f := by
  unfold install accept completed Session.refresh withContext
  by_cases blank : Text.trim s.id = ""
  · simp only [if_pos blank]
  by_cases times : s.updatedAt < s.createdAt
  · simp only [if_neg blank, if_pos times]
  simp only [if_neg blank, if_neg times]
  generalize (if Text.trim s.context = "" then _ else s) = t
  by_cases complete : Design.Tokens.isComplete t.tokens = true
  · simp only [if_pos complete]
  · simp only [if_neg complete]
    cases (t.renew now).count? <;> rfl

/-- What a snapshot is stored as. -/
theorem install_eq_ok {r r' : Registry} (h : r.install s now = .ok (t, r')) :
    accept s now = .ok (some t) ∧ r' = r.put t := by
  rw [install_eq] at h
  split at h
  next t' accepted =>
    obtain ⟨rfl, rfl⟩ := Prod.mk.inj (Result.ok.inj h)
    exact ⟨accepted, rfl⟩
  · cases h
  · cases h

theorem install_eq_error_iff {r : Registry} {f : Failure} :
    r.install s now = .error f ↔ accept s now = .error f := by
  rw [install_eq]
  cases accept s now with
  | error g => exact ⟨fun h => congrArg _ (Result.error.inj h), fun h => by rw [Except.error.inj h]⟩
  | ok stored =>
    constructor
    · intro h
      cases stored <;> cases h
    · intro h
      cases h

theorem install_of_accept (h : accept s now = .ok (some t)) (r : Registry) :
    r.install s now = .ok (t, r.put t) := by
  rw [install_eq, h]

/-- A snapshot is accepted when its id is not blank and its times are in order. -/
theorem accept_eq_ok_iff {stored : Option Session} :
    accept s now = .ok stored ↔
      Text.trim s.id ≠ "" ∧ s.createdAt ≤ s.updatedAt ∧ completed (withContext s) now = stored := by
  unfold accept
  by_cases blank : Text.trim s.id = ""
  · simp [blank]
  · by_cases times : s.updatedAt < s.createdAt
    · simp [blank, times, ← Timestamp.not_lt]
    · simp [blank, times, ← Timestamp.not_lt]

/-- An accepted snapshot is stored complete as it came or, behind an update, as it was made. -/
theorem stored_of_accept (h : accept s now = .ok (some t)) :
    s.createdAt ≤ s.updatedAt ∧
      (Design.Tokens.isComplete s.tokens = true ∧ t = withContext s ∨
        Design.Tokens.isComplete s.tokens = false ∧ t = (withContext s).refreshed now) := by
  obtain ⟨-, times, stored⟩ := accept_eq_ok_iff.mp h
  rw [completed_eq_some_iff, tokens_withContext] at stored
  obtain ⟨complete, rfl⟩ | ⟨incomplete, -, rfl⟩ := stored
  · exact ⟨times, .inl ⟨complete, rfl⟩⟩
  · exact ⟨times, .inr ⟨incomplete, rfl⟩⟩

theorem id_of_accept (h : accept s now = .ok (some t)) : t.id = s.id := by
  obtain ⟨-, ⟨-, rfl⟩ | ⟨-, rfl⟩⟩ := stored_of_accept h
  · exact id_withContext s
  · rw [Session.id_refreshed, id_withContext]

/-- What is done to the session under one id: an answer, and the session that is there behind it. -/
structure Action where
  id : String
  act : Option Session → Answer × Option Session

namespace Operation

/-- The one id that an operation on a single session concerns. -/
def target? : Operation → Option String
  | create id _ _ _ | getOrCreate id _ _ | update id _ _ | delete id => some id
  | install s _ => some s.id
  | clear | get _ | tokens _ | snapshot _ | list | size => none

/-- The action that an operation on a single session is. -/
def action? : Operation → Option Action
  | create id context platform now =>
    some ⟨id, fun _ =>
      let s := Session.make id (context.getD Session.defaultContext) platform now
      (.session s, some s)⟩
  | getOrCreate id context now =>
    some ⟨id, fun there =>
      let s := there.getD (Session.make id context .web now)
      (.session s, some s)⟩
  | update id u now =>
    some ⟨id, fun
      | some s =>
        let t := (u.change s).refreshed now
        (if s.revision = Session.lastRevision then .brokenOff else .session t, some t)
      | none => (.failure (.notFound id), none)⟩
  | delete id => some ⟨id, fun there => (.removed there.isSome, none)⟩
  | install s now =>
    some ⟨s.id, fun there =>
      match accept s now with
      | .ok (some s) => (.session s, some s)
      | .ok none => (.brokenOff, there)
      | .error f => (.failure f, there)⟩
  | clear | get _ | tokens _ | snapshot _ | list | size => none

theorem target?_eq (o : Operation) : o.target? = o.action?.map (·.id) := by
  cases o <;> rfl

end Operation

/-- The registry with the session under one id put there or, without a session, removed. -/
def assign (r : Registry) (id : String) (s : Option Session) : Registry :=
  ⟨r.sessions.assign id s⟩

@[simp] theorem get?_assign_self (r : Registry) (id : String) (s : Option Session) :
    (r.assign id s).get? id = s :=
  Table.get?_assign_self r.sessions id s

theorem get?_assign_of_ne (r : Registry) {id k : String} (s : Option Session) (h : k ≠ id) :
    (r.assign id s).get? k = r.get? k :=
  Table.get?_assign_of_ne r.sessions s h

theorem assign_get? (r : Registry) (id : String) : r.assign id (r.get? id) = r := by
  rw [assign, get?, Table.assign_get?]

theorem assign_of_get? {r : Registry} {id : String} {s : Option Session} (h : r.get? id = s) :
    r.assign id s = r := by
  rw [← h, assign_get?]

theorem assign_comm (r : Registry) {id id' : String} (h : id ≠ id') (s s' : Option Session) :
    (r.assign id s).assign id' s' = (r.assign id' s').assign id s := by
  simp only [assign, Table.assign_comm _ h]

/-- An operation on a single session answers from that session and changes nothing else. -/
theorem apply_eq {o : Operation} {a : Action} (h : o.action? = some a) (r : Registry) :
    r.apply o = ((a.act (r.get? a.id)).1, r.assign a.id (a.act (r.get? a.id)).2) := by
  cases o with
  | create id context platform now => cases h; rfl
  | getOrCreate id context now =>
    cases h
    simp only [apply, getOrCreate]
    cases hs : r.get? id with
    | none => rfl
    | some s => rw [Option.getD_some, assign_of_get? hs]
  | update id u now =>
    cases h
    simp only [apply, Update.perform_eq, update]
    cases hs : r.get? id with
    | none => rw [assign_of_get? hs]; rfl
    | some s =>
      dsimp only
      have same : (u.change s).revision = s.revision := u.revision_change s
      by_cases last : s.revision = Session.lastRevision
      · rw [Session.refresh_of_eq (same.trans last), if_pos last]
        rfl
      · rw [Session.refresh_of_ne (same ▸ last), if_neg last]
        rfl
  | delete id => cases h; rfl
  | install s now =>
    cases h
    simp only [apply, install_eq]
    cases hs : accept s now with
    | error f => rw [assign_get?]; rfl
    | ok stored =>
      cases stored with
      | none => rw [assign_get?]; rfl
      | some t =>
        have id : t.id = s.id := id_of_accept hs
        simp only [settle, put, assign, Table.assign, id]
  | _ => cases h

/-- A request answers with the session that is there, or makes one. -/
theorem apply_getOrCreate (r : Registry) (id context : String) (now : Timestamp) :
    r.apply (.getOrCreate id context now) =
      (.session ((r.get? id).getD (.make id context .web now)),
        r.assign id (some ((r.get? id).getD (.make id context .web now)))) :=
  apply_eq (o := .getOrCreate id context now) rfl r

/-- An update of a session that is there stores the updated session and answers with it, if its
revision is not the last one. -/
theorem apply_update {r : Registry} {id : String} {s : Session} (h : r.get? id = some s)
    (u : Update) (now : Timestamp) :
    r.apply (.update id u now) =
      (if s.revision = Session.lastRevision then .brokenOff
        else .session ((u.change s).refreshed now),
        r.assign id (some ((u.change s).refreshed now))) := by
  rw [apply_eq rfl]
  dsimp only
  rw [h]

/-- What an update answers with, and when. -/
theorem answer_update_iff {r : Registry} {id : String} (h : r.get? id = some s) (u : Update)
    (now : Timestamp) :
    (r.apply (.update id u now)).1 = .session t ↔
      s.revision ≠ Session.lastRevision ∧ (u.change s).refreshed now = t := by
  rw [apply_update h]
  by_cases last : s.revision = Session.lastRevision
  · simp [last]
  · simp [last]

theorem get?_apply_of_action {o : Operation} {a : Action} (h : o.action? = some a) (r : Registry)
    (k : String) : (r.apply o).2.get? k = if a.id = k then (a.act (r.get? k)).2 else r.get? k := by
  rw [apply_eq h]
  by_cases hk : a.id = k
  · subst hk
    rw [if_pos rfl, get?_assign_self]
  · rw [if_neg hk, get?_assign_of_ne _ _ (Ne.symm hk)]

theorem get?_run_install (h : accept s now = .ok (some t)) :
    (run [.install s now]).get? s.id = some t := by
  have acted : (run [.install s now]).get? s.id = _ := get?_apply_of_action rfl empty s.id
  rw [acted, if_pos rfl]
  dsimp only
  rw [h]

/-- How the session that an operation leaves under an id came there. -/
inductive Arises (r : Registry) (id : String) : Operation → Session → Prop
  | kept {o s} (h : r.get? id = some s) : Arises r id o s
  | created {context platform now} : Arises r id (.create id context platform now)
      (.make id (context.getD Session.defaultContext) platform now)
  | requested {context now} : Arises r id (.getOrCreate id context now) (.make id context .web now)
  | updated {t u now} (h : r.get? id = some t) :
      Arises r id (.update id u now) ((u.change t).refreshed now)
  | installed {snapshot s now} (hid : snapshot.id = id) (h : accept snapshot now = .ok (some s)) :
      Arises r id (.install snapshot now) s

/-- What stands under an id behind an operation stood there before, or the operation acted on it. -/
theorem get?_apply_cases {o : Operation} {a : Action} {r : Registry} {id : String} {s : Session}
    (ha : o.action? = some a) (h : (r.apply o).2.get? id = some s) :
    r.get? id = some s ∨ a.id = id ∧ (a.act (r.get? id)).2 = some s := by
  rw [get?_apply_of_action ha] at h
  by_cases hid : a.id = id
  · rw [if_pos hid] at h
    exact .inr ⟨hid, h⟩
  · rw [if_neg hid] at h
    exact .inl h

theorem arises_of_get? {r : Registry} {o : Operation} {id : String} {s : Session}
    (h : (r.apply o).2.get? id = some s) : Arises r id o s := by
  cases o with
  | create id' context platform now =>
    obtain kept | ⟨hid, acted⟩ := get?_apply_cases rfl h
    · exact .kept kept
    · obtain rfl : id' = id := hid
      obtain rfl := Option.some.inj acted
      exact .created
  | getOrCreate id' context now =>
    obtain kept | ⟨hid, acted⟩ := get?_apply_cases rfl h
    · exact .kept kept
    · obtain rfl : id' = id := hid
      obtain rfl := Option.some.inj acted
      cases there : r.get? id' with
      | none => exact .requested
      | some t => exact .kept there
  | update id' u now =>
    obtain kept | ⟨hid, acted⟩ := get?_apply_cases rfl h
    · exact .kept kept
    · obtain rfl : id' = id := hid
      cases there : r.get? id' with
      | none => rw [there] at acted; cases acted
      | some t =>
        rw [there] at acted
        obtain rfl := Option.some.inj acted
        exact .updated there
  | delete id' =>
    obtain kept | ⟨-, acted⟩ := get?_apply_cases rfl h
    · exact .kept kept
    · cases acted
  | install t now =>
    obtain kept | ⟨hid, acted⟩ := get?_apply_cases rfl h
    · exact .kept kept
    · dsimp only at acted
      cases accepted : accept t now with
      | error f => rw [accepted] at acted; exact .kept acted
      | ok stored =>
        rw [accepted] at acted
        cases stored with
        | none => exact .kept acted
        | some t' =>
          obtain rfl := Option.some.inj acted
          exact .installed hid accepted
  | clear => cases h
  | get id' | tokens id' | snapshot id' | list | size => exact .kept h

end Registry

end Wireframe
