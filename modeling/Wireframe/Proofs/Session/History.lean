import Wireframe.Proofs.Session.Frame

/-!
# Sessions told by their histories

`history id os` is what a run without snapshots did to one id: how its session was created, and
every update of it behind that, with its time. `Life.session` is the session of such a history in
closed form: the context that was set last, the values set by hand in order, the design of these,
and a revision for every update that is counted. `reports_history` is the main statement: whatever a
registry tells about an id is the session of its history.
-/

namespace Wireframe.Registry

/-- The context that an update sets. -/
def Update.context? : Update → Option String
  | context c => some c
  | refresh | override _ => none

/-- The values that an update sets by hand. -/
def Update.values : Update → List (String × String)
  | override values => values.entries
  | context _ | refresh => []

/-- How a session was created, and the updates of it in order, each with its time. -/
structure Life where
  context : String
  platform : Platform
  createdAt : Timestamp
  updates : List (Update × Timestamp)

namespace Life

/-- The context that was set last. -/
def lastContext (l : Life) : String :=
  (l.updates.filterMap (·.1.context?)).getLast?.getD l.context

/-- All values set by hand, a later one in the place of an earlier one with its name. -/
def overrides (l : Life) : Table String :=
  .ofList (l.updates.flatMap (·.1.values))

/-- The time of the last update. -/
def lastTime (l : Life) : Timestamp :=
  (l.updates.map (·.2)).getLast?.getD l.createdAt

/-- The number of updates that are counted: all of them up to the last revision. -/
def counted (l : Life) : Nat :=
  min l.updates.length (UInt64.size - 1)

/-- The session of a history. -/
def session (id : String) (l : Life) : Session where
  id := id
  context := l.lastContext
  platform := l.platform
  overrides := l.overrides
  tokens := Design.Params.tokens ⟨l.lastContext, some id, l.platform, l.overrides⟩
  createdAt := l.createdAt
  updatedAt := l.lastTime
  revision := UInt64.ofNat l.counted
  status := if l.updates.length = 0 then .active else .updated

/-- The history with one more update. -/
def add (l : Life) (u : Update) (now : Timestamp) : Life :=
  { l with updates := l.updates ++ [(u, now)] }

theorem lastContext_add (l : Life) (u : Update) (now : Timestamp) :
    (l.add u now).lastContext = u.context?.getD l.lastContext := by
  simp only [lastContext, add, List.filterMap_append]
  cases u <;> simp [Update.context?]

theorem overrides_add (l : Life) (u : Update) (now : Timestamp) :
    (l.add u now).overrides = l.overrides.insertAll u.values := by
  simp only [overrides, add, List.flatMap_append, Table.ofList, Table.insertAll_append,
    List.flatMap_singleton]

theorem lastTime_add (l : Life) (u : Update) (now : Timestamp) : (l.add u now).lastTime = now := by
  simp [lastTime, add]

theorem ofNat_counted_eq_lastRevision_iff (l : Life) :
    UInt64.ofNat l.counted = Session.lastRevision ↔ UInt64.size - 1 ≤ l.updates.length := by
  rw [← UInt64.toNat_inj, UInt64.toNat_ofNat']
  simp only [Session.lastRevision, counted, UInt64.size, UInt64.toNat_ofNat]
  omega

/-- One more update of a history is one more update of its session. -/
theorem session_add (id : String) (l : Life) (u : Update) (now : Timestamp) :
    (l.add u now).session id = (u.change (l.session id)).refreshed now := by
  have length : (l.add u now).updates.length = l.updates.length + 1 := by simp [add]
  by_cases last : UInt64.size - 1 ≤ l.updates.length
  · -- the session has been updated before, and is so still
    have revision : (l.session id).revision = Session.lastRevision :=
      (ofNat_counted_eq_lastRevision_iff l).mpr last
    have same : (l.add u now).counted = l.counted := by
      rw [counted, counted, length, Nat.min_eq_right last, Nat.min_eq_right (by omega)]
    have updated : ¬ l.updates.length = 0 := by
      simp only [UInt64.size] at last
      omega
    rw [Session.refreshed_of_eq (by rw [u.revision_change, revision])]
    simp only [session, lastContext_add, overrides_add, lastTime_add, same, length,
      Nat.add_one_ne_zero, if_neg updated, if_false]
    cases u <;> rfl
  · have revision : (l.session id).revision ≠ Session.lastRevision :=
      mt (ofNat_counted_eq_lastRevision_iff l).mp last
    have next : UInt64.ofNat (l.add u now).counted = UInt64.ofNat l.counted + 1 := by
      have more : (l.add u now).counted = l.counted + 1 := by
        rw [counted, counted, length, Nat.min_eq_left (by omega), Nat.min_eq_left (by omega)]
      rw [more, UInt64.ofNat_add]
      rfl
    rw [Session.refreshed_of_ne (by rwa [u.revision_change])]
    simp only [session, lastContext_add, overrides_add, lastTime_add, next, length,
      Nat.add_one_ne_zero, if_false]
    cases u <;> rfl

end Life

/-- The history of an id behind one more operation. Only what creates a session begins a history,
and an update goes into it when there is a session to update. -/
def Operation.tell (id : String) (told : Option Life) : Operation → Option Life
  | create id' context platform now =>
    if id' = id then some ⟨context.getD Session.defaultContext, platform, now, []⟩ else told
  | getOrCreate id' context now =>
    if id' = id then some (told.getD ⟨context, .web, now, []⟩) else told
  | update id' u now => if id' = id then told.map (·.add u now) else told
  | delete id' => if id' = id then none else told
  | clear => none
  | install _ _ | get _ | tokens _ | snapshot _ | list | size => told

/-- The history of an id in a run. -/
def history (id : String) (os : List Operation) : Option Life :=
  os.foldl (Operation.tell id) none

/-- Whether an operation puts a snapshot into the registry. -/
def Operation.installs : Operation → Bool
  | install _ _ => true
  | _ => false

theorem get?_apply_of_told {r : Registry} {id : String} {told : Option Life} {o : Operation}
    (h : r.get? id = told.map (Life.session id)) (ho : o.installs = false) :
    (r.apply o).2.get? id = (o.tell id told).map (Life.session id) := by
  cases o with
  | create id' context platform now =>
    rw [get?_apply_of_action rfl, h]
    simp only [Operation.tell]
    split
    · subst_vars; rfl
    · rfl
  | getOrCreate id' context now =>
    rw [get?_apply_of_action rfl, h]
    simp only [Operation.tell]
    split
    · subst_vars
      cases told <;> rfl
    · rfl
  | update id' u now =>
    rw [get?_apply_of_action rfl, h]
    simp only [Operation.tell]
    split
    · cases told with
      | none => rfl
      | some l => simp only [Option.map_some, Life.session_add]
    · rfl
  | delete id' =>
    rw [get?_apply_of_action rfl, h]
    simp only [Operation.tell]
    split <;> rfl
  | clear => rfl
  | install s now => cases ho
  | get id' | tokens id' | snapshot id' | list | size => exact h

theorem get?_run {os : List Operation} (h : ∀ o ∈ os, o.installs = false) (id : String) :
    (run os).get? id = (history id os).map (Life.session id) := by
  induction os using List.reverseRecOn with
  | nil => rfl
  | append_singleton os o ih =>
    rw [List.forall_mem_append, List.forall_mem_singleton] at h
    rw [run_concat, history, List.foldl_append]
    exact get?_apply_of_told (ih h.1) h.2

/-- The one session with an id stands once in the list. -/
theorem filter_list {r : Registry} (h : Keyed r) (id : String) :
    r.list.filter (·.id = id) = (r.get? id).toList := by
  have keys : r.sessions.entries.filter (fun e => e.2.id = id) =
      r.sessions.entries.filter (fun e => e.1 = id) := by
    refine List.filter_congr fun e he => ?_
    rw [h e.1 e.2 (Table.mem_entries_iff.mp he)]
  have values : r.sessions.values.filter (·.id = id) = (r.get? id).toList := by
    have split : r.sessions.values.filter (·.id = id) =
        (r.sessions.entries.filter fun e => e.2.id = id).map (·.2) := List.filter_map
    rw [split, keys, Table.filter_entries, get?]
    cases r.sessions.get? id <;> rfl
  have perm : (r.list.filter (·.id = id)).Perm (r.get? id).toList := by
    rw [← values]
    exact (List.mergeSort_perm _ _).filter _
  cases hs : r.get? id with
  | none => rw [hs] at perm; exact perm.eq_nil
  | some s => rw [hs] at perm; exact perm.eq_singleton

/-- Behind a run without snapshots, all that is told about an id is the session of its history. -/
theorem reports_history {os : List Operation} (h : ∀ o ∈ os, o.installs = false) (id : String) :
    let r := run os
    let told := (history id os).map (Life.session id)
    r.get? id = told ∧
    r.tokens? id = told.map (·.tokens) ∧
    r.snapshot id = told.elim (.error (.notFound id)) .ok ∧
    r.list.filter (·.id = id) = told.toList := by
  intro r told
  have got : r.get? id = told := get?_run h id
  refine ⟨got, ?_, ?_, ?_⟩
  · rw [tokens?, got]
  · rw [snapshot, got]
    cases told <;> rfl
  · rw [filter_list (keyed_run os), got]

theorem reports_history_cart :
    let os : List Operation :=
      [.getOrCreate "cart" "shop" ⟨1, 0⟩, .update "cart" (.context "bank") ⟨2, 0⟩, .delete "cart",
        .create "cart" none .mobile ⟨3, 0⟩, .update "menu" .refresh ⟨4, 0⟩,
        .update "cart" (.override (.ofList [("radius-sm", "2px")])) ⟨5, 0⟩]
    (∀ o ∈ os, o.installs = false) ∧
    (run os).get? "cart" = some (Life.session "cart"
      ⟨"default", .mobile, ⟨3, 0⟩, [(.override (.ofList [("radius-sm", "2px")]), ⟨5, 0⟩)]⟩) := by
  intro os
  have plain : ∀ o ∈ os, o.installs = false := by simp [os, Operation.installs]
  exact ⟨plain, (reports_history plain "cart").1⟩

end Wireframe.Registry
