import Wireframe.Proofs.Session.Operation

/-!
# Times of stored sessions

A session takes its times from the clock readings of the run, or from the snapshot that it was
stored as. A clock that does not go back keeps the two in order, but for sessions from snapshots
that were made ahead of the clock (`passed_or_ahead`): the clock reading of an update comes before
their creation, and that of making their tokens anew when they are stored too (`ahead_rejected`).
-/

namespace Wireframe.Registry

/-- The clock reading that an operation comes with. -/
def Operation.time? : Operation → Option Timestamp
  | create _ _ _ now | getOrCreate _ _ now | update _ _ now | install _ now => some now
  | delete _ | clear | get _ | tokens _ | snapshot _ | list | size => none

/-- The clock readings of a run. -/
def times (os : List Operation) : List Timestamp :=
  os.filterMap Operation.time?

theorem times_concat (os : List Operation) (o : Operation) :
    times (os ++ [o]) = times os ++ o.time?.toList := by
  rw [times, List.filterMap_append]
  cases h : o.time? <;> simp [times, h]

/-- A session that goes back to a snapshot with a later time of creation than the clock reading at
which it was put into the registry. -/
def Ahead (os : List Operation) (id : String) (s : Session) : Prop :=
  ∃ snapshot now, .install snapshot now ∈ os ∧ snapshot.id = id ∧
    snapshot.createdAt = s.createdAt ∧ now < snapshot.createdAt

/-- A session with its times in order whose creation the clock has passed. -/
structure Passed (os : List Operation) (s : Session) : Prop where
  ordered : s.createdAt ≤ s.updatedAt
  reached : ∃ t ∈ times os, s.createdAt ≤ t

theorem Ahead.concat {os : List Operation} {id : String} {s t : Session} (h : Ahead os id s)
    (ht : t.createdAt = s.createdAt) (o : Operation) : Ahead (os ++ [o]) id t := by
  obtain ⟨snapshot, now, mem, hid, created, later⟩ := h
  exact ⟨snapshot, now, List.mem_append_left _ mem, hid, created.trans ht.symm, later⟩

theorem Passed.concat {os : List Operation} {s : Session} (h : Passed os s) (o : Operation) :
    Passed (os ++ [o]) s := by
  obtain ⟨t, mem, le⟩ := h.reached
  exact ⟨h.ordered, t, times_concat os o ▸ List.mem_append_left _ mem, le⟩

theorem passed_of_time {os : List Operation} {o : Operation} {s : Session} {now : Timestamp}
    (ho : o.time? = some now) (ordered : s.createdAt ≤ s.updatedAt) (h : s.createdAt ≤ now) :
    Passed (os ++ [o]) s := by
  refine ⟨ordered, now, ?_, h⟩
  rw [times_concat, ho]
  exact List.mem_append_right _ (List.mem_singleton_self now)

theorem createdAt_updated (s : Session) (u : Update) (now : Timestamp) :
    ((u.change s).refreshed now).createdAt = s.createdAt := by
  rw [Session.createdAt_refreshed, u.createdAt_change]

theorem createdAt_of_accept {s t : Session} {now : Timestamp} (h : accept s now = .ok (some t)) :
    t.createdAt = s.createdAt := by
  obtain ⟨-, ⟨-, rfl⟩ | ⟨-, rfl⟩⟩ := stored_of_accept h
  · exact createdAt_withContext s
  · rw [Session.createdAt_refreshed, createdAt_withContext]

/-- A snapshot that the clock has passed is stored with its times in order. -/
theorem ordered_of_accept {s t : Session} {now : Timestamp} (h : accept s now = .ok (some t))
    (passed : s.createdAt ≤ now) : t.createdAt ≤ t.updatedAt := by
  rw [createdAt_of_accept h]
  obtain ⟨ordered, ⟨-, rfl⟩ | ⟨-, rfl⟩⟩ := stored_of_accept h
  · rwa [updatedAt_withContext]
  · rwa [Session.updatedAt_refreshed]

theorem passed_or_ahead {os : List Operation} (clock : (times os).Pairwise (· ≤ ·)) {id : String}
    {s : Session} (hs : (run os).get? id = some s) : Passed os s ∨ Ahead os id s := by
  induction os using List.reverseRecOn generalizing s with
  | nil => cases hs
  | append_singleton os o ih =>
    rw [run_concat] at hs
    rw [times_concat] at clock
    obtain ⟨before, -, later⟩ := List.pairwise_append.mp clock
    cases arises_of_get? hs with
    | kept there => exact (ih before there).imp (·.concat o) (·.concat rfl o)
    | created => exact .inl (passed_of_time rfl (Timestamp.le_refl _) (Timestamp.le_refl _))
    | requested => exact .inl (passed_of_time rfl (Timestamp.le_refl _) (Timestamp.le_refl _))
    | @updated t u now there =>
      refine (ih before there).imp (fun passed => ?_) (·.concat (createdAt_updated t u now) _)
      obtain ⟨reading, mem, le⟩ := passed.reached
      have reached : ((u.change t).refreshed now).createdAt ≤ now :=
        createdAt_updated t u now ▸
          Timestamp.le_trans le (later reading mem now (List.mem_singleton_self now))
      refine passed_of_time rfl ?_ reached
      rwa [Session.updatedAt_refreshed]
    | @installed snapshot s now hid accepted =>
      by_cases ahead : now < snapshot.createdAt
      · exact .inr ⟨snapshot, now, List.mem_append_right _ (List.mem_singleton_self _), hid,
          (createdAt_of_accept accepted).symm, ahead⟩
      · have passed := Timestamp.not_lt.mp ahead
        exact .inl (passed_of_time rfl (ordered_of_accept accepted passed)
          (createdAt_of_accept accepted ▸ passed))

theorem install_of_unordered {r : Registry} {s : Session} {now : Timestamp}
    (named : Text.trim s.id ≠ "") (unordered : s.updatedAt < s.createdAt) :
    r.install s now = .error (.updatedBeforeCreated s.id) := by
  rw [install, if_neg named, if_pos unordered]

/-- A snapshot is refused for its times when they are not in order. -/
theorem install_eq_updatedBeforeCreated_iff (r : Registry) (s : Session) (now : Timestamp) :
    (∃ id, r.install s now = .error (.updatedBeforeCreated id)) ↔
      Text.trim s.id ≠ "" ∧ s.updatedAt < s.createdAt := by
  constructor
  · rintro ⟨id, h⟩
    have refused := install_eq_error_iff.mp h
    unfold accept at refused
    split at refused
    · cases refused
    · split at refused
      · exact ⟨‹_›, ‹_›⟩
      · cases refused
  · rintro ⟨named, unordered⟩
    exact ⟨s.id, install_of_unordered named unordered⟩

/-- Behind every run whose clock does not go back, the times of a stored session are in order
unless it goes back to a snapshot made ahead of the clock. An update leaves them in order just when
the clock has passed the creation, and a session with its times in order is never refused for
them. -/
theorem ordered_unless_ahead {os : List Operation} (clock : (times os).Pairwise (· ≤ ·))
    {id : String} {s : Session} (hs : (run os).get? id = some s) :
    (s.createdAt ≤ s.updatedAt ∨ Ahead os id s) ∧
    (∀ u now t, ((run os).apply (.update id u now)).1 = .session t →
      (t.createdAt ≤ t.updatedAt ↔ s.createdAt ≤ now)) ∧
    ∀ (there : Registry) now,
      (∃ id, there.install s now = .error (.updatedBeforeCreated id)) ↔
        Text.trim s.id ≠ "" ∧ s.updatedAt < s.createdAt := by
  refine ⟨(passed_or_ahead clock hs).imp_left (·.ordered), ?_, ?_⟩
  · intro u now t ht
    obtain ⟨-, rfl⟩ := (answer_update_iff hs u now).mp ht
    rw [createdAt_updated, Session.updatedAt_refreshed]
  · intro there now
    exact install_eq_updatedBeforeCreated_iff there s now

theorem ordered_unless_ahead_cart :
    let os : List Operation := [.getOrCreate "cart" "shop" ⟨1, 0⟩, .update "cart" .refresh ⟨2, 0⟩]
    (times os).Pairwise (· ≤ ·) ∧ ∃ s, (run os).get? "cart" = some s ∧ s.createdAt ≤ s.updatedAt ∧
      ¬ ∃ id, empty.install s ⟨3, 0⟩ = .error (.updatedBeforeCreated id) := by
  intro os
  have clock : (times os).Pairwise (· ≤ ·) := by
    simp [os, times, Operation.time?, Timestamp.le_def]
  obtain ⟨s, hs⟩ : ∃ s, (run os).get? "cart" = some s := ⟨_, rfl⟩
  obtain ⟨ordered | ⟨_, _, mem, -⟩, -, refused⟩ := ordered_unless_ahead clock hs
  · refine ⟨clock, s, hs, ordered, ?_⟩
    rw [refused]
    rintro ⟨-, unordered⟩
    exact Timestamp.not_lt.mpr ordered unordered
  · simp [os] at mem

/-- A snapshot without tokens that is made ahead of the clock is stored with its tokens made anew
before its creation, and the session cannot be put back. -/
theorem ahead_rejected :
    let snapshot : Session :=
      { id := "cart", context := "shop", tokens := .empty
        createdAt := ⟨9, 0⟩, updatedAt := ⟨9, 0⟩, status := .active }
    let r := run [.install snapshot ⟨1, 0⟩]
    ∃ s, r.get? "cart" = some s ∧ s.updatedAt < s.createdAt ∧
      r.install s ⟨2, 0⟩ = .error (.updatedBeforeCreated "cart") := by
  intro snapshot r
  have context : withContext snapshot = snapshot := if_neg (by decide)
  have made : completed snapshot ⟨1, 0⟩ = some (snapshot.refreshed ⟨1, 0⟩) :=
    completed_eq_some_iff.mpr (.inr ⟨by decide, by decide, rfl⟩)
  have accepted : accept snapshot ⟨1, 0⟩ = .ok (some (snapshot.refreshed ⟨1, 0⟩)) :=
    accept_eq_ok_iff.mpr ⟨by decide, Timestamp.le_refl _, by rw [context, made]⟩
  have unordered : (⟨1, 0⟩ : Timestamp) < ⟨9, 0⟩ := by decide
  exact ⟨_, get?_run_install accepted, unordered, install_of_unordered (by decide) unordered⟩

end Wireframe.Registry
