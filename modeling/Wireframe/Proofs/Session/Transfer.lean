import Wireframe.Proofs.Design.Schema
import Wireframe.Proofs.Session.Clock
import Wireframe.Proofs.Session.Completeness
import Wireframe.Proofs.Session.History

/-!
# Snapshots taken from one registry to another

A snapshot is put into a registry as it is when its id and its context are not blank, its times are
in order and its tokens complete. The times of a run are in order when its clock does not go back,
so the other three conditions decide which sessions of such a run can be taken over unchanged
(`install_snapshot_iff`). The operations that make and update sessions check none of them
(`snapshots_changed`).
-/

namespace Wireframe.Registry

/-- What makes a snapshot with its times in order one that is stored unchanged. -/
structure Portable (s : Session) : Prop where
  id : Text.trim s.id ≠ ""
  context : Text.trim s.context ≠ ""
  complete : Design.Tokens.isComplete s.tokens = true

theorem accept_of_portable {s : Session} (h : Portable s) (times : s.createdAt ≤ s.updatedAt)
    (now : Timestamp) : accept s now = .ok (some s) := by
  have context : withContext s = s := if_neg h.context
  have complete : completed s now = some s := if_pos h.complete
  exact accept_eq_ok_iff.mpr ⟨h.id, times, by rw [context, complete]⟩

theorem portable_of_accept {s : Session} {now : Timestamp} (h : accept s now = .ok (some s)) :
    Portable s := by
  obtain ⟨id, -, stored⟩ := accept_eq_ok_iff.mp h
  rw [completed_eq_some_iff, tokens_withContext] at stored
  obtain ⟨complete, kept⟩ | ⟨-, counted, made⟩ := stored
  · have context : Text.trim s.context ≠ "" := by
      intro blank
      have default : s.context = Session.defaultContext := by
        rw [← kept, withContext, if_pos blank]
      rw [default] at blank
      exact absurd blank (by decide)
    exact ⟨id, context, complete⟩
  · -- Tokens that are made anew count a revision.
    rw [Session.refreshed_of_ne counted] at made
    have next : (withContext s).revision + 1 = s.revision := congrArg Session.revision made
    rw [revision_withContext] at next
    exact absurd next (by simp)

/-- A snapshot that comes back unchanged is portable. -/
theorem portable_of_install {r r' : Registry} {s : Session} {now : Timestamp}
    (h : r.install s now = .ok (s, r')) : Portable s :=
  portable_of_accept (install_eq_ok h).1

theorem install_of_portable {s : Session} (h : Portable s) (times : s.createdAt ≤ s.updatedAt)
    (r : Registry) (now : Timestamp) : r.install s now = .ok (s, r.put s) :=
  install_of_accept (accept_of_portable h times now) r

/-- A clock that does not go back leaves the times of every session in order. -/
theorem createdAt_le_updatedAt {os : List Operation} (h : ∀ o ∈ os, o.installs = false)
    (clock : (times os).Pairwise (· ≤ ·)) {id : String} {s : Session}
    (hs : (run os).get? id = some s) : s.createdAt ≤ s.updatedAt := by
  obtain passed | ⟨snapshot, now, mem, -⟩ := passed_or_ahead clock hs
  · exact passed.ordered
  · cases h _ mem

/-- The snapshot of a session from a run whose clock did not go back is taken over unchanged by
every registry if neither its id nor its context is blank and its tokens are complete, and by none
otherwise. -/
theorem install_snapshot_iff {os : List Operation} (plain : ∀ o ∈ os, o.installs = false)
    (clock : (times os).Pairwise (· ≤ ·)) {id : String} {s : Session}
    (hs : (run os).get? id = some s) (there : Registry) (now : Timestamp) :
    (run os).snapshot id = .ok s ∧
    ((∃ r, there.install s now = .ok (s, r) ∧ r.get? id = some s) ↔
      Text.trim id ≠ "" ∧ Text.trim s.context ≠ "" ∧
        Design.Tokens.isComplete s.tokens = true) := by
  refine ⟨by rw [snapshot, hs], ?_⟩
  obtain rfl := keyed_run os id s hs
  constructor
  · rintro ⟨r, hr, -⟩
    have portable := portable_of_install hr
    exact ⟨portable.id, portable.context, portable.complete⟩
  · rintro ⟨id, context, complete⟩
    have times : s.createdAt ≤ s.updatedAt := createdAt_le_updatedAt plain clock hs
    exact ⟨there.put s, install_of_portable ⟨id, context, complete⟩ times there now,
      Table.get?_insert_self there.sessions s.id s⟩

/-- A registry with another session under its id takes over the one snapshot and refuses the one
whose context was made blank. -/
theorem install_snapshot_iff_cart :
    let os : List Operation :=
      [.getOrCreate "cart" "shop" ⟨1, 0⟩, .update "cart" (.context "") ⟨2, 0⟩,
        .getOrCreate "menu" "shop" ⟨3, 0⟩]
    let there := run [.create "menu" none .mobile ⟨0, 0⟩]
    (∀ o ∈ os, o.installs = false) ∧ (times os).Pairwise (· ≤ ·) ∧
    (∃ s, (run os).get? "menu" = some s ∧
      ∃ r, there.install s ⟨4, 0⟩ = .ok (s, r) ∧ r.get? "menu" = some s) ∧
    ∃ s, (run os).get? "cart" = some s ∧
      ¬ ∃ r, there.install s ⟨4, 0⟩ = .ok (s, r) ∧ r.get? "cart" = some s := by
  intro os there
  have plain : ∀ o ∈ os, o.installs = false := by simp [os, Operation.installs]
  have clock : (times os).Pairwise (· ≤ ·) := by
    simp [os, times, Operation.time?, Timestamp.le_def]
  obtain ⟨s, hs⟩ : ∃ s, (run os).get? "cart" = some s := ⟨_, rfl⟩
  have blank : s.context = "" := by
    obtain rfl := Option.some.inj hs
    rfl
  have menu : (run os).get? "menu" = some (.make "menu" "shop" .web ⟨3, 0⟩) := rfl
  refine ⟨plain, clock, ⟨_, menu, ?_⟩, s, hs, ?_⟩
  · have complete : Design.Tokens.isComplete (Session.make "menu" "shop" .web ⟨3, 0⟩).tokens =
        true := Design.Params.isComplete_tokens fun _ hv => absurd hv List.not_mem_nil
    exact (install_snapshot_iff plain clock menu there ⟨4, 0⟩).2.mpr
      ⟨by decide, by decide, complete⟩
  · rw [(install_snapshot_iff plain clock hs there ⟨4, 0⟩).2, blank]
    rintro ⟨-, context, -⟩
    exact context rfl

/-- No registry takes over unchanged the snapshot of a session with a blank id, with a blank
context, or with a dimension whose tokens were all set to empty texts. -/
theorem snapshots_changed :
    (∃ s, (run [.getOrCreate "" "shop" ⟨1, 0⟩]).snapshot "" = .ok s ∧
      ¬ ∃ r, empty.install s ⟨3, 0⟩ = .ok (s, r)) ∧
    (∃ s, (run [.getOrCreate "cart" " " ⟨1, 0⟩]).snapshot "cart" = .ok s ∧
      ¬ ∃ r, empty.install s ⟨3, 0⟩ = .ok (s, r)) ∧
    ∃ s, (run [.getOrCreate "cart" "shop" ⟨1, 0⟩,
        .update "cart" (.override blankShapes) ⟨2, 0⟩]).snapshot "cart" = .ok s ∧
      ¬ ∃ r, empty.install s ⟨3, 0⟩ = .ok (s, r) := by
  refine ⟨⟨_, rfl, ?_⟩, ⟨_, rfl, ?_⟩, _, by rw [snapshot, get?_run_blanked], ?_⟩
  · rintro ⟨r, hr⟩
    exact (portable_of_install hr).id rfl
  · rintro ⟨r, hr⟩
    exact absurd (portable_of_install hr).context (by decide)
  · rintro ⟨r, hr⟩
    have complete := (portable_of_install hr).complete
    rw [isComplete_refreshed_of_blankShapes insertAll_blankShapes] at complete
    cases complete

end Wireframe.Registry
