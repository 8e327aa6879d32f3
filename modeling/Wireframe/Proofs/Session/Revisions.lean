import Wireframe.Proofs.Session.Operation

/-!
# Revisions of stored sessions

An update of a stored session counts one revision, unless the session has the last revision already:
then it breaks off half-way (`update_counts`). A snapshot may come with that revision, so it takes
two operations to get there (`last_revision_breaks_off`). Nothing else breaks off but the putting of
such a snapshot whose tokens have to be made anew (`install_eq_brokenOff_iff`).
-/

namespace Wireframe.Registry

variable {s : Session} {now : Timestamp}

theorem lt_lastRevision_iff (n : UInt64) :
    n.toNat + 1 < UInt64.size ↔ n ≠ Session.lastRevision := by
  rw [ne_eq, ← UInt64.toNat_inj]
  have bound : n.toNat < UInt64.size := n.toNat_lt_size
  simp only [UInt64.size, Session.lastRevision, UInt64.toNat_ofNat] at bound ⊢
  omega

theorem toNat_add_one {n : UInt64} (h : n ≠ Session.lastRevision) :
    (n + 1).toNat = n.toNat + 1 := by
  rw [UInt64.toNat_add]
  exact Nat.mod_eq_of_lt ((lt_lastRevision_iff n).mpr h)

/-- The revision of a session behind an update, counted or not, as a number. -/
theorem toNat_revision_refreshed (s : Session) (now : Timestamp) :
    (s.refreshed now).revision.toNat = min (s.revision.toNat + 1) (UInt64.size - 1) := by
  by_cases last : s.revision = Session.lastRevision
  · rw [Session.refreshed_of_eq last]
    rw [Session.revision_renew, last]
    decide
  · rw [Session.refreshed_of_ne last]
    have bound := (lt_lastRevision_iff s.revision).mpr last
    exact (toNat_add_one last).trans (Nat.min_eq_left (by omega)).symm

/-- An update breaks off just when the session that is there has the last revision, and leaves the
change and the new tokens in it. -/
theorem update_eq_brokenOff_iff {r left : Registry} {id : String} (h : r.get? id = some s)
    (u : Update) (now : Timestamp) :
    r.update id u.change now = .brokenOff left ↔
      s.revision = Session.lastRevision ∧ r.assign id (some ((u.change s).renew now)) = left := by
  have same : (u.change s).revision = s.revision := u.revision_change s
  rw [update, h]
  by_cases last : s.revision = Session.lastRevision
  · have reached : (u.change s).revision = Session.lastRevision := same.trans last
    simp only [Session.refresh_of_eq reached, Session.refreshed_of_eq reached, last, true_and,
      Result.brokenOff.injEq]
    rfl
  · simp [Session.refresh_of_ne (same ▸ last), last]

/-- To put a snapshot into a registry breaks off just when its tokens have to be made anew at the
last revision, and leaves the registry as it was. -/
theorem install_eq_brokenOff_iff {r left : Registry} :
    r.install s now = .brokenOff left ↔
      Text.trim s.id ≠ "" ∧ s.createdAt ≤ s.updatedAt ∧ Design.Tokens.isComplete s.tokens = false ∧
        s.revision = Session.lastRevision ∧ r = left := by
  have none : completed (withContext s) now = none ↔
      Design.Tokens.isComplete s.tokens = false ∧ s.revision = Session.lastRevision := by
    have uncounted : ((withContext s).renew now).count? = Option.none ↔
        s.revision = Session.lastRevision := by
      rw [Session.count?_eq_none_iff, Session.revision_renew, revision_withContext]
    rw [completed, tokens_withContext]
    cases complete : Design.Tokens.isComplete s.tokens with
    | true => simp
    | false => simp [uncounted]
  have breaks : r.install s now = .brokenOff left ↔ accept s now = .ok Option.none ∧ r = left := by
    rw [install_eq]
    rcases accept s now with f | (_ | t)
    · simp
    · simp
    · simp
  rw [breaks, accept_eq_ok_iff, none]
  simp only [and_assoc]

/-- Behind every run an update of a stored session that has not the last revision succeeds, whatever
it changes: the session that it answers with and stores is an updated one, and its revision is
greater by one. At the last revision no update succeeds. It gives no answer, and leaves the session
with the change, its tokens and the time new, but its revision and its status as they were. -/
theorem update_counts (os : List Operation) {id : String} {s : Session}
    (hs : (run os).get? id = some s) (u : Update) (now : Timestamp) :
    (s.revision ≠ Session.lastRevision →
      ∃ t r, (run os).apply (.update id u now) = (.session t, r) ∧ r.get? id = some t ∧
        t.status = .updated ∧ t.revision.toNat = s.revision.toNat + 1 ∧
        s.revision < t.revision) ∧
    (s.revision = Session.lastRevision →
      ∃ t r, (run os).apply (.update id u now) = (.brokenOff, r) ∧ r.get? id = some t ∧
        t = { u.change s with tokens := (u.change s).params.tokens, updatedAt := now } ∧
        t.status = s.status ∧ t.revision = s.revision) := by
  have revision : (u.change s).revision = s.revision := u.revision_change s
  refine ⟨fun counted => ?_, fun last => ?_⟩
  · have updated := Session.refreshed_of_ne (revision.symm ▸ counted) now
    have next : ((u.change s).refreshed now).revision.toNat = s.revision.toNat + 1 := by
      rw [updated, ← toNat_add_one counted, ← revision]
    refine ⟨_, _, by rw [apply_update hs, if_neg counted], get?_assign_self _ _ _, ?_, next, ?_⟩
    · rw [updated]
    · rw [UInt64.lt_iff_toNat_lt, next]
      exact Nat.lt_succ_self _
  · have left := Session.refreshed_of_eq (revision.trans last) now
    refine ⟨_, _, by rw [apply_update hs, if_pos last], get?_assign_self _ _ _, left, ?_, ?_⟩
    · rw [left]
      cases u <;> rfl
    · rw [left]
      exact revision

theorem update_counts_cart :
    let os : List Operation := [.getOrCreate "cart" "shop" ⟨1, 0⟩]
    ∃ s t r, (run os).get? "cart" = some s ∧ s.revision ≠ Session.lastRevision ∧
      (run os).apply (.update "cart" (.context "bank") ⟨2, 0⟩) = (.session t, r) ∧
      r.get? "cart" = some t ∧ t.status = .updated ∧ t.revision.toNat = 1 ∧
      s.revision < t.revision := by
  intro os
  have hs : (run os).get? "cart" = some (.make "cart" "shop" .web ⟨1, 0⟩) := rfl
  have first : (Session.make "cart" "shop" .web ⟨1, 0⟩).revision ≠ Session.lastRevision := by decide
  obtain ⟨t, r, updated, stored, status, revision, grows⟩ :=
    (update_counts os hs (.context "bank") ⟨2, 0⟩).1 first
  exact ⟨_, t, r, hs, first, updated, stored, status, revision, grows⟩

/-- A snapshot may be stored with the last revision, and an update of it breaks off. The session is
left with new tokens under its old revision. -/
theorem last_revision_breaks_off :
    let snapshot : Session :=
      { id := "cart", context := "shop", createdAt := ⟨1, 0⟩, updatedAt := ⟨1, 0⟩
        tokens := .ofList [("spacing-md", "16px"), ("type-scale", "major-third"),
          ("radius-md", "6px"), ("shadow-md", "none"), ("color-hue", "2")]
        revision := 18446744073709551615, status := .active }
    let r := run [.install snapshot ⟨2, 0⟩]
    r.get? "cart" = some snapshot ∧
      ∃ r', r.apply (.update "cart" .refresh ⟨3, 0⟩) = (.brokenOff, r') ∧
        r'.get? "cart" = some (snapshot.renew ⟨3, 0⟩) := by
  intro snapshot r
  have context : withContext snapshot = snapshot := if_neg (by decide)
  have complete : completed snapshot ⟨2, 0⟩ = some snapshot := if_pos (by decide +kernel)
  have accepted : accept snapshot ⟨2, 0⟩ = .ok (some snapshot) :=
    accept_eq_ok_iff.mpr ⟨by decide, Timestamp.le_refl _, by rw [context, complete]⟩
  have stored : r.get? "cart" = some snapshot := get?_run_install accepted
  have last : snapshot.revision = Session.lastRevision := rfl
  refine ⟨stored, _, by rw [apply_update stored, if_pos last], ?_⟩
  rw [get?_assign_self]
  exact congrArg some (Session.refreshed_of_eq last ⟨3, 0⟩)

end Wireframe.Registry
