import Wireframe.Proofs.Design.Completeness
import Wireframe.Proofs.Session.Frame

/-!
# Complete designs in registries

The tokens of a stored session are complete, or they are the design of what the session says
(`settled_run`). A design leaves out the dimensions that the values set by hand blank, and nothing
keeps a caller or a snapshot from blanking one. So the dimensions that stored sessions leave out are
known (`missing_iff_blanked`), and there can be some (`blanked_incomplete`).
-/

namespace Wireframe.Registry

open Design (Tokens Dimension)

/-- Tokens that are complete or made from what the session says. -/
def Settled (s : Session) : Prop :=
  Tokens.isComplete s.tokens = true ∨ s.tokens = s.params.tokens

theorem settled_of_accept {s t : Session} {now : Timestamp} (h : accept s now = .ok (some t)) :
    Settled t := by
  obtain ⟨-, ⟨complete, rfl⟩ | ⟨-, rfl⟩⟩ := stored_of_accept h
  · rw [← tokens_withContext] at complete
    exact .inl complete
  · exact .inr (Session.tokens_refreshed _ now)

theorem settled_apply {r : Registry} (h : ∀ id s, r.get? id = some s → Settled s) (o : Operation) :
    ∀ id s, (r.apply o).2.get? id = some s → Settled s := by
  intro id s hs
  cases arises_of_get? hs with
  | kept there => exact h id s there
  | created => exact .inr (Session.tokens_make ..)
  | requested => exact .inr (Session.tokens_make ..)
  | updated there => exact .inr (Session.tokens_refreshed ..)
  | installed hid accepted => exact settled_of_accept accepted

theorem settled_run (os : List Operation) : ∀ id s, (run os).get? id = some s → Settled s :=
  run_induction (P := fun r => ∀ id s, r.get? id = some s → Settled s)
    (fun _ _ h => nomatch h) (fun _ o h => settled_apply h o) os

theorem Settled.mem_missing_iff {s : Session} (h : Settled s) (d : Dimension) :
    d ∈ Tokens.missing s.tokens ↔ s.tokens = s.params.tokens ∧ s.params.Blanks d := by
  constructor
  · intro missing
    obtain complete | made := h
    · exact absurd missing (Tokens.isComplete_iff.mp complete d)
    · exact ⟨made, (Design.mem_missing_tokens_iff _ d).mp (made ▸ missing)⟩
  · rintro ⟨made, blanks⟩
    rw [made]
    exact (Design.mem_missing_tokens_iff _ d).mpr blanks

theorem mem_missing_accept {s t : Session} {now : Timestamp} (h : accept s now = .ok (some t))
    (d : Dimension) :
    d ∈ Tokens.missing t.tokens ↔ Tokens.isComplete s.tokens = false ∧ t.params.Blanks d := by
  obtain ⟨-, ⟨complete, rfl⟩ | ⟨incomplete, rfl⟩⟩ := stored_of_accept h
  · simpa [complete] using Tokens.isComplete_iff.mp complete d
  · rw [Session.tokens_refreshed, Design.mem_missing_tokens_iff]
    simp [incomplete]

/-- Empty texts for all names of the shapes. -/
def blankShapes : Table String :=
  .ofList (Design.ShapeStyle.names.map fun k => (k, ""))

theorem insertAll_blankShapes : Table.empty.insertAll blankShapes.entries = blankShapes :=
  Table.insertAll_entries fun _ _ => rfl

theorem blanks_of_blankShapes {p : Design.Params} (h : p.overrides = blankShapes) :
    p.Blanks .shape := by
  refine ⟨fun k hk hd => ?_, fun k v hv _ => ?_⟩
  · have all : ∀ k ∈ Design.touchTarget.1 :: Design.names, Dimension.of? k = some .shape →
        (blankShapes.get? k).isSome := by decide +kernel
    rw [h]
    exact all k (p.mem_names hk) hd
  · have empty : ∀ e ∈ blankShapes.entries, e.2 = "" := by decide
    rw [h] at hv
    exact empty (k, v) (Table.mem_entries_iff.mpr hv)

theorem isComplete_refreshed_of_blankShapes {s : Session} {now : Timestamp}
    (overrides : s.overrides = blankShapes) :
    Tokens.isComplete (s.refreshed now).tokens = false := by
  rw [Session.tokens_refreshed, Session.params_refreshed, ← Bool.not_eq_true,
    Tokens.isComplete_iff]
  intro none
  exact none .shape ((Design.mem_missing_tokens_iff _ _).mpr (blanks_of_blankShapes overrides))

/-- A snapshot without tokens that sets the names of the shapes to empty texts. -/
def blankSnapshot : Session where
  id := "cart"
  context := "shop"
  overrides := blankShapes
  tokens := .empty
  createdAt := ⟨1, 0⟩
  updatedAt := ⟨1, 0⟩
  status := .active

/-- A session whose names of the shapes are set to empty texts by hand. -/
theorem get?_run_blanked (id : String) :
    (run [.getOrCreate id "shop" ⟨1, 0⟩, .update id (.override blankShapes) ⟨2, 0⟩]).get? id =
      some (((Update.override blankShapes).change (.make id "shop" .web ⟨1, 0⟩)).refreshed
        ⟨2, 0⟩) := by
  have made : (run [.getOrCreate id "shop" ⟨1, 0⟩]).get? id =
      some (.make id "shop" .web ⟨1, 0⟩) := by
    change (empty.apply (.getOrCreate id "shop" ⟨1, 0⟩)).2.get? id = _
    rw [apply_getOrCreate, get?_assign_self]
    rfl
  change ((run [.getOrCreate id "shop" ⟨1, 0⟩]).apply (.update id _ ⟨2, 0⟩)).2.get? id = _
  rw [apply_update made, get?_assign_self]

/-- Behind every run a stored session leaves out just the dimensions that its own values set by hand
blank, and none of them when its tokens came with a snapshot and are not made anew. A snapshot that
is put into the registry leaves out no dimension when its tokens are complete, and otherwise again
those that its values set by hand blank. -/
theorem missing_iff_blanked (os : List Operation) :
    let r := run os
    (∀ id s d, r.get? id = some s →
      (d ∈ Tokens.missing s.tokens ↔ s.tokens = s.params.tokens ∧ s.params.Blanks d)) ∧
    ∀ snapshot now s r' d, r.install snapshot now = .ok (s, r') →
      r'.get? s.id = some s ∧
      (d ∈ Tokens.missing s.tokens ↔
        Tokens.isComplete snapshot.tokens = false ∧ s.params.Blanks d) := by
  intro r
  refine ⟨fun id s d hs => (settled_run os id s hs).mem_missing_iff d, ?_⟩
  intro snapshot now s r' d h
  obtain ⟨accepted, rfl⟩ := install_eq_ok h
  exact ⟨Table.get?_insert_self _ _ _, mem_missing_accept accepted d⟩

theorem missing_iff_blanked_shapes :
    let r := run [.getOrCreate "menu" "shop" ⟨1, 0⟩, .update "menu" (.override blankShapes) ⟨2, 0⟩]
    (∃ s, r.get? "menu" = some s ∧ Dimension.shape ∈ Tokens.missing s.tokens) ∧
    ∃ s r', r.install blankSnapshot ⟨3, 0⟩ = .ok (s, r') ∧ r'.get? s.id = some s ∧
      Dimension.shape ∈ Tokens.missing s.tokens := by
  intro r
  obtain ⟨stored, installed⟩ := missing_iff_blanked
    [.getOrCreate "menu" "shop" ⟨1, 0⟩, .update "menu" (.override blankShapes) ⟨2, 0⟩]
  have menu := get?_run_blanked "menu"
  have made : r.install blankSnapshot ⟨3, 0⟩ = .ok (blankSnapshot.refreshed ⟨3, 0⟩, _) :=
    install_of_accept rfl r
  refine ⟨⟨_, menu, ?_⟩, _, _, made, ?_⟩
  · exact (stored "menu" _ .shape menu).mpr
      ⟨Session.tokens_refreshed _ _, blanks_of_blankShapes insertAll_blankShapes⟩
  · obtain ⟨kept, missing⟩ := installed blankSnapshot ⟨3, 0⟩ _ _ .shape made
    exact ⟨kept, missing.mpr ⟨by decide, blanks_of_blankShapes rfl⟩⟩

/-- A caller can blank a dimension of a stored session, and a snapshot that blanks one is stored
without it. -/
theorem blanked_incomplete :
    (∃ s, (run [.getOrCreate "menu" "shop" ⟨1, 0⟩,
        .update "menu" (.override blankShapes) ⟨2, 0⟩]).get? "menu" = some s ∧
      Tokens.isComplete s.tokens = false) ∧
    ∃ s, (run [.install blankSnapshot ⟨2, 0⟩]).get? "cart" = some s ∧
      Tokens.isComplete s.tokens = false := by
  have accepted : accept blankSnapshot ⟨2, 0⟩ = .ok (some (blankSnapshot.refreshed ⟨2, 0⟩)) := rfl
  refine ⟨⟨_, get?_run_blanked "menu", ?_⟩, _, get?_run_install accepted, ?_⟩
  · exact isComplete_refreshed_of_blankShapes insertAll_blankShapes
  · exact isComplete_refreshed_of_blankShapes rfl

end Wireframe.Registry
