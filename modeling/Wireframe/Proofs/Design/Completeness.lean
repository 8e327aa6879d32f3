import Wireframe.Proofs.Design.Names

/-!
# Dimensions that a design leaves out

No token that a design derives from its categories is empty, on no platform
(`ne_empty_of_get?_derived`). Only values set by hand can be, and they go before all others. So a
design leaves out just the dimensions that the values set by hand blank: every token of the
dimension is set by hand, and none of them to a text (`mem_missing_tokens_iff`).
-/

namespace Wireframe

namespace Decimal

theorem magnitude_plain_ne_empty (d : Decimal) : Notation.plain.magnitude d ≠ "" := by
  simp only [Notation.magnitude, Notation.plain, ↓reduceIte]
  split
  · simp
  · split <;> simp

@[simp] theorem plainText_ne_empty (x : Float) : plainText x ≠ "" := by
  unfold plainText
  split
  · simp [Notation.write, magnitude_plain_ne_empty]
  · split
    · decide
    · split <;> decide

end Decimal

namespace Design

@[simp] theorem px_ne_empty (x : Float) : px x ≠ "" := by
  simp [px]

@[simp] theorem Scene.name_ne_empty (s : Scene) : s.name ≠ "" := by
  cases s <;> decide

@[simp] theorem Density.name_ne_empty (d : Density) : d.name ≠ "" := by
  cases d <;> decide

@[simp] theorem TypeScale.name_ne_empty (s : TypeScale) : s.name ≠ "" := by
  cases s <;> decide

@[simp] theorem ShapeStyle.name_ne_empty (s : ShapeStyle) : s.name ≠ "" := by
  cases s <;> decide

@[simp] theorem Ornament.name_ne_empty (o : Ornament) : o.name ≠ "" := by
  cases o <;> decide

@[simp] theorem Rgb.hex_ne_empty (c : Rgb) : c.hex ≠ "" := by
  simp [Rgb.hex]

@[simp] theorem Hsl.hex_ne_empty (c : Hsl) : c.hex ≠ "" :=
  c.rgb.hex_ne_empty

theorem ne_empty_density (d : Density) : ∀ e ∈ d.tokens, e.2 ≠ "" := by
  simp [Density.tokens, spacingSteps]

theorem ne_empty_fonts (s : Scene) :
    s.bodyFont ≠ "" ∧ s.headingFont ≠ "" ∧ s.headingWeight ≠ "" := by
  cases s <;> decide

theorem ne_empty_typeScale (s : TypeScale) (scene : Scene) : ∀ e ∈ s.tokens scene, e.2 ≠ "" := by
  simp [TypeScale.tokens, fontSizes, lineHeights, ne_empty_fonts]

theorem ne_empty_shape (s : ShapeStyle) : ∀ e ∈ s.tokens, e.2 ≠ "" := by
  have button : (if s = .pill then "9999px" else px s.radii.2.1) ≠ "" := by
    split
    · decide
    · exact px_ne_empty _
  simp [ShapeStyle.tokens, button]

theorem ne_empty_ornament (o : Ornament) : ∀ e ∈ o.tokens, e.2 ≠ "" := by
  cases o <;> decide

theorem ne_empty_pairTokens (name : String) (p : Pairing) :
    ∀ e ∈ Palette.pairTokens name p, e.2 ≠ "" := by
  simp [Palette.pairTokens]

theorem ne_empty_palette (p : Palette) : ∀ e ∈ p.tokens, e.2 ≠ "" := by
  intro e he
  simp only [Palette.tokens, List.mem_append, List.mem_flatMap] at he
  obtain (he | ⟨⟨name, pair⟩, -, he⟩) | ⟨⟨name, pair⟩, -, he⟩ := he
  · revert e
    simp
  · obtain he | he := he
    · exact ne_empty_pairTokens name pair e he
    · obtain rfl := List.mem_singleton.mp he
      exact Hsl.hex_ne_empty _
  · exact ne_empty_pairTokens name pair e he

theorem ne_empty_of_compressed? {k v w : String} (h : compressed? k v = some w) : w ≠ "" := by
  unfold compressed? at h
  split at h
  · obtain ⟨x, -, rfl⟩ := Option.map_eq_some_iff.mp h
    exact px_ne_empty _
  · split at h
    · obtain ⟨x, -, rfl⟩ := Option.map_eq_some_iff.mp h
      exact px_ne_empty _
    · split at h
      · obtain ⟨x, -, rfl⟩ := Option.map_eq_some_iff.mp h
        exact Decimal.plainText_ne_empty _
      · cases h

theorem resized_ne_empty {k v : String} (h : v ≠ "") : resized k v ≠ "" := by
  rw [resized]
  cases hc : compressed? k v with
  | none => exact h
  | some w => exact ne_empty_of_compressed? hc

namespace Params

theorem ne_empty_expanded (p : Params) : ∀ e ∈ p.expanded, e.2 ≠ "" := by
  intro e he
  simp only [expanded, List.mem_append] at he
  obtain (((he | he) | he) | he) | he := he
  · exact ne_empty_density _ e he
  · exact ne_empty_typeScale _ _ e he
  · exact ne_empty_shape _ e he
  · exact ne_empty_ornament _ e he
  · exact ne_empty_palette _ e he

theorem ne_empty_of_get?_expanded {p : Params} {k v : String}
    (h : (Table.ofList p.expanded).get? k = some v) : v ≠ "" :=
  Table.forall_mem_insertAll (P := fun _ v => v ≠ "") (t := .empty) nofun (ne_empty_expanded p)
    (k, v) (Table.mem_entries_iff.mpr h)

/-- No token that a design derives is empty. -/
theorem ne_empty_of_get?_derived {p : Params} {k v : String} (h : p.derived.get? k = some v) :
    v ≠ "" := by
  unfold derived at h
  cases hp : p.platform with
  | web =>
    rw [hp] at h
    exact ne_empty_of_get?_expanded h
  | mobile =>
    rw [hp] at h
    dsimp only at h
    rw [get?_compress] at h
    split at h
    · obtain rfl := Option.some.inj h
      decide
    · obtain ⟨w, hw, rfl⟩ := Option.map_eq_some_iff.mp h
      exact resized_ne_empty (ne_empty_of_get?_expanded hw)

/-- The values set by hand leave nothing of a dimension: all of its tokens are set by hand, and to
empty texts. -/
structure Blanks (p : Params) (d : Dimension) : Prop where
  all : ∀ k ∈ p.names, Dimension.of? k = some d → (p.overrides.get? k).isSome
  empty : ∀ k v, p.overrides.get? k = some v → Dimension.of? k = some d → v = ""

end Params

theorem Dimension.mem_all (d : Dimension) : d ∈ all := by
  cases d <;> decide

theorem Tokens.mem_missing_iff {t : Tokens} {d : Dimension} :
    d ∈ t.missing ↔ ∀ k v, t.get? k = some v → Dimension.of? k = some d → v = "" := by
  simp only [missing, inDimension, List.mem_filter, Dimension.mem_all, true_and, Bool.not_eq_true',
    List.any_eq_false, decide_eq_true_eq, ne_eq, Decidable.not_not, and_imp, Prod.forall,
    Table.mem_entries_iff]

theorem Tokens.isComplete_iff {t : Tokens} : t.isComplete = true ↔ ∀ d, d ∉ t.missing := by
  rw [isComplete, decide_eq_true_eq, List.eq_nil_iff_forall_not_mem]

/-- A design leaves out the dimensions that the values set by hand blank, and no others. -/
theorem mem_missing_tokens_iff (p : Params) (d : Dimension) :
    d ∈ Tokens.missing p.tokens ↔ p.Blanks d := by
  rw [Tokens.mem_missing_iff]
  constructor
  · intro h
    refine ⟨fun k hk hd => ?_, fun k v hv hd => h k v ?_ hd⟩
    · cases set : p.overrides.get? k with
      | some v => rfl
      | none =>
        cases derived : p.derived.get? k with
        | none => exact absurd hk ((p.get?_derived_eq_none_iff k).mp derived)
        | some v =>
          have here : p.tokens.get? k = some v := by
            rw [p.get?_tokens, set, Option.none_or, derived]
          exact absurd (h k v here hd) (Params.ne_empty_of_get?_derived derived)
    · rw [p.get?_tokens, hv, Option.some_or]
  · rintro ⟨all, empty⟩ k v hv hd
    rw [p.get?_tokens] at hv
    cases set : p.overrides.get? k with
    | some w =>
      rw [set, Option.some_or] at hv
      obtain rfl := Option.some.inj hv
      exact empty k w set hd
    | none =>
      rw [set, Option.none_or] at hv
      have named : k ∈ p.names := Decidable.byContradiction fun absent => by
        rw [(p.get?_derived_eq_none_iff k).mpr absent] at hv
        cases hv
      have isSome := all k named hd
      rw [set] at isSome
      cases isSome

end Design

end Wireframe
