import Wireframe.Proofs.Design.Completeness

/-!
# The schema of designs

Each dimension is expanded into tokens of its own: their names do not depend on what the design is
for (`map_fst_expansion`) and tell the dimension (`Dimension.of?_of_mem_names`). So no two
dimensions share a name, the dimensions may be expanded in any order (`tokensIn_of_perm`), and
without values set by hand a design has the names that its platform asks for, none of them with an
empty text (`tokens_schema`).
-/

namespace Wireframe.Design

/-- The names of the tokens that a dimension is expanded into. -/
def Dimension.names : Dimension → List String
  | spacing => Density.names
  | typography => TypeScale.names
  | shape => ShapeStyle.names
  | ornamentation => Ornament.names
  | color => Palette.names

theorem flatMap_names : Dimension.all.flatMap Dimension.names = names := rfl

theorem exists_mem_names_iff {k : String} : (∃ d : Dimension, k ∈ d.names) ↔ k ∈ names := by
  rw [← flatMap_names, List.mem_flatMap]
  exact ⟨fun ⟨d, hk⟩ => ⟨d, d.mem_all, hk⟩, fun ⟨d, _, hk⟩ => ⟨d, hk⟩⟩

namespace Dimension

theorem of?_of_mem_names {d : Dimension} : ∀ k ∈ d.names, of? k = some d := by
  cases d <;> decide +kernel

theorem not_mem_names_of_ne {d d' : Dimension} (h : d ≠ d') : ∀ k ∈ d.names, k ∉ d'.names := by
  intro k hk hk'
  have told : some d = some d' := (of?_of_mem_names k hk).symm.trans (of?_of_mem_names k hk')
  exact h (Option.some.inj told)

theorem names_ne_nil (d : Dimension) : d.names ≠ [] := by
  cases d <;> exact List.cons_ne_nil _ _

end Dimension

namespace Params

/-- The tokens that a dimension is expanded into. -/
def expansion (p : Params) : Dimension → List (String × String)
  | .spacing => p.categories.density.tokens
  | .typography => p.categories.typeScale.tokens p.categories.scene
  | .shape => p.categories.shape.tokens
  | .ornamentation => p.categories.ornament.tokens
  | .color => (Palette.make p.categories.scene p.categories.hueBits p.hash).tokens

theorem flatMap_expansion (p : Params) : Dimension.all.flatMap p.expansion = p.expanded := by
  simp only [Dimension.all, List.flatMap_cons, List.flatMap_nil, List.append_nil, expansion,
    expanded, List.append_assoc]

theorem map_fst_expansion (p : Params) (d : Dimension) :
    (p.expansion d).map (·.1) = d.names := by
  cases d with
  | spacing => exact map_fst_density _
  | typography => exact map_fst_typeScale _ _
  | shape => exact map_fst_shape _
  | ornamentation => exact map_fst_ornament _
  | color => exact map_fst_palette _ _ _

/-- Dimensions that are expanded one after the other. -/
def expandedIn (p : Params) (ds : List Dimension) : Tokens :=
  ds.foldl (fun t d => t.insertAll (p.expansion d)) .empty

/-- The design that comes of expanding dimensions in a given order. -/
def tokensIn (p : Params) (ds : List Dimension) : Tokens :=
  let derived :=
    match p.platform with
    | .web => p.expandedIn ds
    | .mobile => Tokens.compress (p.expandedIn ds)
  derived.insertAll p.overrides.entries

theorem expandedIn_all (p : Params) : p.expandedIn Dimension.all = Table.ofList p.expanded := by
  have flat : ∀ (ds : List Dimension) (t : Tokens),
      ds.foldl (fun t d => t.insertAll (p.expansion d)) t =
        t.insertAll (ds.flatMap p.expansion) := by
    intro ds
    induction ds with
    | nil => exact fun _ => rfl
    | cons d ds ih =>
      intro t
      rw [List.foldl_cons, ih, List.flatMap_cons, Table.insertAll_append]
  rw [expandedIn, flat, flatMap_expansion]
  rfl

theorem expandedIn_of_perm (p : Params) {ds ds' : List Dimension} (h : ds.Perm ds') :
    p.expandedIn ds = p.expandedIn ds' := by
  refine h.foldl_eq' (fun d _ d' _ t => ?_) _
  -- A dimension may be listed twice; it changes places with itself.
  by_cases same : d = d'
  · rw [same]
  · refine Table.insertAll_comm t fun k hk => ?_
    rw [map_fst_expansion] at hk ⊢
    exact Dimension.not_mem_names_of_ne same k hk

/-- Dimensions share no names, so a design does not depend on the order in which they are
expanded. -/
theorem tokensIn_of_perm (p : Params) {ds : List Dimension} (h : ds.Perm Dimension.all) :
    p.tokensIn ds = p.tokens := by
  rw [tokensIn, p.expandedIn_of_perm h, expandedIn_all]
  rfl

theorem tokens_of_no_overrides {p : Params} (h : p.overrides = .empty) : p.tokens = p.derived := by
  rw [tokens, h]
  rfl

theorem mem_names_iff (p : Params) (k : String) :
    k ∈ p.names ↔ (∃ d : Dimension, k ∈ d.names) ∨ p.platform = .mobile ∧ k = touchTarget.1 := by
  rw [exists_mem_names_iff]
  unfold names
  cases p.platform with
  | web => simp
  | mobile => simp [or_comm]

theorem mem_keys_derived_iff (p : Params) (k : String) : k ∈ p.derived.keys ↔ k ∈ p.names := by
  rw [Table.mem_keys_iff, Option.isSome_iff_ne_none, ne_eq, get?_derived_eq_none_iff,
    Decidable.not_not]

/-- Values that are set by hand and not empty leave no dimension out. -/
theorem isComplete_tokens {p : Params} (h : ∀ v ∈ p.overrides.values, v ≠ "") :
    Tokens.isComplete p.tokens = true := by
  rw [Tokens.isComplete_iff]
  intro d missing
  have blanks := (mem_missing_tokens_iff p d).mp missing
  obtain ⟨k, hk⟩ := List.exists_mem_of_ne_nil _ d.names_ne_nil
  have told := Dimension.of?_of_mem_names k hk
  have named : k ∈ p.names := (p.mem_names_iff k).mpr (.inl ⟨d, hk⟩)
  obtain ⟨v, hv⟩ := Option.isSome_iff_exists.mp (blanks.all k named told)
  exact h v (Table.mem_values_iff.mpr ⟨k, hv⟩) (blanks.empty k v hv told)

/-- A design without values set by hand has the names of the five dimensions and, on a small screen,
one more, and no empty text. Whatever the design is for, a dimension is expanded into its own names,
each of which tells it; no two dimensions share one, and they may be expanded in any order. So a
design is complete when no value that is set by hand is empty. -/
theorem tokens_schema (p : Params) :
    (p.overrides = .empty →
      (∀ k, k ∈ p.tokens.keys ↔
        (∃ d : Dimension, k ∈ d.names) ∨ p.platform = .mobile ∧ k = "touch-target-min") ∧
      ∀ v ∈ p.tokens.values, v ≠ "") ∧
    (¬∃ d : Dimension, "touch-target-min" ∈ d.names) ∧
    (∀ d, (p.expansion d).map (·.1) = d.names ∧ ∀ k ∈ d.names, Dimension.of? k = some d) ∧
    (∀ d d', d ≠ d' → ∀ k ∈ (p.expansion d).map (·.1), k ∉ (p.expansion d').map (·.1)) ∧
    (∀ ds : List Dimension, ds.Perm Dimension.all → p.tokensIn ds = p.tokens) ∧
    ((∀ v ∈ p.overrides.values, v ≠ "") → Tokens.isComplete p.tokens = true) := by
  refine ⟨fun plain => ⟨fun k => ?_, fun v hv => ?_⟩, ?_, fun d => ?_, fun d d' other => ?_,
    fun ds => p.tokensIn_of_perm, isComplete_tokens⟩
  · rw [tokens_of_no_overrides plain, mem_keys_derived_iff, p.mem_names_iff]
    rfl
  · rw [tokens_of_no_overrides plain] at hv
    obtain ⟨k, hk⟩ := Table.mem_values_iff.mp hv
    exact ne_empty_of_get?_derived hk
  · rw [exists_mem_names_iff]
    exact touchTarget_not_mem_names
  · exact ⟨p.map_fst_expansion d, Dimension.of?_of_mem_names⟩
  · rw [p.map_fst_expansion, p.map_fst_expansion]
    exact Dimension.not_mem_names_of_ne other

theorem tokens_schema_kids :
    let p : Params := { context := "kids", session := some "a", platform := .mobile }
    let q : Params := { p with overrides := .ofList [("brand", "kite"), ("radius-md", "7px")] }
    ("touch-target-min" ∈ p.tokens.keys ∧ "color-info" ∈ p.tokens.keys ∧
      "brand" ∉ p.tokens.keys) ∧
    (∀ v ∈ p.tokens.values, v ≠ "") ∧
    q.tokensIn [.color, .shape, .spacing, .ornamentation, .typography] = q.tokens ∧
    Tokens.isComplete q.tokens = true := by
  intro p q
  obtain ⟨plain, -⟩ := tokens_schema p
  obtain ⟨keys, values⟩ := plain rfl
  obtain ⟨-, -, -, -, order, complete⟩ := tokens_schema q
  have brand : ¬∃ d : Dimension, "brand" ∈ d.names := by
    rw [exists_mem_names_iff]
    decide +kernel
  refine ⟨⟨(keys _).mpr (.inr ⟨rfl, rfl⟩), (keys _).mpr (.inl ⟨.color, by decide⟩), ?_⟩, values,
    order _ (by decide), complete (by decide)⟩
  exact fun listed => ((keys _).mp listed).elim brand fun touch => absurd touch.2 (by decide)

end Params

end Wireframe.Design
