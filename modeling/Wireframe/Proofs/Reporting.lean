import Wireframe.Compiler
import Wireframe.Proofs.Analysis.Visits
import Wireframe.Proofs.Outline.Sourced

/-!
# Where problems are reported

Problems are reported at places of the source text: those of its characters, those of its lines at
tokens, and those of its meaning at elements and their entries, which stand where their tokens do.
The one problem without a place is that a text without elements has no components
(`run_reports_in_text`).
-/

namespace Wireframe

namespace Analysis

variable {P : Location → Prop}

theorem placed_assignId (ids : Identifier.Allocator) {e : Element} (kind : Kind)
    (h : P e.location) : ∀ d ∈ (assignId ids e kind).2.1, P d.location := by
  unfold assignId
  split
  · exact List.forall_mem_nil _
  split
  · split
    · exact List.forall_mem_nil _
    · exact List.forall_mem_singleton.mpr h
  · exact List.forall_mem_singleton.mpr h

theorem placed_placement (strict : Bool) (parent : Option Kind) (kind : Kind) {p : Location}
    (h : P p) : ∀ d ∈ placement strict parent kind p, P d.location := by
  unfold placement
  split
  · exact List.forall_mem_nil _
  split
  · exact List.forall_mem_nil _
  · exact List.forall_mem_singleton.mpr h

theorem placed_platformProblems (target : Platform) (kind : Kind) {p : Location} (h : P p) :
    ∀ d ∈ platformProblems target kind p, P d.location := by
  unfold platformProblems
  split
  · exact List.forall_mem_singleton.mpr h
  · exact List.forall_mem_nil _

theorem placed_entryProblems {e : Element} (h : e.Placed P) :
    ∀ d ∈ e.entryProblems, P d.location := by
  intro d hd
  obtain ⟨a, ha, rfl⟩ := List.mem_map.mp hd
  rcases List.mem_append.mp (List.mem_of_mem_filter ha) with ha | ha
  · exact h.layout a ha
  · exact h.attributes a ha

/-- What is said about an element is said at its place or at that of an entry. -/
theorem placed_visit (strict : Bool) (target : Platform) (ids : Identifier.Allocator)
    {x : Element × Option Kind} (h : x.1.Placed P) :
    ∀ d ∈ (visit strict target ids x).problems, P d.location := by
  obtain ⟨e, parent⟩ := x
  cases hk : Vocabulary.kindOf? e.tag with
  | none =>
    rw [visit_of_unknown strict target ids parent hk]
    dsimp only
    split
    · exact List.forall_mem_nil _
    · exact List.forall_mem_singleton.mpr h.location
  | some kind =>
    have placed := placed_placement strict parent kind h.location
    cases hd : isDropped strict parent kind with
    | true =>
      rw [visit_of_dropped strict target ids hk hd]
      exact placed
    | false =>
      have platform := placed_platformProblems target kind h.location
      have remarks := List.forall_mem_append.mpr ⟨placed, platform⟩
      have entries := List.forall_mem_append.mpr ⟨remarks, placed_entryProblems h⟩
      rw [visit_of_kept strict target ids hk hd]
      exact List.forall_mem_append.mpr ⟨entries, placed_assignId ids kind h.location⟩

theorem placed_visitAll (strict : Bool) (target : Platform) (ids : Identifier.Allocator)
    {xs : List (Element × Option Kind)} (h : ∀ x ∈ xs, x.1.Placed P) :
    ∀ d ∈ (visitAll strict target ids xs).problems, P d.location := by
  induction xs generalizing ids with
  | nil => exact List.forall_mem_nil _
  | cons x xs ih =>
    obtain ⟨here, more⟩ := List.forall_mem_cons.mp h
    exact List.forall_mem_append.mpr ⟨placed_visit strict target ids here, ih _ more⟩

theorem placed_components {o : Outline} (options : Options) (h : Outline.Placed P o) :
    ∀ d ∈ (components o options).problems, P d.location := by
  have visited : ∀ x ∈ visitsAll options.strict none o, x.1.Placed P := by
    intro x hx
    have met := (map_fst_visitsAll_sublist options.strict none o).subset
      (List.mem_map_of_mem (f := Prod.fst) hx)
    obtain ⟨t, ht, he⟩ := List.mem_map.mp met
    exact he ▸ h t ht
  rw [components, (trees_eq_visitAll options.strict options.target none _ o).problems]
  exact placed_visitAll options.strict options.target _ visited

/-- The problems of an outline stand at its places, unless there is no element in it. -/
theorem placed_document? {o : Outline} (options : Options) (h : Outline.Placed P o) :
    ∀ d ∈ (document? o options).2, P d.location ∨ d = ⟨.noComponents, .nowhere⟩ ∧ o = [] := by
  rw [document?_snd]
  refine List.forall_mem_append.mpr ⟨fun d hd => .inl (placed_components options h d hd), ?_⟩
  split
  · refine List.forall_mem_singleton.mpr ?_
    cases o with
    | nil => exact .inr ⟨rfl, rfl⟩
    | cons t o =>
      obtain ⟨e, ts⟩ := t
      refine .inl (h (.node e ts) ?_).location
      simp [Tree.preorderAll, Tree.preorder]
  · exact List.forall_mem_nil _

theorem noComponents_of_nil (options : Options) :
    ⟨.noComponents, .nowhere⟩ ∈ (document? [] options).2 := by
  rw [document?_snd]
  exact List.mem_append_right _ (by simp [components, trees])

end Analysis

namespace Outline

theorem placed_read (source : String) : Placed (·.In (Token.body source)) (read source).1 :=
  placed_ofTokens (Token.lined_scan source) (Token.atLineEnd_scan source)
    (Token.sourced_scan source).places

/-- The problems of the characters and of the lines of a text stand at its places. -/
theorem placed_problems_read (source : String) :
    ∀ d ∈ (read source).2, d.location.In (Token.body source) :=
  List.forall_mem_append.mpr ⟨fun _ => Token.in_of_mem_problems,
    sourced_ofTokens (Token.lined_scan source) (Token.atLineEnd_scan source)
      (Token.sourced_scan source)⟩

end Outline

namespace Compiler

theorem mem_diagnostics_run {source : String} {options : Options} {d : Diagnostic} :
    d ∈ (run source options).diagnostics ↔
      d ∈ (Outline.read source).2 ∨
        d ∈ (Analysis.document? (Outline.read source).1 options).2 :=
  List.mem_append

/-- The problems of a text are reported at its places, with the exception of one that has none: that
there are no components when the text has no elements. -/
theorem run_reports_in_text (source : String) (options : Options) :
    (∀ d ∈ (run source options).diagnostics,
      (d.location.In (Token.body source) ∧ 0 < d.location.line ∧ 0 < d.location.column ∧
        d.location.offset ≤ Location.bytesOf (Token.body source)) ∨
      d = ⟨.noComponents, .nowhere⟩) ∧
    (⟨.noComponents, .nowhere⟩ ∈ (run source options).diagnostics ↔
      (Outline.read source).1 = []) := by
  have places : ∀ d ∈ (run source options).diagnostics, d.location.In (Token.body source) ∨
      d = ⟨.noComponents, .nowhere⟩ ∧ (Outline.read source).1 = [] := by
    intro d hd
    rcases mem_diagnostics_run.mp hd with hd | hd
    · exact .inl (Outline.placed_problems_read source d hd)
    · exact Analysis.placed_document? options (Outline.placed_read source) d hd
  refine ⟨fun d hd => ?_, fun hd => ?_, fun none => ?_⟩
  · exact (places d hd).imp (fun p => ⟨p, p.line_pos, p.column_pos, p.offset_le⟩) And.left
  · rcases places _ hd with p | ⟨-, none⟩
    · exact absurd p.line_pos (Nat.lt_irrefl 0)
    · exact none
  · refine mem_diagnostics_run.mpr (.inr ?_)
    rw [none]
    exact Analysis.noComponents_of_nil options

/-- That there are no components in an empty text is reported in line zero. -/
theorem run_empty_reports_nowhere :
    ¬∀ d ∈ (run "" {}).diagnostics, 0 < d.location.line ∧ 0 < d.location.column := by
  have none : (Outline.read "").1 = [] := by decide +kernel
  have reported : ⟨.noComponents, .nowhere⟩ ∈ (run "" {}).diagnostics := by
    refine mem_diagnostics_run.mpr (.inr ?_)
    rw [none]
    exact Analysis.noComponents_of_nil {}
  exact fun all => absurd (all _ reported).1 (Nat.lt_irrefl 0)

end Compiler

end Wireframe
