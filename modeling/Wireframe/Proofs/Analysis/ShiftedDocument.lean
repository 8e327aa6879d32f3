import Wireframe.Proofs.Analysis.Alike
import Wireframe.Proofs.Outline.Shift

/-!
# Documents of moved outlines

What an outline becomes does not depend on where its parts stand: the components, their ids and
their props are the same, and what is reported is moved (`document?_outline`).
-/

namespace Wireframe.Shift

open Analysis

variable (σ : Shift) (e : Element)

theorem writtenId?_element : (σ.element e).writtenId? = e.writtenId? := by
  have entries : (σ.element e).attributes ++ (σ.element e).layout =
      (e.attributes ++ e.layout).map σ.entry := by
    rw [List.map_append]
    rfl
  unfold Element.writtenId?
  rw [entries, ← List.map_reverse, List.find?_map, Option.map_map]
  rfl

theorem entries_element : (σ.element e).layout ++ (σ.element e).attributes =
    (e.layout ++ e.attributes).map σ.entry := by
  rw [List.map_append]
  rfl

theorem props_element (kind : Kind) : (σ.element e).props kind = e.props kind := by
  unfold Element.props
  dsimp only
  rw [entries_element, List.foldl_map]
  rfl

theorem entryProblems_element :
    (σ.element e).entryProblems = e.entryProblems.map σ.diagnostic := by
  unfold Element.entryProblems
  rw [entries_element, List.filter_map, List.map_map, List.map_map]
  rfl

/-- What the analysis reports tells no token and no width. -/
theorem problem_of_semantic {p : Problem} (h : p.phase = .semantic) : σ.problem p = p := by
  cases p <;> first | rfl | cases h

/-- The analysis does not tell moved elements from what they were. -/
theorem alike : Alike (fun e f => σ.element e = f) (fun d d' => σ.diagnostic d = d') where
  kindOf? := by rintro e _ rfl; rfl
  untagged := by rintro e _ rfl; rfl
  props := by rintro e _ rfl; exact σ.props_element e
  writtenId? := by rintro e _ rfl; exact σ.writtenId?_element e
  entryProblems := by
    rintro e _ rfl
    rw [σ.entryProblems_element, List.forall₂_map_right_iff]
    exact List.forall₂_refl _
  unknownTag := by rintro e _ rfl; rfl
  remark := by
    rintro e _ rfl p semantic
    rw [diagnostic, σ.problem_of_semantic semantic]
    rfl
  nowhere := by rw [diagnostic, σ.place_nowhere]; rfl

/-- The document of a moved outline. -/
theorem document?_outline (o : Outline) (options : Options) :
    document? (σ.outline o) options =
      ((document? o options).1, (document? o options).2.map σ.diagnostic) := by
  obtain ⟨document, reported⟩ := σ.alike.document? (Tree.pairedAll_mapAll σ.element o) options
  rw [← List.forall₂_map_left_iff (R := Eq), List.forall₂_eq_eq_eq] at reported
  exact Prod.ext document reported.symm

end Wireframe.Shift
