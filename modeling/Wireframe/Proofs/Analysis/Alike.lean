import Mathlib.Data.List.Forall2
import Wireframe.Proofs.Analysis.Components

/-!
# Elements that are analysed alike

Of an element the analysis asks for its kind, for its props, for the id that is written for it, for
its entries without a key, and for its place where something is to be said about it. So two outlines
of one shape whose elements agree on these become the same document, and what is said about them
differs only as their elements do (`Alike.document?`).
-/

namespace Wireframe

namespace Tree

variable {α β : Type}

mutual

/-- Trees of one shape whose values are related, node by node. -/
inductive Paired (R : α → β → Prop) : Tree α → Tree β → Prop
  | node {a b ts us} (here : R a b) (below : PairedAll R ts us) : Paired R (.node a ts) (.node b us)

/-- Forests of one shape whose values are related, node by node. -/
inductive PairedAll (R : α → β → Prop) : List (Tree α) → List (Tree β) → Prop
  | nil : PairedAll R [] []
  | cons {t u ts us} (first : Paired R t u) (more : PairedAll R ts us) :
      PairedAll R (t :: ts) (u :: us)

end

mutual

theorem paired_map (f : α → β) (t : Tree α) : Paired (fun a b => f a = b) t (t.map f) := by
  match t with
  | node a ts => exact .node rfl (pairedAll_mapAll f ts)

theorem pairedAll_mapAll (f : α → β) (ts : List (Tree α)) :
    PairedAll (fun a b => f a = b) ts (mapAll f ts) := by
  match ts with
  | [] => exact .nil
  | t :: ts => exact .cons (paired_map f t) (pairedAll_mapAll f ts)

end

mutual

theorem Paired.preorder {R : α → β → Prop} {t : Tree α} {u : Tree β} (h : Paired R t u) :
    List.Forall₂ (fun t u => R t.value u.value) t.preorder u.preorder := by
  match h with
  | .node here below => exact .cons here below.preorderAll

/-- The nodes of paired forests are met in step. -/
theorem PairedAll.preorderAll {R : α → β → Prop} {ts : List (Tree α)} {us : List (Tree β)}
    (h : PairedAll R ts us) :
    List.Forall₂ (fun t u => R t.value u.value) (preorderAll ts) (Tree.preorderAll us) := by
  match h with
  | .nil => exact .nil
  | .cons first more => exact List.rel_append first.preorder more.preorderAll

end

end Tree

namespace Analysis

open Identifier (Allocator sanitize?)

/-- Elements on which the analysis agrees, where `S` relates what is said about them. -/
structure Alike (R : Element → Element → Prop) (S : Diagnostic → Diagnostic → Prop) : Prop where
  kindOf? {e f} : R e f → Vocabulary.kindOf? f.tag = Vocabulary.kindOf? e.tag
  untagged {e f} : R e f → (f.tag = "" ↔ e.tag = "")
  props {e f} : R e f → ∀ kind, f.props kind = e.props kind
  writtenId? {e f} : R e f → f.writtenId? = e.writtenId?
  entryProblems {e f} : R e f → List.Forall₂ S e.entryProblems f.entryProblems
  unknownTag {e f} : R e f → S ⟨.unknownTag e.tag, e.location⟩ ⟨.unknownTag f.tag, f.location⟩
  remark {e f} : R e f → ∀ p : Problem, p.phase = .semantic → S ⟨p, e.location⟩ ⟨p, f.location⟩
  /-- What is said about an outline without elements. -/
  nowhere : S ⟨.noComponents, .nowhere⟩ ⟨.noComponents, .nowhere⟩

namespace Alike

variable {R : Element → Element → Prop} {S : Diagnostic → Diagnostic → Prop} {e f : Element}

theorem cleanId? (h : Alike R S) (hr : R e f) : f.cleanId? = e.cleanId? := by
  rw [Element.cleanId?, Element.cleanId?, h.writtenId? hr]

theorem assignId (h : Alike R S) (hr : R e f) (ids : Allocator) (kind : Kind) :
    (Analysis.assignId ids f kind).1 = (Analysis.assignId ids e kind).1 ∧
      List.Forall₂ S (Analysis.assignId ids e kind).2.1 (Analysis.assignId ids f kind).2.1 ∧
      (Analysis.assignId ids f kind).2.2 = (Analysis.assignId ids e kind).2.2 := by
  unfold Analysis.assignId
  rw [h.writtenId? hr]
  cases e.writtenId? with
  | none => exact ⟨rfl, .nil, rfl⟩
  | some written =>
    dsimp only
    cases sanitize? written with
    | none => exact ⟨rfl, .cons (h.remark hr _ rfl) .nil, rfl⟩
    | some clean =>
      dsimp only
      obtain ⟨claim, rest⟩ := ids.claim clean
      cases claim with
      | granted id => exact ⟨rfl, .nil, rfl⟩
      | renamed requested granted => exact ⟨rfl, .cons (h.remark hr _ rfl) .nil, rfl⟩

theorem placement (h : Alike R S) (hr : R e f) (strict : Bool) (parent : Option Kind)
    (kind : Kind) :
    List.Forall₂ S (Analysis.placement strict parent kind e.location)
      (Analysis.placement strict parent kind f.location) := by
  cases parent with
  | none => exact .nil
  | some p =>
    rw [Analysis.placement, Analysis.placement]
    split
    · exact .nil
    · refine .cons (h.remark hr _ ?_) .nil
      cases strict <;> rfl

theorem platformProblems (h : Alike R S) (hr : R e f) (target : Platform) (kind : Kind) :
    List.Forall₂ S (Analysis.platformProblems target kind e.location)
      (Analysis.platformProblems target kind f.location) := by
  unfold Analysis.platformProblems
  split
  · exact .cons (h.remark hr _ rfl) .nil
  · exact .nil

theorem unknown (h : Alike R S) (hr : R e f) :
    List.Forall₂ S (if e.tag = "" then [] else [⟨.unknownTag e.tag, e.location⟩])
      (if f.tag = "" then [] else [⟨.unknownTag f.tag, f.location⟩]) := by
  by_cases untagged : e.tag = ""
  · rw [if_pos untagged, if_pos ((h.untagged hr).mpr untagged)]
    exact .nil
  · rw [if_neg untagged, if_neg fun hf => untagged ((h.untagged hr).mp hf)]
    exact .cons (h.unknownTag hr) .nil

/-- Results that differ in nothing but what is said. -/
structure Agree (S : Diagnostic → Diagnostic → Prop) (r s : Result) : Prop where
  trees : s.trees = r.trees
  problems : List.Forall₂ S r.problems s.problems
  ids : s.ids = r.ids

section

variable (strict : Bool) (target : Platform)

mutual

theorem tree (h : Alike R S) {t u : Tree Element} (paired : t.Paired R u) (parent : Option Kind)
    (ids : Allocator) :
    Agree S (Analysis.tree strict target parent ids t)
      (Analysis.tree strict target parent ids u) := by
  match paired with
  | .node (a := e) here below =>
    rw [Analysis.tree, Analysis.tree, h.kindOf? here]
    cases Vocabulary.kindOf? e.tag with
    | none =>
      have rest := h.trees below parent ids
      exact ⟨rest.trees, List.rel_append (h.unknown here) rest.problems, rest.ids⟩
    | some kind =>
      have placed := h.placement here strict parent kind
      by_cases dropped : isDropped strict parent kind
      · simp only [dropped, if_true]
        exact ⟨rfl, placed, rfl⟩
      · simp only [dropped, Bool.false_eq_true, if_false]
        obtain ⟨id, idProblems, taken⟩ := h.assignId here ids kind
        have rest := h.trees below (some kind) (Analysis.assignId ids e kind).2.2
        have remarks := List.rel_append (List.rel_append placed
          (h.platformProblems here target kind)) (h.entryProblems here)
        rw [id, taken, h.props here kind]
        refine ⟨by rw [rest.trees], ?_, rest.ids⟩
        exact List.rel_append (List.rel_append remarks idProblems) rest.problems

/-- Paired elements become the same components. -/
theorem trees (h : Alike R S) {ts us : List (Tree Element)} (paired : Tree.PairedAll R ts us)
    (parent : Option Kind) (ids : Allocator) :
    Agree S (Analysis.trees strict target parent ids ts)
      (Analysis.trees strict target parent ids us) := by
  match paired with
  | .nil => exact ⟨rfl, .nil, rfl⟩
  | .cons (t := t) first more =>
    have here := h.tree first parent ids
    have rest := h.trees more parent (Analysis.tree strict target parent ids t).ids
    rw [Analysis.trees, Analysis.trees, here.ids]
    exact ⟨by rw [here.trees, rest.trees], List.rel_append here.problems rest.problems, rest.ids⟩

end

end

theorem writtenIds (h : Alike R S) {o o' : Outline} (paired : Tree.PairedAll R o o') :
    Analysis.writtenIds o' = Analysis.writtenIds o := by
  have nodes := paired.preorderAll
  rw [Analysis.writtenIds, Analysis.writtenIds]
  generalize Tree.preorderAll o = ts, Tree.preorderAll o' = us at nodes ⊢
  induction nodes with
  | nil => rfl
  | @cons t u ts us here more ih =>
    rw [List.filterMap_cons, List.filterMap_cons, ih, h.kindOf? here, h.cleanId? here]

theorem components (h : Alike R S) {o o' : Outline} (paired : Tree.PairedAll R o o')
    (options : Options) :
    Agree S (Analysis.components o options) (Analysis.components o' options) := by
  rw [Analysis.components, Analysis.components, h.writtenIds paired]
  exact h.trees _ _ paired none _

/-- The place of what is said about an outline that becomes nothing. -/
theorem noComponents (h : Alike R S) {o o' : Outline} (paired : Tree.PairedAll R o o') :
    S ⟨.noComponents, (o.head?.map fun t => t.value.location).getD .nowhere⟩
      ⟨.noComponents, (o'.head?.map fun t => t.value.location).getD .nowhere⟩ := by
  cases paired with
  | nil => exact h.nowhere
  | cons first more =>
    cases first with
    | node here below => exact h.remark here _ rfl

/-- Paired outlines become the same document, and what is said about them is paired. -/
theorem document? (h : Alike R S) {o o' : Outline} (paired : Tree.PairedAll R o o')
    (options : Options) :
    (Analysis.document? o' options).1 = (Analysis.document? o options).1 ∧
      List.Forall₂ S (Analysis.document? o options).2 (Analysis.document? o' options).2 := by
  have same := h.components paired options
  rw [document?_fst, document?_fst, document?_snd, document?_snd, same.trees]
  refine ⟨rfl, List.rel_append same.problems ?_⟩
  split
  · exact .cons (h.noComponents paired) .nil
  · exact .nil

end Alike

end Analysis

end Wireframe
