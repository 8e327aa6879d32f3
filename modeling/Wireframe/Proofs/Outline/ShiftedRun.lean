import Wireframe.Proofs.Forest
import Wireframe.Proofs.Outline.Run
import Wireframe.Proofs.Outline.Shift

/-!
# Reading moved tokens

The open tags of a reader are moved along with its tokens, line by line (`line_tokens`). So the
outline of tokens that come in whole lines and are moved is the moved outline
(`ofTokens_tokens`).
-/

namespace Wireframe.Shift

open Outline

variable (σ : Shift)

def frame (f : Frame) : Frame :=
  ⟨σ.width f.width, σ.element f.element, σ.outline f.children⟩

def builder (b : Builder) : Builder :=
  ⟨b.frames.map σ.frame, σ.outline b.roots⟩

theorem outline_reverse (o : Outline) : σ.outline o.reverse = (σ.outline o).reverse := by
  rw [outline, outline, Tree.mapAll_eq, Tree.mapAll_eq, List.map_reverse]

theorem tree_frame (f : Frame) : (σ.frame f).tree = f.tree.map σ.element := by
  rw [Frame.tree, Frame.tree, Tree.map]
  exact congrArg _ (σ.outline_reverse f.children).symm

/-- Frames are closed alike when the widths are compared alike. -/
theorem collapse_frames {p q : Frame → Bool} (h : ∀ f, p (σ.frame f) = q f) (fs : List Frame)
    (roots : Outline) :
    Builder.collapse p (fs.map σ.frame) (σ.outline roots) =
      σ.builder (Builder.collapse q fs roots) := by
  fun_induction Builder.collapse q fs roots with
  | case1 roots =>
    rw [List.map_nil, Builder.collapse]
    rfl
  | case2 f roots hf =>
    rw [List.map_singleton, Builder.collapse, if_pos ((h f).trans hf), tree_frame]
    rfl
  | case3 f roots hf =>
    rw [List.map_singleton, Builder.collapse, if_neg (by rw [h]; exact hf)]
    rfl
  | case4 f g fs roots hf ih =>
    rw [← ih, List.map_cons, List.map_cons, Builder.collapse, if_pos ((h f).trans hf), tree_frame]
    rfl
  | case5 f g fs roots hf =>
    rw [List.map_cons, List.map_cons, Builder.collapse, if_neg (by rw [h]; exact hf)]
    rfl

variable (b : Builder) (width : Nat)

theorem openTag_builder (e : Element) :
    (σ.builder b).openTag (σ.width width) (σ.element e) = σ.builder (b.openTag width e) := by
  have closed := σ.collapse_frames (p := fun f => σ.width width ≤ f.width)
    (q := fun f => width ≤ f.width) (fun f => by simp [frame, σ.width_le_iff]) b.frames b.roots
  simp only [Builder.openTag, builder, closed]
  rfl

theorem closeWider_builder :
    (σ.builder b).closeWider (σ.width width) = σ.builder (b.closeWider width) :=
  σ.collapse_frames (fun f => by simp [frame, σ.width_lt_iff]) b.frames b.roots

theorem finish_builder : (σ.builder b).finish = σ.outline b.finish := by
  have closed := σ.collapse_frames (p := fun _ => true) (q := fun _ => true) (fun _ => rfl)
    b.frames b.roots
  simp only [Builder.finish, outline_reverse]
  rw [builder, closed]
  rfl

theorem unmatched_builder : (σ.builder b).unmatched (σ.width width) = b.unmatched width := by
  have wide (f : Frame) :
      decide (σ.width width ≤ (σ.frame f).width) = decide (width ≤ f.width) := by
    simp [frame, σ.width_le_iff]
  simp only [Builder.unmatched, builder, List.takeWhile_map, List.getLast?_map, Option.any_map]
  congr 1
  · funext f
    simp [frame, σ.width_eq_iff]
  · congr 2
    exact funext wide

theorem hasOwner_builder : (σ.builder b).hasOwner (σ.width width) = b.hasOwner width := by
  simp [Builder.hasOwner, builder, Function.comp_def, frame, σ.width_le_iff]

theorem addItems_element (e : Element) (items : List Item) :
    Builder.addItems (σ.element e) (items.map σ.item) = σ.element (Builder.addItems e items) := by
  fun_induction Builder.addItems e items with
  | case1 e => rfl
  | case2 e entries items ih | case3 e entries items ih =>
    rw [← ih, List.map_cons, item, Builder.addItems]
    simp [element]
  | case4 e text p items ih => exact ih

theorem replacements_items (present : Bool) (items : List Item) :
    Builder.replacements present (items.map σ.item) =
      (Builder.replacements present items).map σ.diagnostic := by
  fun_induction Builder.replacements present items with
  | case1 => rfl
  | case2 present text p items ih =>
    rw [List.map_cons, item, Builder.replacements, ih]
    cases present <;> rfl
  | case3 present x items hx ih =>
    cases x with
    | content text p => exact absurd rfl (hx text p)
    | _ => exact ih

theorem itemsLine_tokens (ts : List Token) :
    itemsLine (σ.builder b) (ts.map σ.token) = σ.reading σ.builder (itemsLine b ts) := by
  have attached (items : List Item) :
      (σ.builder b).attach (items.map σ.item) = σ.builder (b.attach items) ∧
        (σ.builder b).attachProblems (items.map σ.item) =
          (b.attachProblems items).map σ.diagnostic := by
    obtain ⟨frames, roots⟩ := b
    cases frames with
    | nil => exact ⟨rfl, rfl⟩
    | cons f fs =>
      constructor
      · simp only [Builder.attach, builder, List.map_cons, frame, addItems_element]
      · exact σ.replacements_items _ items
  simp only [itemsLine, items_tokens, reading, endLine_tokens, attached, List.map_append]

/-- A line does the same to moved tags when it is moved. -/
theorem line_tokens (ts : List Token) :
    line (σ.builder b) (σ.width width) (ts.map σ.token) =
      σ.reading σ.builder (line b width ts) := by
  rw [line_eq, line_eq, next_tokens, kind_token, lineKind_kind]
  cases lineKind (next ts).kind with
  | tag =>
    simp only [tagLine, ← List.map_drop, location_token, tag_tokens, reading, openTag_builder,
      itemsLine_tokens, unmatched_builder, List.map_append]
    cases b.unmatched width <;> rfl
  | metadata =>
    simp only [hasOwner_builder, closeWider_builder, itemsLine_tokens,
      σ.dropWhile_tokens ts σ.inLine_token]
    split <;> rfl
  | empty => rfl
  | stray =>
    simp only [σ.dropWhile_tokens ts σ.inLine_token]
    rfl

theorem run_tokens {b b' : Builder} {ts us : List Token} {ps : List Diagnostic}
    (h : Run line b ts ps b' us) :
    Run line (σ.builder b) (ts.map σ.token) (ps.map σ.diagnostic) (σ.builder b')
      (us.map σ.token) := by
  induction h with
  | refl b ts => exact .refl _ _
  | newline ht _ ih => exact .newline (by rw [kind_token, ht]; rfl) ih
  | @line b t ts ps b' us width ht _ ih =>
    have one := σ.line_tokens b width ts
    have ht' : (σ.token t).kind = .indent (σ.width width) := by rw [kind_token, ht, kind]
    rw [List.map_cons, List.map_append]
    have all : Run Outline.line (σ.builder b) (σ.token t :: ts.map σ.token) _ _ _ :=
      .line ht' (by rw [one]; exact ih)
    rw [one] at all
    exact all

theorem atEnd_tokens {ts : List Token} (h : AtEnd ts) : AtEnd (ts.map σ.token) := by
  rw [AtEnd, next_tokens, kind_token, show (next ts).kind = .eof from h]
  rfl

/-- The outline of moved tokens. -/
theorem ofTokens_tokens {ts : List Token} (hl : Lined ts) (h : AtLineEnd ts) :
    ofTokens (ts.map σ.token) =
      (σ.outline (ofTokens ts).1, (ofTokens ts).2.map σ.diagnostic) := by
  obtain ⟨ps, b, us, run, left, done⟩ := exists_run .empty hl h
  rw [ofTokens_of_run run done, ofTokens_of_run (σ.run_tokens run) (σ.atEnd_tokens done),
    finish_builder]

end Wireframe.Shift
