import Wireframe.Proofs.Forest
import Wireframe.Proofs.Lexeme.Lines

/-!
# One node for each tag line

Reading neither loses nor invents a tag, whatever else is wrong with a text: the nodes of an
outline, each before those below it, are the tag lines of the text in their order. A line keeps the
tag lines behind it because its readers stop in front of them (`marks_line`), and frames keep the
order of their tags when they are closed (`builderMarks_collapse`).
-/

namespace Wireframe.Outline

open Token.Kind

/-- The tag lines of tokens: the place of every bracket that follows an indentation, and the name
behind it, which is empty where there is none. -/
def tagLines : List Token → List (Location × String)
  | [] => []
  | t :: ts =>
    (if isIndent t.kind ∧ (next ts).kind = .openBracket then
      [((next ts).location, (ident? (next (ts.drop 1))).getD "")] else []) ++ tagLines ts

/-- Where the tag of an element stands, and what it is. -/
def mark (e : Element) : Location × String :=
  (e.location, e.tag)

/-- The marks of a forest in the order of its nodes. -/
def marks (o : Outline) : List (Location × String) :=
  (Tree.preorderAll o).map fun t => mark t.value

@[simp] theorem marks_append (o p : Outline) : marks (o ++ p) = marks o ++ marks p := by
  simp [marks]

@[simp] theorem marks_singleton (e : Element) (ts : Outline) :
    marks [.node e ts] = mark e :: marks ts := by
  simp [marks, Tree.preorderAll, Tree.preorder]

/-- The marks of open tags and of what is below them. -/
def frameMarks : List Frame → List (Location × String)
  | [] => []
  | f :: fs => frameMarks fs ++ mark f.element :: marks f.children.reverse

/-- The marks of all tags that are open or closed. -/
def builderMarks (b : Builder) : List (Location × String) :=
  marks b.roots.reverse ++ frameMarks b.frames

theorem builderMarks_collapse (p : Frame → Bool) (fs : List Frame) (roots : Outline) :
    builderMarks (Builder.collapse p fs roots) = builderMarks ⟨fs, roots⟩ := by
  fun_induction Builder.collapse p fs roots with
  | case1 roots => rfl
  | case2 f roots h => simp [builderMarks, frameMarks, Frame.tree]
  | case3 f roots h => rfl
  | case4 f g fs roots h ih =>
    rw [ih]
    simp [builderMarks, frameMarks, Frame.tree]
  | case5 f g fs roots h => rfl

theorem builderMarks_openTag (b : Builder) (width : Nat) (e : Element) :
    builderMarks (b.openTag width e) = builderMarks b ++ [mark e] := by
  have closed := builderMarks_collapse (fun f => width ≤ f.width) b.frames b.roots
  simp only [builderMarks] at closed ⊢
  simp only [Builder.openTag, frameMarks]
  rw [← List.append_assoc, closed]
  rfl

theorem mark_addItems (e : Element) (items : List Item) :
    mark (Builder.addItems e items) = mark e := by
  fun_induction Builder.addItems e items with
  | case1 e => rfl
  | case2 e entries items ih => exact ih
  | case3 e entries items ih => exact ih
  | case4 e text p items ih => exact ih

theorem builderMarks_attach (b : Builder) (items : List Item) :
    builderMarks (b.attach items) = builderMarks b := by
  unfold Builder.attach
  split
  · rfl
  next f fs hf => simp only [builderMarks, hf, frameMarks, mark_addItems]

theorem collapse_frames_all (fs : List Frame) (roots : Outline) :
    (Builder.collapse (fun _ => true) fs roots).frames = [] := by
  fun_induction Builder.collapse (fun _ => true) fs roots <;> simp_all

theorem marks_finish (b : Builder) : marks b.finish = builderMarks b := by
  have closed := builderMarks_collapse (fun _ => true) b.frames b.roots
  simp only [builderMarks, collapse_frames_all, frameMarks, List.append_nil] at closed
  exact closed

theorem mark_tag (start : Location) (ts : List Token) :
    mark (tag start ts).value = (start, (ident? (next ts)).getD "") := by
  have name : (tagName ts).value = (ident? (next ts)).getD "" := by
    rw [tagName_eq]
    cases ident? (next ts) <;> rfl
  unfold tag
  dsimp only
  split <;> simp [mark, Element.bare, name]

/-- Tokens that are left of others have the same tag lines when the start of none was taken. -/
theorem tagLines_of_suffix {ts rest : List Token} (h : rest <:+ ts)
    (keeps : ∀ {i o : Token} {us : List Token}, TagStart i o → i :: o :: us <:+ ts →
      i :: o :: us <:+ rest) : tagLines rest = tagLines ts := by
  obtain ⟨taken, rfl⟩ := h
  induction taken with
  | nil => rfl
  | cons t taken ih =>
    rw [List.cons_append, tagLines, if_neg, List.nil_append]
    · exact ih fun hs hu => keeps hs (hu.trans (List.suffix_cons t _))
    · rintro ⟨ht, hn⟩
      -- a tag line that begins here would be left, and then nothing was taken
      cases hts : taken ++ rest with
      | nil =>
        rw [hts] at hn
        cases hn
      | cons o us =>
        rw [hts] at hn
        have start : TagStart t o := ⟨isIndent_eq_true.mp ht, hn⟩
        have whole : t :: taken ++ rest = t :: o :: us := by rw [List.cons_append, hts]
        have left := keeps start ⟨[], whole.symm⟩
        have length := left.length_le
        rw [← hts, List.length_cons, List.length_append] at length
        omega

/-- A reader that stops in front of tag lines leaves them all. -/
theorem KeepsTagStarts.tagLines_rest {α : Type} {f : List Token → Reading α}
    (h : KeepsTagStarts f) {ts : List Token} (hs : (f ts).rest <:+ ts) :
    tagLines (f ts).rest = tagLines ts := by
  refine tagLines_of_suffix hs fun {i o us} start hu => ?_
  obtain ⟨taken, rfl⟩ := hu
  obtain ⟨left, same⟩ := h start (List.suffix_append taken [i, o])
  have whole : taken ++ i :: o :: us = taken ++ [i, o] ++ us := by simp
  obtain ⟨more, hm⟩ := left
  refine ⟨more, ?_⟩
  rw [whole, same, Reading.extend_rest, ← hm]
  simp

theorem marks_itemsLine (b : Builder) (ts : List Token) :
    builderMarks (itemsLine b ts).value = builderMarks b :=
  builderMarks_attach b _

/-- A line adds its tag, if it is a tag line, and nothing else. -/
theorem marks_line (b : Builder) (width : Nat) {t : Token} (ts : List Token)
    (ht : t.kind = .indent width) :
    builderMarks (line b width ts).value ++ tagLines (line b width ts).rest =
      builderMarks b ++ tagLines (t :: ts) := by
  have left := KeepsTagStarts.tagLines_rest (keepsTagStarts_line b width) (leaves_line b width ts).suffix
  rw [left, tagLines, line_eq]
  simp only [isIndent, ht, true_and]
  cases hk : (next ts).kind with
  | openBracket =>
    simp only [lineKind, tagLine, marks_itemsLine, builderMarks_openTag, mark_tag, if_true,
      List.append_assoc]
  | openBrace | attr | content =>
    simp only [lineKind, reduceCtorEq, if_false, List.nil_append]
    split
    · rw [marks_itemsLine, Builder.closeWider, builderMarks_collapse]
    · rfl
  | _ => simp only [lineKind, reduceCtorEq, if_false, List.nil_append]

theorem marks_run {b b' : Builder} {ts us : List Token} {ps : List Diagnostic}
    (h : Run line b ts ps b' us) :
    builderMarks b' ++ tagLines us = builderMarks b ++ tagLines ts := by
  induction h with
  | refl => rfl
  | newline ht _ ih => simpa [tagLines, ht, isIndent] using ih
  | line ht _ ih => rw [ih, marks_line _ _ _ ht]

theorem tagLines_of_atEnd {ts : List Token} (hl : Lined ts) (h : AtEnd ts) : tagLines ts = [] := by
  cases ts with
  | nil => rfl
  | cons t ts =>
    have ht : t.kind = .eof := h
    rw [hl.eof ht]
    simp [tagLines, isIndent, ht]

/-- The nodes of an outline, each before those below it, are the tag lines of its text. -/
theorem marks_read (source : String) :
    (Tree.preorderAll (read source).1).map (fun t => (t.value.location, t.value.tag)) =
      tagLines (Token.scan source).1 := by
  obtain ⟨ps, b, us, run, left, done⟩ :=
    exists_run .empty (Token.lined_scan source) (Token.atLineEnd_scan source)
  have all := marks_run run
  rw [tagLines_of_atEnd ((Token.lined_scan source).suffix left) done, List.append_nil,
    ← marks_finish, ← read_eq_finish run done] at all
  exact all

end Wireframe.Outline
