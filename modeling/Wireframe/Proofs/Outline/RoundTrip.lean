import Wireframe.Proofs.Lexeme.Lines
import Wireframe.Proofs.Outline.PrintedLines
import Wireframe.Proofs.Outline.ShiftedRun

/-!
# Reading undoes printing

A printable outline is read back from what is printed of it, up to the places of its parts, and
there is nothing to report. The induction over the outline carries what closing the open tags to the
width of a level gives (`Ready`): reading the trees of that level adds them there and leaves the
level open for the next tag (`run_trees`).
-/

namespace Wireframe.Outline

open Printer

/-- The open tags and closed trees when all tags that are at least as wide as `width` are closed. -/
def shutTo (b : Builder) (width : Nat) : Builder :=
  Builder.collapse (fun f => width ≤ f.width) b.frames b.roots

/-- Closed trees as the last children of the innermost open tag, or as the last roots. -/
def addTrees (ts : Outline) : Builder → Builder
  | ⟨[], roots⟩ => ⟨[], ts.reverse ++ roots⟩
  | ⟨f :: fs, roots⟩ => ⟨{ f with children := ts.reverse ++ f.children } :: fs, roots⟩

/-- Closing the open tags to a width gives `c`, and a tag at that width fits. -/
structure Ready (b : Builder) (width : Nat) (c : Builder) : Prop where
  shut : shutTo b width = c
  fits : b.unmatched width = false

/-- Whether no open tag is as wide as `width`, as far as the innermost one tells. -/
def IsShut (b : Builder) (width : Nat) : Prop :=
  b.frames.head?.any (fun f => width ≤ f.width) = false

theorem addTrees_addTrees (ts us : Outline) (c : Builder) :
    addTrees us (addTrees ts c) = addTrees (ts ++ us) c := by
  obtain ⟨frames, roots⟩ := c
  cases frames <;> simp [addTrees]

theorem widths_addTrees (ts : Outline) (c : Builder) :
    (addTrees ts c).frames.map Frame.width = c.frames.map Frame.width := by
  obtain ⟨frames, roots⟩ := c
  cases frames <;> rfl

/-- The innermost tag is closed to a tree of the tag around it. -/
theorem shutTo_cons {f : Frame} {width : Nat} (h : width ≤ f.width) (fs : List Frame)
    (roots : Outline) :
    shutTo ⟨f :: fs, roots⟩ width = shutTo (addTrees [f.tree] ⟨fs, roots⟩) width := by
  unfold shutTo
  cases fs with
  | nil =>
    rw [Builder.collapse, if_pos (decide_eq_true h), addTrees, Builder.collapse]
    rfl
  | cons g gs =>
    rw [Builder.collapse, if_pos (decide_eq_true h)]
    rfl

theorem isShut_shutTo (b : Builder) (width : Nat) : IsShut (shutTo b width) width := by
  unfold shutTo IsShut
  fun_induction Builder.collapse (fun f => width ≤ f.width) b.frames b.roots with
  | case1 | case2 => rfl
  | case3 f roots h | case5 f g fs roots h => simpa using h
  | case4 f g fs roots h ih => exact ih

theorem IsShut.shutTo {c : Builder} {width : Nat} (h : IsShut c width) : shutTo c width = c := by
  obtain ⟨frames, roots⟩ := c
  unfold Outline.shutTo
  match frames, h with
  | [], _ => rw [Builder.collapse]
  | [f], h => rw [Builder.collapse, if_neg (by simpa [IsShut] using h)]
  | f :: g :: fs, h => rw [Builder.collapse, if_neg (by simpa [IsShut] using h)]

theorem IsShut.addTrees {c : Builder} {width : Nat} (h : IsShut c width) (ts : Outline) :
    IsShut (addTrees ts c) width := by
  obtain ⟨frames, roots⟩ := c
  cases frames with
  | nil => rfl
  | cons f fs => exact h

/-- Closing more tags after fewer of them closes as many as at once. -/
theorem shutTo_shutTo (b : Builder) {v w : Nat} (h : v ≤ w) :
    shutTo (shutTo b w) v = shutTo b v := by
  unfold shutTo
  fun_induction Builder.collapse (fun f => w ≤ f.width) b.frames b.roots with
  | case1 roots => rfl
  | case2 f roots hf =>
    have hv : v ≤ f.width := Nat.le_trans h (of_decide_eq_true hf)
    rw [Builder.collapse, Builder.collapse, if_pos (decide_eq_true hv)]
  | case3 f roots hf | case5 f g fs roots hf => rfl
  | case4 f g fs roots hf ih =>
    have hv : v ≤ f.width := Nat.le_trans h (of_decide_eq_true hf)
    rw [ih, Builder.collapse, if_pos (decide_eq_true hv)]

theorem widths_shutTo (b : Builder) (width : Nat) :
    (shutTo b width).frames.map Frame.width =
      (b.frames.map Frame.width).dropWhile (width ≤ ·) := by
  unfold shutTo
  fun_induction Builder.collapse (fun f => width ≤ f.width) b.frames b.roots with
  | case1 roots => rfl
  | case2 f roots h => simp_all
  | case3 f roots h | case5 f g fs roots h =>
    rw [List.map_cons, List.dropWhile_cons_of_neg (p := (width ≤ ·)) h]
  | case4 f g fs roots h ih =>
    rw [ih, List.map_cons, List.map_cons, List.dropWhile_cons_of_pos (p := (width ≤ ·)) h]
    rfl

theorem unmatched_eq_widths (b : Builder) (width : Nat) :
    b.unmatched width =
      (((b.frames.map Frame.width).takeWhile (width ≤ ·)).getLast?).any (· ≠ width) := by
  rw [Builder.unmatched, List.takeWhile_map, List.getLast?_map, Option.any_map]
  rfl

/-- A level is ready again when the trees of the level below a tag of it are read. -/
theorem Ready.up {b c : Builder} {v w : Nat} {e : Element} {ts : Outline} (hvw : v < w)
    (hc : IsShut c v) (h : Ready b w (addTrees ts ⟨⟨v, e, []⟩ :: c.frames, c.roots⟩)) :
    Ready b v (addTrees [.node e ts] c) := by
  constructor
  · rw [← shutTo_shutTo b (Nat.le_of_lt hvw), h.shut]
    have tree : (⟨v, e, ts.reverse ++ []⟩ : Frame).tree = .node e ts := by
      rw [Frame.tree, List.append_nil, List.reverse_reverse]
    rw [addTrees, shutTo_cons (Nat.le_refl v), tree]
    exact (hc.addTrees _).shutTo
  · have below := widths_shutTo b w
    rw [h.shut, widths_addTrees, List.map_cons] at below
    have inner : ∀ u ∈ (b.frames.map Frame.width).takeWhile (w ≤ ·), decide (v ≤ u) = true := by
      intro u hu
      have wide := of_decide_eq_true (List.all_eq_true.mp List.all_takeWhile u hu)
      exact decide_eq_true (by omega)
    have outer : (c.frames.map Frame.width).takeWhile (v ≤ ·) = [] := by
      obtain ⟨frames, roots⟩ := c
      cases frames with
      | nil => rfl
      | cons f fs => exact List.takeWhile_cons_of_neg (by simpa [IsShut] using hc)
    rw [unmatched_eq_widths, ← List.takeWhile_append_dropWhile (p := (w ≤ ·))
      (l := b.frames.map Frame.width), ← below, List.takeWhile_append_of_pos inner,
      List.takeWhile_cons_of_pos (by simp), outer, List.getLast?_concat]
    simp

theorem ready_of_isShut {b : Builder} {width : Nat} (h : IsShut b width) : Ready b width b := by
  refine ⟨h.shutTo, ?_⟩
  rw [unmatched_eq_widths]
  obtain ⟨frames, roots⟩ := b
  cases frames with
  | nil => rfl
  | cons f fs =>
    rw [List.map_cons, List.takeWhile_cons_of_neg (by simpa [IsShut] using h)]
    rfl

section Lines

variable {vs : List Token} (hv : Over vs)

theorem run_lineTokens {b b' : Builder} {depth : Nat} {ts : List Token}
    (h : line b (2 * depth) (ts ++ vs) = ⟨b', [], vs⟩) :
    Run line b (lineTokens depth ts ++ vs) [] b' vs := by
  have one : Run line b (Lexeme.indentToken (2 * depth) :: (ts ++ vs)) _ _ _ :=
    .line rfl (.refl _ _)
  rw [h] at one
  exact .newline rfl one

include hv

theorem over_flatMap (depth : Nat) (lines : List (List Token)) :
    Over (lines.flatMap (lineTokens depth) ++ vs) := by
  cases lines with
  | nil => exact hv
  | cons ts lines => exact .inl rfl

theorem over_treesTokens (depth : Nat) (ts : List (Tree Element)) :
    Over (treesTokens depth ts ++ vs) := by
  match ts with
  | [] => exact hv
  | .node e us :: ts =>
    rw [treesTokens, treeTokens]
    exact .inl rfl

/-- A printed bracket opens its tag. -/
theorem line_bracketTokens {b : Builder} {width : Nat} (h : b.unmatched width = false)
    (e : Element) :
    line b width (bracketTokens e ++ vs) =
      ⟨b.openTag width (.bare e.tag e.payload .nowhere), [], vs⟩ := by
  have bracket : tagLine b width .nowhere ((bracketTokens e).drop 1 ++ vs) =
      ⟨b.openTag width (.bare e.tag e.payload .nowhere), [], vs⟩ := by
    have none := items_eq_of_read (.stop hv.item?)
    simp only [tagLine, tag_bracketTokens, itemsLine, none, hv.endLine, h]
    rfl
  rw [line_eq]
  exact bracket

/-- A printed line of metadata adds its item to the tag before it. -/
theorem line_item {v w : Nat} (hvw : v ≤ w) {e : Element} {trees : Outline} {fs : List Frame}
    {roots : Outline} {ts : List Token} {x : Item}
    (hk : lineKind (next (ts ++ vs)).kind = .metadata)
    (hi : Outline.item? (ts ++ vs) = some ⟨[x], [], vs⟩)
    (hx : Builder.replacements e.content.isSome [x] = []) :
    line ⟨⟨v, e, trees⟩ :: fs, roots⟩ w (ts ++ vs) =
      ⟨⟨⟨v, Builder.addItems e [x], trees⟩ :: fs, roots⟩, [], vs⟩ := by
  rw [line_metadata hvw fs roots hk, hv.itemsLine (hv.items hi)]
  simp only [Builder.attach, Builder.attachProblems, hx, List.append_nil]

section Metadata

variable (depth : Nat) (e : Element) (fs : List Frame) (roots : Outline)

/-- A tag whose children are still to come. -/
def openFrames : Builder :=
  ⟨⟨2 * depth, e, []⟩ :: fs, roots⟩

theorem run_layoutLines {as : List Attribute} (h : ∀ a ∈ as, a.value.Printable) :
    Run line (openFrames depth e fs roots)
      ((if as = [] then [] else [layoutTokens as]).flatMap (lineTokens (depth + 1)) ++ vs) []
      (openFrames depth { e with layout := e.layout ++ as.map Shift.unplaced.entry } fs roots)
      vs := by
  by_cases ha : as = []
  · rw [if_pos ha, ha, List.map_nil, List.append_nil]
    exact .refl _ _
  · rw [if_neg ha, List.flatMap_singleton]
    exact run_lineTokens (line_item hv (by omega) rfl (item?_layoutTokens h vs) rfl)

theorem run_attributesLines {as : List Attribute} (h : ∀ a ∈ as, a.value.Printable) :
    Run line (openFrames depth e fs roots)
      ((if as = [] then [] else [attributesTokens as]).flatMap (lineTokens (depth + 1)) ++ vs) []
      (openFrames depth { e with attributes := e.attributes ++ as.map Shift.unplaced.entry } fs
        roots) vs := by
  by_cases ha : as = []
  · rw [if_pos ha, ha, List.map_nil, List.append_nil]
    exact .refl _ _
  · rw [if_neg ha, List.flatMap_singleton]
    exact run_lineTokens (line_item hv (by omega) rfl (item?_attributesTokens h ha hv) rfl)

theorem run_contentLines (he : e.content = none) (content : Option String) :
    Run line (openFrames depth e fs roots)
      ((content.map contentTokens).toList.flatMap (lineTokens (depth + 1)) ++ vs) []
      (openFrames depth { e with content := content } fs roots) vs := by
  cases content with
  | none =>
    have same : { e with content := none } = e := by rw [← he]
    rw [same]
    exact .refl _ _
  | some text =>
    rw [Option.map_some, Option.toList_some, List.flatMap_singleton]
    have first : Builder.replacements e.content.isSome [.content text .nowhere] = [] := by
      rw [he]
      rfl
    exact run_lineTokens (line_item hv (by omega) rfl (item?_contentTokens text vs) first)

/-- Printed metadata gives its element all it had. -/
theorem run_metadata {e : Element} (h : e.Printable) :
    Run line (openFrames depth (.bare e.tag e.payload .nowhere) fs roots)
      ((metadataTokens e).flatMap (lineTokens (depth + 1)) ++ vs) []
      (openFrames depth (Shift.unplaced.element e) fs roots) vs := by
  rw [metadataTokens, List.flatMap_append, List.flatMap_append, List.append_assoc,
    List.append_assoc]
  have behind := over_flatMap hv (depth + 1) (e.content.map contentTokens).toList
  have behind' := over_flatMap behind (depth + 1)
    (if e.attributes = [] then [] else [attributesTokens e.attributes])
  have laid := run_layoutLines behind' depth (.bare e.tag e.payload .nowhere) fs roots h.layout
  exact laid.trans ((run_attributesLines behind depth _ fs roots h.attributes).trans
    (run_contentLines hv depth _ fs roots rfl e.content))

end Metadata

end Lines

mutual

theorem run_tree (depth : Nat) (t : Tree Element) (h : ∀ u ∈ t.preorder, u.value.Printable)
    {b c : Builder} (hb : Ready b (2 * depth) c) {vs : List Token} (hv : Over vs) :
    ∃ b', Ready b' (2 * depth) (addTrees [t.map Shift.unplaced.element] c) ∧
      Run line b (treeTokens depth t ++ vs) [] b' vs := by
  match t with
  | .node e ts =>
    have root : e.Printable := h (.node e ts) (by rw [Tree.preorder]; exact List.mem_cons_self)
    have below : Printable ts := fun u hu => h u (by
      rw [Tree.preorder]
      exact List.mem_cons_of_mem _ hu)
    have shut : IsShut c (2 * depth) := hb.shut ▸ isShut_shutTo b (2 * depth)
    have opened : b.openTag (2 * depth) (.bare e.tag e.payload .nowhere) =
        ⟨⟨2 * depth, .bare e.tag e.payload .nowhere, []⟩ :: c.frames, c.roots⟩ := by
      rw [← hb.shut]
      rfl
    have inner : Ready ⟨⟨2 * depth, Shift.unplaced.element e, []⟩ :: c.frames, c.roots⟩
        (2 * (depth + 1)) ⟨⟨2 * depth, Shift.unplaced.element e, []⟩ :: c.frames, c.roots⟩ := by
      refine ready_of_isShut ?_
      simp only [IsShut, List.head?_cons, Option.any_some, decide_eq_false_iff_not]
      omega
    obtain ⟨b', ready, children⟩ := run_trees (depth + 1) ts below inner hv
    have ended := over_treesTokens hv (depth + 1) ts
    have bracket := run_lineTokens (line_bracketTokens
      (over_flatMap ended (depth + 1) (metadataTokens e)) hb.fits e)
    have items := run_metadata ended depth c.frames c.roots root
    rw [opened] at bracket
    refine ⟨b', ready.up (by omega) shut, ?_⟩
    rw [treeTokens, List.append_assoc, List.append_assoc]
    exact bracket.trans (items.trans children)

/-- Printed trees are read and added to where their level is. -/
theorem run_trees (depth : Nat) (ts : List (Tree Element)) (h : Printable ts) {b c : Builder}
    (hb : Ready b (2 * depth) c) {vs : List Token} (hv : Over vs) :
    ∃ b', Ready b' (2 * depth) (addTrees (Shift.unplaced.outline ts) c) ∧
      Run line b (treesTokens depth ts ++ vs) [] b' vs := by
  match ts with
  | [] =>
    refine ⟨b, ?_, .refl b vs⟩
    obtain ⟨frames, roots⟩ := c
    cases frames <;> exact hb
  | t :: ts =>
    obtain ⟨b₁, ready₁, first⟩ := run_tree depth t
      (fun u hu => h u (by rw [Tree.preorderAll]; exact List.mem_append_left _ hu)) hb
      (over_treesTokens hv depth ts)
    obtain ⟨b₂, ready₂, more⟩ := run_trees depth ts
      (fun u hu => h u (by rw [Tree.preorderAll]; exact List.mem_append_right _ hu)) ready₁ hv
    refine ⟨b₂, ?_, ?_⟩
    · rw [addTrees_addTrees] at ready₂
      exact ready₂
    · rw [treesTokens, List.append_assoc]
      exact first.trans more

end

theorem lines_ne_nil {o : Outline} (h : o ≠ []) : trees 0 o ≠ [] := by
  match o with
  | [] => exact absurd rfl h
  | .node e ts :: us =>
    rw [trees, tree]
    simp

/-- The outline of the tokens that printed trees spell. -/
theorem ofTokens_treesTokens {o : Outline} (h : Printable o) :
    ofTokens (treesTokens 0 o ++ [Token.eofAt .nowhere]) = (Shift.unplaced.outline o, []) := by
  have empty : Ready .empty (2 * 0) .empty := ready_of_isShut rfl
  obtain ⟨b, ready, run⟩ := run_trees 0 o h empty (.inr rfl : Over [Token.eofAt .nowhere])
  have all : (fun f : Frame => decide (0 ≤ f.width)) = fun _ => true := by
    funext f
    exact decide_eq_true (Nat.zero_le _)
  have finished : b.finish = Shift.unplaced.outline o := by
    have shut := ready.shut
    rw [shutTo, all] at shut
    rw [Builder.finish, shut]
    simp [addTrees, Builder.empty]
  rw [ofTokens_of_run run rfl, finished]

/-- A printable outline is read back from what is printed of it, up to the places of its parts, and
nothing is reported. -/
theorem read_print (o : Outline) (h : Printable o) :
    Shift.unplaced.outline (read (print o)).1 = Shift.unplaced.outline o ∧
      (read (print o)).2 = [] := by
  have moved := Shift.unplaced.ofTokens_tokens (Token.lined_scan (print o))
    (Token.atLineEnd_scan (print o))
  have written : ofTokens ((Token.scan (print o)).1.map Shift.unplaced.token) =
      (Shift.unplaced.outline o, []) ∧ (Token.scan (print o)).2 = [] := by
    by_cases hne : o = []
    · subst hne
      have nothing : Token.scan (print []) = ([Token.eofAt .start], []) := by
        rw [Token.scan_eq]
        rfl
      rw [nothing]
      exact ⟨ofTokens_treesTokens h, rfl⟩
    · obtain ⟨tokens, silent⟩ := Token.scan_of_spelled (spelled_trees 0 o h) (lines_ne_nil hne)
      refine ⟨?_, silent⟩
      rw [← ofTokens_treesTokens h, ← tokens, ofTokens, ofTokens, readFrom.eq_def _ (_ :: _)]
      rfl
  rw [moved, Prod.mk.injEq, List.map_eq_nil_iff] at written
  obtain ⟨⟨outline, syntactic⟩, lexical⟩ := written
  refine ⟨outline, ?_⟩
  simp only [read, lexical, syntactic, List.append_nil]

/-- A card with a button, every kind of payload and metadata among them. -/
def card : Outline :=
  [.node ⟨"Card", .literal "[Plans] // \"all\"", [⟨"cols：", .text "2,\n3", .nowhere⟩],
      [⟨"shadow", .bool true, .nowhere⟩, ⟨"", .text "CONTENT: ATTR", .nowhere⟩], none, .nowhere⟩
    [.node ⟨"Button", .id "buy_1", [], [], some "\\购买", .nowhere⟩ []],
   .node ⟨"Text", .none, [], [], some "", .nowhere⟩ []]

theorem printable_card : Printable card := by
  intro t ht
  simp only [card, Tree.preorderAll, Tree.preorder, List.append_nil, List.cons_append,
    List.nil_append, List.mem_cons, List.not_mem_nil, or_false] at ht
  have text (s : String) : (Value.text s).Printable := fun x h => by cases h
  rcases ht with rfl | rfl | rfl
  · exact ⟨by decide, nofun, by simp [text], by simp [Value.Printable]⟩
  · exact ⟨by decide, fun w hw => by cases hw; decide, by simp, by simp⟩
  · exact ⟨by decide, nofun, by simp, by simp⟩

theorem read_print_card : Printable card ∧
    Shift.unplaced.outline (read (print card)).1 = card ∧ (read (print card)).2 = [] :=
  ⟨printable_card, read_print card printable_card⟩

end Wireframe.Outline
