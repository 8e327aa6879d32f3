import Wireframe.Proofs.Analysis.ShiftedDocument
import Wireframe.Proofs.Lexeme.Lines
import Wireframe.Proofs.Outline.Closed
import Wireframe.Proofs.Outline.Printer
import Wireframe.Proofs.Outline.ShiftedRun

/-!
# Arrangements of metadata

The items behind a bracket may stand on the line of the tag or on lines of their own, and layout
blocks, attribute lists and content in any order among each other. Each of them is read as the same
item wherever it stands (`Arranged.reads`), and an element only depends on its items kind by kind
(`addItems_eq`). So a text says the same when the items of a tag are arranged in another way.
-/

namespace Wireframe.Outline

/-- The tokens of items behind a tag of a width. Each item goes on in the line that it finds, or
begins one that is no narrower than the tag. -/
inductive Arranged (width : Nat) : List Item → List Token → Prop
  | nil : Arranged width [] []
  | sameLine {ts x xs us} (piece : Piece ts x) (more : Arranged width xs us) :
      Arranged width (x :: xs) (ts ++ us)
  | newLine {n i v ts x xs us} (hn : n.kind = .newline) (hi : i.kind = .indent v) (hv : width ≤ v)
      (piece : Piece ts x) (more : Arranged width xs us) :
      Arranged width (x :: xs) (n :: i :: (ts ++ us))

namespace Item

def layout? : Item → Option (List Attribute)
  | .layout entries => some entries
  | _ => none

def attributes? : Item → Option (List Attribute)
  | .attributes entries => some entries
  | _ => none

def text? : Item → Option String
  | .content text _ => some text
  | _ => none

end Item

/-- Items of each kind in the same order. -/
structure SameByKind (xs ys : List Item) : Prop where
  layouts : xs.filterMap Item.layout? = ys.filterMap Item.layout?
  lists : xs.filterMap Item.attributes? = ys.filterMap Item.attributes?
  texts : xs.filterMap Item.text? = ys.filterMap Item.text?

/-- What items add to an element: all entries, and the last content if there is any. -/
theorem addItems_eq (e : Element) (xs : List Item) :
    Builder.addItems e xs =
      { e with
        layout := e.layout ++ (xs.filterMap Item.layout?).flatten
        attributes := e.attributes ++ (xs.filterMap Item.attributes?).flatten
        content := (xs.filterMap Item.text?).getLast?.or e.content } := by
  fun_induction Builder.addItems e xs with
  | case1 e => simp
  | case2 e entries xs ih | case3 e entries xs ih =>
    rw [ih]
    simp [List.filterMap_cons, Item.layout?, Item.attributes?, Item.text?]
  | case4 e text p xs ih =>
    rw [ih]
    simp only [List.filterMap_cons, Item.layout?, Item.attributes?, Item.text?]
    rw [List.getLast?_cons]
    cases (xs.filterMap Item.text?).getLast? <;> rfl

theorem SameByKind.addItems {xs ys : List Item} (h : SameByKind xs ys) (e : Element) :
    Builder.addItems e xs = Builder.addItems e ys := by
  rw [addItems_eq, addItems_eq, h.layouts, h.lists, h.texts]

theorem addItems_append (e : Element) (xs ys : List Item) :
    Builder.addItems e (xs ++ ys) = Builder.addItems (Builder.addItems e xs) ys := by
  fun_induction Builder.addItems e xs with
  | case1 e => rfl
  | case2 e entries xs ih | case3 e entries xs ih | case4 e text p xs ih => exact ih

/-- How items are read that are followed by the end of a line: some of them in the line that they
begin in, and the others by a run that adds them to the tag. -/
def ReadAs (width : Nat) (xs : List Item) (ts after : List Token) : Prop :=
  ∃ xs₁ xs₂ ps rest, xs = xs₁ ++ xs₂ ∧ items ts = ⟨xs₁, ps, rest⟩ ∧ Over rest ∧
    ∀ e trees fs roots, ∃ qs, Run line ⟨⟨width, e, trees⟩ :: fs, roots⟩ rest qs
      ⟨⟨width, Builder.addItems e xs₂, trees⟩ :: fs, roots⟩ after

section

variable {width : Nat} {xs : List Item} {ts us after : List Token}

theorem ReadAs.nil (h : Over after) : ReadAs width [] after after :=
  ⟨[], [], [], after, rfl, items_eq_of_read (.stop h.item?), h, fun _ _ _ _ => ⟨[], .refl _ _⟩⟩

theorem ReadAs.sameLine {x : Item} (piece : Piece ts x) (hu : AfterItem us)
    (h : ReadAs width xs us after) : ReadAs width (x :: xs) (ts ++ us) after := by
  obtain ⟨xs₁, xs₂, ps, rest, rfl, read, ended, run⟩ := h
  obtain ⟨qs, first⟩ := piece.item? hu
  have more := read_items us
  rw [read] at more
  exact ⟨x :: xs₁, xs₂, qs ++ ps, rest, rfl, items_eq_of_read (.item first more), ended, run⟩

theorem ReadAs.newLine {n i : Token} {v : Nat} (hn : n.kind = .newline) (hi : i.kind = .indent v)
    (hv : width ≤ v) (hk : lineKind (next ts).kind = .metadata) (h : ReadAs width xs ts after) :
    ReadAs width xs (n :: i :: ts) after := by
  obtain ⟨xs₁, xs₂, ps, rest, rfl, read, ended, run⟩ := h
  have here : Over (n :: i :: ts) := .inl hn
  refine ⟨[], xs₁ ++ xs₂, [], n :: i :: ts, rfl, items_eq_of_read (.stop here.item?), here, ?_⟩
  intro e trees fs roots
  have added := line_metadata (f := ⟨width, e, trees⟩) hv fs roots hk
  rw [ended.itemsLine read] at added
  obtain ⟨qs, more⟩ := run (Builder.addItems e xs₁) trees fs roots
  have all : Run line ⟨⟨width, e, trees⟩ :: fs, roots⟩ (i :: ts) _ _ after :=
    .line hi (by rw [added]; exact more)
  rw [addItems_append]
  exact ⟨_, .newline hn all⟩

theorem Arranged.afterItem (h : Arranged width xs us) (ha : AfterItem after) :
    AfterItem (us ++ after) := by
  cases h with
  | nil => exact ha
  | sameLine piece more =>
    rw [List.append_assoc]
    exact piece.afterItem _
  | newLine hn hi hv piece more =>
    rw [List.cons_append, AfterItem, show (next (_ :: _)).kind = .newline from hn]
    rfl

/-- Arranged items are read one by one. -/
theorem Arranged.reads (h : Arranged width xs us) (ha : Over after) :
    ReadAs width xs (us ++ after) after := by
  induction h with
  | nil => exact .nil ha
  | sameLine piece more ih =>
    rw [List.append_assoc]
    exact ih.sameLine piece (more.afterItem ha.afterItem)
  | newLine hn hi hv piece more ih =>
    have here := ih.sameLine piece (more.afterItem ha.afterItem)
    rw [List.cons_append, List.cons_append, List.append_assoc]
    exact here.newLine hn hi hv (piece.lineKind _)

end

/-- The tokens of a bracket behind the opening one, which stands at `start`. -/
structure Bracket (start : Location) (ts : List Token) : Prop where
  closed : ⟨.unterminatedTag, start⟩ ∉ (tag start ts).problems
  whole : (tag start ts).rest = []

section

variable {width : Nat} {i o : Token} {inner after : List Token} (hi : i.kind = .indent width)
  (ho : o.kind = .openBracket) (bracket : Bracket o.location inner)

include hi ho bracket

/-- A tag that is followed by arranged items gets all of them, and is still open. -/
theorem run_arranged {xs : List Item} {us : List Token} (h : Arranged width xs us)
    (ha : Over after) (b : Builder) :
    ∃ ps, Run line b (i :: o :: (inner ++ (us ++ after))) ps
      (b.openTag width (Builder.addItems (tag o.location inner).value xs)) after := by
  obtain ⟨xs₁, xs₂, ps, rest, rfl, read, ended, run⟩ := h.reads ha
  have head := tag_append (us ++ after) bracket.closed
  have opened : line b width (o :: (inner ++ (us ++ after))) =
      tagLine b width o.location (inner ++ (us ++ after)) := by
    rw [line_eq, show (next (o :: _)).kind = .openBracket from ho]
    rfl
  have items : itemsLine (b.openTag width (tag o.location inner).value) (us ++ after) = _ :=
    ended.itemsLine read _
  rw [tagLine, head] at opened
  simp only [Reading.extend_value, Reading.extend_rest, bracket.whole, List.nil_append, items]
    at opened
  obtain ⟨qs, more⟩ := run (Builder.addItems (tag o.location inner).value xs₁) [] _ _
  rw [← addItems_append] at more
  exact ⟨_, .line hi (by rw [opened]; exact more)⟩

/-- What is read of a text does not depend on how the items of a tag are arranged. -/
theorem ofTokens_arranged {before us₁ us₂ : List Token} {xs ys : List Item}
    (lined : Lined (before ++ [i, o])) (begins : AtLineEnd (before ++ [i, o]))
    (h₁ : Arranged width xs us₁) (h₂ : Arranged width ys us₂) (same : SameByKind xs ys)
    (ha : Over after) :
    (ofTokens (before ++ i :: o :: (inner ++ (us₁ ++ after)))).1 =
      (ofTokens (before ++ i :: o :: (inner ++ (us₂ ++ after)))).1 := by
  obtain ⟨ps, b, run⟩ := exists_run_tagStart .empty ⟨⟨width, hi⟩, ho⟩ lined begins
  obtain ⟨qs₁, first⟩ := run_arranged hi ho bracket h₁ ha b
  obtain ⟨qs₂, second⟩ := run_arranged hi ho bracket h₂ ha b
  rw [same.addItems] at first
  rw [ofTokens, ofTokens, readFrom_of_run ((run _).trans first),
    readFrom_of_run ((run _).trans second)]

end

/-- The tokens of a text without their places. -/
def unplacedTokens (source : String) : List Token :=
  (Token.scan source).1.map Shift.unplaced.token

theorem lined_unplacedTokens (source : String) : Lined (unplacedTokens source) := by
  have lined := Token.lined_scan source
  have kinds : (unplacedTokens source).map Token.kind = (Token.scan source).1.map Token.kind := by
    rw [unplacedTokens, List.map_map]
    exact List.map_congr_left fun t _ => by simp
  rw [Lined, kinds]
  exact lined

theorem atLineEnd_unplacedTokens (source : String) : AtLineEnd (unplacedTokens source) := by
  rw [AtLineEnd, unplacedTokens, Shift.next_tokens, Shift.inLine_token]
  exact Token.atLineEnd_scan source

theorem ofTokens_unplacedTokens (source : String) :
    (ofTokens (unplacedTokens source)).1 = Shift.unplaced.outline (read source).1 := by
  rw [unplacedTokens,
    Shift.ofTokens_tokens _ (Token.lined_scan source) (Token.atLineEnd_scan source)]
  rfl

/-- Two texts that differ in how the items of one tag are arranged say the same, up to the places of
its parts, and become the same document. -/
theorem read_arranged {s₁ s₂ : String} {width : Nat} {i o : Token}
    {before inner us₁ us₂ after : List Token} {xs ys : List Item}
    (hs₁ : unplacedTokens s₁ = before ++ i :: o :: (inner ++ (us₁ ++ after)))
    (hs₂ : unplacedTokens s₂ = before ++ i :: o :: (inner ++ (us₂ ++ after)))
    (hi : i.kind = .indent width) (ho : o.kind = .openBracket)
    (bracket : Bracket o.location inner) (h₁ : Arranged width xs us₁)
    (h₂ : Arranged width ys us₂) (same : SameByKind xs ys) (ha : Over after) :
    Shift.unplaced.outline (read s₁).1 = Shift.unplaced.outline (read s₂).1 ∧
      ∀ options, (Analysis.document? (read s₁).1 options).1 =
        (Analysis.document? (read s₂).1 options).1 := by
  have whole : before ++ i :: o :: (inner ++ (us₁ ++ after)) =
      before ++ [i, o] ++ (inner ++ (us₁ ++ after)) := by simp
  have lined : Lined (before ++ [i, o]) := by
    have all := lined_unplacedTokens s₁
    rw [hs₁, whole, Lined, List.map_append] at all
    exact all.left_of_append
  have begins : AtLineEnd (before ++ [i, o]) := by
    have all := atLineEnd_unplacedTokens s₁
    rw [hs₁, whole, AtLineEnd, next_append _ (by simp)] at all
    exact all
  have outlines : Shift.unplaced.outline (read s₁).1 = Shift.unplaced.outline (read s₂).1 := by
    rw [← ofTokens_unplacedTokens, ← ofTokens_unplacedTokens, hs₁, hs₂]
    exact ofTokens_arranged hi ho bracket lined begins h₁ h₂ same ha
  refine ⟨outlines, fun options => ?_⟩
  have document (o : Outline) : (Analysis.document? (Shift.unplaced.outline o) options).1 =
      (Analysis.document? o options).1 := by rw [Shift.document?_outline]
  rw [← document (read s₁).1, ← document (read s₂).1, outlines]

section

open Printer

/-- A card whose items all stand behind its bracket. -/
def compactCard : String :=
  "[Card] \x7bgap: wide\x7d ATTR: shadow CONTENT: \"Plans\""

/-- The same card with its items on lines of their own, the content first. -/
def expandedCard : String :=
  "[Card]\nCONTENT: \"Plans\"\n  \x7bgap: wide\x7d ATTR: shadow"

def cardBracket : List Token :=
  [wordToken "Card", symbolToken .closeBracket ']']

def cardBlock : List Token :=
  [symbolToken .openBrace '\x7b', wordToken "gap", colon, wordToken "wide",
    symbolToken .closeBrace '\x7d']

def cardList : List Token :=
  [⟨.attr, "ATTR", .nowhere⟩, colon, wordToken "shadow"]

def cardContent : List Token :=
  [⟨.content, "CONTENT", .nowhere⟩, colon, strToken "Plans"]

theorem piece_cardBlock : Piece cardBlock (.layout [⟨"gap", .text "wide", .nowhere⟩]) := by
  have entries : LayoutReads .nowhere cardBlock.tail
      ⟨[⟨"gap", .text "wide", .nowhere⟩], [], []⟩ :=
    .entry (t := wordToken "gap") rfl rfl rfl (v := .text "wide") rfl (.close rfl rfl)
  exact .layout rfl (layout_eq_of_reads entries) List.not_mem_nil

theorem piece_cardList : Piece cardList (.attributes [⟨"shadow", .bool true, .nowhere⟩]) := by
  have value : attributeValue [] = ⟨some (.bool true), [], []⟩ := rfl
  have entries : AttributesRead true [wordToken "shadow"]
      ⟨[⟨"shadow", .bool true, .nowhere⟩], [], []⟩ := .entry rfl value (.runsOut false)
  refine .attributes rfl rfl (attributes_eq_of_read entries) (List.cons_ne_nil _ _)
    (fun p => List.not_mem_nil) fun c hc last => ?_
  have only : [c] = [wordToken "shadow"] := last.eq_of_length rfl
  rw [List.singleton_inj.mp only] at hc
  cases hc

theorem piece_cardContent : Piece cardContent (.content "Plans" .nowhere) :=
  .content rfl rfl rfl

theorem read_arranged_card :
    Shift.unplaced.outline (read compactCard).1 = Shift.unplaced.outline (read expandedCard).1 ∧
      ∀ options, (Analysis.document? (read compactCard).1 options).1 =
        (Analysis.document? (read expandedCard).1 options).1 := by
  have compact : Arranged 0 _ (cardBlock ++ (cardList ++ (cardContent ++ []))) :=
    .sameLine piece_cardBlock (.sameLine piece_cardList (.sameLine piece_cardContent .nil))
  have expanded : Arranged 0 _ (Lexeme.newlineToken :: Lexeme.indentToken 0 :: (cardContent ++
      (Lexeme.newlineToken :: Lexeme.indentToken 2 :: (cardBlock ++ (cardList ++ []))))) :=
    .newLine rfl rfl (Nat.le_refl 0) piece_cardContent
      (.newLine rfl rfl (Nat.zero_le 2) piece_cardBlock (.sameLine piece_cardList .nil))
  have bracket : Bracket .nowhere cardBracket := ⟨List.not_mem_nil, rfl⟩
  have compactTokens : unplacedTokens compactCard =
      [] ++ Lexeme.indentToken 0 :: symbolToken .openBracket '[' :: (cardBracket ++
        (cardBlock ++ (cardList ++ (cardContent ++ [])) ++ [Token.eofAt .nowhere])) := by
    decide +kernel
  have expandedTokens : unplacedTokens expandedCard =
      [] ++ Lexeme.indentToken 0 :: symbolToken .openBracket '[' :: (cardBracket ++
        (Lexeme.newlineToken :: Lexeme.indentToken 0 :: (cardContent ++
          (Lexeme.newlineToken :: Lexeme.indentToken 2 :: (cardBlock ++ (cardList ++ [])))) ++
            [Token.eofAt .nowhere])) := by
    decide +kernel
  exact read_arranged compactTokens expandedTokens rfl rfl bracket compact expanded
    ⟨rfl, rfl, rfl⟩ (.inr rfl)

end

end Wireframe.Outline
