import Wireframe.Proofs.Forest
import Wireframe.Proofs.Outline.Derivation

/-!
# The law of indentation

A ledger keeps all tags that were opened, in their order, and never throws one away: each entry has
the width of its line, the position of its parent, and says whether the tag is still open. What a
line does to a ledger is said outright, by comparing its width with the widths of the open tags.
There is no stack, and the forest is only grown when all lines are read.
-/

namespace Wireframe

/-- A tag that was opened. -/
structure Entry where
  width : Nat
  /-- The position of the tag that it belongs to; none for a root. -/
  parent : Option Nat
  isOpen : Bool
  element : Element

namespace Entry

/-- What an entry says about the forest. -/
def link (e : Entry) : Element × Option Nat :=
  (e.element, e.parent)

def shut (e : Entry) : Entry :=
  { e with isOpen := false }

def give (items : List Outline.Item) (e : Entry) : Entry :=
  { e with element := Builder.addItems e.element items }

end Entry

/-- All tags that were opened, in their order. -/
abbrev Ledger := List Entry

namespace Ledger

open Outline

/-- The tags that are still open. -/
def opened (l : Ledger) : List Entry :=
  l.filter Entry.isOpen

/-- The widths of the open tags. -/
def openWidths (l : Ledger) : List Nat :=
  l.opened.map Entry.width

/-- The position of the most recently opened tag that is still open and whose width satisfies
`p`. -/
def lastOpen? (p : Nat → Bool) : Ledger → Option Nat
  | [] => none
  | e :: l =>
    match lastOpen? p l with
    | some i => some (i + 1)
    | none => if e.isOpen && p e.width then some 0 else none

/-- Closes the tags whose widths satisfy `p`. -/
def close (p : Nat → Bool) (l : Ledger) : Ledger :=
  l.map fun e => if p e.width then e.shut else e

/-- A tag at a width belongs to the last open tag that is less wide, and closes all that are at
least as wide. -/
def openTag (l : Ledger) (width : Nat) (e : Element) : Ledger :=
  l.close (width ≤ ·) ++ [⟨width, l.lastOpen? (· < width), true, e⟩]

/-- Whether a tag at a width fits no level: some open tag is wider, and none is as wide. -/
def Misfits (l : Ledger) (width : Nat) : Prop :=
  (∃ v ∈ l.openWidths, width < v) ∧ width ∉ l.openWidths

instance (l : Ledger) (width : Nat) : Decidable (l.Misfits width) :=
  inferInstanceAs (Decidable (_ ∧ _))

/-- Whether the tag at a position has content. -/
def hasContent (l : Ledger) (i : Nat) : Bool :=
  (l[i]?).any (·.element.content.isSome)

/-- A line behind its indentation. Metadata goes to the last open tag that is not wider than its
line, and then the wider ones are closed; without such a tag nothing happens but a report. -/
def line (l : Ledger) (width : Nat) (ts : List Token) : Reading Ledger :=
  let t := next ts
  match lineKind t.kind with
  | .tag =>
    let head := tag t.location (ts.drop 1)
    let run := items head.rest
    let tail := endLine run.rest
    let misfit := if l.Misfits width then [⟨.unmatchedIndentation width, t.location⟩] else []
    ⟨l.openTag width (Builder.addItems head.value run.value),
      head.problems ++ misfit ++
        (run.problems ++ Builder.replacements false run.value ++ tail.problems),
      tail.rest⟩
  | .metadata =>
    match l.lastOpen? (· ≤ width) with
    | some i =>
      let run := items ts
      let tail := endLine run.rest
      ⟨(l.close (width < ·)).modify i (Entry.give run.value),
        run.problems ++ Builder.replacements (l.hasContent i) run.value ++ tail.problems,
        tail.rest⟩
    | none => ⟨l, [⟨.orphanMetadata t.kind, t.location⟩], ts.dropWhile inLine⟩
  | .empty => ⟨l, [], ts⟩
  | .stray => ⟨l, [⟨.unexpectedAtLineStart t.kind, t.location⟩], ts.dropWhile inLine⟩

/-- The forest of all tags, each below its parent. -/
def forest (l : Ledger) : Outline :=
  Tree.ofLinks (l.map Entry.link)

theorem opened_append (l m : Ledger) : opened (l ++ m) = opened l ++ opened m :=
  List.filter_append l m

theorem lastOpen?_append (p : Nat → Bool) (l m : Ledger) :
    lastOpen? p (l ++ m) =
      match lastOpen? p m with
      | some i => some (l.length + i)
      | none => lastOpen? p l := by
  induction l with
  | nil => cases h : lastOpen? p m <;> simp [lastOpen?, h]
  | cons e l ih =>
    rw [List.cons_append, lastOpen?, ih]
    cases lastOpen? p m with
    | some i =>
      simp only [List.length_cons, Option.some.injEq]
      omega
    | none => rfl

theorem lastOpen?_close (p q : Nat → Bool) (l : Ledger) :
    (l.close p).lastOpen? q = l.lastOpen? fun w => !p w && q w := by
  induction l with
  | nil => rfl
  | cons e l ih =>
    rw [close, List.map_cons, ← close, lastOpen?, lastOpen?, ih]
    cases lastOpen? (fun w => !p w && q w) l with
    | some i => rfl
    | none =>
      by_cases hp : p e.width <;> simp [hp, Entry.shut]

theorem openWidths_cons (e : Entry) (l : Ledger) :
    openWidths (e :: l) = (if e.isOpen then [e.width] else []) ++ openWidths l := by
  cases h : e.isOpen <;> simp [openWidths, opened, h]

theorem openWidths_close (p : Nat → Bool) (l : Ledger) :
    (l.close p).openWidths = l.openWidths.filter fun w => !p w := by
  induction l with
  | nil => rfl
  | cons e l ih =>
    rw [close, List.map_cons, ← close, openWidths_cons, openWidths_cons, List.filter_append, ih]
    by_cases hp : p e.width <;> cases ho : e.isOpen <;> simp [hp, ho, Entry.shut]

theorem lastOpen?_eq_none {p : Nat → Bool} {l : Ledger} :
    l.lastOpen? p = none ↔ ∀ w ∈ l.openWidths, p w = false := by
  induction l with
  | nil => simp [lastOpen?, openWidths, opened]
  | cons e l ih =>
    rw [openWidths_cons, lastOpen?]
    cases hl : lastOpen? p l with
    | some i =>
      rw [hl] at ih
      simp only [reduceCtorEq, false_iff] at ih ⊢
      exact fun all => ih fun w hw => all w (List.mem_append_right _ hw)
    | none =>
      have none_in := ih.mp hl
      cases e.isOpen <;> simp_all

theorem close_append (p : Nat → Bool) (l m : Ledger) :
    close p (l ++ m) = close p l ++ close p m :=
  List.map_append

theorem close_cons (p : Nat → Bool) (e : Entry) (l : Ledger) :
    close p (e :: l) = (if p e.width then e.shut else e) :: close p l := rfl

theorem map_link_close (p : Nat → Bool) (l : Ledger) :
    (l.close p).map Entry.link = l.map Entry.link := by
  rw [close, List.map_map]
  refine List.map_congr_left fun e _ => ?_
  show Entry.link (if p e.width then e.shut else e) = e.link
  split <;> rfl

/-- Closing tags that are closed changes nothing. -/
theorem close_eq_self {p : Nat → Bool} {l : Ledger} (h : ∀ w ∈ l.openWidths, p w = false) :
    l.close p = l := by
  have same : ∀ e ∈ l, (if p e.width then e.shut else e) = id e := by
    intro e he
    split
    next hp =>
      have closed : e.isOpen = false := by
        refine Bool.eq_false_iff.mpr fun ho => ?_
        have hw : e.width ∈ l.openWidths := List.mem_map_of_mem (List.mem_filter.mpr ⟨he, ho⟩)
        simp [h e.width hw] at hp
      rw [id, Entry.shut, ← closed]
    · rfl
  rw [close, List.map_congr_left same, List.map_id]

theorem hasContent_close (p : Nat → Bool) (l : Ledger) (i : Nat) :
    (l.close p).hasContent i = l.hasContent i := by
  rw [hasContent, hasContent, close, List.getElem?_map, Option.any_map]
  congr 1
  funext e
  show (if p e.width then e.shut else e).element.content.isSome = e.element.content.isSome
  split <;> rfl

theorem modify_length (l m : Ledger) (e : Entry) (f : Entry → Entry) :
    List.modify (l ++ e :: m) l.length f = l ++ f e :: m := by
  induction l with
  | nil => rfl
  | cons a l ih =>
    rw [List.cons_append, List.length_cons, List.modify_succ_cons, ih, List.cons_append]

end Ledger

end Wireframe
