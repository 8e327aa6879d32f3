import Wireframe.Proofs.Lexeme.Lines
import Wireframe.Proofs.Outline.Ledger

/-!
# Indentation decides the tree

Frames are closed from the inside, by two different comparisons, and a frame is moved into its
parent only then. A ledger says the same by comparing widths with all open tags. The two are kept
in step by one relation (`Holds`): the open entries of the ledger are the frames, and what stands
between two of them are the trees that the outer frame already has.
-/

namespace Wireframe.Outline

open Ledger

/-- A ledger holds open tags and closed trees. Behind the entry of each frame stand the links of its
children, all of them closed; a frame is wider than the frames around it and belongs to the last of
them. -/
inductive Holds : List Frame → Outline → Ledger → Prop
  | closed {roots l} (shut : l.opened = [])
      (links : l.map Entry.link = Tree.linksFrom none 0 roots.reverse) : Holds [] roots l
  | frame {f fs roots} {l below : Ledger} (outer : Holds fs roots l)
      (wider : ∀ g ∈ fs, g.width < f.width) (shut : below.opened = [])
      (links : below.map Entry.link =
        Tree.linksFrom (some l.length) (l.length + 1) f.children.reverse) :
      Holds (f :: fs) roots
        (l ++ ⟨f.width, l.lastOpen? fun _ => true, true, f.element⟩ :: below)

variable {f : Frame} {fs : List Frame} {roots : Outline} {l : Ledger}

theorem lastOpen?_of_opened_nil {p : Nat → Bool} (h : l.opened = []) : l.lastOpen? p = none := by
  rw [lastOpen?_eq_none, openWidths, h]
  intro w hw
  cases hw

/-- The last open tag stands in front of the closed ones. -/
theorem lastOpen?_frame {e : Entry} {below : Ledger} {p : Nat → Bool} (he : e.isOpen = true)
    (hp : p e.width = true) (h : below.opened = []) :
    lastOpen? p (l ++ e :: below) = some l.length := by
  rw [lastOpen?_append, lastOpen?, lastOpen?_of_opened_nil h, he, hp]
  rfl

theorem Holds.opened (h : Holds fs roots l) :
    l.opened.map (fun e => (e.width, e.element)) =
      fs.reverse.map fun f => (f.width, f.element) := by
  induction h with
  | closed shut _ => rw [shut]; rfl
  | @frame f fs roots l below outer _ shut _ ih =>
    have last : Ledger.opened (⟨f.width, l.lastOpen? fun _ => true, true, f.element⟩ :: below) =
        [⟨f.width, l.lastOpen? fun _ => true, true, f.element⟩] := by
      rw [Ledger.opened, List.filter_cons_of_pos rfl]
      exact congrArg _ shut
    rw [opened_append, last, List.map_append, ih, List.reverse_cons, List.map_append]
    rfl

theorem Holds.openWidths (h : Holds fs roots l) : l.openWidths = fs.reverse.map Frame.width := by
  have both := congrArg (List.map Prod.fst) h.opened
  rw [List.map_map, List.map_map] at both
  exact both

theorem Holds.widths (h : Holds fs roots l) : (fs.map Frame.width).Pairwise (· > ·) := by
  induction h with
  | closed => exact List.Pairwise.nil
  | frame _ wider _ _ ih =>
    refine List.Pairwise.cons (fun w hw => ?_) ih
    obtain ⟨g, hg, rfl⟩ := List.mem_map.mp hw
    exact wider g hg

/-- The widths of open tags increase from the outside to the inside. -/
theorem Holds.increasing (h : Holds fs roots l) : l.openWidths.Pairwise (· < ·) := by
  rw [h.openWidths, List.map_reverse, List.pairwise_reverse]
  exact h.widths

/-- One more tree behind the entries of others. -/
theorem links_snoc {parent : Option Nat} {i : Nat} {ts us : Outline} {e : Entry}
    {below : Ledger} (hl : l.map Entry.link = Tree.linksFrom parent i ts)
    (he : e.parent = parent) (hb : below.map Entry.link =
      Tree.linksFrom (some (i + l.length)) (i + l.length + 1) us) :
    (l ++ e :: below).map Entry.link = Tree.linksFrom parent i (ts ++ [.node e.element us]) := by
  have length : l.length = Tree.sizeAll ts := by
    rw [← Tree.length_linksFrom parent i, ← hl, List.length_map]
  rw [List.map_append, List.map_cons, hl, hb, Tree.linksFrom_append, ← length, Tree.linksFrom,
    Tree.linksFrom, List.append_nil, Tree.linksAt, Entry.link, he]

/-- A builder is held by a ledger. -/
def Agrees (b : Builder) (l : Ledger) : Prop :=
  Holds b.frames b.roots l

/-- A closed tree as the last child of the innermost frame, or as the last root. -/
def addTree (t : Tree Element) : List Frame → Outline → Builder
  | [], roots => ⟨[], t :: roots⟩
  | g :: gs, roots => ⟨{ g with children := t :: g.children } :: gs, roots⟩

theorem Holds.addTree (h : Holds (f :: fs) roots l) {p : Nat → Bool} (hp : p f.width = true) :
    ∃ m : Ledger, m.close p = l.close p ∧ Agrees (addTree f.tree fs roots) m := by
  cases h with
  | @frame _ _ _ l below outer wider shut links =>
    let e : Entry := ⟨f.width, l.lastOpen? fun _ => true, true, f.element⟩
    have closed : close p (l ++ e.shut :: below) = close p (l ++ e :: below) := by
      have he : p e.width = true := hp
      have hs : p e.shut.width = true := hp
      rw [close_append, close_append, close_cons, close_cons, if_pos he, if_pos hs]
      rfl
    refine ⟨l ++ e.shut :: below, closed, ?_⟩
    cases outer with
    | closed shut' links' =>
      refine Holds.closed ?_ ?_
      · rw [opened_append, shut']
        exact shut
      · show _ = Tree.linksFrom none 0 (f.tree :: roots).reverse
        rw [List.reverse_cons]
        refine links_snoc links' (lastOpen?_of_opened_nil shut') ?_
        rw [Nat.zero_add]
        exact links
    | @frame g gs _ l' below' outer' wider' shut' links' =>
      have length (m : Ledger) (a : Entry) : (l' ++ a :: m).length = l'.length + 1 + m.length := by
        rw [List.length_append, List.length_cons]
        omega
      rw [List.append_assoc, List.cons_append]
      refine Holds.frame (f := { g with children := f.tree :: g.children }) outer' wider' ?_ ?_
      · rw [opened_append, shut']
        exact shut
      · rw [List.reverse_cons]
        refine links_snoc links' (lastOpen?_frame rfl rfl shut') ?_
        rw [length] at links
        exact links

theorem agrees_empty : Agrees .empty [] :=
  .closed rfl rfl

/-- Closing frames from the inside closes all tags that are wide enough. -/
theorem Holds.collapse (h : Holds fs roots l) {p : Nat → Bool}
    (up : ∀ v w, v ≤ w → p v = true → p w = true) :
    Agrees (Builder.collapse (fun f => p f.width) fs roots) (l.close p) := by
  have stays {f : Frame} {fs : List Frame} {roots : Outline} {l : Ledger}
      (h : Holds (f :: fs) roots l) (hf : ¬ p f.width = true) : l.close p = l := by
    refine close_eq_self fun w hw => Bool.eq_false_iff.mpr fun hp => hf (up w _ ?_ hp)
    rw [h.openWidths] at hw
    obtain ⟨g, hg, rfl⟩ := List.mem_map.mp hw
    rcases List.mem_cons.mp (List.mem_reverse.mp hg) with rfl | hg
    · exact Nat.le_refl _
    · exact Nat.le_of_lt (List.rel_of_pairwise_cons h.widths (List.mem_map_of_mem hg))
  fun_induction Builder.collapse (fun f => p f.width) fs roots generalizing l with
  | case1 roots =>
    rw [close_eq_self (by rw [h.openWidths]; simp)]
    exact h
  | case2 f roots hf =>
    obtain ⟨m, same, popped⟩ := h.addTree hf
    rw [← same, close_eq_self (by rw [popped.openWidths]; simp [Outline.addTree])]
    exact popped
  | case3 f roots hf | case5 f g fs roots hf =>
    rw [stays h hf]
    exact h
  | case4 f g fs roots hf ih =>
    obtain ⟨m, same, popped⟩ := h.addTree hf
    rw [← same]
    exact ih popped

theorem Agrees.openTag {b : Builder} (h : Agrees b l) (width : Nat) (e : Element) :
    Agrees (b.openTag width e) (l.openTag width e) := by
  have up (v w : Nat) (hvw : v ≤ w) (hv : decide (width ≤ v) = true) : decide (width ≤ w) = true :=
    decide_eq_true (Nat.le_trans (of_decide_eq_true hv) hvw)
  have outer := Holds.collapse h up
  have parent : l.lastOpen? (· < width) = (l.close (width ≤ ·)).lastOpen? fun _ => true := by
    rw [lastOpen?_close]
    congr 1
    funext w
    rw [Bool.and_true, ← decide_not, decide_eq_decide, Nat.not_le]
  rw [Ledger.openTag, parent]
  refine Holds.frame (f := ⟨width, e, []⟩) outer (fun g hg => ?_) rfl rfl
  have narrow : g.width ∈ (l.close (width ≤ ·)).openWidths := by
    rw [outer.openWidths]
    exact List.mem_map_of_mem (List.mem_reverse.mpr hg)
  rw [openWidths_close, List.mem_filter] at narrow
  simpa using narrow.2

/-- The last open tag is the innermost frame, and what it is given is given to that. -/
theorem Agrees.attach {b : Builder} {i : Nat} (h : Agrees b l)
    (hi : l.lastOpen? (fun _ => true) = some i) (items : List Item) :
    Agrees (b.attach items) (l.modify i (Entry.give items)) ∧
      b.attachProblems items = Builder.replacements (l.hasContent i) items := by
  obtain ⟨frames, roots⟩ := b
  cases h with
  | closed shut links =>
    rw [lastOpen?_of_opened_nil shut] at hi
    cases hi
  | @frame f fs _ l below outer wider shut links =>
    rw [lastOpen?_frame rfl rfl shut, Option.some.injEq] at hi
    subst hi
    constructor
    · rw [modify_length]
      exact Holds.frame (f := { f with element := Builder.addItems f.element items })
        outer wider shut links
    · simp [Builder.attachProblems, hasContent]

/-- Metadata at a width has an owner if some open tag is not wider. -/
theorem Agrees.owner {b : Builder} (h : Agrees b l) (width : Nat) :
    b.hasOwner width = (l.lastOpen? (· ≤ width)).isSome := by
  rw [Bool.eq_iff_iff, Option.isSome_iff_ne_none, ne_eq, lastOpen?_eq_none, h.openWidths]
  simp [Builder.hasOwner]

theorem Agrees.closeWider {b : Builder} (h : Agrees b l) (width : Nat) :
    Agrees (b.closeWider width) (l.close (width < ·)) := by
  have up (v w : Nat) (hvw : v ≤ w) (hv : decide (width < v) = true) : decide (width < w) = true :=
    decide_eq_true (Nat.lt_of_lt_of_le (of_decide_eq_true hv) hvw)
  exact Holds.collapse h up

/-- When the innermost tag is less wide than a line, so are all. -/
theorem lt_of_takeWhile_eq_nil {ws : List Nat} (h : ws.Pairwise (· > ·)) {width : Nat}
    (hw : ws.takeWhile (width ≤ ·) = []) : ∀ a ∈ ws, a < width := by
  cases ws with
  | nil => simp
  | cons b bs =>
    have hb : b < width := by
      rw [List.takeWhile_cons] at hw
      split at hw
      · cases hw
      next hb => simpa using hb
    intro a ha
    rcases List.mem_cons.mp ha with rfl | ha
    · exact hb
    · exact Nat.lt_trans (List.rel_of_pairwise_cons h ha) hb

/-- The outermost tag that is closed is as wide as the new one, or no open tag is. -/
theorem closed_ne_iff {ws : List Nat} (h : ws.Pairwise (· > ·)) (width : Nat) :
    ((ws.takeWhile (width ≤ ·)).getLast?).any (· ≠ width) = true ↔
      (∃ v ∈ ws, width < v) ∧ width ∉ ws := by
  induction ws with
  | nil => simp
  | cons v ws ih =>
    specialize ih h.of_cons
    by_cases hv : width ≤ v
    · rw [List.takeWhile_cons_of_pos (p := (width ≤ ·)) (decide_eq_true hv)]
      cases hw : ws.takeWhile (width ≤ ·) with
      | nil =>
        have less := lt_of_takeWhile_eq_nil h.of_cons hw
        have absent : width ∉ ws := fun ha => Nat.lt_irrefl width (less width ha)
        simp only [List.getLast?_singleton, Option.any_some, decide_eq_true_iff, List.mem_cons,
          not_or, absent, not_false_iff, and_true]
        constructor
        · intro hne
          exact ⟨⟨v, .inl rfl, by omega⟩, Ne.symm hne⟩
        · rintro ⟨-, hne⟩
          exact Ne.symm hne
      | cons a as =>
        rw [hw] at ih
        have ha : a ∈ ws.takeWhile (width ≤ ·) := hw ▸ List.mem_cons_self
        have wide : width ≤ a := of_decide_eq_true (List.all_eq_true.mp List.all_takeWhile a ha)
        have inside : a ∈ ws := (List.takeWhile_sublist _).subset ha
        have wider : a < v := List.rel_of_pairwise_cons h inside
        rw [List.getLast?_cons_cons, ih]
        constructor
        · rintro ⟨-, absent⟩
          refine ⟨⟨v, List.mem_cons_self, by omega⟩, fun hm => ?_⟩
          rcases List.mem_cons.mp hm with rfl | hm
          · omega
          · exact absent hm
        · rintro ⟨-, absent⟩
          have absent' : width ∉ ws := fun hm => absent (List.mem_cons_of_mem _ hm)
          refine ⟨⟨a, inside, Nat.lt_of_le_of_ne wide ?_⟩, absent'⟩
          rintro rfl
          exact absent' inside
    · have none_closed := List.takeWhile_cons_of_neg (p := (width ≤ ·)) (l := ws)
        (show ¬ decide (width ≤ v) = true by simpa using hv)
      have less := lt_of_takeWhile_eq_nil h none_closed
      rw [none_closed]
      simp only [List.getLast?_nil, Option.any_none, Bool.false_eq_true, false_iff]
      rintro ⟨⟨a, ha, hwa⟩, _⟩
      exact Nat.lt_asymm hwa (less a ha)

theorem Agrees.misfits {b : Builder} (h : Agrees b l) (width : Nat) :
    b.unmatched width = decide (l.Misfits width) := by
  have widths := closed_ne_iff h.widths width
  rw [List.takeWhile_map, List.getLast?_map, Option.any_map] at widths
  rw [Bool.eq_iff_iff, decide_eq_true_iff, Misfits, h.openWidths, List.map_reverse]
  simpa [Builder.unmatched, Function.comp_def] using widths

theorem Agrees.finish {b : Builder} (h : Agrees b l) : b.finish = l.forest := by
  have all := Holds.collapse h (p := fun _ => true) (fun _ _ _ _ => rfl)
  rw [Builder.finish, forest, ← map_link_close fun _ => true]
  have closed : (l.close fun _ => true).openWidths = [] := by
    rw [openWidths_close]
    simp
  rw [all.openWidths, List.map_eq_nil_iff, List.reverse_eq_nil_iff] at closed
  generalize Builder.collapse (fun _ => true) b.frames b.roots = c at all closed
  obtain ⟨frames, roots⟩ := c
  cases closed
  cases all with
  | closed _ links => rw [links, Tree.ofLinks_links]

theorem Agrees.itemsLine {b : Builder} {i : Nat} (h : Agrees b l)
    (hi : l.lastOpen? (fun _ => true) = some i) (ts : List Token) :
    Agrees (itemsLine b ts).value (l.modify i (Entry.give (items ts).value)) ∧
      (itemsLine b ts).problems = (items ts).problems ++
        Builder.replacements (l.hasContent i) (items ts).value ++
        (endLine (items ts).rest).problems := by
  obtain ⟨value, replaced⟩ := h.attach hi (items ts).value
  refine ⟨value, ?_⟩
  simp only [Outline.itemsLine, replaced]

theorem content_tag (start : Location) (ts : List Token) :
    (tag start ts).value.content = none := by
  unfold tag
  dsimp only
  split <;> rfl

/-- A line does the same to a builder and to the ledger that holds it. -/
theorem Agrees.step {b : Builder} (h : Agrees b l) (width : Nat) (ts : List Token) :
    Agrees (line b width ts).value (Ledger.line l width ts).value ∧
      (line b width ts).problems = (Ledger.line l width ts).problems ∧
      (line b width ts).rest = (Ledger.line l width ts).rest := by
  rw [line_eq, Ledger.line]
  cases lineKind (next ts).kind with
  | tag =>
    refine ⟨h.openTag width _, ?_, rfl⟩
    simp only [tagLine, h.misfits, decide_eq_true_iff, Outline.itemsLine, Builder.attachProblems,
      Builder.openTag, content_tag]
    rfl
  | metadata =>
    dsimp only
    rw [h.owner]
    cases hi : l.lastOpen? (· ≤ width) with
    | none => exact ⟨h, rfl, rfl⟩
    | some i =>
      have innermost : (l.close (width < ·)).lastOpen? (fun _ => true) = some i := by
        rw [lastOpen?_close, ← hi]
        congr 1
        funext w
        rw [Bool.and_true, ← decide_not, decide_eq_decide, Nat.not_lt]
      obtain ⟨value, problems⟩ := (h.closeWider width).itemsLine innermost ts
      rw [hasContent_close] at problems
      exact ⟨value, problems, rfl⟩
  | empty => exact ⟨h, rfl, rfl⟩
  | stray => exact ⟨h, rfl, rfl⟩

theorem Agrees.run {b b' : Builder} {ts us : List Token} {ps : List Diagnostic}
    (run : Run line b ts ps b' us) (h : Agrees b l) :
    ∃ l', Run Ledger.line l ts ps l' us ∧ Agrees b' l' := by
  induction run generalizing l with
  | refl b ts => exact ⟨l, .refl l ts, h⟩
  | newline ht _ ih =>
    obtain ⟨l', run, h'⟩ := ih h
    exact ⟨l', .newline ht run, h'⟩
  | @line b t ts ps b' us width ht _ ih =>
    obtain ⟨value, problems, rest⟩ := h.step width ts
    obtain ⟨l', run, h'⟩ := ih value
    rw [problems]
    rw [rest] at run
    exact ⟨l', .line ht run, h'⟩

/-- The outline of a text is the forest of its ledger. At every moment in between, the open tags are
those of the ledger, and their widths increase. -/
theorem read_by_indentation (source : String) :
    ∃ l ps us, Run Ledger.line [] (Token.scan source).1 ps l us ∧ AtEnd us ∧
      read source = (l.forest, (Token.scan source).2 ++ ps) ∧
      ∀ {b qs vs}, Run line .empty (Token.scan source).1 qs b vs →
        ∃ m, Run Ledger.line [] (Token.scan source).1 qs m vs ∧
          m.opened.map (fun e => (e.width, e.element)) =
            b.frames.reverse.map (fun f => (f.width, f.element)) ∧
          m.openWidths.Pairwise (· < ·) := by
  obtain ⟨ps, b, us, run, left, done⟩ :=
    exists_run .empty (Token.lined_scan source) (Token.atLineEnd_scan source)
  obtain ⟨l, run', h⟩ := agrees_empty.run run
  refine ⟨l, ps, us, run', done, ?_, fun {b qs vs} partly => ?_⟩
  · simp only [read, ofTokens_of_run run done, h.finish]
  · obtain ⟨m, same, held⟩ := agrees_empty.run partly
    exact ⟨m, same, held.opened, held.increasing⟩

end Wireframe.Outline
