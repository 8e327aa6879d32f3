import Mathlib.Logic.Relation
import Wireframe.Proofs.Outline.Run

/-!
# Passes

The reader is made of five loops: over the lines, over the items of a line, over the entries of a
layout block, over those of an attribute list and over the arguments of a call. A pass of one may
begin another. Whatever the tokens are, a pass that is not the last of its loop takes a token, and
none takes the end of the input (`Loop.proper_pass`). So all loops end, however they hand over to
each other, and the lines end at the first end of the input (`passes_end`).
-/

namespace Wireframe.Outline

open Relation (ReflTransGen)

/-- The loops of the reader. The one over the lines holds what is read so far. -/
inductive Loop where
  | lines (b : Builder)
  | items
  | layout
  | attributes
  | arguments

/-- What a pass comes to: another pass over the tokens that are left, or the end of its loop. -/
inductive Pass where
  | again (loop : Loop) (rest : List Token)
  | done (rest : List Token)

/-- Whether a pass takes no end of the input, and some token unless it is the last of its loop. -/
def Pass.Proper (ts : List Token) : Pass → Prop
  | again _ us => Leaves ts us ∧ us.length < ts.length
  | done us => Leaves ts us

namespace Loop

/-- A pass over the lines: the end of a line, a line behind its indentation, or what is left of a
line that has no indentation. -/
def linesPass (b : Builder) : List Token → Pass
  | [] => .done []
  | t :: us =>
    if inLine t then
      let l := line b (t.location.column - 1) (t :: us)
      .again (lines l.value) l.rest
    else
      match t.kind with
      | .indent width => .again (lines (line b width us).value) (line b width us).rest
      | .newline => .again (lines b) us
      | _ => .done (t :: us)

def itemsPass (ts : List Token) : Pass :=
  match item? ts with
  | some r => .again items r.rest
  | none => .done ts

/-- A pass over a layout block: what is no key is taken alone, a key with what belongs to it. -/
def layoutPass (ts : List Token) : Pass :=
  match skipBreaks ts with
  | [] => .done []
  | t :: us =>
    match layoutRole t.kind with
    | .close => .done us
    | .stop => .done (t :: us)
    | .separator | .other => .again layout us
    | .key =>
      match skip? .colon us with
      | none => .again layout (us.dropWhile inLayoutGap)
      | some vs => .again layout (vs.dropWhile inLayoutValue)

/-- A pass over an attribute list: a key, its value and the comma behind it. -/
def attributesPass : List Token → Pass
  | [] => .done []
  | t :: us =>
    match attributeRole t.kind with
    | .key => .again attributes (skipComma (attributeValue us).rest)
    | _ => .done (t :: us)

def argumentsPass (ts : List Token) : Pass :=
  match skipBreaks ts with
  | [] => .done []
  | t :: us =>
    match argumentRole t.kind with
    | .close => .done us
    | .stop => .done (t :: us)
    | _ => .again arguments us

/-- The next pass of a loop. -/
def pass : Loop → List Token → Pass
  | lines b => linesPass b
  | items => itemsPass
  | layout => layoutPass
  | attributes => attributesPass
  | arguments => argumentsPass

end Loop

/-- Where the loop over the items of a line begins: behind the bracket of a tag, or at the first of
them when there is a tag to take them. -/
inductive ItemsBegin (b : Builder) (width : Nat) (ts : List Token) : List Token → Prop
  | tag (h : lineKind (next ts).kind = .tag) :
      ItemsBegin b width ts (tag (next ts).location (ts.drop 1)).rest
  | metadata (h : lineKind (next ts).kind = .metadata) (owner : b.hasOwner width = true) :
      ItemsBegin b width ts ts

/-- The loops that passes begin, and where they begin. -/
inductive Begins : Loop → List Token → Loop → List Token → Prop
  | indented {b t us width vs} (h : t.kind = .indent width) (items : ItemsBegin b width us vs) :
      Begins (.lines b) (t :: us) .items vs
  | midLine {b t us vs} (h : inLine t = true)
      (items : ItemsBegin b (t.location.column - 1) (t :: us) vs) :
      Begins (.lines b) (t :: us) .items vs
  | block {t us} (h : t.kind = .openBrace) : Begins .items (t :: us) .layout us
  | list {t us} (h : t.kind = .attr) :
      Begins .items (t :: us) .attributes ((skip? .colon us).getD us)
  | call {t us vs} (h : attributeRole t.kind = .key) (paren : skip? .openParen us = some vs) :
      Begins .attributes (t :: us) .arguments vs

/-- The passes of a loop up to its end. -/
inductive Ends : Loop → List Token → Loop → List Token → Prop
  | done {l ts us} (h : l.pass ts = .done us) : Ends l ts l us
  | again {l ts l' us l'' vs} (h : l.pass ts = .again l' us) (more : Ends l' us l'' vs) :
      Ends l ts l'' vs

/-- From one pass to the next, of the same loop or of one that it begins. -/
inductive Goes : Loop × List Token → Loop × List Token → Prop
  | again {l ts l' us} (h : l.pass ts = .again l' us) : Goes (l, ts) (l', us)
  | inner {l ts l' us} (h : Begins l ts l' us) : Goes (l, ts) (l', us)

/-- Less is left behind a token that is left. -/
theorem Leaves.length_lt {t : Token} {ts us vs : List Token} (h : Leaves ts (t :: us))
    (h' : Leaves us vs) : vs.length < ts.length :=
  Nat.lt_of_le_of_lt h'.suffix.length_le h.suffix.length_le

namespace Loop

theorem proper_linesPass (b : Builder) (ts : List Token) : (linesPass b ts).Proper ts := by
  cases ts with
  | nil => exact .refl []
  | cons t us =>
    rw [linesPass]
    split
    next ht => exact ⟨leaves_line _ _ _, Nat.lt_succ_of_le (line_progress b _ us ht)⟩
    · split
      next width ht =>
        have left := leaves_line b width us
        exact ⟨left.cons (by simp [ht]), (Leaves.refl _).length_lt left⟩
      next ht => exact ⟨.tail (by simp [ht]), Nat.lt_succ_self _⟩
      · exact .refl _

theorem proper_itemsPass (ts : List Token) : (itemsPass ts).Proper ts := by
  unfold itemsPass
  split
  next r h =>
    cases ts with
    | nil => cases h
    | cons t us =>
      obtain ⟨ht, left⟩ := leaves_item? h
      exact ⟨left.cons ht, (Leaves.refl _).length_lt left⟩
  · exact .refl ts

theorem proper_layoutPass (ts : List Token) : (layoutPass ts).Proper ts := by
  unfold layoutPass
  split
  next h => exact leaves_of_skipBreaks h
  next t us h =>
    have front := leaves_of_skipBreaks h
    have again {vs : List Token} (ht : layoutRole t.kind ≠ .stop) (left : Leaves us vs) :
        (Pass.again layout vs).Proper ts :=
      ⟨(leaves_of_layoutRole h rfl ht).trans left, front.length_lt left⟩
    split
    next ht => exact leaves_of_layoutRole h ht (by simp)
    · exact front
    next ht => exact again (by simp [ht]) (.refl us)
    next ht => exact again (by simp [ht]) (.refl us)
    next ht =>
      split
      · exact again (by simp [ht]) (.dropWhile (fun _ => inLine_of_inLayoutGap) us)
      next vs hc =>
        have value := Leaves.dropWhile (fun _ => inLine_of_inLayoutValue) vs
        exact again (by simp [ht]) ((Leaves.of_skip? (by simp) hc).trans value)

theorem proper_attributesPass (ts : List Token) : (attributesPass ts).Proper ts := by
  cases ts with
  | nil => exact .refl []
  | cons t us =>
    rw [attributesPass]
    split
    next ht =>
      have left := (leaves_attributeValue us).trans (leaves_skipComma _)
      exact ⟨leaves_attribute us ht, (Leaves.refl _).length_lt left⟩
    · exact .refl _

theorem proper_argumentsPass (ts : List Token) : (argumentsPass ts).Proper ts := by
  unfold argumentsPass
  split
  next h => exact leaves_of_skipBreaks h
  next t us h =>
    have front := leaves_of_skipBreaks h
    split
    next ht => exact leaves_of_argumentRole h ht (by simp)
    · exact front
    next _ ht => exact ⟨leaves_of_argumentRole h rfl ht, front.length_lt (.refl us)⟩

/-- Every pass is the last of its loop or takes a token, and none takes the end of the input. -/
theorem proper_pass (l : Loop) (ts : List Token) : (l.pass ts).Proper ts := by
  cases l with
  | lines b => exact proper_linesPass b ts
  | items => exact proper_itemsPass ts
  | layout => exact proper_layoutPass ts
  | attributes => exact proper_attributesPass ts
  | arguments => exact proper_argumentsPass ts

end Loop

theorem leaves_colon (ts : List Token) : Leaves ts ((skip? .colon ts).getD ts) := by
  cases h : skip? .colon ts with
  | none => exact .refl ts
  | some us => exact .of_skip? (by simp) h

theorem ItemsBegin.leaves {b : Builder} {width : Nat} {ts us : List Token}
    (h : ItemsBegin b width ts us) : Leaves ts us := by
  cases h with
  | tag h => exact (leaves_bracket h).trans (leaves_tag _ _)
  | metadata => exact .refl ts

theorem Begins.leaves {l l' : Loop} {ts us : List Token} (h : Begins l ts l' us) :
    Leaves ts us := by
  cases h with
  | indented h items => exact items.leaves.cons (by simp [h])
  | midLine _ items => exact items.leaves
  | block h => exact .tail (by simp [h])
  | list h => exact (leaves_colon _).cons (by simp [h])
  | call h paren => exact (Leaves.of_skip? (by simp) paren).cons (ne_eof_of_attributeRole h)

/-- What every pass and the begin of every loop makes smaller. -/
def cost : Loop × List Token → Nat
  | (.lines _, ts) => 2 * ts.length + 1
  | (_, ts) => 2 * ts.length

theorem Goes.cost_lt {s s' : Loop × List Token} (h : Goes s s') : cost s' < cost s := by
  have bounds (l : Loop) (ts : List Token) :
      2 * ts.length ≤ cost (l, ts) ∧ cost (l, ts) ≤ 2 * ts.length + 1 := by
    cases l <;> simp [cost]
  cases h with
  | @again l ts l' us h =>
    have proper := l.proper_pass ts
    rw [h] at proper
    have low := (bounds l ts).1
    have high := (bounds l' us).2
    have shorter := proper.2
    omega
  | @inner l ts l' us h =>
    have left := h.leaves.suffix.length_le
    cases h with
    | indented | midLine =>
      simp only [cost]
      omega
    | block => simp [cost]
    | @list t us =>
      have colon := (leaves_colon us).suffix.length_le
      simp only [cost, List.length_cons]
      omega
    | call _ paren =>
      have behind := skip?_length paren
      simp only [cost, List.length_cons]
      omega

/-- However passes follow each other and begin other loops, it comes to an end. -/
theorem wellFounded_goes : WellFounded fun s' s => Goes s s' :=
  Subrelation.wf (fun h => h.cost_lt) (measure cost).wf

theorem Goes.leaves {s s' : Loop × List Token} (h : Goes s s') : Leaves s.2 s'.2 := by
  cases h with
  | @again l ts l' us h =>
    have proper := l.proper_pass ts
    rw [h] at proper
    exact proper.1
  | inner h => exact h.leaves

theorem leaves_of_goes {s s' : Loop × List Token} (h : ReflTransGen Goes s s') :
    Leaves s.2 s'.2 := by
  induction h with
  | refl => exact .refl _
  | tail _ goes ih => exact ih.trans goes.leaves

theorem Ends.leaves {l l' : Loop} {ts us : List Token} (h : Ends l ts l' us) : Leaves ts us := by
  induction h with
  | @done l ts us h =>
    have proper := l.proper_pass ts
    rwa [h] at proper
  | @again l ts l' us _ _ h _ ih =>
    have proper := l.proper_pass ts
    rw [h] at proper
    exact proper.1.trans ih

section Readers

variable {start : Location} {ts : List Token}

theorem ends_items {r : Reading (List Item)} (h : ItemsRead ts r) :
    Ends .items ts .items r.rest := by
  induction h with
  | stop h => exact .done (by simp only [Loop.pass, Loop.itemsPass, h])
  | item h _ ih => exact .again (by simp only [Loop.pass, Loop.itemsPass, h]) ih

theorem ends_layout {r : Reading (List Attribute)} (h : LayoutReads start ts r) :
    Ends .layout ts .layout r.rest := by
  induction h with
  | runsOut h => exact .done (by simp only [Loop.pass, Loop.layoutPass, h])
  | close h ht | stop h ht => exact .done (by simp only [Loop.pass, Loop.layoutPass, h, ht])
  | separator h ht _ ih | other h ht _ ih =>
    exact .again (by simp only [Loop.pass, Loop.layoutPass, h, ht]) ih
  | gap h ht hc _ ih | entry h ht hc _ _ ih | blank h ht hc _ _ ih =>
    exact .again (by simp only [Loop.pass, Loop.layoutPass, h, ht, hc]) ih

theorem ends_attributes {first : Bool} {r : Reading (List Attribute)}
    (h : AttributesRead first ts r) : Ends .attributes ts .attributes r.rest := by
  induction h with
  | runsOut => exact .done rfl
  | stop ht => exact .done (by simp only [Loop.pass, Loop.attributesPass, ht])
  | entry ht hv _ ih | blank ht hv _ ih =>
    exact .again (by simp only [Loop.pass, Loop.attributesPass, ht, hv]) ih

theorem ends_arguments {r : Reading (List Token)} (h : ArgumentsRead start ts r) :
    Ends .arguments ts .arguments r.rest := by
  induction h with
  | runsOut h => exact .done (by simp only [Loop.pass, Loop.argumentsPass, h])
  | close h ht | stop h ht => exact .done (by simp only [Loop.pass, Loop.argumentsPass, h, ht])
  | other h ht _ ih => exact .again (by simp only [Loop.pass, Loop.argumentsPass, h, ht]) ih

/-- The loop over the lines ends at the end of the input, with what is read. -/
theorem ends_lines (b : Builder) (ts : List Token) :
    ∃ b' us, Ends (.lines b) ts (.lines b') us ∧ AtEnd us ∧ (readFrom b ts).1 = b'.finish := by
  fun_induction readFrom b ts with
  | case1 b => exact ⟨b, [], .done rfl, rfl, rfl⟩
  | case2 b t us ht l more ih =>
    obtain ⟨b', vs, ends, done, same⟩ := ih
    exact ⟨b', vs, .again (by simp only [Loop.pass, Loop.linesPass, if_pos ht]; rfl) ends, done, same⟩
  | case3 b t us ht width hk l more ih =>
    obtain ⟨b', vs, ends, done, same⟩ := ih
    refine ⟨b', vs, .again ?_ ends, done, same⟩
    simp only [Loop.pass, Loop.linesPass, if_neg ht, hk]
    rfl
  | case4 b t us ht hk ih =>
    obtain ⟨b', vs, ends, done, same⟩ := ih
    exact ⟨b', vs, .again (by simp only [Loop.pass, Loop.linesPass, if_neg ht, hk]) ends, done, same⟩
  | case5 b t us ht indent newline =>
    have eof : t.kind = .eof := by
      cases hk : t.kind with
      | indent width => exact absurd hk (indent width)
      | newline => exact absurd hk newline
      | eof => rfl
      | _ => exact absurd (by rw [inLine, hk]; rfl) ht
    refine ⟨b, t :: us, .done ?_, eof, rfl⟩
    simp only [Loop.pass, Loop.linesPass, if_neg ht, eof]

/-- Every loop ends, wherever it begins. -/
theorem exists_ends (l : Loop) (ts : List Token) : ∃ l' us, Ends l ts l' us := by
  cases l with
  | lines b =>
    obtain ⟨b', us, ends, -⟩ := ends_lines b ts
    exact ⟨.lines b', us, ends⟩
  | items => exact ⟨_, _, ends_items (read_items ts)⟩
  | layout => exact ⟨_, _, ends_layout (reads_layout .nowhere ts)⟩
  | attributes => exact ⟨_, _, ends_attributes (read_attributes true ts)⟩
  | arguments => exact ⟨_, _, ends_arguments (read_arguments .nowhere ts)⟩

/-- The items of a line are read on the way to its end. -/
theorem ItemsBegin.ends {b : Builder} {width : Nat} {us : List Token}
    (h : ItemsBegin b width ts us) :
    Ends .items us .items (items us).rest ∧ Leaves (items us).rest (line b width ts).rest := by
  refine ⟨ends_items (read_items us), ?_⟩
  cases h with
  | tag h =>
    rw [line_eq]
    simp only [h]
    exact leaves_endLine _
  | metadata h owner =>
    rw [line_eq]
    simp only [h, if_pos owner]
    exact leaves_endLine _

/-- A pass that begins a loop goes on from where that loop has ended. -/
theorem Begins.ends {l l' : Loop} {us : List Token} (h : Begins l ts l' us) :
    ∃ vs l'' ws, Ends l' us l' vs ∧ l.pass ts = .again l'' ws ∧ Leaves vs ws := by
  cases h with
  | @indented b t us width _ h items =>
    obtain ⟨ends, left⟩ := items.ends
    refine ⟨_, .lines (line b width us).value, _, ends, ?_, left⟩
    have begun : inLine t = false := inLine_of_begins (.inr (isIndent_eq_true.mpr ⟨width, h⟩))
    simp only [Loop.pass, Loop.linesPass, begun, h]
    rfl
  | @midLine b t us _ h items =>
    obtain ⟨ends, left⟩ := items.ends
    refine ⟨_, .lines (line b (t.location.column - 1) (t :: us)).value, _, ends, ?_, left⟩
    simp only [Loop.pass, Loop.linesPass, if_pos h]
  | @block t us h =>
    refine ⟨_, .items, _, ends_layout (reads_layout t.location us), ?_, .refl _⟩
    simp only [Loop.pass, Loop.itemsPass, item?_openBrace us h]
  | @list t us h =>
    have rest : (attributeList t.location us).rest =
        (attributes true ((skip? .colon us).getD us)).rest := by
      unfold attributeList
      cases skip? .colon us <;> rfl
    refine ⟨_, .items, _, ends_attributes (read_attributes true _), ?_, .refl _⟩
    simp only [Loop.pass, Loop.itemsPass, item?_attr us h, rest]
  | @call t ws us h paren =>
    have value : (attributeValue ws).rest = (arguments (next ws).location us).rest := by
      simp only [attributeValue, paren]
    refine ⟨_, .attributes, _, ends_arguments (read_arguments (next ws).location us), ?_,
      leaves_skipComma _⟩
    simp only [Loop.pass, Loop.attributesPass, h, value]

end Readers

/-- Whatever tokens are read, as long as the end of the input is among them: the loop over the lines
ends in front of the first end of the input, with the outline of the tokens. Wherever a loop of the
reader has come to on the way, no end of the input was taken, none is taken by the next pass, which
takes some token or is the last of its loop, the loop ends, and a loop that the pass begins ends
before the pass goes on. No passes go on for ever. The inner loops are those of the readers of
items, blocks, lists and calls. -/
theorem passes_end {ts : List Token} (h : ∃ e ∈ ts, e.kind = .eof) :
    (∃ b taken e left, ts = taken ++ e :: left ∧ (∀ t ∈ taken, t.kind ≠ .eof) ∧ e.kind = .eof ∧
        Ends (.lines .empty) ts (.lines b) (e :: left) ∧ (ofTokens ts).1 = b.finish) ∧
      (∀ l us, ReflTransGen Goes (.lines .empty, ts) (l, us) →
        Leaves ts us ∧ (l.pass us).Proper us ∧ (∃ l' vs, Ends l us l' vs ∧ Leaves us vs) ∧
          ∀ l' vs, Begins l us l' vs →
            ∃ ws l'' rest, Ends l' vs l' ws ∧ l.pass us = .again l'' rest ∧ Leaves ws rest) ∧
      WellFounded (fun s' s => Goes s s') ∧
      ∀ us start first, Ends .items us .items (items us).rest ∧
        Ends .layout us .layout (layout start us).rest ∧
        Ends .attributes us .attributes (attributes first us).rest ∧
        Ends .arguments us .arguments (arguments start us).rest := by
  refine ⟨?_, fun l us goes => ?_, wellFounded_goes, fun us start first => ?_⟩
  · obtain ⟨b, us, ends, done, same⟩ := ends_lines .empty ts
    obtain ⟨e, he, -⟩ := ends.leaves.exists_eof h
    obtain ⟨taken, hts, other⟩ := ends.leaves
    cases us with
    | nil => cases he
    | cons e left => exact ⟨b, taken, e, left, hts, other, done, ends, same⟩
  · obtain ⟨l', vs, ends⟩ := exists_ends l us
    exact ⟨leaves_of_goes goes, l.proper_pass us, ⟨l', vs, ends, ends.leaves⟩,
      fun l' vs begins => begins.ends⟩
  · exact ⟨ends_items (read_items us), ends_layout (reads_layout start us),
      ends_attributes (read_attributes first us), ends_arguments (read_arguments start us)⟩

/-- Indentations without lines, a bracket, a block and a call that stay open, and one more bracket
behind the end of the input. -/
def unruly : List Token :=
  [.newline, .indent 2, .indent 0, .openBracket, .openBrace, .attr, .ident "a", .openParen,
    .indent 3, .eof, .openBracket, .eof].map fun kind => ⟨kind, "", .nowhere⟩

theorem passes_end_unruly :
    (∃ e ∈ unruly, e.kind = .eof) ∧
      ∃ b, Ends (.lines .empty) unruly (.lines b) (unruly.drop 9) ∧
        (ofTokens unruly).1 = b.finish := by
  have eof : ∃ e ∈ unruly, e.kind = .eof :=
    ⟨⟨.eof, "", .nowhere⟩, List.mem_map.mpr ⟨.eof, by simp, rfl⟩, rfl⟩
  obtain ⟨b, taken, e, left, tokens, other, he, ends, same⟩ := (passes_end eof).1
  have rest : unruly.dropWhile (fun t => t.kind ≠ .eof) = e :: left := by
    rw [tokens, List.dropWhile_append_of_pos (by simpa using other),
      List.dropWhile_cons_of_neg (by simp [he])]
  rw [← rest] at ends
  exact ⟨eof, b, ends, same⟩

end Wireframe.Outline
