import Wireframe.Outline.Reader

/-!
# Derivations of items

What the readers of items do, as inductive relations with one rule for each way to go on. A rule
names what decides it: the role of the next token and what is found behind it. Each relation has
exactly one result, the one its reader computes, so a property of a reader is proved by induction
on a derivation and a result of a reader is found by building one.
-/

namespace Wireframe

namespace Reading

variable {α β : Type}

/-- The same reading of tokens that go on behind what was read. -/
def extend (r : Reading α) (vs : List Token) : Reading α :=
  ⟨r.value, r.problems, r.rest ++ vs⟩

@[simp] theorem extend_mk (a : α) (ps : List Diagnostic) (ts vs : List Token) :
    (⟨a, ps, ts⟩ : Reading α).extend vs = ⟨a, ps, ts ++ vs⟩ := rfl

@[simp] theorem extend_value (r : Reading α) (vs : List Token) :
    (r.extend vs).value = r.value := rfl

@[simp] theorem extend_problems (r : Reading α) (vs : List Token) :
    (r.extend vs).problems = r.problems := rfl

@[simp] theorem extend_rest (r : Reading α) (vs : List Token) :
    (r.extend vs).rest = r.rest ++ vs := rfl

end Reading

namespace Outline

open Token.Kind

/-- What a token means to a reader that looks for the end of a block. -/
inductive Role where
  | close
  | separator
  | stop
  | key
  | other
deriving DecidableEq

/-- The role of a token in a layout block. -/
def layoutRole : Token.Kind → Role
  | .closeBrace => .close
  | .comma => .separator
  | .eof | .indent _ => .stop
  | .ident _ | .str _ | .number _ => .key
  | _ => .other

/-- The role of a token between the parentheses of a call. -/
def argumentRole : Token.Kind → Role
  | .closeParen => .close
  | .eof | .indent _ | .openBracket | .openBrace | .attr | .content => .stop
  | _ => .other

/-- The role of a token where an attribute list may go on. -/
def attributeRole : Token.Kind → Role
  | .ident _ | .str _ => .key
  | _ => .stop

theorem skip?_eq_some {kind : Token.Kind} {ts us : List Token} :
    skip? kind ts = some us ↔ ∃ t, t.kind = kind ∧ ts = t :: us := by
  cases ts with
  | nil => simp [skip?]
  | cons t ts =>
    simp only [skip?, Option.ite_none_right_eq_some, Option.some.injEq, List.cons.injEq]
    constructor
    · rintro ⟨rfl, rfl⟩
      exact ⟨t, rfl, rfl, rfl⟩
    · rintro ⟨_, rfl, rfl, rfl⟩
      exact ⟨rfl, rfl⟩

/-- The text of a string literal. -/
def str? (t : Token) : Option String :=
  match t.kind with
  | .str text => some text
  | _ => none

/-- The name that a word is. -/
def ident? (t : Token) : Option String :=
  match t.kind with
  | .ident name => some name
  | _ => none

theorem str?_eq_some {t : Token} {text : String} : str? t = some text ↔ t.kind = .str text := by
  cases hk : t.kind <;> simp [str?, hk]

theorem ident?_eq_some {t : Token} {name : String} :
    ident? t = some name ↔ t.kind = .ident name := by
  cases hk : t.kind <;> simp [ident?, hk]

/-- Whether a token belongs to the words of a payload. -/
def inBracket (t : Token) : Bool :=
  inLine t && t.kind ≠ .closeBracket && t.kind ≠ .openBracket

theorem tagName_eq (ts : List Token) :
    tagName ts =
      match ident? (next ts) with
      | some name => ⟨name, [], ts.drop 1⟩
      | none => ⟨"", [⟨.expectedTagName (next ts).kind, (next ts).location⟩], ts⟩ := by
  unfold tagName ident?
  cases (next ts).kind <;> rfl

theorem payload_eq (ts : List Token) :
    payload ts =
      match str? (next ts) with
      | some text => (.literal text, ts.drop 1)
      | none =>
        (if ts.takeWhile inBracket = [] then .none
          else .id (" ".intercalate ((ts.takeWhile inBracket).map Token.text)),
          ts.dropWhile inBracket) := by
  unfold payload str?
  cases (next ts).kind <;> rfl

theorem contentText_eq (start : Location) (ts : List Token) :
    contentText start ts =
      match str? (next ts) with
      | some text => ⟨some text, [], ts.drop 1⟩
      | none =>
        if ts.takeWhile inLine = [] then ⟨none, [⟨.emptyContent, start⟩], ts.dropWhile inLine⟩
        else ⟨some (Token.joined (ts.takeWhile inLine)), [], ts.dropWhile inLine⟩ := by
  unfold contentText str?
  cases (next ts).kind <;> rfl

/-- How the entries of a layout block are read. -/
inductive LayoutReads (start : Location) : List Token → Reading (List Attribute) → Prop
  | runsOut {ts} (h : skipBreaks ts = []) :
      LayoutReads start ts ⟨[], [⟨.unterminatedLayout, start⟩], []⟩
  | close {ts t us} (h : skipBreaks ts = t :: us) (ht : layoutRole t.kind = .close) :
      LayoutReads start ts ⟨[], [], us⟩
  | stop {ts t us} (h : skipBreaks ts = t :: us) (ht : layoutRole t.kind = .stop) :
      LayoutReads start ts ⟨[], [⟨.unterminatedLayout, start⟩], t :: us⟩
  | separator {ts t us r} (h : skipBreaks ts = t :: us) (ht : layoutRole t.kind = .separator)
      (more : LayoutReads start us r) : LayoutReads start ts r
  | gap {ts t us es ps rest} (h : skipBreaks ts = t :: us) (ht : layoutRole t.kind = .key)
      (hc : skip? .colon us = none)
      (more : LayoutReads start (us.dropWhile inLayoutGap) ⟨es, ps, rest⟩) :
      LayoutReads start ts
        ⟨es, ⟨.missingLayoutColon t.valueText, (next us).location⟩ :: ps, rest⟩
  | entry {ts t us vs v es ps rest} (h : skipBreaks ts = t :: us)
      (ht : layoutRole t.kind = .key) (hc : skip? .colon us = some vs)
      (hv : valueOf? (vs.takeWhile inLayoutValue) = some v)
      (more : LayoutReads start (vs.dropWhile inLayoutValue) ⟨es, ps, rest⟩) :
      LayoutReads start ts ⟨⟨t.valueText, v, t.location⟩ :: es, ps, rest⟩
  | blank {ts t us vs es ps rest} (h : skipBreaks ts = t :: us)
      (ht : layoutRole t.kind = .key) (hc : skip? .colon us = some vs)
      (hv : valueOf? (vs.takeWhile inLayoutValue) = none)
      (more : LayoutReads start (vs.dropWhile inLayoutValue) ⟨es, ps, rest⟩) :
      LayoutReads start ts ⟨es, ⟨.missingLayoutValue t.valueText, t.location⟩ :: ps, rest⟩
  | other {ts t us es ps rest} (h : skipBreaks ts = t :: us)
      (ht : layoutRole t.kind = .other) (more : LayoutReads start us ⟨es, ps, rest⟩) :
      LayoutReads start ts ⟨es, ⟨.unexpectedInLayout t.kind, t.location⟩ :: ps, rest⟩

/-- The tokens that may be keys are told apart by nothing but their roles. -/
theorem layout_eq (start : Location) (ts : List Token) :
    layout start ts =
      match skipBreaks ts with
      | [] => ⟨[], [⟨.unterminatedLayout, start⟩], []⟩
      | t :: us =>
        match layoutRole t.kind with
        | .close => ⟨[], [], us⟩
        | .separator => layout start us
        | .stop => ⟨[], [⟨.unterminatedLayout, start⟩], t :: us⟩
        | .key =>
          match skip? .colon us with
          | none =>
            let more := layout start (us.dropWhile inLayoutGap)
            { more with
              problems := ⟨.missingLayoutColon t.valueText, (next us).location⟩ :: more.problems }
          | some vs =>
            let more := layout start (vs.dropWhile inLayoutValue)
            match valueOf? (vs.takeWhile inLayoutValue) with
            | some v => { more with value := ⟨t.valueText, v, t.location⟩ :: more.value }
            | none =>
              { more with
                problems := ⟨.missingLayoutValue t.valueText, t.location⟩ :: more.problems }
        | .other =>
          let more := layout start us
          { more with
            problems := ⟨.unexpectedInLayout t.kind, t.location⟩ :: more.problems } := by
  fun_cases layout start ts
  all_goals simp_all +zetaDelta [layoutRole]

theorem layout_eq_of_reads {start : Location} {ts : List Token} {r : Reading (List Attribute)}
    (h : LayoutReads start ts r) : layout start ts = r := by
  induction h with
  | runsOut h => rw [layout_eq]; simp only [h]
  | close h ht => rw [layout_eq]; simp only [h, ht]
  | stop h ht => rw [layout_eq]; simp only [h, ht]
  | separator h ht _ ih => rw [layout_eq]; simp only [h, ht, ih]
  | gap h ht hc _ ih => rw [layout_eq]; simp only [h, ht, hc, ih]
  | entry h ht hc hv _ ih => rw [layout_eq]; simp only [h, ht, hc, hv, ih]
  | blank h ht hc hv _ ih => rw [layout_eq]; simp only [h, ht, hc, hv, ih]
  | other h ht _ ih => rw [layout_eq]; simp only [h, ht, ih]

theorem reads_layout (start : Location) (ts : List Token) :
    LayoutReads start ts (layout start ts) := by
  fun_induction layout start ts with
  | case1 ts h => exact .runsOut h
  | case2 ts t us h hk => exact .close h (by rw [hk]; rfl)
  | case3 ts t us h hk ih => exact .separator h (by rw [hk]; rfl) ih
  | case4 ts t us h hk => exact .stop h (by rw [hk]; rfl)
  | case5 ts t us h _ hk => exact .stop h (by rw [hk]; rfl)
  | case6 ts t us h _ hk hc more ih
  | case9 ts t us h _ hk hc more ih
  | case12 ts t us h _ hk hc more ih => exact .gap h (by rw [hk]; rfl) hc ih
  | case7 ts t us h _ hk vs hc more v hv ih
  | case10 ts t us h _ hk vs hc more v hv ih
  | case13 ts t us h _ hk vs hc more v hv ih => exact .entry h (by rw [hk]; rfl) hc hv ih
  | case8 ts t us h _ hk vs hc more hv ih
  | case11 ts t us h _ hk vs hc more hv ih
  | case14 ts t us h _ hk vs hc more hv ih => exact .blank h (by rw [hk]; rfl) hc hv ih
  | case15 ts t us h =>
    refine .other h ?_ ‹_›
    cases hk : t.kind <;> simp_all [layoutRole]

/-- How the tokens between the parentheses of a call are read. -/
inductive ArgumentsRead (start : Location) : List Token → Reading (List Token) → Prop
  | runsOut {ts} (h : skipBreaks ts = []) :
      ArgumentsRead start ts ⟨[], [⟨.unterminatedArguments, start⟩], []⟩
  | close {ts t us} (h : skipBreaks ts = t :: us) (ht : argumentRole t.kind = .close) :
      ArgumentsRead start ts ⟨[], [], us⟩
  | stop {ts t us} (h : skipBreaks ts = t :: us) (ht : argumentRole t.kind = .stop) :
      ArgumentsRead start ts ⟨[], [⟨.unterminatedArguments, start⟩], t :: us⟩
  | other {ts t us as ps rest} (h : skipBreaks ts = t :: us) (ht : argumentRole t.kind = .other)
      (more : ArgumentsRead start us ⟨as, ps, rest⟩) :
      ArgumentsRead start ts ⟨t :: as, ps, rest⟩

theorem arguments_eq (start : Location) (ts : List Token) :
    arguments start ts =
      match skipBreaks ts with
      | [] => ⟨[], [⟨.unterminatedArguments, start⟩], []⟩
      | t :: us =>
        match argumentRole t.kind with
        | .close => ⟨[], [], us⟩
        | .stop => ⟨[], [⟨.unterminatedArguments, start⟩], t :: us⟩
        | _ =>
          let more := arguments start us
          { more with value := t :: more.value } := by
  fun_cases arguments start ts
  all_goals simp_all +zetaDelta [argumentRole]

theorem arguments_eq_of_read {start : Location} {ts : List Token} {r : Reading (List Token)}
    (h : ArgumentsRead start ts r) : arguments start ts = r := by
  induction h with
  | runsOut h => rw [arguments_eq]; simp only [h]
  | close h ht => rw [arguments_eq]; simp only [h, ht]
  | stop h ht => rw [arguments_eq]; simp only [h, ht]
  | other h ht _ ih => rw [arguments_eq]; simp only [h, ht, ih]

theorem read_arguments (start : Location) (ts : List Token) :
    ArgumentsRead start ts (arguments start ts) := by
  fun_induction arguments start ts with
  | case1 ts h => exact .runsOut h
  | case2 ts t us h hk => exact .close h (by rw [hk]; rfl)
  | case3 ts t us h hk
  | case5 ts t us h hk
  | case6 ts t us h hk
  | case7 ts t us h hk
  | case8 ts t us h hk => exact .stop h (by rw [hk]; rfl)
  | case4 ts t us h _ hk => exact .stop h (by rw [hk]; rfl)
  | case9 ts t us h =>
    refine .other h ?_ ‹_›
    cases hk : t.kind <;> simp_all [argumentRole]

def isIndent : Token.Kind → Bool
  | .indent _ => true
  | _ => false

theorem isIndent_eq_true {kind : Token.Kind} :
    isIndent kind = true ↔ ∃ width, kind = .indent width := by
  cases kind <;> simp [isIndent]

/-- Whether an attribute list whose line is over goes on with the next line. -/
def goesOn : List Token → Bool
  | t :: i :: k :: _ => t.kind = .newline && isIndent i.kind && attributeRole k.kind = .key
  | _ => false

theorem goesOn_of_ne_newline {t : Token} (us : List Token) (h : t.kind ≠ .newline) :
    goesOn (t :: us) = false := by
  match us with
  | [] | [_] => rfl
  | _ :: _ :: _ => simp [goesOn, h]

theorem skipComma_eq (ts : List Token) :
    skipComma ts =
      match skip? .comma ts with
      | none => ts
      | some us => if goesOn us then us.drop 2 else us := by
  unfold skipComma
  cases skip? .comma ts with
  | none => rfl
  | some us =>
    match us with
    | [] | [_] | [_, _] => rfl
    | t :: i :: k :: vs =>
      simp only [goesOn, List.drop_succ_cons, List.drop_zero]
      cases t.kind with
      | newline =>
        cases i.kind with
        | indent width => cases k.kind <;> rfl
        | _ => rfl
      | _ => rfl

/-- What is reported where an attribute list ends: that it is empty, if it is. -/
def listEnd (first : Bool) (found : Token.Kind) (p : Location) : List Diagnostic :=
  if first then [⟨.expectedAttributeName found, p⟩] else []

/-- How the entries of an attribute list are read. -/
inductive AttributesRead : Bool → List Token → Reading (List Attribute) → Prop
  | runsOut (first) : AttributesRead first [] ⟨[], listEnd first .eof .nowhere, []⟩
  | stop {first t us} (ht : attributeRole t.kind = .stop) :
      AttributesRead first (t :: us) ⟨[], listEnd first t.kind t.location, t :: us⟩
  | entry {first t us v ps rest es qs last} (ht : attributeRole t.kind = .key)
      (hv : attributeValue us = ⟨some v, ps, rest⟩)
      (more : AttributesRead false (skipComma rest) ⟨es, qs, last⟩) :
      AttributesRead first (t :: us) ⟨⟨t.valueText, v, t.location⟩ :: es, ps ++ qs, last⟩
  | blank {first t us ps rest es qs last} (ht : attributeRole t.kind = .key)
      (hv : attributeValue us = ⟨none, ps, rest⟩)
      (more : AttributesRead first (skipComma rest) ⟨es, qs, last⟩) :
      AttributesRead first (t :: us)
        ⟨es, ps ++ ⟨.missingAttributeValue t.valueText, t.location⟩ :: qs, last⟩

theorem attributes_cons (first : Bool) (t : Token) (us : List Token) :
    attributes first (t :: us) =
      match attributeRole t.kind with
      | .key =>
        let value := attributeValue us
        match value.value with
        | some v =>
          let more := attributes false (skipComma value.rest)
          ⟨⟨t.valueText, v, t.location⟩ :: more.value, value.problems ++ more.problems, more.rest⟩
        | none =>
          let more := attributes first (skipComma value.rest)
          ⟨more.value,
            value.problems ++ ⟨.missingAttributeValue t.valueText, t.location⟩ :: more.problems,
            more.rest⟩
      | _ => ⟨[], listEnd first t.kind t.location, t :: us⟩ := by
  rw [attributes]
  cases t.kind <;> cases (attributeValue us).value <;> rfl

theorem attributes_eq_of_read {first : Bool} {ts : List Token} {r : Reading (List Attribute)}
    (h : AttributesRead first ts r) : attributes first ts = r := by
  induction h with
  | runsOut first => rw [attributes]; rfl
  | stop ht => rw [attributes_cons]; simp only [ht]
  | entry ht hv _ ih => rw [attributes_cons]; simp only [ht, hv, ih]
  | blank ht hv _ ih => rw [attributes_cons]; simp only [ht, hv, ih]

theorem read_attributes (first : Bool) (ts : List Token) :
    AttributesRead first ts (attributes first ts) := by
  fun_induction attributes first ts with
  | case1 first => exact .runsOut first
  | case2 first t us _ hk value rest v hv more ih
  | case4 first t us _ hk value rest v hv more ih =>
    exact .entry (by rw [hk]; rfl) (by rw [← hv]) ih
  | case3 first t us _ hk value rest hv more ih
  | case5 first t us _ hk value rest hv more ih =>
    exact .blank (by rw [hk]; rfl) (by rw [← hv]) ih
  | case6 first t us h h' =>
    refine .stop ?_
    cases hk : t.kind <;> simp_all [attributeRole]

/-- A list ends in front of a token that is no key and no comma. -/
theorem read_attributes_stop (first : Bool) {ts : List Token}
    (h : attributeRole (next ts).kind = .stop) :
    AttributesRead first ts ⟨[], listEnd first (next ts).kind (next ts).location, ts⟩ := by
  cases ts with
  | nil => exact .runsOut first
  | cons => exact .stop h

/-- What one item adds, read off the tokens that begin with it; none if they begin with no item. -/
def item? : List Token → Option (Reading (List Item))
  | [] => none
  | t :: us =>
    match t.kind with
    | .openBrace =>
      let block := layout t.location us
      some ⟨[.layout block.value], block.problems, block.rest⟩
    | .attr =>
      let list := attributeList t.location us
      some ⟨[.attributes list.value], list.problems, list.rest⟩
    | .content =>
      let text := content t.location us
      some ⟨(text.value.map (.content · t.location)).toList, text.problems, text.rest⟩
    | _ => none

section

variable {t : Token} (us : List Token)

theorem item?_openBrace (h : t.kind = .openBrace) :
    item? (t :: us) = some ⟨[.layout (layout t.location us).value],
      (layout t.location us).problems, (layout t.location us).rest⟩ := by
  simp only [item?, h]

theorem item?_attr (h : t.kind = .attr) :
    item? (t :: us) = some ⟨[.attributes (attributeList t.location us).value],
      (attributeList t.location us).problems, (attributeList t.location us).rest⟩ := by
  simp only [item?, h]

theorem item?_content (h : t.kind = .content) :
    item? (t :: us) = some ⟨((content t.location us).value.map (.content · t.location)).toList,
      (content t.location us).problems, (content t.location us).rest⟩ := by
  simp only [item?, h]

end

/-- How the items of a line are read. -/
inductive ItemsRead : List Token → Reading (List Item) → Prop
  | stop {ts} (h : item? ts = none) : ItemsRead ts ⟨[], [], ts⟩
  | item {ts xs ps rest ys qs last} (h : item? ts = some ⟨xs, ps, rest⟩)
      (more : ItemsRead rest ⟨ys, qs, last⟩) : ItemsRead ts ⟨xs ++ ys, ps ++ qs, last⟩

theorem items_eq (ts : List Token) :
    items ts =
      match item? ts with
      | none => ⟨[], [], ts⟩
      | some r =>
        let more := items r.rest
        ⟨r.value ++ more.value, r.problems ++ more.problems, more.rest⟩ := by
  cases ts with
  | nil => rw [items]; rfl
  | cons t us =>
    rw [items]
    cases hk : t.kind <;> simp only [item?, hk, List.singleton_append]

theorem items_eq_of_read {ts : List Token} {r : Reading (List Item)} (h : ItemsRead ts r) :
    items ts = r := by
  induction h with
  | stop h => rw [items_eq]; simp only [h]
  | item h _ ih => rw [items_eq]; simp only [h, ih]

theorem read_items (ts : List Token) : ItemsRead ts (items ts) := by
  fun_induction items ts with
  | case1 => exact .stop rfl
  | case2 t us hk block more ih => exact .item (item?_openBrace us hk) ih
  | case3 t us hk list more ih => exact .item (item?_attr us hk) ih
  | case4 t us hk text more ih => exact .item (item?_content us hk) ih
  | case5 t us h1 h2 h3 =>
    refine .stop ?_
    cases hk : t.kind <;> simp_all [item?]

/-- What a line is by its first token. -/
inductive LineKind where
  | tag
  | metadata
  | empty
  | stray
deriving DecidableEq

def lineKind : Token.Kind → LineKind
  | .openBracket => .tag
  | .openBrace | .attr | .content => .metadata
  | .newline | .eof => .empty
  | _ => .stray

theorem line_eq (b : Builder) (width : Nat) (ts : List Token) :
    line b width ts =
      match lineKind (next ts).kind with
      | .tag => tagLine b width (next ts).location (ts.drop 1)
      | .metadata =>
        if b.hasOwner width then itemsLine (b.closeWider width) ts
        else ⟨b, [⟨.orphanMetadata (next ts).kind, (next ts).location⟩], ts.dropWhile inLine⟩
      | .empty => ⟨b, [], ts⟩
      | .stray =>
        ⟨b, [⟨.unexpectedAtLineStart (next ts).kind, (next ts).location⟩],
          ts.dropWhile inLine⟩ := by
  dsimp only [line]
  cases (next ts).kind <;> rfl

end Outline

end Wireframe
