import Wireframe.Proofs.Outline.Derivation

/-!
# Places and widths

Readers carry the places of tokens along but never look at them, and of widths they only ask which
one is wider. So when tokens are moved, what is read from them is moved and otherwise the same. The
one exception is a line that begins without an indentation, which tokens that come in whole lines do
not have.
-/

namespace Wireframe

open Outline

/-- Other places for tokens and other widths for lines. What has no place is not given one, and a
line that was wider stays wider. -/
structure Shift where
  place : Location → Location
  width : Nat → Nat
  place_nowhere : place .nowhere = .nowhere
  width_lt : ∀ {v w}, v < w → width v < width w

namespace Shift

/-- All places are forgotten. -/
def unplaced : Shift :=
  ⟨fun _ => .nowhere, id, rfl, fun h => h⟩

variable (σ : Shift)

theorem width_lt_iff {v w : Nat} : σ.width v < σ.width w ↔ v < w := by
  constructor
  · intro h
    rcases Nat.lt_trichotomy v w with hv | rfl | hv
    · exact hv
    · exact absurd h (Nat.lt_irrefl _)
    · exact absurd h (Nat.lt_asymm (σ.width_lt hv))
  · exact σ.width_lt

theorem width_le_iff {v w : Nat} : σ.width v ≤ σ.width w ↔ v ≤ w := by
  rw [← Nat.not_lt, ← Nat.not_lt, σ.width_lt_iff]

theorem width_eq_iff {v w : Nat} : σ.width v = σ.width w ↔ v = w := by
  have left := σ.width_le_iff (v := v) (w := w)
  have right := σ.width_le_iff (v := w) (w := v)
  omega

def kind : Token.Kind → Token.Kind
  | .indent w => .indent (σ.width w)
  | k => k

def token (t : Token) : Token :=
  ⟨σ.kind t.kind, t.text, σ.place t.location⟩

def problem : Problem → Problem
  | .orphanMetadata k => .orphanMetadata (σ.kind k)
  | .unexpectedAtLineStart k => .unexpectedAtLineStart (σ.kind k)
  | .unexpectedAtLineEnd k => .unexpectedAtLineEnd (σ.kind k)
  | .expectedTagName k => .expectedTagName (σ.kind k)
  | .expectedTagEnd k => .expectedTagEnd (σ.kind k)
  | .unexpectedInLayout k => .unexpectedInLayout (σ.kind k)
  | .expectedAttributeName k => .expectedAttributeName (σ.kind k)
  | .unmatchedIndentation w => .unmatchedIndentation (σ.width w)
  | p => p

def diagnostic (d : Diagnostic) : Diagnostic :=
  ⟨σ.problem d.problem, σ.place d.location⟩

def entry (a : Attribute) : Attribute :=
  { a with location := σ.place a.location }

def element (e : Element) : Element :=
  { e with
    layout := e.layout.map σ.entry
    attributes := e.attributes.map σ.entry
    location := σ.place e.location }

def item : Item → Item
  | .layout entries => .layout (entries.map σ.entry)
  | .attributes entries => .attributes (entries.map σ.entry)
  | .content text p => .content text (σ.place p)

def outline (o : Outline) : Outline :=
  Tree.mapAll σ.element o

/-- A reading whose value is moved by `g`. -/
def reading {α : Type} (g : α → α) (r : Reading α) : Reading α :=
  ⟨g r.value, r.problems.map σ.diagnostic, r.rest.map σ.token⟩

section Tokens

variable (t : Token) (ts : List Token)

@[simp] theorem unplaced_token : unplaced.token t = ⟨t.kind, t.text, .nowhere⟩ := by
  obtain ⟨k, x, p⟩ := t
  cases k <;> rfl

@[simp] theorem kind_token : (σ.token t).kind = σ.kind t.kind := rfl

@[simp] theorem text_token : (σ.token t).text = t.text := rfl

@[simp] theorem location_token : (σ.token t).location = σ.place t.location := rfl

theorem kind_eq_iff (k : Token.Kind) {l : Token.Kind} (h : isIndent l = false) :
    σ.kind k = l ↔ k = l := by
  cases k <;> cases l <;> simp_all [kind, isIndent]

@[simp] theorem endsLine_kind (k : Token.Kind) : (σ.kind k).endsLine = k.endsLine := by
  cases k <;> rfl

@[simp] theorem isIndent_kind (k : Token.Kind) : isIndent (σ.kind k) = isIndent k := by
  cases k <;> rfl

@[simp] theorem layoutRole_kind (k : Token.Kind) : layoutRole (σ.kind k) = layoutRole k := by
  cases k <;> rfl

@[simp] theorem argumentRole_kind (k : Token.Kind) : argumentRole (σ.kind k) = argumentRole k := by
  cases k <;> rfl

@[simp] theorem attributeRole_kind (k : Token.Kind) :
    attributeRole (σ.kind k) = attributeRole k := by
  cases k <;> rfl

@[simp] theorem lineKind_kind (k : Token.Kind) : lineKind (σ.kind k) = lineKind k := by
  cases k <;> rfl

@[simp] theorem valueText_token : (σ.token t).valueText = t.valueText := by
  unfold Token.valueText token
  cases t.kind <;> rfl

@[simp] theorem str?_token : str? (σ.token t) = str? t := by
  unfold str? token
  cases t.kind <;> rfl

@[simp] theorem ident?_token : ident? (σ.token t) = ident? t := by
  unfold ident? token
  cases t.kind <;> rfl

@[simp] theorem inLine_token : inLine (σ.token t) = inLine t := by
  simp [inLine]

@[simp] theorem opensItem_token : opensItem (σ.token t) = opensItem t := by
  obtain ⟨k, x, p⟩ := t
  cases k <;> rfl

@[simp] theorem inBracket_token : inBracket (σ.token t) = inBracket t := by
  obtain ⟨k, x, p⟩ := t
  cases k <;> rfl

@[simp] theorem inLayoutValue_token : inLayoutValue (σ.token t) = inLayoutValue t := by
  obtain ⟨k, x, p⟩ := t
  cases k <;> rfl

@[simp] theorem inLayoutGap_token : inLayoutGap (σ.token t) = inLayoutGap t := by
  obtain ⟨k, x, p⟩ := t
  cases k <;> rfl

@[simp] theorem inAttributeValue_token : inAttributeValue (σ.token t) = inAttributeValue t := by
  obtain ⟨k, x, p⟩ := t
  cases k <;> rfl

@[simp] theorem next_tokens : next (ts.map σ.token) = σ.token (next ts) := by
  cases ts with
  | nil => simp [next, token, Token.eofAt, kind, σ.place_nowhere]
  | cons t ts => rfl

theorem skip?_tokens {k : Token.Kind} (h : isIndent k = false) :
    skip? k (ts.map σ.token) = (skip? k ts).map (List.map σ.token) := by
  cases ts with
  | nil => rfl
  | cons t ts =>
    simp only [skip?, List.map_cons, kind_token, σ.kind_eq_iff _ h]
    split <;> rfl

variable {p : Token → Bool} (hp : ∀ t, p (σ.token t) = p t)

include hp

theorem takeWhile_tokens :
    (ts.map σ.token).takeWhile p = (ts.takeWhile p).map σ.token := by
  rw [List.takeWhile_map, show p ∘ σ.token = p from funext hp]

theorem dropWhile_tokens :
    (ts.map σ.token).dropWhile p = (ts.dropWhile p).map σ.token := by
  rw [List.dropWhile_map, show p ∘ σ.token = p from funext hp]

theorem splitWhere_tokens :
    splitWhere p (ts.map σ.token) = (splitWhere p ts).map (List.map σ.token) := by
  induction ts with
  | nil => rfl
  | cons t ts ih =>
    rw [List.map_cons, splitWhere, splitWhere, hp, ih]
    split
    · rfl
    · cases splitWhere p ts <;> rfl

end Tokens

section Values

variable (ts : List Token)

@[simp] theorem map_valueText_tokens :
    (ts.map σ.token).map Token.valueText = ts.map Token.valueText := by
  simp

@[simp] theorem joined_tokens : Token.joined (ts.map σ.token) = Token.joined ts := by
  rw [Token.joined, map_valueText_tokens, Token.joined]

@[simp] theorem valueOf?_tokens : valueOf? (ts.map σ.token) = valueOf? ts := by
  match ts with
  | [] => rfl
  | [t] =>
    have text := σ.valueText_token t
    simp only [List.map_cons, List.map_nil, valueOf?, text, kind_token]
    cases t.kind <;> rfl
  | t :: u :: ts =>
    have joined := σ.joined_tokens (t :: u :: ts)
    simpa [valueOf?] using joined

@[simp] theorem callValue?_tokens : callValue? (ts.map σ.token) = callValue? ts := by
  have comma (t : Token) : decide ((σ.token t).kind = .comma) = decide (t.kind = .comma) := by
    obtain ⟨k, x, p⟩ := t
    cases k <;> rfl
  have filled : (splitWhere (·.kind = .comma) (ts.map σ.token)).filter (· ≠ []) =
      ((splitWhere (·.kind = .comma) ts).filter (· ≠ [])).map (List.map σ.token) := by
    rw [σ.splitWhere_tokens ts comma, List.filter_map]
    congr 1
    refine List.filter_congr fun part _ => ?_
    cases part <;> rfl
  rw [callValue?, callValue?, filled]
  generalize (splitWhere (·.kind = .comma) ts).filter (· ≠ []) = parts
  match parts with
  | [] => rfl
  | [part] => exact σ.valueOf?_tokens part
  | part :: part' :: parts => simp [Function.comp_def]

end Values

section Readers

variable (start : Location) (ts : List Token)

theorem payload_tokens :
    payload (ts.map σ.token) = ((payload ts).1, (payload ts).2.map σ.token) := by
  have text : (ts.takeWhile inBracket).map (Token.text ∘ σ.token) =
      (ts.takeWhile inBracket).map Token.text := rfl
  rw [payload_eq, payload_eq, next_tokens, str?_token]
  cases str? (next ts) with
  | some s => simp
  | none => simp [σ.takeWhile_tokens, σ.dropWhile_tokens, text]

theorem tagName_tokens : tagName (ts.map σ.token) = σ.reading id (tagName ts) := by
  rw [tagName_eq, tagName_eq, next_tokens, ident?_token]
  cases ident? (next ts) <;> simp [reading, diagnostic, problem]

theorem tagPayload_tokens : tagPayload (ts.map σ.token) = σ.reading id (tagPayload ts) := by
  rw [tagPayload, tagPayload, σ.skip?_tokens ts rfl]
  cases skip? .colon ts with
  | some us => simp [payload_tokens, reading]
  | none =>
    have ended := σ.kind_eq_iff (next ts).kind (l := .closeBracket) rfl
    simp only [Option.map_none, next_tokens, inLine_token, kind_token, ended, payload_tokens]
    split <;> rfl

theorem tag_tokens : tag (σ.place start) (ts.map σ.token) = σ.reading σ.element (tag start ts) := by
  simp only [tag, tagName_tokens, reading, tagPayload_tokens,
    σ.skip?_tokens (k := .closeBracket) _ rfl]
  cases skip? .closeBracket (tagPayload (tagName ts).rest).rest <;>
    simp [element, Element.bare, diagnostic, problem]

theorem skipBreaks_tokens : skipBreaks (ts.map σ.token) = (skipBreaks ts).map σ.token := by
  induction ts with
  | nil => rfl
  | cons t ts ih =>
    rw [List.map_cons, skipBreaks, skipBreaks, ih, next_tokens]
    obtain ⟨k, x, p⟩ := t
    cases k with
    | indent width =>
      simp only [token, kind]
      cases (next ts).kind <;> rfl
    | _ => rfl

theorem skipBreaks_cons {t : Token} {us : List Token} (h : skipBreaks ts = t :: us) :
    skipBreaks (ts.map σ.token) = σ.token t :: us.map σ.token := by
  rw [skipBreaks_tokens, h, List.map_cons]

theorem skip?_some {k : Token.Kind} {us : List Token} (hk : isIndent k = false)
    (h : skip? k ts = some us) : skip? k (ts.map σ.token) = some (us.map σ.token) := by
  rw [σ.skip?_tokens ts hk, h, Option.map_some]

end Readers

section Blocks

variable {start : Location} {ts : List Token}

theorem layoutReads {r : Reading (List Attribute)} (h : LayoutReads start ts r) :
    LayoutReads (σ.place start) (ts.map σ.token) (σ.reading (List.map σ.entry) r) := by
  have behind (us : List Token) {p : Token → Bool} (hp : ∀ t, p (σ.token t) = p t)
      {r : Reading (List Attribute)}
      (more : LayoutReads (σ.place start) ((us.dropWhile p).map σ.token) r) :
      LayoutReads (σ.place start) ((us.map σ.token).dropWhile p) r := by
    rw [σ.dropWhile_tokens us hp]
    exact more
  have written (us : List Token) : valueOf? ((us.map σ.token).takeWhile inLayoutValue) =
      valueOf? (us.takeWhile inLayoutValue) := by
    rw [σ.takeWhile_tokens us σ.inLayoutValue_token, valueOf?_tokens]
  induction h with
  | runsOut h => exact .runsOut (by rw [skipBreaks_tokens, h, List.map_nil])
  | close h ht => exact .close (σ.skipBreaks_cons _ h) (by simpa using ht)
  | stop h ht => exact .stop (σ.skipBreaks_cons _ h) (by simpa using ht)
  | separator h ht _ ih => exact .separator (σ.skipBreaks_cons _ h) (by simpa using ht) ih
  | @gap ts t us es ps rest h ht hc _ ih =>
    have colon : skip? .colon (us.map σ.token) = none := by
      rw [σ.skip?_tokens us rfl, hc, Option.map_none]
    have all := LayoutReads.gap (σ.skipBreaks_cons _ h) (by simpa using ht) colon
      (behind us σ.inLayoutGap_token ih)
    simpa [reading, diagnostic, problem, entry] using all
  | @entry ts t us vs v es ps rest h ht hc hv _ ih =>
    have all := LayoutReads.entry (σ.skipBreaks_cons _ h) (by simpa using ht)
      (σ.skip?_some _ rfl hc) ((written vs).trans hv) (behind vs σ.inLayoutValue_token ih)
    simpa [reading, diagnostic, problem, entry] using all
  | @blank ts t us vs es ps rest h ht hc hv _ ih =>
    have all := LayoutReads.blank (σ.skipBreaks_cons _ h) (by simpa using ht)
      (σ.skip?_some _ rfl hc) ((written vs).trans hv) (behind vs σ.inLayoutValue_token ih)
    simpa [reading, diagnostic, problem, entry] using all
  | other h ht _ ih =>
    exact .other (σ.skipBreaks_cons _ h) (by simpa using ht) ih

theorem layout_tokens (start : Location) (ts : List Token) :
    layout (σ.place start) (ts.map σ.token) =
      σ.reading (List.map σ.entry) (layout start ts) :=
  layout_eq_of_reads (σ.layoutReads (reads_layout start ts))

theorem argumentsRead {r : Reading (List Token)} (h : ArgumentsRead start ts r) :
    ArgumentsRead (σ.place start) (ts.map σ.token) (σ.reading (List.map σ.token) r) := by
  induction h with
  | runsOut h => exact .runsOut (by rw [skipBreaks_tokens, h, List.map_nil])
  | close h ht => exact .close (σ.skipBreaks_cons _ h) (by simpa using ht)
  | stop h ht => exact .stop (σ.skipBreaks_cons _ h) (by simpa using ht)
  | other h ht _ ih => exact .other (σ.skipBreaks_cons _ h) (by simpa using ht) ih

theorem arguments_tokens (start : Location) (ts : List Token) :
    arguments (σ.place start) (ts.map σ.token) =
      σ.reading (List.map σ.token) (arguments start ts) :=
  arguments_eq_of_read (σ.argumentsRead (read_arguments start ts))

theorem attributeValue_tokens (ts : List Token) :
    attributeValue (ts.map σ.token) = σ.reading id (attributeValue ts) := by
  rw [attributeValue, attributeValue, σ.skip?_tokens ts rfl, σ.skip?_tokens ts rfl]
  cases skip? .openParen ts with
  | some us => simp [reading, arguments_tokens]
  | none =>
    cases skip? .colon ts with
    | some us =>
      simp [reading, σ.takeWhile_tokens us σ.inAttributeValue_token,
        σ.dropWhile_tokens us σ.inAttributeValue_token]
    | none => rfl

theorem skipComma_tokens (ts : List Token) :
    skipComma (ts.map σ.token) = (skipComma ts).map σ.token := by
  have same (us : List Token) : goesOn (us.map σ.token) = goesOn us := by
    match us with
    | [] | [_] | [_, _] => rfl
    | t :: i :: k :: us =>
      have newline := σ.kind_eq_iff t.kind (l := .newline) rfl
      simp [goesOn, newline]
  rw [skipComma_eq, skipComma_eq, σ.skip?_tokens ts rfl]
  cases skip? .comma ts with
  | none => rfl
  | some us =>
    simp only [Option.map_some, same]
    split <;> simp

theorem attributesRead {first : Bool} {r : Reading (List Attribute)}
    (h : AttributesRead first ts r) :
    AttributesRead first (ts.map σ.token) (σ.reading (List.map σ.entry) r) := by
  have listEnd_eq (first : Bool) (k : Token.Kind) (p : Location) :
      (listEnd first k p).map σ.diagnostic = listEnd first (σ.kind k) (σ.place p) := by
    cases first <;> rfl
  induction h with
  | runsOut first =>
    have all := AttributesRead.runsOut first
    rw [← σ.place_nowhere] at all
    simpa [reading, listEnd_eq, kind] using all
  | @stop first t us ht =>
    have all : AttributesRead first (σ.token t :: us.map σ.token) _ :=
      .stop (by simpa using ht)
    simpa [reading, listEnd_eq] using all
  | @entry first t us v ps rest es qs last ht hv _ ih =>
    have value := σ.attributeValue_tokens us
    rw [hv] at value
    rw [← skipComma_tokens] at ih
    have all : AttributesRead first (σ.token t :: us.map σ.token) _ :=
      .entry (by simpa using ht) value ih
    simpa [reading, entry] using all
  | @blank first t us ps rest es qs last ht hv _ ih =>
    have value := σ.attributeValue_tokens us
    rw [hv] at value
    rw [← skipComma_tokens] at ih
    have all : AttributesRead first (σ.token t :: us.map σ.token) _ :=
      .blank (by simpa using ht) value ih
    simpa [reading, diagnostic, problem] using all

theorem attributes_tokens (first : Bool) (ts : List Token) :
    attributes first (ts.map σ.token) = σ.reading (List.map σ.entry) (attributes first ts) :=
  attributes_eq_of_read (σ.attributesRead (read_attributes first ts))

end Blocks

section Items

variable (start : Location) (ts : List Token)

theorem attributeList_tokens :
    attributeList (σ.place start) (ts.map σ.token) =
      σ.reading (List.map σ.entry) (attributeList start ts) := by
  rw [attributeList, attributeList, σ.skip?_tokens ts rfl]
  cases skip? .colon ts with
  | some us => exact σ.attributes_tokens true us
  | none =>
    simp only [Option.map_none, attributes_tokens]
    rfl

theorem contentText_tokens :
    contentText (σ.place start) (ts.map σ.token) = σ.reading id (contentText start ts) := by
  rw [contentText_eq, contentText_eq, next_tokens, str?_token]
  cases str? (next ts) with
  | some s => simp [reading]
  | none =>
    simp only [σ.takeWhile_tokens ts σ.inLine_token, σ.dropWhile_tokens ts σ.inLine_token,
      List.map_eq_nil_iff, joined_tokens]
    split <;> rfl

theorem content_tokens :
    content (σ.place start) (ts.map σ.token) = σ.reading id (content start ts) := by
  rw [content, content, σ.skip?_tokens ts rfl]
  cases skip? .colon ts with
  | some us => exact σ.contentText_tokens start us
  | none =>
    simp only [Option.map_none, contentText_tokens]
    rfl

theorem item?_tokens :
    item? (ts.map σ.token) = (item? ts).map (σ.reading (List.map σ.item)) := by
  cases ts with
  | nil => rfl
  | cons t us =>
    obtain ⟨k, x, p⟩ := t
    cases k with
    | openBrace =>
      simp only [List.map_cons, item?, token, kind, layout_tokens]
      rfl
    | attr =>
      simp only [List.map_cons, item?, token, kind, attributeList_tokens]
      rfl
    | content =>
      simp only [List.map_cons, item?, token, kind, content_tokens]
      cases hc : (content p us).value <;> simp [reading, item, hc]
    | _ => rfl

theorem itemsRead {r : Reading (List Item)} (h : ItemsRead ts r) :
    ItemsRead (ts.map σ.token) (σ.reading (List.map σ.item) r) := by
  induction h with
  | stop h => exact .stop (by rw [item?_tokens, h, Option.map_none])
  | item h _ ih =>
    have all := ItemsRead.item (by rw [item?_tokens, h, Option.map_some]; rfl) ih
    simpa [reading] using all

theorem items_tokens : items (ts.map σ.token) = σ.reading (List.map σ.item) (items ts) :=
  items_eq_of_read (σ.itemsRead _ (read_items ts))

theorem endLine_tokens : endLine (ts.map σ.token) = σ.reading id (endLine ts) := by
  simp only [endLine, next_tokens, inLine_token, σ.dropWhile_tokens ts σ.inLine_token]
  split <;> rfl

end Items

end Shift

end Wireframe
