import Wireframe.Outline.Basic
import Wireframe.Split

/-!
# The parts of a line

Readers for the bracket of a tag and for what may follow it: layout blocks, attribute lists and
content. A reader takes the tokens from a place on and gives what it read, what was wrong with it,
and the tokens that it left. None of them fails, and none leaves more tokens than it was given.
-/

namespace Wireframe

/-- What a reader makes of the tokens before it. -/
structure Reading (α : Type) where
  value : α
  problems : List Diagnostic
  rest : List Token

namespace Outline

open Token.Kind

/-- The next token; the end of the input when there is none. -/
def next (ts : List Token) : Token :=
  ts.headD (.eofAt .nowhere)

/-- The tokens behind the next one, when that one is of the given kind. -/
def skip? (kind : Token.Kind) : List Token → Option (List Token)
  | [] => none
  | t :: ts => if t.kind = kind then some ts else none

theorem skip?_length {kind : Token.Kind} {ts us : List Token} (h : skip? kind ts = some us) :
    us.length < ts.length := by
  cases ts with
  | nil => simp [skip?] at h
  | cons t ts => simp [skip?] at h; simp [h.2]

theorem length_dropWhile_le (p : Token → Bool) (ts : List Token) :
    (ts.dropWhile p).length ≤ ts.length :=
  (List.dropWhile_sublist p).length_le

/-- Whether the line of the next token is not over yet. -/
def inLine (t : Token) : Bool :=
  !t.kind.endsLine

/-- Whether a token begins something of its own wherever it stands in a line. -/
def opensItem (t : Token) : Bool :=
  t.kind = .openBrace || t.kind = .attr || t.kind = .content || t.kind = .openBracket

/-- The value that a run of tokens writes; none for no tokens. One token keeps its type, several
make a text. -/
def valueOf? : List Token → Option Value
  | [] => none
  | [t] =>
    match t.kind with
    | .number x => some (.number x)
    | .ident name =>
      if name = "true" then some (.bool true)
      else if name = "false" then some (.bool false)
      else some (.text name)
    | _ => some (.text t.valueText)
  | ts => some (.text (Token.joined ts))

/-- What follows the colon in the bracket of a tag: a string, or all that stands before the end of
the bracket. -/
def payload (ts : List Token) : Payload × List Token :=
  match (next ts).kind with
  | .str text => (.literal text, ts.drop 1)
  | _ =>
    let inside := fun t => inLine t && t.kind ≠ .closeBracket && t.kind ≠ .openBracket
    let words := ts.takeWhile inside
    (if words = [] then .none else .id (" ".intercalate (words.map Token.text)),
      ts.dropWhile inside)

/-- The name of a tag. -/
def tagName (ts : List Token) : Reading String :=
  match (next ts).kind with
  | .ident name => ⟨name, [], ts.drop 1⟩
  | found => ⟨"", [⟨.expectedTagName found, (next ts).location⟩], ts⟩

/-- What follows the name of a tag, up to the closing bracket. -/
def tagPayload (ts : List Token) : Reading Payload :=
  match skip? .colon ts with
  | some us => ⟨(payload us).1, [], (payload us).2⟩
  | none =>
    let t := next ts
    if t.kind = .closeBracket ∨ inLine t = false then ⟨.none, [], ts⟩
    else ⟨(payload ts).1, [⟨.expectedTagEnd t.kind, t.location⟩], (payload ts).2⟩

/-- The bracket of a tag whose opening bracket stands at `start`. -/
def tag (start : Location) (ts : List Token) : Reading Element :=
  let name := tagName ts
  let payload := tagPayload name.rest
  let problems := name.problems ++ payload.problems
  let element := Element.bare name.value payload.value start
  match skip? .closeBracket payload.rest with
  | some us => ⟨element, problems, us⟩
  | none => ⟨element, problems ++ [⟨.unterminatedTag, start⟩], payload.rest⟩

theorem payload_length (ts : List Token) : (payload ts).2.length ≤ ts.length := by
  unfold payload
  grind [length_dropWhile_le]

theorem tag_length (start : Location) (ts : List Token) :
    (tag start ts).rest.length ≤ ts.length := by
  have name : (tagName ts).rest.length ≤ ts.length := by
    unfold tagName
    grind
  have payload : ∀ us, (tagPayload us).rest.length ≤ us.length := by
    intro us
    unfold tagPayload
    grind [→ skip?_length, payload_length]
  have := payload (tagName ts).rest
  unfold tag
  grind [→ skip?_length]

/-- Inside braces and parentheses the ends of lines mean nothing, unless the next line begins a tag
or a keyword. -/
def skipBreaks : List Token → List Token
  | [] => []
  | t :: ts =>
    match t.kind with
    | .newline => skipBreaks ts
    | .indent _ =>
      match (next ts).kind with
      | .openBracket | .attr | .content => t :: ts
      | _ => skipBreaks ts
    | _ => t :: ts

theorem skipBreaks_length (ts : List Token) : (skipBreaks ts).length ≤ ts.length := by
  fun_induction skipBreaks ts <;> grind

/-- The tokens of a value in a layout block. -/
def inLayoutValue (t : Token) : Bool :=
  inLine t && t.kind ≠ .comma && t.kind ≠ .closeBrace && !opensItem t

/-- The tokens that are passed over where a layout key has no colon. -/
def inLayoutGap (t : Token) : Bool :=
  inLine t && t.kind ≠ .comma && t.kind ≠ .closeBrace

/-- The entries of a layout block whose brace stands at `start`. -/
def layout (start : Location) (ts : List Token) : Reading (List Attribute) :=
  match _h : skipBreaks ts with
  | [] => ⟨[], [⟨.unterminatedLayout, start⟩], []⟩
  | t :: us =>
    match t.kind with
    | .closeBrace => ⟨[], [], us⟩
    | .comma => layout start us
    | .eof | .indent _ => ⟨[], [⟨.unterminatedLayout, start⟩], t :: us⟩
    | .ident _ | .str _ | .number _ =>
      match _hc : skip? .colon us with
      | none =>
        let more := layout start (us.dropWhile inLayoutGap)
        { more with
          problems := ⟨.missingLayoutColon t.valueText, (next us).location⟩ :: more.problems }
      | some vs =>
        let more := layout start (vs.dropWhile inLayoutValue)
        match valueOf? (vs.takeWhile inLayoutValue) with
        | some v => { more with value := ⟨t.valueText, v, t.location⟩ :: more.value }
        | none =>
          { more with
            problems := ⟨.missingLayoutValue t.valueText, t.location⟩ :: more.problems }
    | found =>
      let more := layout start us
      { more with problems := ⟨.unexpectedInLayout found, t.location⟩ :: more.problems }
termination_by ts.length
decreasing_by all_goals grind [skipBreaks_length, → skip?_length, length_dropWhile_le]

/-- The tokens between the parentheses of a call, the commas among them. -/
def arguments (start : Location) (ts : List Token) : Reading (List Token) :=
  match _h : skipBreaks ts with
  | [] => ⟨[], [⟨.unterminatedArguments, start⟩], []⟩
  | t :: us =>
    match t.kind with
    | .closeParen => ⟨[], [], us⟩
    | .eof | .indent _ | .openBracket | .openBrace | .attr | .content =>
      ⟨[], [⟨.unterminatedArguments, start⟩], t :: us⟩
    | _ =>
      let more := arguments start us
      { more with value := t :: more.value }
termination_by ts.length
decreasing_by grind [skipBreaks_length]

theorem arguments_length (start : Location) (ts : List Token) :
    (arguments start ts).rest.length ≤ ts.length := by
  fun_induction arguments start ts <;> grind [skipBreaks_length]

/-- The value of a call: that of its argument, or the texts of its arguments when there are
several. Empty arguments do not count. -/
def callValue? (ts : List Token) : Option Value :=
  match (splitWhere (·.kind = .comma) ts).filter (· ≠ []) with
  | [] => some (.text "")
  | [argument] => valueOf? argument
  | several => some (.text (", ".intercalate (several.map Token.joined)))

/-- The tokens of a value in an attribute list. -/
def inAttributeValue (t : Token) : Bool :=
  inLine t && t.kind ≠ .comma && !opensItem t

/-- The value of an attribute, which follows its key: a call, or what stands behind a colon. An
attribute with neither is true. -/
def attributeValue (ts : List Token) : Reading (Option Value) :=
  match skip? .openParen ts with
  | some us =>
    let call := arguments (next ts).location us
    ⟨callValue? call.value, call.problems, call.rest⟩
  | none =>
    match skip? .colon ts with
    | some us => ⟨valueOf? (us.takeWhile inAttributeValue), [], us.dropWhile inAttributeValue⟩
    | none => ⟨some (.bool true), [], ts⟩

/-- The tokens behind the comma that may follow an attribute. A list whose line ends with a comma
goes on with the next line when that one begins with a key. -/
def skipComma (ts : List Token) : List Token :=
  match skip? .comma ts with
  | none => ts
  | some us =>
    match us with
    | t :: i :: k :: vs =>
      match t.kind, i.kind, k.kind with
      | .newline, .indent _, .ident _ | .newline, .indent _, .str _ => k :: vs
      | _, _, _ => us
    | _ => us

theorem attributeValue_length (ts : List Token) :
    (attributeValue ts).rest.length ≤ ts.length := by
  unfold attributeValue
  grind [→ skip?_length, arguments_length, length_dropWhile_le]

theorem skipComma_length (ts : List Token) : (skipComma ts).length ≤ ts.length := by
  unfold skipComma
  grind [→ skip?_length]

/-- The attributes of a list. That there is none is reported at the start of the list. -/
def attributes (first : Bool) (ts : List Token) : Reading (List Attribute) :=
  match ts with
  | [] => ⟨[], if first then [⟨.expectedAttributeName .eof, (next ts).location⟩] else [], []⟩
  | t :: us =>
    match t.kind with
    | .ident _ | .str _ =>
      let value := attributeValue us
      let rest := skipComma value.rest
      match value.value with
      | some v =>
        let more := attributes false rest
        ⟨⟨t.valueText, v, t.location⟩ :: more.value, value.problems ++ more.problems, more.rest⟩
      | none =>
        let more := attributes first rest
        ⟨more.value,
          value.problems ++ ⟨.missingAttributeValue t.valueText, t.location⟩ :: more.problems,
          more.rest⟩
    | found =>
      ⟨[], if first then [⟨.expectedAttributeName found, t.location⟩] else [], ts⟩
termination_by ts.length
decreasing_by
  all_goals
    have := attributeValue_length us
    have := skipComma_length (attributeValue us).rest
    grind

/-- An attribute list, behind the keyword that stands at `start`. -/
def attributeList (start : Location) (ts : List Token) : Reading (List Attribute) :=
  match skip? .colon ts with
  | some us => attributes true us
  | none =>
    let list := attributes true ts
    { list with problems := ⟨.missingAttrColon, start⟩ :: list.problems }

/-- Content behind its colon: a string, or all that is left of the line. -/
def contentText (start : Location) (ts : List Token) : Reading (Option String) :=
  match (next ts).kind with
  | .str text => ⟨some text, [], ts.drop 1⟩
  | _ =>
    let words := ts.takeWhile inLine
    let rest := ts.dropWhile inLine
    if words = [] then ⟨none, [⟨.emptyContent, start⟩], rest⟩
    else ⟨some (Token.joined words), [], rest⟩

/-- Content, behind the keyword that stands at `start`. -/
def content (start : Location) (ts : List Token) : Reading (Option String) :=
  match skip? .colon ts with
  | some us => contentText start us
  | none =>
    let text := contentText start ts
    { text with problems := ⟨.missingContentColon, start⟩ :: text.problems }

theorem layout_length (start : Location) (ts : List Token) :
    (layout start ts).rest.length ≤ ts.length := by
  fun_induction layout start ts <;> grind [skipBreaks_length, → skip?_length, length_dropWhile_le]

theorem attributes_length (first : Bool) (ts : List Token) :
    (attributes first ts).rest.length ≤ ts.length := by
  fun_induction attributes first ts <;> grind [attributeValue_length, skipComma_length]

theorem attributeList_length (start : Location) (ts : List Token) :
    (attributeList start ts).rest.length ≤ ts.length := by
  unfold attributeList
  grind [attributes_length, → skip?_length]

theorem contentText_length (start : Location) (ts : List Token) :
    (contentText start ts).rest.length ≤ ts.length := by
  unfold contentText
  grind [length_dropWhile_le]

theorem content_length (start : Location) (ts : List Token) :
    (content start ts).rest.length ≤ ts.length := by
  unfold content
  grind [contentText_length, → skip?_length]

/-- What one item of metadata adds to its tag. -/
inductive Item where
  | layout (entries : List Attribute)
  | attributes (entries : List Attribute)
  | content (text : String) (location : Location)
deriving DecidableEq

/-- The items of metadata up to the first token that begins none. -/
def items (ts : List Token) : Reading (List Item) :=
  match ts with
  | [] => ⟨[], [], []⟩
  | t :: us =>
    match t.kind with
    | .openBrace =>
      let block := layout t.location us
      let more := items block.rest
      ⟨.layout block.value :: more.value, block.problems ++ more.problems, more.rest⟩
    | .attr =>
      let list := attributeList t.location us
      let more := items list.rest
      ⟨.attributes list.value :: more.value, list.problems ++ more.problems, more.rest⟩
    | .content =>
      let text := content t.location us
      let more := items text.rest
      ⟨(text.value.map (.content · t.location)).toList ++ more.value,
        text.problems ++ more.problems, more.rest⟩
    | _ => ⟨[], [], ts⟩
termination_by ts.length
decreasing_by
  · exact Nat.lt_succ_of_le (layout_length t.location us)
  · exact Nat.lt_succ_of_le (attributeList_length t.location us)
  · exact Nat.lt_succ_of_le (content_length t.location us)

theorem items_length (ts : List Token) : (items ts).rest.length ≤ ts.length := by
  fun_induction items ts <;> grind [layout_length, attributeList_length, content_length]

/-- Items are read off the tokens of a line that begins with one. -/
theorem items_progress {t : Token} (us : List Token)
    (h : t.kind = .openBrace ∨ t.kind = .attr ∨ t.kind = .content) :
    (items (t :: us)).rest.length ≤ us.length := by
  have rest := items_length
  rcases h with h | h | h <;> rw [items] <;> simp only [h]
  · exact Nat.le_trans (rest _) (layout_length t.location us)
  · exact Nat.le_trans (rest _) (attributeList_length t.location us)
  · exact Nat.le_trans (rest _) (content_length t.location us)

end Outline

end Wireframe
