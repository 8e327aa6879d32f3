import Wireframe.Proofs.Lexeme.Spelling

/-!
# Printing outlines

An outline is printed node by node, two spaces deeper on every level: the bracket of a tag, then a
line for each kind of metadata that there is, one level deeper, and then the children. What is
printed of an outline that is printable spells tokens that are known in advance (`spelled_trees`).
-/

namespace Wireframe

/-- Whether a text is a word of ASCII that may be a tag or an id: a letter and then letters, digits
and underscores, and no keyword. -/
def IsWord (s : String) : Prop :=
  s.toList.head?.any Char.isAlpha = true ∧ (∀ c ∈ s.toList, c.isAlphanum = true ∨ c = '_') ∧
    s ≠ "ATTR" ∧ s ≠ "CONTENT"

instance (s : String) : Decidable (IsWord s) :=
  @instDecidableAnd _ _ inferInstance
    (@instDecidableAnd _ _ (List.decidableBAll _ s.toList) inferInstance)

theorem IsWord.toList {s : String} (h : IsWord s) :
    ∃ c cs, s.toList = c :: cs ∧ c.isAlpha = true ∧ ∀ d ∈ cs, d.isAlphanum = true ∨ d = '_' := by
  obtain ⟨first, all, -⟩ := h
  cases hs : s.toList with
  | nil =>
    rw [hs] at first
    cases first
  | cons c cs =>
    rw [hs] at first all
    exact ⟨c, cs, rfl, first, fun d hd => all d (List.mem_cons_of_mem c hd)⟩

/-- Whether a value is printed as it would be read: a truth value or a text. -/
def Value.Printable (v : Value) : Prop :=
  ∀ x, v ≠ .number x

structure Element.Printable (e : Element) : Prop where
  tag : IsWord e.tag
  id : ∀ written, e.payload = .id written → IsWord written
  layout : ∀ a ∈ e.layout, a.value.Printable
  attributes : ∀ a ∈ e.attributes, a.value.Printable

/-- Whether all elements of an outline are printable. -/
def Printable (o : Outline) : Prop :=
  ∀ t ∈ Tree.preorderAll o, t.value.Printable

namespace Printer

open Quoted (quoted)

def value : Value → List Char
  | .bool b => (if b then "true" else "false").toList
  | .text s => quoted s
  | .number x => (Decimal.plainText x).toList

def payload : Payload → List Char
  | .none => []
  | .id written => ':' :: ' ' :: written.toList
  | .literal text => ':' :: ' ' :: quoted text

def bracket (e : Element) : List Char :=
  '[' :: (e.tag.toList ++ (payload e.payload ++ [']']))

/-- Entries with commas between them, each a quoted key and what a value is printed as behind it. -/
def entries (tail : Value → List Char) (as : List Attribute) : List Char :=
  [',', ' '].intercalate (as.map fun a => quoted a.key ++ tail a.value)

def layoutTail (v : Value) : List Char :=
  ':' :: ' ' :: value v

def callTail (v : Value) : List Char :=
  '(' :: (value v ++ [')'])

def layout (as : List Attribute) : List Char :=
  '\x7b' :: ' ' :: (entries layoutTail as ++ [' ', '\x7d'])

def attributes (as : List Attribute) : List Char :=
  "ATTR: ".toList ++ entries callTail as

def content (text : String) : List Char :=
  "CONTENT: ".toList ++ quoted text

/-- The lines for what an element has besides its bracket. -/
def metadata (e : Element) : List (List Char) :=
  (if e.layout = [] then [] else [layout e.layout]) ++
    (if e.attributes = [] then [] else [attributes e.attributes]) ++
      (e.content.map content).toList

def indented (depth : Nat) (line : List Char) : List Char :=
  List.replicate (2 * depth) ' ' ++ line

mutual

/-- The lines of a tree whose root stands at a depth. -/
def tree (depth : Nat) : Tree Element → List (List Char)
  | .node e ts =>
    indented depth (bracket e) :: ((metadata e).map (indented (depth + 1)) ++ trees (depth + 1) ts)

/-- The lines of a forest whose roots stand at a depth. -/
def trees (depth : Nat) : List (Tree Element) → List (List Char)
  | [] => []
  | t :: ts => tree depth t ++ trees depth ts

end

/-- An outline as a source text. -/
def print (o : Outline) : String :=
  String.ofList (['\n'].intercalate (trees 0 o))

section Tokens

open Lexeme

def wordToken (s : String) : Token :=
  ⟨.ident s, s, .nowhere⟩

def strToken (s : String) : Token :=
  ⟨.str s, String.ofList (quoted s), .nowhere⟩

def symbolToken (kind : Token.Kind) (c : Char) : Token :=
  ⟨kind, String.ofList [c], .nowhere⟩

def comma : Token := symbolToken .comma ','

def colon : Token := symbolToken .colon ':'

def valueToken : Value → Token
  | .bool b => wordToken (if b then "true" else "false")
  | .text s => strToken s
  | .number x => wordToken (Decimal.plainText x)

def payloadTokens : Payload → List Token
  | .none => []
  | .id written => [colon, wordToken written]
  | .literal text => [colon, strToken text]

def bracketTokens (e : Element) : List Token :=
  symbolToken .openBracket '[' :: wordToken e.tag ::
    (payloadTokens e.payload ++ [symbolToken .closeBracket ']'])

def entriesTokens (tail : Value → List Token) (as : List Attribute) : List Token :=
  [comma].intercalate (as.map fun a => strToken a.key :: tail a.value)

def layoutTailTokens (v : Value) : List Token :=
  [colon, valueToken v]

def callTailTokens (v : Value) : List Token :=
  [symbolToken .openParen '(', valueToken v, symbolToken .closeParen ')']

def layoutTokens (as : List Attribute) : List Token :=
  symbolToken .openBrace '\x7b' ::
    (entriesTokens layoutTailTokens as ++ [symbolToken .closeBrace '\x7d'])

def attributesTokens (as : List Attribute) : List Token :=
  ⟨.attr, "ATTR", .nowhere⟩ :: colon :: entriesTokens callTailTokens as

def contentTokens (text : String) : List Token :=
  [⟨.content, "CONTENT", .nowhere⟩, colon, strToken text]

def metadataTokens (e : Element) : List (List Token) :=
  (if e.layout = [] then [] else [layoutTokens e.layout]) ++
    (if e.attributes = [] then [] else [attributesTokens e.attributes]) ++
      (e.content.map contentTokens).toList

def lineTokens (depth : Nat) (ts : List Token) : List Token :=
  newlineToken :: indentToken (2 * depth) :: ts

mutual

/-- The tokens of the lines of a tree, each line behind the end of the line before it. -/
def treeTokens (depth : Nat) : Tree Element → List Token
  | .node e ts =>
    lineTokens depth (bracketTokens e) ++
      ((metadataTokens e).flatMap (lineTokens (depth + 1)) ++ treesTokens (depth + 1) ts)

def treesTokens (depth : Nat) : List (Tree Element) → List Token
  | [] => []
  | t :: ts => treeTokens depth t ++ treesTokens depth ts

end

end Tokens

section Spelling

open Lexeme

variable {cs : List Char} {ts : List Token}

/-- A word is a name, because it is no keyword and begins with no digit. -/
theorem wordKind_of_isWord {s : String} (h : IsWord s) : wordKind s.toList = .ident s := by
  obtain ⟨c, ws, hs, hc, -⟩ := h.toList
  obtain ⟨-, -, attr, content⟩ := h
  have digit : c.isDigit = false := by
    simp only [Text.isAlpha_eq, Bool.or_eq_true, Bool.and_eq_true,
      decide_eq_true_eq, ge_iff_le, UInt32.le_iff_toNat_le] at hc
    have upper : 'A'.val.toNat = 65 := rfl
    have lower : 'a'.val.toNat = 97 := rfl
    have nine : '9'.val.toNat = 57 := rfl
    simp only [Char.isDigit, Bool.and_eq_false_iff, decide_eq_false_iff_not, ge_iff_le,
      UInt32.le_iff_toNat_le]
    omega
  have number : isNumber (c :: ws) = false := by
    unfold isNumber
    split
    next he => exact absurd (List.cons.inj he).1 (ne_of_isAlpha hc (by decide))
    · simp [digit]
  rw [wordKind, if_neg fun he => attr (String.toList_inj.mp he),
    if_neg fun he => content (String.toList_inj.mp he), hs, number, ← hs, String.ofList_toList]
  rfl

/-- Whether a text spells tokens in front of whatever does not go on with a word. -/
def SpellsFirst (w : List Char) (us : List Token) : Prop :=
  ∀ cs ts, cs.head?.any inWord = false → Spells cs ts → Spells (w ++ cs) (us ++ ts)

theorem spells_word {s : String} (h : IsWord s) : SpellsFirst s.toList [wordToken s] := by
  intro cs ts hcs more
  have kind := wordKind_of_isWord h
  obtain ⟨c, ws, hs, hc, hws⟩ := h.toList
  have inside : ∀ d ∈ ws, inWord d = true := by
    intro d hd
    rcases hws d hd with h | rfl
    · exact inWord_of_isAlphanum h
    · rfl
  have word := Spells.word hc inside hcs more
  rw [← List.cons_append, ← hs, kind, String.ofList_toList] at word
  exact word

theorem spells_value {v : Value} (h : v.Printable) : SpellsFirst (value v) [valueToken v] := by
  cases v with
  | bool b =>
    have word : IsWord (if b then "true" else "false") := by
      cases b <;> decide
    exact spells_word word
  | text s => exact fun cs ts _ more => .quoted s more
  | number x => exact absurd rfl (h x)

/-- What is printed of a value begins with no blank. -/
theorem head_value {v : Value} (h : v.Printable) (cs : List Char) :
    (value v ++ cs).head?.any isSpacing = false := by
  cases v with
  | bool b => cases b <;> rfl
  | text s => rfl
  | number x => exact absurd rfl (h x)

theorem spells_payload {p : Payload} (h : ∀ written, p = .id written → IsWord written) :
    SpellsFirst (payload p) (payloadTokens p) := by
  intro cs ts hcs more
  cases p with
  | none => exact more
  | id written =>
    have word := h written rfl
    refine .symbol rfl (.blank ?_ (spells_word word cs ts hcs more))
    obtain ⟨c, ws, hs, hc, -⟩ := word.toList
    rw [hs]
    exact isSpacing_of_isAlpha hc
  | literal text => exact .symbol rfl (.blank rfl (.quoted text more))

theorem spells_bracket {e : Element} (h : e.Printable) :
    Spells (bracket e) (bracketTokens e) := by
  have close : Spells [']'] [symbolToken .closeBracket ']'] := .symbol rfl .nil
  have rest := spells_payload h.id _ _ rfl close
  refine .symbol rfl (spells_word h.tag _ _ ?_ rest)
  cases e.payload <;> rfl

/-- Entries are spelled one by one when what is behind their keys is. -/
theorem spells_entries {tail : Value → List Char} {tailTokens : Value → List Token}
    {as : List Attribute} (h : ∀ a ∈ as, SpellsFirst (tail a.value) (tailTokens a.value)) :
    SpellsFirst (entries tail as) (entriesTokens tailTokens as) := by
  intro cs ts hcs more
  induction as with
  | nil => exact more
  | cons a as ih =>
    have first := h a List.mem_cons_self
    specialize ih fun b hb => h b (List.mem_cons_of_mem a hb)
    cases as with
    | nil =>
      simp only [entries, entriesTokens, List.map_cons, List.map_nil, List.intercalate_singleton,
        List.append_assoc]
      exact .quoted a.key (first _ _ hcs more)
    | cons b bs =>
      simp only [entries, entriesTokens, List.map_cons, List.intercalate_cons_cons,
        List.append_assoc] at ih ⊢
      refine .quoted a.key (first _ _ rfl (.symbol rfl (.blank ?_ ih)))
      cases bs <;> rfl

theorem spells_layoutTail {v : Value} (h : v.Printable) :
    SpellsFirst (layoutTail v) (layoutTailTokens v) := by
  intro cs ts hcs more
  exact .symbol rfl (.blank (head_value h cs) (spells_value h cs ts hcs more))

theorem spells_callTail {v : Value} (h : v.Printable) :
    SpellsFirst (callTail v) (callTailTokens v) := by
  intro cs ts _ more
  rw [callTail, List.cons_append, List.append_assoc]
  exact .symbol rfl (spells_value h _ _ rfl (.symbol rfl more))

/-- What is printed of entries begins with a quote. -/
theorem head_entries (tail : Value → List Char) {as : List Attribute} (h : as ≠ [])
    (cs : List Char) : (entries tail as ++ cs).head?.any isSpacing = false := by
  match as with
  | [] => exact absurd rfl h
  | [a] => rfl
  | a :: b :: as => rfl

theorem spells_layout {as : List Attribute} (h : ∀ a ∈ as, a.value.Printable) (hne : as ≠ []) :
    Spells (layout as) (layoutTokens as) := by
  have close : Spells [' ', '\x7d'] [symbolToken .closeBrace '\x7d'] :=
    .blank rfl (.symbol rfl .nil)
  have list := spells_entries (fun a ha => spells_layoutTail (h a ha)) _ _ rfl close
  exact .symbol rfl (.blank (head_entries layoutTail hne _) list)

theorem attributes_eq (as : List Attribute) :
    attributes as = 'A' :: (['T', 'T', 'R'] ++ ':' :: ' ' :: entries callTail as) := rfl

theorem content_eq (text : String) :
    content text = 'C' :: (['O', 'N', 'T', 'E', 'N', 'T'] ++ ':' :: ' ' :: quoted text) := rfl

theorem spells_attributes {as : List Attribute} (h : ∀ a ∈ as, a.value.Printable)
    (hne : as ≠ []) : Spells (attributes as) (attributesTokens as) := by
  have list := spells_entries (fun a ha => spells_callTail (h a ha)) _ _ rfl .nil
  have head := head_entries callTail hne []
  rw [List.append_nil] at head
  rw [List.append_nil, List.append_nil] at list
  rw [attributes_eq]
  exact .word (by decide) (List.all_eq_true.mp (by decide)) rfl (.symbol rfl (.blank head list))

theorem spells_content (text : String) : Spells (content text) (contentTokens text) := by
  have quote := Spells.quoted text .nil
  rw [List.append_nil] at quote
  rw [content_eq]
  exact .word (by decide) (List.all_eq_true.mp (by decide)) rfl (.symbol rfl (.blank rfl quote))

theorem spells_line {line : List Char} {c : Char} (depth : Nat) (h : Spells line ts)
    (hl : line = c :: cs) (hc : c ≠ ' ') :
    SpelledLines [indented depth line] (lineTokens depth ts) := by
  subst hl
  have one := SpelledLines.cons (2 * depth) hc h .nil
  rw [List.append_nil] at one
  exact one

theorem spells_metadata {e : Element} (h : e.Printable) (depth : Nat) :
    SpelledLines ((metadata e).map (indented depth))
      ((metadataTokens e).flatMap (lineTokens depth)) := by
  rw [metadata, metadataTokens, List.map_append, List.map_append, List.flatMap_append,
    List.flatMap_append]
  refine .append (.append ?_ ?_) ?_
  · split
    next => exact .nil
    next hne =>
      simp only [List.flatMap_cons, List.flatMap_nil, List.append_nil]
      exact spells_line depth (spells_layout h.layout hne) rfl (by decide)
  · split
    next => exact .nil
    next hne =>
      simp only [List.flatMap_cons, List.flatMap_nil, List.append_nil]
      exact spells_line depth (spells_attributes h.attributes hne) (attributes_eq _) (by decide)
  · cases e.content with
    | none => exact .nil
    | some text =>
      simp only [Option.map_some, Option.toList_some, List.flatMap_cons, List.flatMap_nil,
        List.append_nil]
      exact spells_line depth (spells_content text) (content_eq text) (by decide)

mutual

theorem spelled_tree (depth : Nat) (t : Tree Element)
    (h : ∀ u ∈ t.preorder, u.value.Printable) :
    SpelledLines (tree depth t) (treeTokens depth t) := by
  match t with
  | .node e ts =>
    have root : e.Printable := h (.node e ts) (by rw [Tree.preorder]; exact List.mem_cons_self)
    have below := spelled_trees (depth + 1) ts fun u hu => h u (by
      rw [Tree.preorder]
      exact List.mem_cons_of_mem _ hu)
    rw [tree, treeTokens]
    exact (spells_line depth (spells_bracket root) rfl (by decide)).append
      ((spells_metadata root (depth + 1)).append below)

/-- The lines of a printable outline are spelled. -/
theorem spelled_trees (depth : Nat) (ts : List (Tree Element)) (h : Wireframe.Printable ts) :
    SpelledLines (trees depth ts) (treesTokens depth ts) := by
  match ts with
  | [] => exact .nil
  | t :: ts =>
    rw [trees, treesTokens]
    refine (spelled_tree depth t fun u hu => h u ?_).append
      (spelled_trees depth ts fun u hu => h u ?_)
    · rw [Tree.preorderAll]
      exact List.mem_append_left _ hu
    · rw [Tree.preorderAll]
      exact List.mem_append_right _ hu

end

end Spelling

end Printer

end Wireframe
