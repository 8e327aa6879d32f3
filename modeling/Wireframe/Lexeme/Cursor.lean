import Wireframe.Lexeme.Basic

/-!
# Scanning

A source text is scanned in one go by a cursor, which keeps count of the line, the column and the
offset it has come to. At the start of a line it measures the indentation and passes over a line
without content. In a line it passes over blanks and a comment, and its next character picks the
scanner that reads a token, with one more character to look at where a word may begin with a dash.
-/

namespace Wireframe

namespace Location

/-- The place behind a character. The end of a line moves no column: the next line has yet to
begin. -/
def past (p : Location) (c : Char) : Location :=
  ⟨p.line, if c = '\n' then p.column else p.column + 1, p.offset + c.utf8Size⟩

/-- The place where the next line begins. -/
def newLine (p : Location) : Location :=
  ⟨p.line + 1, 1, p.offset⟩

end Location

/-- What is left of a text, and where it begins. -/
structure Cursor where
  rest : List Char
  place : Location

namespace Cursor

open Lexeme (isSpacing isIndentation isComment inWord beginsWord inWord_of_beginsWord symbol?)

def peek (k : Cursor) : Option Char :=
  k.rest.head?

/-- The character behind the next one. -/
def peekNext (k : Cursor) : Option Char :=
  k.rest.tail.head?

/-- Over the next character. -/
def advance (k : Cursor) : Cursor :=
  match k.rest with
  | [] => k
  | c :: cs => ⟨cs, k.place.past c⟩

/-- To the next line, whose end has been passed. -/
def newLine (k : Cursor) : Cursor :=
  ⟨k.rest, k.place.newLine⟩

/-- The characters that pass from a place on, at most so many, and the cursor behind them. -/
def runFrom (p : Char → Bool) : Nat → List Char → Location → List Char × Cursor
  | 0, cs, place => ([], ⟨cs, place⟩)
  | _ + 1, [], place => ([], ⟨[], place⟩)
  | n + 1, c :: cs, place =>
    if p c then
      let (more, k) := runFrom p n cs (place.past c)
      (c :: more, k)
    else ([], ⟨c :: cs, place⟩)

/-- At most so many of the next characters that pass. -/
def runUpTo (k : Cursor) (n : Nat) (p : Char → Bool) : List Char × Cursor :=
  runFrom p n k.rest k.place

/-- The next characters that pass. -/
def run (k : Cursor) (p : Char → Bool) : List Char × Cursor :=
  k.runUpTo k.rest.length p

/-- A character if it is the next one. -/
def optional (k : Cursor) (c : Char) : List Char × Cursor :=
  if k.peek = some c then ([c], k.advance) else ([], k)

def skipSpacing (k : Cursor) : Cursor :=
  (k.run isSpacing).2

def skipComment (k : Cursor) : Cursor :=
  if isComment k.rest then (k.run (· ≠ '\n')).2 else k

/-- The token of the next character. -/
def single (k : Cursor) (kind : Token.Kind) : Token × Cursor :=
  (⟨kind, String.ofList k.peek.toList, k.place⟩, k.advance)

/-! ## Words -/

/-- A point and digits, if there is a digit behind the point. -/
def fraction (k : Cursor) : List Char × Cursor :=
  if k.peek = some '.' ∧ k.peekNext.any Char.isDigit then
    let (digits, behind) := k.advance.run Char.isDigit
    ('.' :: digits, behind)
  else ([], k)

/-- What the text of digits is, with a dash before them and a point among them where wanted. -/
def numberKind (text : List Char) : Token.Kind :=
  match Decimal.read? text with
  | some x => .number x
  | none => .ident (String.ofList text)

/-- A word that begins with a digit, or with a dash and a digit. It is a number as far as digits go,
with a point among them where a digit is behind it, unless it goes on as a word. -/
def number (k : Cursor) : Token × Cursor :=
  let (dash, k₁) := k.optional '-'
  let (whole, k₂) := k₁.run Char.isDigit
  let (fraction, k₃) := k₂.fraction
  let (glued, k₄) := k₃.run inWord
  let text := dash ++ whole ++ fraction ++ glued
  let kind : Token.Kind :=
    if glued ≠ [] then .ident (String.ofList text) else numberKind text
  (⟨kind, String.ofList text, k.place⟩, k₄)

/-- A word that begins with no digit: a keyword or a name. -/
def name (k : Cursor) : Token × Cursor :=
  let (text, behind) := k.run inWord
  let kind : Token.Kind :=
    if text = "ATTR".toList then .attr
    else if text = "CONTENT".toList then .content
    else .ident (String.ofList text)
  (⟨kind, String.ofList text, k.place⟩, behind)

/-! ## Strings -/

/-- The character that is written behind `\u`. If there is none the cursor stays where it is. -/
def unicodeEscape (k : Cursor) : Option Char × Cursor :=
  let braced := k.peek = some '\x7b'
  let opened := if braced then k.advance else k
  let (digits, behind) := opened.runUpTo (if braced then opened.rest.length else 4) Text.isHexDigit
  if braced ∧ behind.peek ≠ some '\x7d' then (none, k)
  else
    let closed := if braced then behind.advance else behind
    let decoded :=
      if digits = [] ∨ (¬braced ∧ digits.length ≠ 4) then none
      else Quoted.scalar? (Text.hexNumber digits)
    match decoded with
    | some c => (some c, closed)
    | none => (none, k)

/-- What a piece of a string stands for, and what is wrong with it. -/
structure Piece where
  value : List Char
  problems : List Diagnostic := []
  behind : Cursor

/-- The piece that begins with a backslash. -/
def escape (k : Cursor) : Piece :=
  let behind := k.advance
  match behind.peek with
  | none | some '\n' => { value := ['\\'], behind }
  | some 'u' =>
    match behind.advance.unicodeEscape with
    | (some c, behind) => { value := [c], behind }
    | (none, behind) =>
      { value := ['\\', 'u'], problems := [⟨.invalidUnicodeEscape, k.place⟩], behind }
  | some c =>
    match Quoted.simpleEscape? c with
    | some d => { value := [d], behind := behind.advance }
    | none =>
      { value := ['\\', c], problems := [⟨.unknownEscape c, k.place⟩], behind := behind.advance }

section

variable (k : Cursor)

theorem length_advance_le : k.advance.rest.length ≤ k.rest.length := by
  unfold advance
  split
  · exact Nat.le_refl _
  next h => simp [h]

theorem length_advance_lt {c : Char} (h : k.peek = some c) :
    k.advance.rest.length < k.rest.length := by
  obtain ⟨cs, hc⟩ := List.head?_eq_some_iff.mp h
  simp [advance, hc]

theorem length_runUpTo_le (n : Nat) (p : Char → Bool) :
    (k.runUpTo n p).2.rest.length ≤ k.rest.length := by
  unfold runUpTo
  fun_induction runFrom p n k.rest k.place with
  | case1 | case2 => exact Nat.le_refl _
  | case3 n c cs place hc more behind run ih =>
    rw [run] at ih
    exact Nat.le_succ_of_le ih
  | case4 => exact Nat.le_refl _

theorem length_run_lt {c : Char} {p : Char → Bool} (h : k.peek = some c) (hc : p c = true) :
    (k.run p).2.rest.length < k.rest.length := by
  obtain ⟨cs, hk⟩ := List.head?_eq_some_iff.mp h
  have behind := length_runUpTo_le ⟨cs, k.place.past c⟩ cs.length p
  simp only [run, runUpTo, hk, List.length_cons, runFrom, if_pos hc] at behind ⊢
  omega

theorem length_unicodeEscape_le : k.unicodeEscape.2.rest.length ≤ k.rest.length := by
  have optional (p : Prop) [Decidable p] (k : Cursor) :
      (if p then k.advance else k).rest.length ≤ k.rest.length := by
    split
    · exact k.length_advance_le
    · exact Nat.le_refl _
  have opened := optional (k.peek = some '\x7b') k
  unfold unicodeEscape
  dsimp only
  generalize (if k.peek = some '\x7b' then k.advance else k) = start at opened ⊢
  generalize (if k.peek = some '\x7b' then start.rest.length else 4) = most
  have digits := start.length_runUpTo_le most Text.isHexDigit
  generalize start.runUpTo most Text.isHexDigit = read at digits ⊢
  split
  · exact Nat.le_refl _
  split
  · exact Nat.le_trans (optional _ read.2) (Nat.le_trans digits opened)
  · exact Nat.le_refl _

theorem length_escape_lt {c : Char} (h : k.peek = some c) :
    k.escape.behind.rest.length < k.rest.length := by
  have behind := k.length_advance_lt h
  have further := k.advance.length_advance_le
  unfold escape
  dsimp only
  split
  · exact behind
  · exact behind
  · have escaped := k.advance.advance.length_unicodeEscape_le
    split
    next hu =>
      rw [hu] at escaped
      exact Nat.lt_of_le_of_lt (Nat.le_trans escaped further) behind
    next hu =>
      rw [hu] at escaped
      exact Nat.lt_of_le_of_lt (Nat.le_trans escaped further) behind
  · split <;> exact Nat.lt_of_le_of_lt further behind

end

/-- What is read behind an opening quote. -/
structure Inside where
  value : List Char
  problems : List Diagnostic
  closed : Bool
  behind : Cursor

/-- Reads up to the closing quote, or to the end of the line if there is none. -/
def inside (k : Cursor) : Inside :=
  match _ : k.peek with
  | none => ⟨[], [], false, k⟩
  | some '"' => ⟨[], [], true, k.advance⟩
  | some '\n' => ⟨[], [], false, k⟩
  | some '\\' =>
    let piece := k.escape
    let more := piece.behind.inside
    { more with value := piece.value ++ more.value, problems := piece.problems ++ more.problems }
  | some c =>
    let more := k.advance.inside
    { more with value := c :: more.value }
termination_by k.rest.length
decreasing_by
  · exact k.length_escape_lt ‹_›
  · exact k.length_advance_lt ‹_›

def string (k : Cursor) : Token × List Diagnostic × Cursor :=
  let inside := k.advance.inside
  let text := k.rest.take (k.rest.length - inside.behind.rest.length)
  (⟨.str (String.ofList inside.value), String.ofList text, k.place⟩,
    inside.problems ++ (if inside.closed then [] else [⟨.unterminatedString, k.place⟩]),
    inside.behind)

/-! ## Turns of the scanner -/

/-- What one turn comes to: the end of the text, or a token and problems where there are any, and
where the next turn goes on. -/
inductive Turn where
  | ended (place : Location)
  | read (token : Option Token) (problems : List Diagnostic) (lineStart : Bool) (next : Cursor)

/-- The turn at the start of a line. -/
def measure (k : Cursor) : Turn :=
  let (lead, k₁) := k.run isIndentation
  let k₂ := k₁.skipComment
  match k₂.peek with
  | none => .read none [] false k₂
  | some '\n' => .read none [] true k₂.advance.newLine
  | some _ => .read (some ⟨.indent (Lexeme.indentation lead), "", k.place⟩) [] false k₂

/-- The turn of a token and the cursor behind it. -/
def Turn.token : Token × Cursor → Turn
  | (t, k) => .read (some t) [] false k

/-- The turn of what begins with a character that is not the end of a line. -/
def readToken (k : Cursor) (c : Char) : Turn :=
  match symbol? c with
  | some kind => .token (k.single kind)
  | none =>
    if c = '"' then
      let (t, problems, k') := k.string
      .read (some t) problems false k'
    else if c = '-' ∧ k.peekNext.any Char.isDigit then .token k.number
    else if c = '-' ∧ k.peekNext.any inWord then .token k.name
    else if c.isDigit then .token k.number
    else if beginsWord c then .token k.name
    else .read none [⟨.illegalCharacter c, k.place⟩] false k.advance

/-- The turn inside a line. -/
def turn (k : Cursor) : Turn :=
  let k := k.skipSpacing.skipComment
  match k.peek with
  | none => .ended k.place
  | some '\n' =>
    let (t, k') := k.single .newline
    .read (some t) [] true k'.newLine
  | some c => k.readToken c

theorem length_run_le (k : Cursor) (p : Char → Bool) : (k.run p).2.rest.length ≤ k.rest.length :=
  k.length_runUpTo_le _ p

theorem length_fraction_le (k : Cursor) : k.fraction.2.rest.length ≤ k.rest.length := by
  unfold fraction
  split
  · exact Nat.le_trans (length_run_le _ _) k.length_advance_le
  · exact Nat.le_refl _

theorem length_number_lt {k : Cursor} {c : Char} (h : k.peek = some c)
    (begins : c = '-' ∨ c.isDigit = true) : k.number.2.rest.length < k.rest.length := by
  have whole : ((k.optional '-').2.run Char.isDigit).2.rest.length < k.rest.length := by
    unfold optional
    split
    · exact Nat.lt_of_le_of_lt (length_run_le _ _) (k.length_advance_lt h)
    next dashless =>
      exact k.length_run_lt h (begins.resolve_left fun dash => dashless (dash ▸ h))
  exact Nat.lt_of_le_of_lt (Nat.le_trans (length_run_le _ _) (length_fraction_le _)) whole

theorem length_name_lt {k : Cursor} {c : Char} (h : k.peek = some c) (begins : inWord c = true) :
    k.name.2.rest.length < k.rest.length :=
  k.length_run_lt h begins

theorem length_inside_le (k : Cursor) : k.inside.behind.rest.length ≤ k.rest.length := by
  fun_induction inside k with
  | case1 | case3 => exact Nat.le_refl _
  | case2 k => exact k.length_advance_le
  | case4 k h piece more ih => exact Nat.le_trans ih (Nat.le_of_lt (k.length_escape_lt h))
  | case5 k c _ _ _ h more ih => exact Nat.le_trans ih (Nat.le_of_lt (k.length_advance_lt h))

theorem length_string_lt {k : Cursor} {c : Char} (h : k.peek = some c) :
    k.string.2.2.rest.length < k.rest.length :=
  Nat.lt_of_le_of_lt k.advance.length_inside_le (k.length_advance_lt h)

theorem length_readToken_lt {k : Cursor} {c : Char} (h : k.peek = some c) {again : Bool}
    {t : Option Token} {problems : List Diagnostic} {next : Cursor}
    (hr : k.readToken c = .read t problems again next) :
    again = false ∧ next.rest.length < k.rest.length := by
  unfold readToken at hr
  split at hr
  · cases hr
    exact ⟨rfl, k.length_advance_lt h⟩
  split at hr
  · cases hr
    exact ⟨rfl, length_string_lt h⟩
  split at hr
  next dash =>
    cases hr
    exact ⟨rfl, length_number_lt h (.inl dash.1)⟩
  split at hr
  next dash =>
    cases hr
    exact ⟨rfl, length_name_lt h (by rw [dash.1]; decide)⟩
  split at hr
  next digit =>
    cases hr
    exact ⟨rfl, length_number_lt h (.inr digit)⟩
  split at hr
  next begins =>
    cases hr
    exact ⟨rfl, length_name_lt h (inWord_of_beginsWord begins)⟩
  · cases hr
    exact ⟨rfl, k.length_advance_lt h⟩

theorem length_skipComment_le (k : Cursor) : k.skipComment.rest.length ≤ k.rest.length := by
  unfold skipComment
  split
  · exact length_run_le _ _
  · exact Nat.le_refl _

theorem length_of_measure {k : Cursor} {again : Bool} {t : Option Token}
    {problems : List Diagnostic} {next : Cursor} (h : k.measure = .read t problems again next) :
    2 * next.rest.length + again.toNat < 2 * k.rest.length + 1 := by
  have skipped := Nat.le_trans (length_skipComment_le _) (k.length_run_le isIndentation)
  unfold measure at h
  dsimp only at h
  generalize (k.run isIndentation).2.skipComment = behind at h skipped
  split at h
  · cases h
    exact Nat.lt_succ_of_le (Nat.mul_le_mul_left 2 skipped)
  next ended =>
    cases h
    have passed := behind.length_advance_lt ended
    change 2 * behind.advance.rest.length + 1 < _
    omega
  · cases h
    exact Nat.lt_succ_of_le (Nat.mul_le_mul_left 2 skipped)

theorem length_of_turn {k : Cursor} {again : Bool} {t : Option Token}
    {problems : List Diagnostic} {next : Cursor} (h : k.turn = .read t problems again next) :
    2 * next.rest.length + again.toNat < 2 * k.rest.length := by
  have skipped := Nat.le_trans (length_skipComment_le _) (k.length_run_le isSpacing)
  unfold turn at h
  change (skipSpacing k).skipComment.rest.length ≤ _ at skipped
  generalize k.skipSpacing.skipComment = behind at h skipped
  dsimp only at h
  split at h
  · cases h
  next ended =>
    cases h
    have passed := behind.length_advance_lt ended
    change 2 * behind.advance.rest.length + 1 < _
    omega
  next found =>
    obtain ⟨rfl, read⟩ := length_readToken_lt found h
    change 2 * next.rest.length + 0 < _
    omega

/-- The next turn. -/
def next (lineStart : Bool) (k : Cursor) : Turn :=
  if lineStart then k.measure else k.turn

theorem length_of_next {k : Cursor} {lineStart again : Bool} {t : Option Token}
    {problems : List Diagnostic} {next : Cursor}
    (h : k.next lineStart = .read t problems again next) :
    2 * next.rest.length + again.toNat < 2 * k.rest.length + lineStart.toNat := by
  cases lineStart with
  | true => exact length_of_measure h
  | false => exact length_of_turn h

/-- Takes turns up to the end of the text. -/
def scan (lineStart : Bool) (k : Cursor) : List Token × List Diagnostic :=
  match _ : k.next lineStart with
  | .ended place => ([Token.eofAt place], [])
  | .read t problems again behind =>
    let (tokens, more) := scan again behind
    (t.toList ++ tokens, problems ++ more)
termination_by 2 * k.rest.length + lineStart.toNat
decreasing_by exact length_of_next ‹_›

end Cursor

/-- The tokens of a source text and what is wrong with it. -/
def Token.scan (source : String) : List Token × List Diagnostic :=
  Cursor.scan true ⟨Token.body source, .start⟩

end Wireframe
