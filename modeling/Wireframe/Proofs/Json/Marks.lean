import Wireframe.Proofs.Json.Numbers
import Wireframe.Proofs.Json.Strings

/-!
# The marks of a printed value

A printed value is cut into the marks that it was put together from, in whatever style it is
printed (`marks?_text`). A number or a word ends where something else begins, so the text behind a
value only has to begin with no part of either.
-/

namespace Wireframe.Json

/-! ## One mark at a time -/

theorem marks?_blank {c : Char} (h : isSpace c = true) (cs : List Char) :
    marks? (c :: cs) = marks? cs := by
  rw [marks?, marks?, List.dropWhile_cons_of_pos h]

theorem marks?_blanks {bs : List Char} (h : ∀ c ∈ bs, isSpace c = true) (cs : List Char) :
    marks? (bs ++ cs) = marks? cs := by
  induction bs with
  | nil => rfl
  | cons b bs ih =>
    obtain ⟨hb, hbs⟩ := List.forall_mem_cons.mp h
    rw [List.cons_append, marks?_blank hb, ih hbs]

theorem marks?_cons {c : Char} {cs r : List Char} {m : Mark} (hs : isSpace c = false)
    (h : firstMark c cs = some (m, r)) : marks? (c :: cs) = (marks? r).map (m :: ·) := by
  rw [marks?]
  split
  · rename_i hd
    rw [List.dropWhile_cons_of_neg (by simp [hs])] at hd
    cases hd
  · rename_i hd
    rw [List.dropWhile_cons_of_neg (by simp [hs])] at hd
    obtain ⟨rfl, rfl⟩ := List.cons.inj hd
    rw [h]

theorem marks?_punctuation {c : Char} {m : Mark} (h : punctuation? c = some m) (cs : List Char) :
    marks? (c :: cs) = (marks? cs).map (m :: ·) := by
  have hs : isSpace c = false := by
    unfold punctuation? at h
    split at h <;> first | rfl | cases h
  refine marks?_cons hs ?_
  rw [firstMark, h]

/-- Nothing that a number or a word could go on with. -/
structure Delimited (cs : List Char) : Prop where
  number : cs.head?.any inNumber = false
  word : cs.head?.any Char.isAlpha = false

theorem marks?_word {word : List Char} {v : Json} (h : literal? word = some v) {rest : List Char}
    (hr : Delimited rest) : marks? (word ++ rest) = (marks? rest).map (.scalar v :: ·) := by
  obtain ⟨c, cs, rfl, hs, hp, hq, alpha⟩ : ∃ c cs, word = c :: cs ∧ isSpace c = false ∧
      punctuation? c = none ∧ c ≠ '"' ∧ (c :: cs).all Char.isAlpha = true := by
    unfold literal? at h
    split_ifs at h with null true false
    · exact ⟨_, _, null, rfl, rfl, by decide, rfl⟩
    · exact ⟨_, _, true, rfl, rfl, by decide, rfl⟩
    · exact ⟨_, _, false, rfl, rfl, by decide, rfl⟩
  obtain ⟨hc, hcs⟩ := List.forall_mem_cons.mp (List.all_eq_true.mp alpha)
  have run := takeWhile_run _ hcs hr.word
  have mark : firstMark c (cs ++ rest) = some (.scalar v, rest) := by
    rw [firstMark, hp]
    simp only
    rw [if_neg hq, if_pos hc, run.1, run.2, h, Option.map_some]
  exact marks?_cons hs mark

theorem marks?_quote (s : String) (rest : List Char) :
    marks? ((quote s).toList ++ rest) = (marks? rest).map (.scalar (.str s) :: ·) := by
  have text : (quote s).toList ++ rest = '"' :: escaped s.toList rest := by
    simp only [quote, String.toList_ofList, escaped, List.cons_append, List.append_assoc,
      List.nil_append]
  have mark : firstMark '"' (escaped s.toList rest) = some (.scalar (.str s), rest) := by
    rw [firstMark, stringBody_escaped]
    simp [punctuation?, String.ofList_toList]
  rw [text, marks?_cons (by decide) mark]

theorem inNumber_of_isDigit {c : Char} (h : c.isDigit = true) : inNumber c = true := by
  simp [inNumber, h]

theorem inNumber_of_mem_takeWhile {cs : List Char} {c : Char}
    (h : c ∈ cs.takeWhile Char.isDigit) : inNumber c = true :=
  inNumber_of_isDigit (List.mem_takeWhile_imp h)

theorem inNumber_of_exponent? {cs : List Char} {r : Int × Bool} (h : exponent? cs = some r) :
    ∀ c ∈ cs, inNumber c = true := by
  have digits {ds : List Char} (hd : ds.all Char.isDigit = true) : ∀ c ∈ ds, inNumber c = true :=
    fun c hc => inNumber_of_isDigit (List.all_eq_true.mp hd c hc)
  cases cs with
  | nil => nofun
  | cons c cs =>
    simp only [exponent?] at h
    split at h
    all_goals
      rw [Option.ite_none_right_eq_some] at h
      obtain ⟨⟨mark, -, hd⟩, -⟩ := h
      have hc : inNumber c = true := by rcases mark with rfl | rfl <;> rfl
    · exact List.forall_mem_cons.mpr ⟨hc, List.forall_mem_cons.mpr ⟨rfl, digits hd⟩⟩
    · exact List.forall_mem_cons.mpr ⟨hc, List.forall_mem_cons.mpr ⟨rfl, digits hd⟩⟩
    · exact List.forall_mem_cons.mpr ⟨hc, digits hd⟩

theorem inNumber_of_unsigned? {negative : Bool} {cs : List Char} {v : Json}
    (h : unsigned? negative cs = some v) :
    (∀ c ∈ cs, inNumber c = true) ∧ cs.takeWhile Char.isDigit ≠ [] := by
  simp only [unsigned?] at h
  split at h
  all_goals
    rw [Option.ite_none_left_eq_some, not_or] at h
    obtain ⟨⟨begins, -⟩, h⟩ := h
    obtain ⟨r, hr, -⟩ := Option.map_eq_some_iff.mp h
    refine ⟨?_, begins⟩
    rw [← List.takeWhile_append_dropWhile (p := Char.isDigit) (l := cs)]
    refine List.forall_mem_append.mpr ⟨fun c hc => inNumber_of_mem_takeWhile hc, ?_⟩
  · rename_i fraction rest
    rw [rest, ← List.takeWhile_append_dropWhile (p := Char.isDigit) (l := fraction)]
    exact List.forall_mem_cons.mpr ⟨rfl, List.forall_mem_append.mpr
      ⟨fun c hc => inNumber_of_mem_takeWhile hc, inNumber_of_exponent? hr⟩⟩
  · exact inNumber_of_exponent? hr

/-- A number begins with its sign or with a digit. -/
theorem inNumber_of_number? {cs : List Char} {v : Json} (h : number? cs = some v) :
    (∀ c ∈ cs, inNumber c = true) ∧ ∃ c r, cs = c :: r ∧ (c = '-' ∨ c.isDigit = true) := by
  unfold number? at h
  split at h
  · obtain ⟨all, -⟩ := inNumber_of_unsigned? h
    exact ⟨List.forall_mem_cons.mpr ⟨rfl, all⟩, _, _, rfl, .inl rfl⟩
  · obtain ⟨all, begins⟩ := inNumber_of_unsigned? h
    refine ⟨all, ?_⟩
    cases cs with
    | nil => exact absurd rfl begins
    | cons c cs =>
      refine ⟨c, cs, rfl, .inr ?_⟩
      by_contra other
      exact begins (List.takeWhile_cons_of_neg other)

theorem marks?_number {cs : List Char} {v : Json} (h : number? cs = some v) {rest : List Char}
    (hr : Delimited rest) : marks? (cs ++ rest) = (marks? rest).map (.scalar v :: ·) := by
  obtain ⟨all, c, r, rfl, begins⟩ := inNumber_of_number? h
  have run := takeWhile_run _ (List.forall_mem_cons.mp all).2 hr.number
  obtain ⟨hs, hp, hq, ha⟩ : isSpace c = false ∧ punctuation? c = none ∧ c ≠ '"' ∧
      ¬ c.isAlpha = true := by
    rcases begins with rfl | digit
    · exact ⟨rfl, rfl, by decide, by decide⟩
    · have differs (d : Char) (hd : d.isDigit = false) : c ≠ d := by
        rintro rfl
        exact Bool.false_ne_true (hd.symm.trans digit)
      refine ⟨?_, ?_, differs _ rfl, ?_⟩
      · simp [isSpace, differs ' ' rfl, differs '\n' rfl, differs '\t' rfl, differs '\r' rfl]
      · unfold punctuation?
        split <;> first | rfl | exact absurd rfl (differs _ rfl)
      · grind [Char.isDigit, Char.isAlpha, Char.isUpper, Char.isLower]
  have mark : firstMark c (r ++ rest) = some (.scalar v, rest) := by
    rw [firstMark, hp]
    simp only
    rw [if_neg hq, if_neg ha, run.1, run.2, h, Option.map_some]
  exact marks?_cons hs mark

/-! ## The marks of a value -/

mutual

/-- What a value is when it is written and read again: no number but a finite one, and no whole
number that does not fit. -/
def settled : Json → Json
  | null | malformed => null
  | bool b => bool b
  | int n => if fits n then int n else float (Decimal.toFloat (decide (n < 0)) ⟨n.natAbs, 0⟩)
  | float x => if x.isFinite then float x else null
  | str s => str s
  | arr items => arr (settledItems items)
  | obj members => obj (settledMembers members)

def settledItems : List Json → List Json
  | [] => []
  | v :: vs => settled v :: settledItems vs

def settledMembers : List (String × Json) → List (String × Json)
  | [] => []
  | (k, v) :: ms => (k, settled v) :: settledMembers ms

end

mutual

/-- The marks that a value is put together from. -/
def marks : Json → List Mark
  | arr [] => [.openArr, .closeArr]
  | arr (v :: vs) => .openArr :: (marks v ++ itemMarks vs)
  | obj [] => [.openObj, .closeObj]
  | obj ((k, v) :: ms) => .openObj :: .scalar (.str k) :: .colon :: (marks v ++ memberMarks ms)
  | v => [.scalar v]

/-- The marks of the items behind the first one, and the end of their array. -/
def itemMarks : List Json → List Mark
  | [] => [.closeArr]
  | v :: vs => .comma :: (marks v ++ itemMarks vs)

/-- The marks of the members behind the first one, and the end of their object. -/
def memberMarks : List (String × Json) → List Mark
  | [] => [.closeObj]
  | (k, v) :: ms => .comma :: .scalar (.str k) :: .colon :: (marks v ++ memberMarks ms)

end

/-! ## Styles of printing -/

/-- The blanks in which two ways to print a value differ. -/
structure Style where
  /-- What stands where a line begins inside so many containers. -/
  line : Nat → List Char
  /-- What stands behind a colon. -/
  gap : List Char
  line_blank : ∀ depth, ∀ c ∈ line depth, isSpace c = true
  gap_blank : ∀ c ∈ gap, isSpace c = true

/-- No blanks at all. -/
def Style.compact : Style where
  line _ := []
  gap := []
  line_blank _ := nofun
  gap_blank := nofun

/-- A line for every item and member. -/
def Style.pretty : Style where
  line depth := (lineStart depth).toList
  gap := [' ']
  line_blank depth := by
    intro c hc
    rw [lineStart, String.toList_ofList, List.mem_cons] at hc
    rcases hc with rfl | hc
    · rfl
    · rw [List.eq_of_mem_replicate hc]
      rfl
  gap_blank := by simp [isSpace]

mutual

/-- The text of a value inside so many containers. -/
def text (style : Style) (depth : Nat) : Json → List Char
  | null | malformed => "null".toList
  | bool b => if b then "true".toList else "false".toList
  | int n => (toString n).toList
  | float x => (floatText x).toList
  | str s => (quote s).toList
  | arr [] => ['[', ']']
  | arr (v :: vs) =>
    '[' :: (style.line (depth + 1) ++ (text style (depth + 1) v ++ textItems style depth vs))
  | obj [] => ['\x7b', '\x7d']
  | obj ((k, v) :: ms) =>
    '\x7b' :: (style.line (depth + 1) ++ ((quote k).toList ++ ':' ::
      (style.gap ++ (text style (depth + 1) v ++ textMembers style depth ms))))

def textItems (style : Style) (depth : Nat) : List Json → List Char
  | [] => style.line depth ++ [']']
  | v :: vs =>
    ',' :: (style.line (depth + 1) ++ (text style (depth + 1) v ++ textItems style depth vs))

def textMembers (style : Style) (depth : Nat) : List (String × Json) → List Char
  | [] => style.line depth ++ ['\x7d']
  | (k, v) :: ms =>
    ',' :: (style.line (depth + 1) ++ ((quote k).toList ++ ':' ::
      (style.gap ++ (text style (depth + 1) v ++ textMembers style depth ms))))

end

mutual

theorem toList_compact (depth : Nat) : (v : Json) → v.compact.toList = text .compact depth v
  | null | malformed | bool true | bool false | int _ | float _ | str _ | arr [] | obj [] => rfl
  | arr (v :: vs) => by
    simp only [Json.compact, text, String.toList_append, toList_compact (depth + 1) v,
      toList_compactItems depth vs, Style.compact, List.append_assoc]
    rfl
  | obj ((k, v) :: ms) => by
    simp only [Json.compact, text, String.toList_append, toList_compact (depth + 1) v,
      toList_compactMembers depth ms, Style.compact, List.append_assoc]
    rfl

theorem toList_compactItems (depth : Nat) :
    (vs : List Json) → (compactItems vs).toList = textItems .compact depth vs
  | [] => rfl
  | v :: vs => by
    simp only [compactItems, textItems, String.toList_append, toList_compact (depth + 1) v,
      toList_compactItems depth vs, Style.compact, List.append_assoc]
    rfl

theorem toList_compactMembers (depth : Nat) :
    (ms : List (String × Json)) → (compactMembers ms).toList = textMembers .compact depth ms
  | [] => rfl
  | (k, v) :: ms => by
    simp only [compactMembers, textMembers, String.toList_append, toList_compact (depth + 1) v,
      toList_compactMembers depth ms, Style.compact, List.append_assoc]
    rfl

end

mutual

theorem toList_prettyAt (depth : Nat) : (v : Json) → (prettyAt depth v).toList = text .pretty depth v
  | null | malformed | bool true | bool false | int _ | float _ | str _ => rfl
  | arr [] | obj [] => by
    simp only [prettyAt, text]
    rfl
  | arr (v :: vs) => by
    simp only [prettyAt, text, String.toList_append, toList_prettyAt (depth + 1) v,
      toList_prettyItems depth vs, Style.pretty, List.append_assoc]
    rfl
  | obj ((k, v) :: ms) => by
    simp only [prettyAt, text, String.toList_append, toList_prettyAt (depth + 1) v,
      toList_prettyMembers depth ms, Style.pretty, List.append_assoc]
    rfl

theorem toList_prettyItems (depth : Nat) :
    (vs : List Json) → (prettyItems depth vs).toList = textItems .pretty depth vs
  | [] => by
    simp only [prettyItems, textItems, String.toList_append, Style.pretty]
    rfl
  | v :: vs => by
    simp only [prettyItems, textItems, String.toList_append, toList_prettyAt (depth + 1) v,
      toList_prettyItems depth vs, Style.pretty, List.append_assoc]
    rfl

theorem toList_prettyMembers (depth : Nat) :
    (ms : List (String × Json)) → (prettyMembers depth ms).toList = textMembers .pretty depth ms
  | [] => by
    simp only [prettyMembers, textMembers, String.toList_append, Style.pretty]
    rfl
  | (k, v) :: ms => by
    simp only [prettyMembers, textMembers, String.toList_append, toList_prettyAt (depth + 1) v,
      toList_prettyMembers depth ms, Style.pretty, List.append_assoc]
    rfl

end

/-! ## Printed values are cut into their marks -/

theorem delimited_nil : Delimited [] := ⟨rfl, rfl⟩

theorem delimited_comma (cs : List Char) : Delimited (',' :: cs) := ⟨rfl, rfl⟩

/-- Blanks end a number as well as what they stand in front of. -/
theorem delimited_blanks {bs cs : List Char} (h : ∀ c ∈ bs, isSpace c = true) (hc : Delimited cs) :
    Delimited (bs ++ cs) := by
  cases bs with
  | nil => exact hc
  | cons b bs =>
    have hb := h b List.mem_cons_self
    simp only [isSpace, Bool.or_eq_true, decide_eq_true_eq] at hb
    rcases hb with ((rfl | rfl) | rfl) | rfl <;> exact ⟨rfl, rfl⟩

theorem delimited_textItems (style : Style) (depth : Nat) (vs : List Json) (rest : List Char) :
    Delimited (textItems style depth vs ++ rest) := by
  cases vs with
  | nil =>
    rw [textItems, List.append_assoc]
    exact delimited_blanks (style.line_blank depth) ⟨rfl, rfl⟩
  | cons v vs =>
    rw [textItems]
    exact delimited_comma _

theorem delimited_textMembers (style : Style) (depth : Nat) (ms : List (String × Json))
    (rest : List Char) : Delimited (textMembers style depth ms ++ rest) := by
  cases ms with
  | nil =>
    rw [textMembers, List.append_assoc]
    exact delimited_blanks (style.line_blank depth) ⟨rfl, rfl⟩
  | cons m ms =>
    rw [textMembers]
    exact delimited_comma _

theorem marks?_float (x : Float) {rest : List Char} (hr : Delimited rest) :
    marks? ((floatText x).toList ++ rest) = (marks? rest).map (.scalar (settled (.float x)) :: ·) := by
  rw [settled, Decimal.isFinite_eq]
  cases h : Decimal.Binary.ofFloat? x with
  | none =>
    have text : floatText x = "null" := by rw [floatText, Decimal.jsonText?, h]; rfl
    rw [text]
    exact marks?_word rfl hr
  | some b => exact marks?_number (number?_floatText h) hr

section Cut

variable (style : Style)

/-- A member up to its value. -/
theorem marks?_name (depth : Nat) (k : String) (cs : List Char) :
    marks? (style.line depth ++ ((quote k).toList ++ ':' :: (style.gap ++ cs))) =
      (marks? cs).map fun ms => .scalar (.str k) :: .colon :: ms := by
  rw [marks?_blanks (style.line_blank depth), marks?_quote, marks?_punctuation rfl,
    marks?_blanks style.gap_blank, Option.map_map]
  rfl

/-- An item and what is behind it. -/
theorem marks?_item {depth : Nat} {v : Json} {vs : List Json} {rest : List Char}
    (value : marks? (text style (depth + 1) v ++ (textItems style depth vs ++ rest)) =
      (marks? (textItems style depth vs ++ rest)).map (marks (settled v) ++ ·))
    (more : marks? (textItems style depth vs ++ rest) =
      (marks? rest).map (itemMarks (settledItems vs) ++ ·)) :
    marks? (style.line (depth + 1) ++ (text style (depth + 1) v ++ textItems style depth vs) ++
        rest) =
      (marks? rest).map fun us => marks (settled v) ++ itemMarks (settledItems vs) ++ us := by
  simp only [List.append_assoc]
  rw [marks?_blanks (style.line_blank _), value, more, Option.map_map]
  rfl

/-- A member and what is behind it. -/
theorem marks?_member {depth : Nat} (k : String) {v : Json} {ms : List (String × Json)}
    {rest : List Char}
    (value : marks? (text style (depth + 1) v ++ (textMembers style depth ms ++ rest)) =
      (marks? (textMembers style depth ms ++ rest)).map (marks (settled v) ++ ·))
    (more : marks? (textMembers style depth ms ++ rest) =
      (marks? rest).map (memberMarks (settledMembers ms) ++ ·)) :
    marks? (style.line (depth + 1) ++ ((quote k).toList ++ ':' ::
        (style.gap ++ (text style (depth + 1) v ++ textMembers style depth ms))) ++ rest) =
      (marks? rest).map fun us => .scalar (.str k) :: .colon ::
        (marks (settled v) ++ memberMarks (settledMembers ms) ++ us) := by
  simp only [List.append_assoc, List.cons_append]
  rw [marks?_name, value, more, Option.map_map, Option.map_map]
  rfl

mutual

theorem marks?_text (depth : Nat) : (v : Json) → {rest : List Char} → Delimited rest →
    marks? (text style depth v ++ rest) = (marks? rest).map (marks (settled v) ++ ·)
  | null, _, hr | malformed, _, hr | bool true, _, hr | bool false, _, hr => marks?_word rfl hr
  | int n, _, hr => by
    rw [text, marks?_number (number?_toString n) hr, settled]
    split <;> rfl
  | float x, _, hr => by
    rw [text, marks?_float x hr, settled]
    split <;> rfl
  | str s, _, _ => marks?_quote s _
  | arr [], rest, _ => by
    change marks? ('[' :: ']' :: rest) = _
    rw [marks?_punctuation rfl, marks?_punctuation rfl, Option.map_map]
    rfl
  | arr (v :: vs), rest, _ => by
    have inside := marks?_item style
      (marks?_text (depth + 1) v (delimited_textItems style depth vs rest))
      (marks?_textItems depth vs rest)
    rw [text, List.cons_append, marks?_punctuation rfl, inside, Option.map_map]
    rfl
  | obj [], rest, _ => by
    change marks? ('\x7b' :: '\x7d' :: rest) = _
    rw [marks?_punctuation rfl, marks?_punctuation rfl, Option.map_map]
    rfl
  | obj ((k, v) :: ms), rest, _ => by
    have inside := marks?_member style k
      (marks?_text (depth + 1) v (delimited_textMembers style depth ms rest))
      (marks?_textMembers depth ms rest)
    rw [text, List.cons_append, marks?_punctuation rfl, inside, Option.map_map]
    rfl

theorem marks?_textItems (depth : Nat) : (vs : List Json) → (rest : List Char) →
    marks? (textItems style depth vs ++ rest) =
      (marks? rest).map (itemMarks (settledItems vs) ++ ·)
  | [], rest => by
    rw [textItems, List.append_assoc, marks?_blanks (style.line_blank depth)]
    exact marks?_punctuation rfl rest
  | v :: vs, rest => by
    have inside := marks?_item style
      (marks?_text (depth + 1) v (delimited_textItems style depth vs rest))
      (marks?_textItems depth vs rest)
    rw [textItems, List.cons_append, marks?_punctuation rfl, inside, Option.map_map]
    rfl

theorem marks?_textMembers (depth : Nat) : (ms : List (String × Json)) → (rest : List Char) →
    marks? (textMembers style depth ms ++ rest) =
      (marks? rest).map (memberMarks (settledMembers ms) ++ ·)
  | [], rest => by
    rw [textMembers, List.append_assoc, marks?_blanks (style.line_blank depth)]
    exact marks?_punctuation rfl rest
  | (k, v) :: ms, rest => by
    have inside := marks?_member style k
      (marks?_text (depth + 1) v (delimited_textMembers style depth ms rest))
      (marks?_textMembers depth ms rest)
    rw [textMembers, List.cons_append, marks?_punctuation rfl, inside, Option.map_map]
    rfl

end

end Cut

end Wireframe.Json
