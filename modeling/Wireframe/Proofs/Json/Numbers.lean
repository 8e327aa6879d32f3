import Wireframe.Json.Printer
import Wireframe.Json.Reader
import Wireframe.Proofs.Decimal.Shortest
import Wireframe.Proofs.Runs

/-!
# Numbers are read back

A finite double is written with the digits of its shortest decimal in one of four layouts, and each
of them is a number of a JSON text with the value of that decimal (`number?_layout`). So the
text of a finite double is read as that double (`number?_floatText`), and a whole number in range
as itself (`number?_toString`).
-/

namespace Wireframe

namespace Text

/-! ## Runs of digits -/

theorem decimalNumber_eq (cs : List Char) : decimalNumber cs = Nat.ofDigitChars 10 cs 0 :=
  Nat.ofDigitChars_eq_foldl.symm

theorem decimalNumber_append (cs ds : List Char) :
    decimalNumber (cs ++ ds) = decimalNumber cs * 10 ^ ds.length + decimalNumber ds := by
  simp only [decimalNumber_eq, Nat.ofDigitChars_append]
  rw [Nat.ofDigitChars_eq_ofDigitChars_zero, Nat.mul_comm]

theorem decimalNumber_zeros (n : Nat) : decimalNumber (List.replicate n '0') = 0 := by
  rw [decimalNumber_eq, Nat.ofDigitChars_replicate_zero, Nat.mul_zero]

/-- The digits of a natural number. -/
def digits (n : Nat) : List Char :=
  (toString n).toList

theorem digits_eq (n : Nat) : digits n = Nat.toDigits 10 n := by
  rw [digits, Nat.toString_eq_ofList_toDigits, String.toList_ofList]

theorem decimalNumber_digits (n : Nat) : decimalNumber (digits n) = n := by
  rw [digits_eq, decimalNumber_eq, Nat.ofDigitChars_ten_toDigits]

theorem digits_ne_nil (n : Nat) : digits n ≠ [] := by
  rw [digits_eq]
  exact Nat.toDigits_ne_nil

theorem isDigit_of_mem_digits {n : Nat} {c : Char} (h : c ∈ digits n) : c.isDigit = true := by
  rw [digits_eq] at h
  exact Nat.isDigit_of_mem_toDigits (by decide) (by decide) h

/-- A number but zero does not begin with a zero. -/
theorem head?_digits {n : Nat} (hn : n ≠ 0) : (digits n).head? ≠ some '0' := by
  rw [digits_eq]
  induction n using Nat.strong_induction_on with
  | _ n ih =>
    rcases Nat.lt_or_ge n 10 with small | large
    · rw [Nat.toDigits_of_lt_base small]
      simpa using hn
    · rw [Nat.toDigits_of_base_le (by decide) large,
        List.head?_append_of_ne_nil _ Nat.toDigits_ne_nil]
      exact ih (n / 10) (by omega) (by omega)

end Text

namespace Json

open Text (digits decimalNumber)

/-! ## The grammar of numbers -/

/-- The sign of a negative number. -/
def sign (negative : Bool) : List Char :=
  if negative then ['-'] else []

/-- What stands before the point of a number: no zero in front of another digit. -/
structure Whole (cs : List Char) : Prop where
  ne_nil : cs ≠ []
  isDigit : ∀ c ∈ cs, c.isDigit = true
  head : cs.length = 1 ∨ cs.head? ≠ some '0'

theorem Whole.accepted {cs : List Char} (hw : Whole cs) {refused : Prop} (h : ¬ refused) :
    ¬ (cs = [] ∨ (cs.length ≠ 1 ∧ cs.head? = some '0') ∨ refused) := by
  have := hw.ne_nil
  have := hw.head
  tauto

variable {whole fraction tail : List Char} {e : Int} {hasExponent : Bool}

/-- Digits have no sign of their own. -/
theorem number?_sign (negative : Bool) (hw : Whole whole) (rest : List Char) :
    number? (sign negative ++ (whole ++ rest)) = unsigned? negative (whole ++ rest) := by
  cases negative with
  | true => rfl
  | false =>
    obtain ⟨c, cs, rfl⟩ := List.exists_cons_of_ne_nil hw.ne_nil
    have digit := hw.isDigit c List.mem_cons_self
    have unsigned : c ≠ '-' := by
      rintro rfl
      exact absurd digit (by decide)
    simp [sign, number?, unsigned]

theorem number?_fraction (negative : Bool) (hw : Whole whole) (hf : fraction ≠ [])
    (digit : ∀ c ∈ fraction, c.isDigit = true) (ht : tail.head?.any Char.isDigit = false)
    (he : exponent? tail = some (e, hasExponent)) :
    number? (sign negative ++ (whole ++ '.' :: (fraction ++ tail))) =
      some (.float (Decimal.toFloat negative
        ⟨decimalNumber (whole ++ fraction), e - fraction.length⟩)) := by
  have before := takeWhile_run ('.' :: (fraction ++ tail)) hw.isDigit rfl
  have behind := takeWhile_run tail digit ht
  rw [number?_sign negative hw]
  simp only [unsigned?, before.1, before.2, behind.1, behind.2]
  rw [if_neg (hw.accepted (fun h => hf h.2)), he]
  simp

theorem number?_whole (negative : Bool) (hw : Whole whole) (ht : tail.head?.any Char.isDigit = false)
    (point : tail.head? ≠ some '.') (he : exponent? tail = some (e, hasExponent)) :
    number? (sign negative ++ (whole ++ tail)) =
      let n : Int := if negative then -decimalNumber whole else decimalNumber whole
      some (if !hasExponent && fits n && !(negative && decimalNumber whole = 0) then .int n
        else .float (Decimal.toFloat negative ⟨decimalNumber whole, e⟩)) := by
  have before := takeWhile_run tail hw.isDigit ht
  rw [number?_sign negative hw]
  simp only [unsigned?, before.1, before.2]
  split
  · exact absurd rfl point
  · rw [if_neg (hw.accepted (fun h => Bool.false_ne_true h.1)), he]
    simp

/-- A whole number is its sign and its digits. -/
theorem toList_toString (n : Int) :
    (toString n).toList = sign (decide (n < 0)) ++ digits n.natAbs := by
  cases n with
  | ofNat n => rfl
  | negSucc n =>
    change ("-" ++ toString (n + 1)).toList = _
    rw [String.toList_append, decide_eq_true (Int.negSucc_lt_zero n)]
    rfl

theorem whole_digits (n : Nat) : Whole (digits n) where
  ne_nil := Text.digits_ne_nil n
  isDigit _ := Text.isDigit_of_mem_digits
  head := by
    rcases Nat.eq_zero_or_pos n with rfl | hn
    · exact .inl rfl
    · exact .inr (Text.head?_digits hn.ne')

/-- A whole number is read as itself, or as a double when it does not fit. -/
theorem number?_toString (n : Int) :
    number? (toString n).toList =
      some (if fits n then .int n
        else .float (Decimal.toFloat (decide (n < 0)) ⟨n.natAbs, 0⟩)) := by
  have self : (if decide (n < 0) = true then -(n.natAbs : Int) else n.natAbs) = n := by
    split <;> rename_i h <;> rw [decide_eq_true_eq] at h <;> omega
  have signed : (decide (n < 0) && decide (n.natAbs = 0)) = false := by
    rw [Bool.and_eq_false_iff, decide_eq_false_iff_not, decide_eq_false_iff_not]
    omega
  rw [toList_toString, ← List.append_nil (digits _),
    number?_whole _ (whole_digits _) rfl (by simp) rfl, Text.decimalNumber_digits]
  simp only [self, signed, Bool.not_false, Bool.true_and, Bool.and_true]

/-! ## Doubles -/

/-- Neither sign is a digit. -/
theorem digits_ne_cons (n : Nat) {c : Char} (hc : c.isDigit = false) (cs : List Char) :
    digits n ≠ c :: cs := by
  intro h
  have digit : c.isDigit = true := Text.isDigit_of_mem_digits (h ▸ List.mem_cons_self)
  exact Bool.false_ne_true (hc.symm.trans digit)

theorem exponent?_nil : exponent? [] = some (0, false) := rfl

theorem exponent?_toString (n : Int) : exponent? ('e' :: (toString n).toList) = some (n, true) := by
  have all : (digits n.natAbs).all Char.isDigit = true :=
    List.all_eq_true.mpr fun _ => Text.isDigit_of_mem_digits
  have accepted : (True ∨ 'e' = 'E') ∧ digits n.natAbs ≠ [] ∧
      (digits n.natAbs).all Char.isDigit = true := ⟨.inl trivial, Text.digits_ne_nil _, all⟩
  rw [toList_toString]
  rcases lt_or_ge n 0 with hn | hn
  · have self : -(n.natAbs : Int) = n := by omega
    simp only [exponent?, decide_eq_true hn, sign, ↓reduceIte, List.cons_append, List.nil_append]
    rw [if_pos accepted, Text.decimalNumber_digits, self]
  · have self : (n.natAbs : Int) = n := by omega
    simp only [exponent?, decide_eq_false hn.not_gt, sign, Bool.false_eq_true, ↓reduceIte,
      List.nil_append]
    split
    · rename_i h
      exact absurd h (digits_ne_cons _ rfl _)
    · rename_i h
      exact absurd h (digits_ne_cons _ rfl _)
    · dsimp only
      rw [if_pos accepted, Text.decimalNumber_digits, if_neg Bool.false_ne_true, self]

open Decimal (Notation)

/-- The layouts of a decimal without a sign. -/
inductive Layout (d : Decimal) : List Char → Prop
  /-- The digits with zeros behind them. -/
  | whole {n : Nat} (place : d.exponent = n) :
    Layout d ((digits d.digits ++ List.replicate n '0') ++ ['.', '0'])
  /-- The digits with the point among them, and an exponent or none. -/
  | pointed {before behind tail : List Char} {e : Int} {hasExponent : Bool}
      (parts : digits d.digits = before ++ behind) (hb : before ≠ []) (hf : behind ≠ [])
      (ht : tail.head?.any Char.isDigit = false) (he : exponent? tail = some (e, hasExponent))
      (place : d.exponent = e - behind.length) :
    Layout d (before ++ '.' :: (behind ++ tail))
  /-- The digits with zeros in front of them. -/
  | small {n : Nat} (place : d.exponent = -(n + (digits d.digits).length : Int)) :
    Layout d (['0', '.'] ++ (List.replicate n '0' ++ digits d.digits))
  /-- A single digit and an exponent. -/
  | scientific (one : (digits d.digits).length = 1) :
    Layout d (digits d.digits ++ 'e' :: (toString d.exponent).toList)

theorem drop_digits_ne_nil {n k : Nat} (h : k < (digits n).length) : (digits n).drop k ≠ [] := by
  rw [ne_eq, List.drop_eq_nil_iff]
  omega

theorem take_digits_ne_nil {n k : Nat} (h : 0 < k) : (digits n).take k ≠ [] := by
  rw [ne_eq, List.take_eq_nil_iff]
  exact fun none => none.elim (fun zero => h.ne' zero) (Text.digits_ne_nil n)

theorem layout_magnitude (d : Decimal) : Layout d (Notation.json.magnitude d).toList := by
  have length : (toString d.digits).length = (digits d.digits).length := by
    rw [digits, String.length_toList]
  have positive := List.length_pos_of_ne_nil (Text.digits_ne_nil d.digits)
  unfold Notation.magnitude
  dsimp only [Notation.json]
  rw [length]
  obtain ⟨point, hp⟩ : ∃ point, point = ((digits d.digits).length : Int) + d.exponent := ⟨_, rfl⟩
  rw [← hp]
  by_cases fixed : (decide (-4 ≤ point) && decide (point ≤ 16)) = true
  · rw [if_pos fixed]
    by_cases whole : 0 ≤ d.exponent
    · rw [if_pos whole]
      simp only [String.toList_append, Decimal.zeros, String.toList_ofList]
      exact .whole (Int.toNat_of_nonneg whole).symm
    · rw [if_neg whole]
      by_cases among : 0 < point
      · rw [if_pos among]
        simp only [String.toList_append, String.toList_ofList, List.append_assoc]
        have layout := @Layout.pointed d _ _ [] _ _ (List.take_append_drop point.toNat _).symm
          (take_digits_ne_nil (by omega)) (drop_digits_ne_nil (by omega)) rfl rfl
          (by rw [List.length_drop]; omega)
        rwa [List.append_nil] at layout
      · rw [if_neg among]
        simp only [String.toList_append, Decimal.zeros, String.toList_ofList, List.append_assoc]
        exact .small (by omega)
  · rw [if_neg fixed]
    simp only [String.toList_append, String.toList_ofList, List.append_assoc]
    by_cases one : (digits d.digits).length = 1
    · have place : point - 1 = d.exponent := by omega
      have first : (toString d.digits).toList.take 1 = digits d.digits :=
        List.take_of_length_le one.le
      have rest : (toString d.digits).toList.drop 1 = [] := List.drop_of_length_le one.le
      rw [first, rest, place]
      exact .scientific one
    · have rest : (toString d.digits).toList.drop 1 ≠ [] := drop_digits_ne_nil (by omega)
      have written : String.ofList ((toString d.digits).toList.drop 1) ≠ "" := fun none =>
        rest (String.ofList_injective none)
      have layout := @Layout.pointed d _ _ _ _ _ (List.take_append_drop 1 _).symm
        (take_digits_ne_nil Nat.one_pos) rest rfl (exponent?_toString (point - 1))
        (by rw [List.length_drop]; omega)
      rw [if_neg written]
      simp only [String.toList_append, String.toList_ofList, List.append_assoc]
      exact layout

theorem number?_layout (negative : Bool) {d : Decimal} (zero : d.digits = 0 → d.exponent = 0)
    {cs : List Char} (h : Layout d cs) :
    number? (sign negative ++ cs) = some (.float (d.toFloat negative)) := by
  have self := whole_digits d.digits
  have zeros {n : Nat} : ∀ c ∈ List.replicate n '0', c.isDigit = true := by
    rintro c hc
    rw [List.eq_of_mem_replicate hc]
    rfl
  cases h with
  | @whole n place =>
    have padded : Whole (digits d.digits ++ List.replicate n '0') := by
      refine ⟨List.append_ne_nil_of_left_ne_nil self.ne_nil _,
        List.forall_mem_append.mpr ⟨self.isDigit, zeros⟩, ?_⟩
      by_cases none : d.digits = 0
      · have : n = 0 := by
          have := zero none
          omega
        exact .inl (by rw [none, this]; rfl)
      · rw [List.head?_append_of_ne_nil _ self.ne_nil]
        exact .inr (Text.head?_digits none)
    have value : Decimal.value
        ⟨decimalNumber (digits d.digits ++ List.replicate n '0' ++ ['0']), 0 - ['0'].length⟩ =
          d.value := by
      rw [List.append_assoc, Text.decimalNumber_append, Text.decimalNumber_digits,
        ← List.replicate_succ', Text.decimalNumber_zeros, List.length_replicate]
      simp only [Decimal.value, place, zpow_natCast, List.length_singleton]
      push_cast
      rw [zpow_neg_one, pow_succ]
      field_simp
      ring
    have read := number?_fraction negative padded (List.cons_ne_nil '0' []) (by simp) rfl exponent?_nil
    rw [Decimal.toFloat_congr negative value] at read
    exact read
  | @pointed before behind tail e hasExponent parts hb hf ht he place =>
    have all : ∀ c ∈ before ++ behind, c.isDigit = true := parts ▸ self.isDigit
    have front : Whole before := by
      refine ⟨hb, fun c hc => all c (List.mem_append_left _ hc), .inr ?_⟩
      have positive : d.digits ≠ 0 := by
        intro none
        have lengths := congrArg List.length parts
        have := List.length_pos_of_ne_nil hb
        have := List.length_pos_of_ne_nil hf
        rw [none, List.length_append] at lengths
        change 1 = _ at lengths
        omega
      rw [← List.head?_append_of_ne_nil before hb, ← parts]
      exact Text.head?_digits positive
    rw [number?_fraction negative front hf (fun c hc => all c (List.mem_append_right _ hc)) ht he,
      ← parts, Text.decimalNumber_digits, ← place]
  | @small n place =>
    have front : Whole ['0'] := ⟨by simp, by simp, .inl rfl⟩
    have value : Decimal.value
        ⟨decimalNumber (['0'] ++ (List.replicate n '0' ++ digits d.digits)),
          0 - (List.replicate n '0' ++ digits d.digits).length⟩ = d.value := by
      have leading : ['0'] ++ (List.replicate n '0' ++ digits d.digits) =
          List.replicate (n + 1) '0' ++ digits d.digits := rfl
      rw [leading, Text.decimalNumber_append, Text.decimalNumber_digits, Text.decimalNumber_zeros,
        Nat.zero_mul, Nat.zero_add, List.length_append, List.length_replicate]
      simp only [Decimal.value, place]
      push_cast
      rw [zero_sub]
    have read := number?_fraction negative front
      (List.append_ne_nil_of_right_ne_nil (List.replicate n '0') self.ne_nil)
      (List.forall_mem_append.mpr ⟨zeros, self.isDigit⟩) rfl exponent?_nil
    rw [List.append_nil, Decimal.toFloat_congr negative value] at read
    exact read
  | scientific one =>
    rw [number?_whole negative self rfl (by simp) (exponent?_toString d.exponent),
      Text.decimalNumber_digits]
    rfl

/-- The text of a finite double is read as the double. -/
theorem number?_floatText {x : Float} {b : Decimal.Binary} (h : Decimal.Binary.ofFloat? x = some b) :
    number? (floatText x).toList = some (.float x) := by
  have normal := Decimal.Binary.normal_of_ofFloat? h
  have text : (floatText x).toList =
      sign b.negative ++ (Notation.json.magnitude (Decimal.shortest b)).toList := by
    rw [floatText, Decimal.jsonText?, h, Option.map_some, Option.getD_some, Notation.write,
      String.toList_append]
    cases b.negative <;> rfl
  rw [text, number?_layout b.negative (Decimal.exponent_shortest normal) (layout_magnitude _),
    Decimal.toFloat_shortest h]

end Json

end Wireframe
