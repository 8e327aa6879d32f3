import Wireframe.Decimal.Reading
import Wireframe.Proofs.Decimal.Shortest
import Wireframe.Proofs.Lexeme.Occurrences
import Wireframe.Proofs.Runs

/-!
# Numbers of a text

A token that is a number has the double that is closest to the decimal it writes. So it is finite
unless the decimal is as large as the threshold at which doubles overflow (`isFinite_scan`), no
matter how many digits it has.
-/

namespace Wireframe

namespace Decimal

/-- What begins with a digit names no special double. -/
theorem read?_of_isDigit {cs body : List Char} {c : Char} (h : (signed cs).2 = c :: body)
    (hc : c.isDigit = true) :
    read? cs = (ofText? (c :: body)).map (toFloat (signed cs).1) := by
  have small : c.isUpper = false := by
    simp [Char.isDigit, Char.isUpper, UInt32.le_iff_toNat_le] at *
    omega
  have other {w : String} {d : Char} {ds : List Char} (hw : w.toList = d :: ds)
      (hd : d.isDigit = false) : (c :: body).map Char.toLower ≠ w.toList := by
    rw [hw, List.map_cons, Char.toLower_eq_of_not_isUpper (by simp [small])]
    intro he
    rw [(List.cons.inj he).1, hd] at hc
    cases hc
  simp only [read?, h]
  rw [if_neg, if_neg]
  · exact other rfl rfl
  · exact not_or.mpr ⟨other rfl rfl, other rfl rfl⟩

end Decimal

namespace Lexeme

/-- Whether characters are digits, at least one of them. -/
structure Digits (cs : List Char) : Prop where
  ne_nil : cs ≠ []
  isDigit : ∀ c ∈ cs, c.isDigit = true

/-- A number behind its sign: digits, with a point and more digits behind them where wanted. -/
inductive Magnitude : List Char → Prop
  | whole {ds} (h : Digits ds) : Magnitude ds
  | point {ds es} (h : Digits ds) (h' : Digits es) : Magnitude (ds ++ '.' :: es)

/-- What is left of a word without the dash that it may begin with. -/
def undashed : List Char → List Char
  | '-' :: cs => cs
  | cs => cs

/-- Whether what is left of a word behind its dash is a number. -/
def isMagnitude (cs : List Char) : Bool :=
  !(cs.takeWhile Char.isDigit).isEmpty &&
    match cs.dropWhile Char.isDigit with
    | [] => true
    | '.' :: ds => !ds.isEmpty && ds.all Char.isDigit
    | _ => false

theorem isNumber_eq (cs : List Char) : isNumber cs = isMagnitude (undashed cs) :=
  rfl

theorem undashed_eq_self_or (cs : List Char) :
    undashed cs = cs ∨ cs = '-' :: undashed cs := by
  unfold undashed
  split
  · exact .inr rfl
  · exact .inl rfl

theorem Magnitude.head?_isDigit {cs : List Char} (h : Magnitude cs) :
    ∃ c more, cs = c :: more ∧ c.isDigit = true := by
  have first {ds : List Char} (h : Digits ds) (es : List Char) :
      ∃ c more, ds ++ es = c :: more ∧ c.isDigit = true := by
    obtain ⟨c, more, rfl⟩ := List.exists_cons_of_ne_nil h.ne_nil
    exact ⟨c, more ++ es, rfl, h.isDigit c List.mem_cons_self⟩
  cases h with
  | whole h =>
    rw [← List.append_nil cs]
    exact first h []
  | point h _ => exact first h _

theorem isMagnitude_iff {cs : List Char} : isMagnitude cs = true ↔ Magnitude cs := by
  constructor
  · intro h
    have parts := List.takeWhile_append_dropWhile (p := Char.isDigit) (l := cs)
    have all : ∀ c ∈ cs.takeWhile Char.isDigit, c.isDigit = true :=
      fun c hc => List.mem_takeWhile_imp hc
    unfold isMagnitude at h
    obtain ⟨written, tail⟩ := (Bool.and_eq_true _ _).mp h
    have whole : Digits (cs.takeWhile Char.isDigit) := ⟨by simpa using written, all⟩
    rw [← parts]
    split at tail
    next he =>
      rw [he, List.append_nil]
      exact .whole whole
    next ds he =>
      rw [he]
      exact .point whole ⟨by simpa using (Bool.and_eq_true _ _ |>.mp tail).1,
        List.all_eq_true.mp (Bool.and_eq_true _ _ |>.mp tail).2⟩
    · cases tail
  · rintro (⟨h⟩ | @⟨ds, es, h, h'⟩)
    · have run := takeWhile_run [] h.isDigit rfl
      rw [List.append_nil] at run
      simp [isMagnitude, run.1, run.2, h.ne_nil]
    · have run := takeWhile_run ('.' :: es) h.isDigit rfl
      simp only [isMagnitude, run.1, run.2]
      simpa [h.ne_nil, h'.ne_nil] using h'.isDigit

theorem signed_of_magnitude {cs : List Char} (h : Magnitude (undashed cs)) :
    (Decimal.signed cs).2 = undashed cs := by
  unfold Decimal.signed
  split
  · rfl
  · -- a plus sign is no digit
    obtain ⟨c, more, hc, digit⟩ := h.head?_isDigit
    rw [← (List.cons.inj hc).1] at digit
    cases digit
  next dashless _ =>
    rcases undashed_eq_self_or cs with he | he
    · exact he.symm
    · exact absurd he (dashless _)

/-- A number is read as the double of its decimal. -/
theorem read?_of_magnitude {cs : List Char} (h : Magnitude (undashed cs)) :
    Decimal.read? cs =
      (Decimal.ofText? (Decimal.signed cs).2).map (Decimal.toFloat (Decimal.signed cs).1) := by
  obtain ⟨c, body, hc, digit⟩ := h.head?_isDigit
  have hs := (signed_of_magnitude h).trans hc
  rw [Decimal.read?_of_isDigit hs digit, hs]

theorem isFinite_wordKind {cs : List Char} {x : Float} (h : wordKind cs = .number x) :
    ∃ d, Decimal.ofText? (Decimal.signed cs).2 = some d ∧
      (x.isFinite = true ↔ d.value < Decimal.overflowThreshold) := by
  have read : isNumber cs = true ∧ Decimal.read? cs = some x := by
    unfold wordKind at h
    split at h
    · cases h
    · split at h
      · cases h
      · split at h
        next y hy =>
          obtain rfl := Token.Kind.number.inj h
          exact Option.ite_none_right_eq_some.mp hy
        · cases h
  have number := isMagnitude_iff.mp (isNumber_eq cs ▸ read.1)
  rw [read?_of_magnitude number, Option.map_eq_some_iff] at read
  obtain ⟨-, d, hd, rfl⟩ := read
  exact ⟨d, hd, Decimal.isFinite_toFloat _ d⟩

end Lexeme

namespace Token

/-- The decimal that a token writes if it is a number. -/
def decimal? (t : Token) : Option Decimal :=
  match t.kind with
  | .number _ => Decimal.ofText? (Decimal.signed t.text.toList).2
  | _ => none

/-- Whether a token is anything but a number that is too large. -/
def isFinite (t : Token) : Bool :=
  match t.kind with
  | .number x => x.isFinite
  | _ => true

/-- A token of a text is finite unless it writes a number at which doubles overflow. -/
theorem isFinite_scan {source : String} {t : Token} (ht : t ∈ (scan source).1) :
    t.isFinite = true ↔ ∀ d ∈ t.decimal?, d.value < Decimal.overflowThreshold := by
  rw [isFinite, decimal?]
  cases hk : t.kind with
  | number x =>
    rw [fst_scan] at ht
    rcases List.mem_append.mp ht with lexeme | last
    · obtain ⟨ls₁, l, ls₂, hls, kind, text, -⟩ := Lexeme.exists_of_mem_tokens lexeme
      have scanned := Lexeme.scanned_ofText (body source) l (hls ▸ by simp)
      obtain ⟨cs, rfl, word⟩ := scanned.word (kind.trans (congrArg some hk)) rfl
      obtain ⟨d, hd, finite⟩ := Lexeme.isFinite_wordKind word
      have written : Decimal.ofText? (Decimal.signed (Lexeme.word cs).text).2 = some d := hd
      simp only [text, String.toList_ofList, written, Option.mem_def, Option.some.injEq,
        forall_eq', finite]
    · rw [List.mem_singleton.mp last] at hk
      cases hk
  | _ => simp

end Token

end Wireframe
