import Wireframe.Design.Color
import Wireframe.Proofs.Text.Case

/-!
# Written colours

The written form of a colour is a mark and six hexadecimal digits in small letters, and it is read
as that colour. A mark and any six hexadecimal digits are read as well, as the colour that is
written with the same digits. But each pair of digits is read as a number, and a number may have a
plus sign for its first digit: these are the only other texts that are read
(`ofHex?_iff_digits_unless_plus`).
-/

namespace Wireframe.Text

theorem ascii_of_isHexDigit {c : Char} (h : isHexDigit c = true) : c.toNat < 128 := by
  simp only [isHexDigit, Char.isDigit, Bool.or_eq_true, Bool.and_eq_true, decide_eq_true_eq] at h
  obtain (digit | small) | capital := h
  · exact ascii_of_le '9' digit.2 (by decide)
  · exact ascii_of_le 'f' small.2 (by decide)
  · exact ascii_of_le 'F' capital.2 (by decide)

/-- A digit is written as its value is, but for the case of its letter. -/
theorem hexDigit_hexValue {c : Char} (h : isHexDigit c = true) :
    hexValue c < 16 ∧ hexDigit (hexValue c) = c.toLower :=
  forall_ascii (P := fun c => isHexDigit c = true →
    hexValue c < 16 ∧ hexDigit (hexValue c) = c.toLower) (by decide +kernel)
    (ascii_of_isHexDigit h) h

theorem hexDigit_spec : ∀ n < 16, isHexDigit (hexDigit n) = true ∧
    hexValue (hexDigit n) = n ∧ (hexDigit n).toLower = hexDigit n := by
  decide

theorem hexDigit_inj {m n : Nat} (hm : m < 16) (hn : n < 16) : hexDigit m = hexDigit n ↔ m = n := by
  refine ⟨fun h => ?_, congrArg hexDigit⟩
  rw [← (hexDigit_spec m hm).2.1, h, (hexDigit_spec n hn).2.1]

theorem hexDigits_two (k : Nat) : hexDigits 2 k = [hexDigit (k / 16 % 16), hexDigit (k % 16)] := by
  change [hexDigit (k >>> 4 % 16), hexDigit (k >>> 0 % 16)] = _
  rw [Nat.shiftRight_eq_div_pow, Nat.shiftRight_zero]

theorem hexDigits_two_eq_iff {k m n : Nat} (hk : k < 256) (hm : m < 16) (hn : n < 16) :
    hexDigits 2 k = [hexDigit m, hexDigit n] ↔ k = 16 * m + n := by
  rw [hexDigits_two, List.cons_eq_cons, List.cons_eq_cons, eq_self_iff_true, and_true,
    hexDigit_inj (Nat.mod_lt _ (by decide)) hm, hexDigit_inj (Nat.mod_lt _ (by decide)) hn]
  omega

end Wireframe.Text

namespace Wireframe.Design.Rgb

open Text (isHexDigit hexValue hexDigit hexDigits)

/-- The digit that a plus sign in front of a digit stands for. -/
def unsigned (c : Char) : Char :=
  if c = '+' then '0' else c

theorem unsigned_of_isHexDigit {c : Char} (h : isHexDigit c = true) : unsigned c = c := by
  rw [unsigned, if_neg]
  rintro rfl
  exact absurd h (by decide)

/-- Two characters that are read as a channel: two digits, or a plus sign and one. -/
structure Pair (a b : Char) : Prop where
  first : a = '+' ∨ isHexDigit a = true
  second : isHexDigit b = true

theorem pair_of_digits {a b : Char} (ha : isHexDigit a = true) (hb : isHexDigit b = true) :
    Pair a b :=
  ⟨.inr ha, hb⟩

theorem Pair.digits {a b : Char} (h : Pair a b) (plain : a ≠ '+') :
    isHexDigit a = true ∧ isHexDigit b = true :=
  ⟨h.first.resolve_left plain, h.second⟩

/-- The value of the first of a pair. -/
theorem hexDigit_unsigned {c : Char} (h : c = '+' ∨ isHexDigit c = true) :
    hexValue c < 16 ∧ hexDigit (hexValue c) = (unsigned c).toLower := by
  obtain rfl | h := h
  · decide
  · rw [unsigned_of_isHexDigit h]
    exact Text.hexDigit_hexValue h

theorem isSome_channel?_iff {a b : Char} : (channel? a b).isSome ↔ Pair a b := by
  rw [channel?, Option.isSome_ite]
  exact ⟨fun ⟨ha, hb⟩ => ⟨ha, hb⟩, fun ⟨ha, hb⟩ => ⟨ha, hb⟩⟩

/-- The channel that two characters write is the one that is written as they are, in small letters
and with a zero for a plus sign. -/
theorem channel?_eq_some_iff {a b : Char} {x : UInt8} :
    channel? a b = some x ↔
      Pair a b ∧ hexDigits 2 x.toNat = [(unsigned a).toLower, (unsigned b).toLower] := by
  by_cases pair : Pair a b
  · obtain ⟨high, first⟩ := hexDigit_unsigned pair.first
    obtain ⟨low, second⟩ := hexDigit_unsigned (.inr pair.second)
    have small : 16 * hexValue a + hexValue b < 256 := by omega
    rw [channel?, if_pos ⟨pair.first, pair.second⟩, Option.some.injEq, and_iff_right pair, ← first,
      ← second, Text.hexDigits_two_eq_iff x.toNat_lt high low, ← UInt8.toNat_inj, Nat.toUInt8_eq,
      UInt8.toNat_ofNat_of_lt' small, eq_comm]
  · exact iff_of_false (fun h => pair (isSome_channel?_iff.mp (Option.isSome_of_eq_some h)))
      (fun h => pair h.1)

/-- The digits of a channel are read as that channel. -/
theorem channel?_hexDigits (x : UInt8) :
    channel? (hexDigit (x.toNat / 16 % 16)) (hexDigit (x.toNat % 16)) = some x := by
  obtain ⟨high, -, highSmall⟩ := Text.hexDigit_spec _ (Nat.mod_lt (x.toNat / 16) (by decide))
  obtain ⟨low, -, lowSmall⟩ := Text.hexDigit_spec _ (Nat.mod_lt x.toNat (by decide))
  refine channel?_eq_some_iff.mpr ⟨pair_of_digits high low, ?_⟩
  rw [unsigned_of_isHexDigit high, unsigned_of_isHexDigit low, highSmall, lowSmall,
    Text.hexDigits_two]

/-- A mark and six hexadecimal digits. -/
def SixDigits (s : String) : Prop :=
  ∃ digits, s.toList = '#' :: digits ∧ digits.length = 6 ∧ ∀ d ∈ digits, isHexDigit d = true

/-- A mark and three pairs that are read as channels. -/
def ThreePairs (s : String) : Prop :=
  ∃ a b c d e f, s.toList = ['#', a, b, c, d, e, f] ∧ Pair a b ∧ Pair c d ∧ Pair e f

/-- No text but one with a plus sign is read that is not a mark and six digits. -/
theorem sixDigits_iff {s : String} : SixDigits s ↔ ThreePairs s ∧ '+' ∉ s.toList := by
  constructor
  · rintro ⟨digits, hs, length, hex⟩
    have none : '+' ∉ s.toList := by
      rw [hs, List.mem_cons, not_or]
      exact ⟨by decide, fun plus => absurd (hex '+' plus) (by decide)⟩
    match digits, length with
    | [a, b, c, d, e, f], _ =>
      simp only [List.forall_mem_cons] at hex
      obtain ⟨ha, hb, hc, hd, he, hf, -⟩ := hex
      exact ⟨⟨a, b, c, d, e, f, hs, pair_of_digits ha hb, pair_of_digits hc hd,
        pair_of_digits he hf⟩, none⟩
  · rintro ⟨⟨a, b, c, d, e, f, hs, first, second, third⟩, none⟩
    have other {x : Char} (hx : x ∈ s.toList) : x ≠ '+' := fun plus => none (plus ▸ hx)
    obtain ⟨ha, hb⟩ := first.digits (other (by simp [hs]))
    obtain ⟨hc, hd⟩ := second.digits (other (by simp [hs]))
    obtain ⟨he, hf⟩ := third.digits (other (by simp [hs]))
    exact ⟨_, hs, rfl, by simp [ha, hb, hc, hd, he, hf]⟩

/-- A text with a zero for each plus sign and in small letters. -/
def plainForm (s : String) : String :=
  Text.asciiLower (String.ofList (s.toList.map unsigned))

theorem plainForm_eq_asciiLower_iff {s : String} :
    plainForm s = Text.asciiLower s ↔ '+' ∉ s.toList := by
  rw [plainForm, Text.asciiLower, Text.asciiLower, String.toList_ofList, List.map_map,
    String.ofList_inj, List.map_inj_left]
  constructor
  · intro same plus
    exact absurd (same '+' plus) (by decide)
  · intro none x hx
    have other : x ≠ '+' := fun plus => none (plus ▸ hx)
    rw [Function.comp_apply, unsigned, if_neg other]

section

variable {s : String} {a b c d e f : Char}

theorem exists_toList (h : (ofHex? s).isSome) :
    ∃ a b c d e f, s.toList = ['#', a, b, c, d, e, f] := by
  unfold ofHex? at h
  split at h
  next a b c d e f hs => exact ⟨a, b, c, d, e, f, hs⟩
  next => cases h

theorem ofHex?_of_toList (h : s.toList = ['#', a, b, c, d, e, f]) (x : Rgb) :
    ofHex? s = some x ↔
      channel? a b = some x.red ∧ channel? c d = some x.green ∧ channel? e f = some x.blue := by
  obtain ⟨red, green, blue⟩ := x
  simp only [ofHex?, h, Option.bind_eq_bind, Option.bind_eq_some_iff, Option.some.injEq,
    Rgb.mk.injEq]
  constructor
  · rintro ⟨_, hr, _, hg, _, hb, rfl, rfl, rfl⟩
    exact ⟨hr, hg, hb⟩
  · rintro ⟨hr, hg, hb⟩
    exact ⟨red, hr, green, hg, blue, hb, rfl, rfl, rfl⟩

theorem hex_eq_plainForm_iff (h : s.toList = ['#', a, b, c, d, e, f]) (x : Rgb) :
    x.hex = plainForm s ↔
      hexDigits 2 x.red.toNat = [(unsigned a).toLower, (unsigned b).toLower] ∧
      hexDigits 2 x.green.toNat = [(unsigned c).toLower, (unsigned d).toLower] ∧
      hexDigits 2 x.blue.toNat = [(unsigned e).toLower, (unsigned f).toLower] := by
  have mark : (unsigned '#').toLower = '#' := by decide
  rw [hex, plainForm, Text.asciiLower, String.ofList_inj]
  simp [h, mark, Text.hexDigits_two, and_assoc]

end

/-- A text is read as a colour when each pair can be read, and as the colour that is written with
the same digits. -/
theorem ofHex?_eq_some_iff {s : String} {x : Rgb} :
    ofHex? s = some x ↔ ThreePairs s ∧ x.hex = plainForm s := by
  constructor
  · intro h
    obtain ⟨a, b, c, d, e, f, hs⟩ := exists_toList (Option.isSome_of_eq_some h)
    simp only [ofHex?_of_toList hs, channel?_eq_some_iff] at h
    obtain ⟨⟨first, red⟩, ⟨second, green⟩, third, blue⟩ := h
    exact ⟨⟨a, b, c, d, e, f, hs, first, second, third⟩,
      (hex_eq_plainForm_iff hs x).mpr ⟨red, green, blue⟩⟩
  · rintro ⟨⟨a, b, c, d, e, f, hs, first, second, third⟩, same⟩
    obtain ⟨red, green, blue⟩ := (hex_eq_plainForm_iff hs x).mp same
    simp only [ofHex?_of_toList hs, channel?_eq_some_iff]
    exact ⟨⟨first, red⟩, ⟨second, green⟩, third, blue⟩

theorem isSome_ofHex?_iff {s : String} : (ofHex? s).isSome ↔ ThreePairs s := by
  constructor
  · intro h
    obtain ⟨x, hx⟩ := Option.isSome_iff_exists.mp h
    exact (ofHex?_eq_some_iff.mp hx).1
  · rintro ⟨a, b, c, d, e, f, hs, first, second, third⟩
    obtain ⟨red, hr⟩ := Option.isSome_iff_exists.mp (isSome_channel?_iff.mpr first)
    obtain ⟨green, hg⟩ := Option.isSome_iff_exists.mp (isSome_channel?_iff.mpr second)
    obtain ⟨blue, hb⟩ := Option.isSome_iff_exists.mp (isSome_channel?_iff.mpr third)
    exact Option.isSome_of_eq_some ((ofHex?_of_toList hs ⟨red, green, blue⟩).mpr ⟨hr, hg, hb⟩)

/-- A colour is read back from its written form. -/
theorem ofHex?_hex (x : Rgb) : ofHex? x.hex = some x := by
  have digits : x.hex.toList = _ := String.toList_ofList
  simp only [List.flatMap_cons, List.flatMap_nil, Text.hexDigits_two, List.cons_append,
    List.nil_append] at digits
  exact (ofHex?_of_toList digits x).mpr
    ⟨channel?_hexDigits x.red, channel?_hexDigits x.green, channel?_hexDigits x.blue⟩

/-- A text is read when its pairs can be, as the colour that is written with the same digits and a
zero for a plus sign. So a mark and six digits are read, and written back in small letters; and they
are all that is read unless there is a plus sign. The written form of a colour is read as the
colour. -/
theorem ofHex?_iff_digits_unless_plus (s : String) :
    (∀ x, ofHex? s = some x ↔ ThreePairs s ∧ x.hex = plainForm s) ∧
    (SixDigits s ↔ ∃ x, ofHex? s = some x ∧ x.hex = Text.asciiLower s) ∧
    (((ofHex? s).isSome ↔ SixDigits s) ↔ ¬(ThreePairs s ∧ '+' ∈ s.toList)) ∧
    ∀ x : Rgb, ofHex? x.hex = some x := by
  refine ⟨fun x => ofHex?_eq_some_iff, ?_, ?_, ofHex?_hex⟩
  · rw [sixDigits_iff]
    constructor
    · rintro ⟨pairs, none⟩
      obtain ⟨x, hx⟩ := Option.isSome_iff_exists.mp (isSome_ofHex?_iff.mpr pairs)
      refine ⟨x, hx, ?_⟩
      rw [(ofHex?_eq_some_iff.mp hx).2, plainForm_eq_asciiLower_iff.mpr none]
    · rintro ⟨x, hx, small⟩
      obtain ⟨pairs, plain⟩ := ofHex?_eq_some_iff.mp hx
      exact ⟨pairs, plainForm_eq_asciiLower_iff.mp (plain.symm.trans small)⟩
  · rw [isSome_ofHex?_iff, sixDigits_iff, iff_self_and, not_and]

/-- A plus sign stands in the place of a digit. -/
theorem plus_for_digit :
    ofHex? "#+f0000" = some ⟨15, 0, 0⟩ ∧
    (⟨15, 0, 0⟩ : Rgb).hex = "#0f0000" ∧
    ¬SixDigits "#+f0000" ∧
    ¬∀ s, (ofHex? s).isSome ↔ SixDigits s := by
  have read : ofHex? "#+f0000" = some ⟨15, 0, 0⟩ := by decide
  have signed : ¬SixDigits "#+f0000" := fun h => (sixDigits_iff.mp h).2 (by decide)
  exact ⟨read, by decide, signed, fun all =>
    signed ((all "#+f0000").mp (Option.isSome_of_eq_some read))⟩

end Wireframe.Design.Rgb
