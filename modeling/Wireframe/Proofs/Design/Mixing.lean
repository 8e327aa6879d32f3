import Wireframe.Design.Hash

/-!
# What is hashed behind a context

Each step of the hash can be undone: a byte is mixed in by an exclusive or and a product with an odd
number, and a hash is scrambled by a sum, products with odd numbers and exclusive ors of a word with
itself shifted to the right. So contexts with the same session are hashed alike just when their own
hashes are the same (`hashing_loses_nothing`).
-/

namespace Wireframe.Design

/-- A product with a number that has an inverse can be undone. -/
theorem mul_injective {a b : UInt64} (inverse : a * b = 1) :
    Function.Injective fun x : UInt64 => x * a := by
  intro x y h
  calc x
    _ = x * a * b := by rw [UInt64.mul_assoc, inverse, UInt64.mul_one]
    _ = y * a * b := congrArg (· * b) h
    _ = y := by rw [UInt64.mul_assoc, inverse, UInt64.mul_one]

theorem add_injective (a : UInt64) : Function.Injective fun x : UInt64 => x + a :=
  fun _ _ => (UInt64.add_left_inj a).mp

theorem xor_injective (a : UInt64) : Function.Injective fun x : UInt64 => x ^^^ a :=
  fun _ _ => (UInt64.xor_left_inj a).mp

/-- A word with each bit changed by the one `k` places above it. -/
def xorShift (k x : UInt64) : UInt64 :=
  x ^^^ (x >>> k)

theorem testBit_of_le (x : UInt64) {i : Nat} (h : 64 ≤ i) : x.toNat.testBit i = false :=
  Nat.testBit_lt_two_pow (Nat.lt_of_lt_of_le x.toNat_lt (Nat.pow_le_pow_right (by decide) h))

theorem testBit_xorShift {k : UInt64} (h : k.toNat < 64) (x : UInt64) (i : Nat) :
    (xorShift k x).toNat.testBit i = (x.toNat.testBit i ^^ x.toNat.testBit (k.toNat + i)) := by
  rw [xorShift, UInt64.toNat_xor, UInt64.toNat_shiftRight, Nat.mod_eq_of_lt h, Nat.testBit_xor,
    Nat.testBit_shiftRight]

/-- The highest bits stay as they are, and every other bit is known from one above it. -/
theorem xorShift_injective {k : UInt64} (pos : 0 < k.toNat) (h : k.toNat < 64) :
    Function.Injective (xorShift k) := by
  intro x y same
  have below (i : Nat) (above : x.toNat.testBit (k.toNat + i) = y.toNat.testBit (k.toNat + i)) :
      x.toNat.testBit i = y.toNat.testBit i := by
    have bits : (xorShift k x).toNat.testBit i = (xorShift k y).toNat.testBit i := by rw [same]
    rw [testBit_xorShift h, testBit_xorShift h, above] at bits
    exact Bool.xor_left_inj.mp bits
  -- From the highest bit down: `n` bounds how far a bit is below it.
  have all (n : Nat) : ∀ i, 64 ≤ i + n → x.toNat.testBit i = y.toNat.testBit i := by
    induction n with
    | zero =>
      intro i (high : 64 ≤ i)
      rw [testBit_of_le x high, testBit_of_le y high]
    | succ n ih =>
      intro i near
      exact below i (ih (k.toNat + i) (by omega))
  exact UInt64.toNat_inj.mp (Nat.eq_of_testBit_eq fun i => all 64 i (by omega))

theorem mixByte_injective (byte : UInt8) : Function.Injective fun hash => mixByte hash byte :=
  (mul_injective (a := hashPrime) (b := 0xce965057aff6957b) (by decide)).comp
    (xor_injective byte.toUInt64)

theorem mix_injective (bytes : List UInt8) : Function.Injective fun hash => mix hash bytes := by
  induction bytes with
  | nil => exact fun _ _ => id
  | cons byte bytes ih => exact ih.comp (mixByte_injective byte)

theorem scramble_injective : Function.Injective scramble := by
  have first : Function.Injective fun x : UInt64 => xorShift 30 (x + 0x9e3779b97f4a7c15) :=
    (xorShift_injective (by decide) (by decide)).comp (add_injective _)
  have second : Function.Injective fun x : UInt64 => xorShift 27 (x * 0xbf58476d1ce4e5b9) :=
    (xorShift_injective (by decide) (by decide)).comp
      (mul_injective (b := 0x96de1b173f119089) (by decide))
  have third : Function.Injective fun x : UInt64 => xorShift 31 (x * 0x94d049bb133111eb) :=
    (xorShift_injective (by decide) (by decide)).comp
      (mul_injective (b := 0x319642b2d24d8ec3) (by decide))
  exact third.comp (second.comp first)

/-- The bytes that are hashed behind a context. -/
def sessionBytes : Option String → List UInt8
  | none => []
  | some s => separator :: bytesOf s

theorem designHash_eq (context : String) (session : Option String) :
    designHash context session = scramble (mix (textHash context) (sessionBytes session)) := by
  rw [textHash, ← mix_append]
  cases session with
  | none => rw [sessionBytes, List.append_nil, designHash, hashInput]
  | some s => rfl

/-- Mixing in bytes, whichever they are, and scrambling tell all words apart, and mixing in bytes
one part after the other is mixing them in together. So whatever the session, two contexts give the
same design hash just when they have the same hash. -/
theorem hashing_loses_nothing :
    (∀ bytes, Function.Injective fun hash => mix hash bytes) ∧
    Function.Injective scramble ∧
    (∀ hash as bs, mix hash (as ++ bs) = mix (mix hash as) bs) ∧
    ∀ session context context',
      designHash context session = designHash context' session ↔
        textHash context = textHash context' := by
  refine ⟨mix_injective, scramble_injective, mix_append, fun session context context' => ?_⟩
  rw [designHash_eq, designHash_eq]
  exact ⟨fun h => mix_injective (sessionBytes session) (scramble_injective h),
    fun h => by rw [h]⟩

end Wireframe.Design
