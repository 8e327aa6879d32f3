/-!
# Hashes of contexts

A context and the session it belongs to are hashed byte by byte and then scrambled, so that every
slice of the hash depends on every byte of the input. The session is set off from the context by a
byte of its own. The hash selects the categories of a design; it is no cryptographic hash.
-/

namespace Wireframe.Design

/-- The hash of no bytes. -/
def hashBasis : UInt64 := 0xcbf29ce484222325

/-- What a hash is multiplied by for every byte. -/
def hashPrime : UInt64 := 0x00000100000001b3

/-- The hash with one more byte. -/
def mixByte (hash : UInt64) (byte : UInt8) : UInt64 :=
  (hash ^^^ byte.toUInt64) * hashPrime

/-- The hash with more bytes. -/
def mix (hash : UInt64) (bytes : List UInt8) : UInt64 :=
  bytes.foldl mixByte hash

@[simp] theorem mix_nil (hash : UInt64) : mix hash [] = hash := rfl

theorem mix_append (hash : UInt64) (as bs : List UInt8) :
    mix hash (as ++ bs) = mix (mix hash as) bs :=
  List.foldl_append

/-- The bytes of a text. -/
def bytesOf (s : String) : List UInt8 :=
  s.toUTF8.data.toList

/-- The hash of a text. -/
def textHash (s : String) : UInt64 :=
  mix hashBasis (bytesOf s)

/-- Spreads every bit of a word over all of it. -/
def scramble (x : UInt64) : UInt64 :=
  let x := x + 0x9e3779b97f4a7c15
  let x := (x ^^^ (x >>> 30)) * 0xbf58476d1ce4e5b9
  let x := (x ^^^ (x >>> 27)) * 0x94d049bb133111eb
  x ^^^ (x >>> 31)

/-- The byte between a context and a session. -/
def separator : UInt8 := 0x1f

/-- The bytes that are hashed for a context and the session it belongs to, if any. -/
def hashInput (context : String) (session : Option String) : List UInt8 :=
  match session with
  | none => bytesOf context
  | some s => bytesOf context ++ separator :: bytesOf s

/-- The hash that a design is selected by. -/
def designHash (context : String) (session : Option String) : UInt64 :=
  scramble (mix hashBasis (hashInput context session))

/-- `len` bits of a word from bit `start` on, for numbers below 64. -/
def bitSlice (hash : UInt64) (start len : UInt64) : UInt64 :=
  (hash >>> start) &&& ((1 <<< len) - 1)

end Wireframe.Design
