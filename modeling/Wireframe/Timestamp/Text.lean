import Wireframe.Decimal.Shortest
import Wireframe.Text.Basic
import Wireframe.Timestamp.Basic
import Wireframe.Timestamp.Calendar

/-!
# Written instants

An instant is written in universal time as `2024-05-01T10:00:00Z`, with three, six or nine digits
behind the seconds where it needs them. Reading is freer: any offset from universal time, a blank
between date and time, numbers without their leading zeros, and blanks around them.
-/

namespace Wireframe.Timestamp

/-- A number with at least so many digits. -/
def padded (width n : Nat) : String :=
  let digits := toString n
  String.ofList (List.replicate (width - digits.length) '0') ++ digits

/-- A year of four digits; one before or behind them takes a sign. -/
def yearText (year : Int) : String :=
  if 0 ≤ year ∧ year ≤ 9999 then padded 4 year.toNat
  else (if year < 0 then "-" else "+") ++ padded 4 year.natAbs

/-- The shortest of no, three, six and nine digits that write a part of a second. -/
def fractionText (nanos : Nat) : String :=
  if nanos = 0 then ""
  else if nanos % 1000000 = 0 then "." ++ padded 3 (nanos / 1000000)
  else if nanos % 1000 = 0 then "." ++ padded 6 (nanos / 1000)
  else "." ++ padded 9 nanos

/-- The nanoseconds of a second. -/
def perSecond : Nat := 1000000000

/-- The seconds of a day. -/
def perDay : Int := 86400

/-- An instant in universal time. -/
def render (t : Timestamp) : String :=
  let date := Date.ofDays (t.seconds / perDay)
  let second := (t.seconds % perDay).toNat
  let inMinute := second % 60 + t.nanos / perSecond
  s!"{yearText date.year}-{padded 2 date.month}-{padded 2 date.day}" ++
    s!"T{padded 2 (second / 3600)}:{padded 2 (second / 60 % 60)}:{padded 2 inMinute}" ++
    fractionText (t.nanos % perSecond) ++ "Z"

/-- Reads something from the start of a text and keeps what follows it. -/
abbrev Scan := StateT (List Char) Option

namespace Scan

def blanks : Scan Unit :=
  modify Text.trimStart

/-- One of the listed characters. -/
def oneOf (accepted : List Char) : Scan Char := do
  match ← get with
  | c :: cs => if c ∈ accepted then do set cs; pure c else failure
  | [] => failure

/-- All digits at the start, but no more than `most`. -/
def digits (most : Nat) : Scan (List Char) := do
  let cs ← get
  let ds := (cs.take most).takeWhile Char.isDigit
  set (cs.drop ds.length)
  pure ds

/-- A number of one digit to `most` digits. -/
def number (most : Nat) : Scan Nat := do
  let ds ← digits most
  if ds = [] then failure else pure (Text.decimalNumber ds)

/-- A number between bounds, behind blanks or none. -/
def field (most lo hi : Nat) : Scan Nat := do
  blanks
  let n ← number most
  if lo ≤ n ∧ n ≤ hi then pure n else failure

/-- A year of up to four digits, or of any number of them behind a sign. -/
def year : Scan Int := do
  blanks
  match ← get with
  | '-' :: cs => do set cs; pure (-(← number cs.length))
  | '+' :: cs => do set cs; pure (← number cs.length)
  | _ => pure (← number 4)

/-- A mark between two numbers, behind blanks or none. -/
def mark (c : Char) : Scan Unit := do
  blanks
  discard (oneOf [c])

/-- Whether instants lie in a year. -/
def inYears (year : Int) : Bool :=
  -262143 ≤ year ∧ year ≤ 262142

/-- A date of the calendar. -/
def date : Scan Date := do
  let y ← year
  mark '-'
  let m ← field 2 1 12
  mark '-'
  let d : Date := ⟨y, m, ← field 2 1 31⟩
  if d.isValid ∧ inYears y then pure d else failure

/-- A part of a second in nanoseconds; digits behind the ninth do not count. -/
def fraction : Scan Nat := do
  match ← get with
  | '.' :: cs =>
    set cs
    let ds ← digits 9
    if ds = [] then failure
    discard (digits cs.length)
    pure (Decimal.scaled (Text.decimalNumber ds) (9 - ds.length))
  | _ => pure 0

/-- The seconds of a day, and the nanoseconds. The second 60 is a leap second. -/
def time : Scan (Int × Nat) := do
  let hour ← field 2 0 23
  mark ':'
  let minute ← field 2 0 59
  mark ':'
  let second ← field 2 0 60
  let nanos ← fraction
  let seconds : Int := hour * 3600 + minute * 60 + min second 59
  pure (seconds, if second = 60 then nanos + perSecond else nanos)

/-- Two digits of a number. -/
def pair : Scan Nat := do
  let ds ← digits 2
  if ds.length = 2 then pure (Text.decimalNumber ds) else failure

/-- An offset from universal time in seconds: its name, or hours and minutes less than a day. -/
def offset : Scan Int := do
  blanks
  let cs ← get
  if (cs.take 3).map Char.toUpper = ['U', 'T', 'C'] then
    set (cs.drop 3)
    pure 0
  else
    match ← oneOf ['Z', 'z', '+', '-', '−'] with
    | 'Z' | 'z' => pure 0
    | sign =>
      let hours ← pair
      modify (·.dropWhile fun c => c = ':' || Text.isBlank c)
      let minutes ← pair
      if hours < 24 ∧ minutes < 60 then
        let seconds : Int := hours * 3600 + minutes * 60
        pure (if sign = '+' then seconds else -seconds)
      else failure

/-- An instant, and blanks behind it or none. -/
def timestamp : Scan Timestamp := do
  let date ← date
  discard (oneOf ['T', 't', ' '])
  let (seconds, nanos) ← time
  let offset ← offset
  blanks
  let t : Timestamp := ⟨date.toDays * perDay + seconds - offset, nanos⟩
  if inYears (Date.ofDays (t.seconds / perDay)).year then pure t else failure

end Scan

/-- The instant that a text writes. -/
def read? (s : String) : Option Timestamp :=
  match Scan.timestamp.run s.toList with
  | some (t, []) => some t
  | _ => none

end Wireframe.Timestamp
