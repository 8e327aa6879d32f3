import Std.Data.TreeSet
import Wireframe.Kind
import Wireframe.Split

/-!
# Ids of components

An id is made of ASCII letters, digits, `_` and `-` and does not begin with a digit;
`Identifier.sanitize?` makes one of a text. An `Allocator` hands out the ids of one document so
that no two components get the same one: ids that are written are reserved before any is handed
out, and made-up ids and renamed ones take the least number that is free.
-/

namespace Wireframe.Identifier

/-- The characters of ids. -/
def legal (c : Char) : Bool :=
  c.isAlphanum || c = '_' || c = '-'

/-- The id in a text: its words, cleared of all characters that are not legal and joined by
dashes. None when nothing legal is left. -/
def sanitize? (written : String) : Option String :=
  let words := (splitWhere Text.isBlank written.toList).map (·.filter legal)
  match ['-'].intercalate (words.filter (· ≠ [])) with
  | [] => none
  | c :: cs => some (if c.isDigit then "id-" ++ String.ofList (c :: cs) else String.ofList (c :: cs))

/-- The least number from `k` on whose name is not among the taken ones. -/
def leastFree (name : Nat → String) (taken : Std.TreeSet String) (k : Nat) : Nat :=
  if _h : taken.contains (name k) then leastFree name (taken.erase (name k)) (k + 1) else k
termination_by taken.size
decreasing_by
  have nonempty := Std.TreeSet.isEmpty_eq_false_of_contains _h
  rw [Std.TreeSet.isEmpty_eq_size_eq_zero, beq_eq_false_iff_ne] at nonempty
  rw [Std.TreeSet.size_erase, if_pos _h]
  omega

structure Allocator where
  /-- The ids that are handed out. -/
  used : Std.TreeSet String
  /-- The ids that are handed out or reserved. -/
  taken : Std.TreeSet String
  /-- The last number that was made up for a kind. -/
  counters : List (Kind × Nat)

/-- What becomes of a written id. -/
inductive Claim where
  | granted (id : String)
  | renamed (requested granted : String)
deriving Repr, DecidableEq

namespace Allocator

/-- Nothing is handed out or reserved. -/
def empty : Allocator := ⟨∅, ∅, []⟩

/-- Keeps an id from being made up. -/
def reserve (a : Allocator) (id : String) : Allocator :=
  { a with taken := a.taken.insert id }

/-- Hands out an id. -/
def use (a : Allocator) (id : String) : Allocator :=
  { a with used := a.used.insert id, taken := a.taken.insert id }

/-- Hands out a written id, with a number from two on behind it when it is handed out already. -/
def claim (a : Allocator) (id : String) : Claim × Allocator :=
  if a.used.contains id then
    let numbered := fun n => s!"{id}-{n}"
    let granted := numbered (leastFree numbered a.taken 2)
    (.renamed id granted, a.use granted)
  else (.granted id, a.use id)

/-- The last number that was made up for a kind; zero before the first. -/
def counter (a : Allocator) (kind : Kind) : Nat :=
  (a.counters.lookup kind).getD 0

/-- Hands out an id that is made up of the name of a kind and the next free number. -/
def generate (a : Allocator) (kind : Kind) : String × Allocator :=
  let numbered := fun n => s!"{kind.idPrefix}_{n}"
  let n := leastFree numbered a.taken (a.counter kind + 1)
  let counters := (kind, n) :: a.counters.filter (·.1 ≠ kind)
  (numbered n, { a.use (numbered n) with counters })

end Allocator

end Wireframe.Identifier
