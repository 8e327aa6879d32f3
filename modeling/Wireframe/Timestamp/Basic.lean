/-!
# Instants of time

An instant is a second of universal time and the nanoseconds behind its start. The nanoseconds of
a leap second go on behind those of the second before it.
-/

namespace Wireframe

structure Timestamp where
  /-- The seconds since the first of January 1970. -/
  seconds : Int
  nanos : Nat
deriving Repr, DecidableEq, Inhabited

namespace Timestamp

instance : LT Timestamp where
  lt a b := a.seconds < b.seconds ∨ a.seconds = b.seconds ∧ a.nanos < b.nanos

instance : LE Timestamp where
  le a b := a.seconds < b.seconds ∨ a.seconds = b.seconds ∧ a.nanos ≤ b.nanos

theorem lt_def {a b : Timestamp} :
    a < b ↔ a.seconds < b.seconds ∨ a.seconds = b.seconds ∧ a.nanos < b.nanos :=
  Iff.rfl

theorem le_def {a b : Timestamp} :
    a ≤ b ↔ a.seconds < b.seconds ∨ a.seconds = b.seconds ∧ a.nanos ≤ b.nanos :=
  Iff.rfl

instance (a b : Timestamp) : Decidable (a < b) :=
  decidable_of_iff' _ lt_def

instance (a b : Timestamp) : Decidable (a ≤ b) :=
  decidable_of_iff' _ le_def

theorem le_refl (a : Timestamp) : a ≤ a := by
  rw [le_def]; omega

theorem le_of_lt {a b : Timestamp} (h : a < b) : a ≤ b := by
  rw [lt_def] at h; rw [le_def]; omega

theorem lt_irrefl (a : Timestamp) : ¬ a < a := by
  rw [lt_def]; omega

theorem lt_trans {a b c : Timestamp} (h : a < b) (h' : b < c) : a < c := by
  rw [lt_def] at *; omega

theorem le_trans {a b c : Timestamp} (h : a ≤ b) (h' : b ≤ c) : a ≤ c := by
  rw [le_def] at *; omega

theorem not_lt {a b : Timestamp} : ¬ a < b ↔ b ≤ a := by
  rw [lt_def, le_def]; omega

theorem le_antisymm {a b : Timestamp} (h : a ≤ b) (h' : b ≤ a) : a = b := by
  rw [le_def] at *
  obtain ⟨s, n⟩ := a
  obtain ⟨t, m⟩ := b
  simp only [mk.injEq] at *
  omega

theorem lt_or_eq_or_gt (a b : Timestamp) : a < b ∨ a = b ∨ b < a := by
  by_cases lt : a < b
  · exact .inl lt
  · by_cases gt : b < a
    · exact .inr (.inr gt)
    · exact .inr (.inl (le_antisymm (not_lt.mp gt) (not_lt.mp lt)))

end Timestamp

end Wireframe
