/-!
# Cutting lists at separators

`splitWhere p` cuts a list at every element that satisfies `p`. There is one part more than there
are separators, and none of the parts holds a separator (`not_mem_splitWhere`).
-/

namespace Wireframe

variable {α : Type}

/-- The parts of a list between the elements that satisfy `p`. -/
def splitWhere (p : α → Bool) : List α → List (List α)
  | [] => [[]]
  | a :: as =>
    if p a then [] :: splitWhere p as
    else
      match splitWhere p as with
      | [] => [[a]]
      | part :: parts => (a :: part) :: parts

@[simp] theorem splitWhere_ne_nil (p : α → Bool) (as : List α) : splitWhere p as ≠ [] := by
  cases as with
  | nil => simp [splitWhere]
  | cons a as =>
    simp only [splitWhere]
    split
    · simp
    · split <;> simp

theorem exists_splitWhere (p : α → Bool) (as : List α) :
    ∃ part parts, splitWhere p as = part :: parts :=
  List.exists_cons_of_ne_nil (splitWhere_ne_nil p as)

theorem splitWhere_cons_of_pos {p : α → Bool} {a : α} (ha : p a = true) (as : List α) :
    splitWhere p (a :: as) = [] :: splitWhere p as :=
  if_pos ha

theorem splitWhere_cons_of_neg {p : α → Bool} {a : α} {as part : List α} {parts : List (List α)}
    (ha : p a = false) (h : splitWhere p as = part :: parts) :
    splitWhere p (a :: as) = (a :: part) :: parts := by
  rw [splitWhere, ha, h]
  rfl

/-- Nothing but the separators is left out. -/
theorem flatten_splitWhere (p : α → Bool) (as : List α) :
    (splitWhere p as).flatten = as.filter fun a => !p a := by
  induction as with
  | nil => rfl
  | cons a as ih =>
    obtain ⟨part, parts, more⟩ := exists_splitWhere p as
    cases ha : p a with
    | true => simp [splitWhere_cons_of_pos ha, ha, ih]
    | false =>
      rw [List.filter_cons_of_pos (by simp [ha]), ← ih, splitWhere_cons_of_neg ha more, more]
      rfl

theorem mem_of_mem_splitWhere {p : α → Bool} {as part : List α} (h : part ∈ splitWhere p as)
    {a : α} (ha : a ∈ part) : a ∈ as ∧ p a = false := by
  have kept := List.mem_flatten_of_mem h ha
  rw [flatten_splitWhere, List.mem_filter] at kept
  exact ⟨kept.1, by simpa using kept.2⟩

theorem not_mem_splitWhere {p : α → Bool} {as part : List α} (h : part ∈ splitWhere p as)
    {a : α} (ha : a ∈ part) : p a = false :=
  (mem_of_mem_splitWhere h ha).2

/-- A list without separators is one part. -/
theorem splitWhere_of_not_mem {p : α → Bool} {as : List α} (h : ∀ a ∈ as, p a = false) :
    splitWhere p as = [as] := by
  induction as with
  | nil => rfl
  | cons a as ih =>
    obtain ⟨ha, more⟩ := List.forall_mem_cons.mp h
    exact splitWhere_cons_of_neg ha (ih more)

theorem splitWhere_append {p : α → Bool} {sep : α} (hs : p sep = true) (as bs : List α) :
    splitWhere p (as ++ sep :: bs) = splitWhere p as ++ splitWhere p bs := by
  induction as with
  | nil => simp [splitWhere, hs]
  | cons a as ih =>
    rw [List.cons_append, splitWhere, splitWhere, ih]
    split
    · rfl
    · obtain ⟨part, parts, hp⟩ := exists_splitWhere p as
      rw [hp]
      rfl

/-- Parts without separators that are put together with a separator between them are found
again. -/
theorem splitWhere_intercalate {p : α → Bool} {sep : α} (hs : p sep = true)
    {parts : List (List α)} (hne : parts ≠ []) (h : ∀ part ∈ parts, ∀ a ∈ part, p a = false) :
    splitWhere p ([sep].intercalate parts) = parts := by
  induction parts with
  | nil => exact absurd rfl hne
  | cons part parts ih =>
    obtain ⟨hp, more⟩ := List.forall_mem_cons.mp h
    match parts with
    | [] => simpa [List.intercalate] using splitWhere_of_not_mem hp
    | next :: parts =>
      have joined : [sep].intercalate (part :: next :: parts) =
          part ++ sep :: [sep].intercalate (next :: parts) := by
        simp [List.intercalate]
      rw [joined, splitWhere_append hs, splitWhere_of_not_mem hp, ih (by simp) more]
      rfl

end Wireframe
