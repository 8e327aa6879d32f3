import Wireframe.Design.Hash

/-!
# What is hashed for a context and its session

The bytes that are hashed are those of one text, in which the separator stands between the context
and the session (`hashInput_eq`). A context that holds no separator is told from its session by the
first one. But texts may hold it, and nothing escapes it: two pairs are hashed alike just when one
context goes on behind a separator at which the other ends (`hashed_alike_iff`), and there are such
pairs (`separator_ambiguous`).
-/

namespace Wireframe.Design

theorem bytesOf_append (s t : String) : bytesOf (s ++ t) = bytesOf s ++ bytesOf t := by
  simp [bytesOf]

theorem bytesOf_inj {s t : String} : bytesOf s = bytesOf t ↔ s = t := by
  rw [bytesOf, bytesOf, Array.toList_inj, ← ByteArray.ext_iff]
  exact String.toByteArray_inj

/-- The separator as a character. -/
def separatorChar : Char := '\x1f'

theorem bytesOf_separatorChar : bytesOf (String.singleton separatorChar) = [separator] := by
  decide

/-- Context and session as one text. -/
def joined (context : String) : Option String → String
  | none => context
  | some s => context ++ String.singleton separatorChar ++ s

theorem hashInput_eq (context : String) (session : Option String) :
    hashInput context session = bytesOf (joined context session) := by
  cases session with
  | none => rfl
  | some s =>
    rw [hashInput, joined, bytesOf_append, bytesOf_append, bytesOf_separatorChar,
      List.append_assoc, List.singleton_append]

/-- The first pair has a longer context: it goes on behind a separator at which the context of the
second pair ends, and what is left of the first pair there is the session of the second. -/
def GoesOn (c : String) (s : Option String) (c' : String) (s' : Option String) : Prop :=
  ∃ more, c = c' ++ String.singleton separatorChar ++ more ∧ s' = some (joined more s)

namespace GoesOn

variable {c c' : String} {s s' : Option String}

theorem joined_eq (h : GoesOn c s c' s') : joined c s = joined c' s' := by
  obtain ⟨more, rfl, rfl⟩ := h
  cases s with
  | none => rfl
  | some t => simp only [joined, String.append_assoc]

theorem mem_separatorChar (h : GoesOn c s c' s') : separatorChar ∈ c.toList := by
  obtain ⟨more, rfl, -⟩ := h
  simp

end GoesOn

/-- Lists that are the same when cut at a separator are cut at the same one, or one of them is cut
at a later one. -/
theorem append_cons_eq_append_cons {α : Type} {sep : α} {xs ys as bs : List α}
    (h : xs ++ sep :: as = ys ++ sep :: bs) :
    (xs = ys ∧ as = bs) ∨ (∃ more, xs = ys ++ sep :: more ∧ bs = more ++ sep :: as) ∨
      ∃ more, ys = xs ++ sep :: more ∧ as = more ++ sep :: bs := by
  rcases List.append_eq_append_iff.mp h with ⟨more, rfl, rest⟩ | ⟨more, rfl, rest⟩
  · cases more with
    | nil => exact .inl ⟨by simp, by simpa using rest⟩
    | cons x more =>
      obtain ⟨rfl, rfl⟩ := List.cons.inj rest
      exact .inr (.inr ⟨more, rfl, rfl⟩)
  · cases more with
    | nil => exact .inl ⟨by simp, by simpa using rest.symm⟩
    | cons x more =>
      obtain ⟨rfl, rfl⟩ := List.cons.inj rest
      exact .inr (.inl ⟨more, rfl, rfl⟩)

theorem goesOn_of_toList {c c' t u : String} {more : List Char}
    (context : c.toList = c'.toList ++ separatorChar :: more)
    (session : u.toList = more ++ separatorChar :: t.toList) : GoesOn c (some t) c' (some u) := by
  refine ⟨String.ofList more, String.toList_inj.mp ?_, congrArg some (String.toList_inj.mp ?_)⟩
  · simp [context]
  · simp [session, joined]

theorem joined_eq_iff {c c' : String} {s s' : Option String} :
    joined c s = joined c' s' ↔ (c = c' ∧ s = s') ∨ GoesOn c s c' s' ∨ GoesOn c' s' c s := by
  constructor
  · intro h
    -- A context alone is cut nowhere, so it goes on behind the separator of the other pair.
    match s, s' with
    | none, none => exact .inl ⟨h, rfl⟩
    | none, some t => exact .inr (.inl ⟨t, h, rfl⟩)
    | some t, none => exact .inr (.inr ⟨t, h.symm, rfl⟩)
    | some t, some u =>
      have lists : c.toList ++ separatorChar :: t.toList =
          c'.toList ++ separatorChar :: u.toList := by
        simpa [joined] using congrArg String.toList h
      rcases append_cons_eq_append_cons lists with ⟨same, rest⟩ | ⟨more, hc, hu⟩ | ⟨more, hc, ht⟩
      · rw [String.toList_inj] at same rest
        exact .inl ⟨same, congrArg some rest⟩
      · exact .inr (.inl (goesOn_of_toList hc hu))
      · exact .inr (.inr (goesOn_of_toList hc ht))
  · rintro (⟨rfl, rfl⟩ | longer | longer)
    · rfl
    · exact longer.joined_eq
    · exact longer.joined_eq.symm

/-- A design is hashed from the bytes of its context, which go on with the separator and the bytes
of the session if there is one. Two pairs give the same bytes just when they are the same or the
context of one goes on behind a separator where the other has its session; so contexts without a
separator are told apart from their sessions. -/
theorem hashed_alike_iff (c c' : String) (s s' : Option String) :
    designHash c s = scramble (mix hashBasis (hashInput c s)) ∧
    mix hashBasis (hashInput c s) =
      s.elim (textHash c) (fun t => mix (mix (textHash c) [separator]) (bytesOf t)) ∧
    (hashInput c s = hashInput c' s' ↔
      (c = c' ∧ s = s') ∨ GoesOn c s c' s' ∨ GoesOn c' s' c s) ∧
    (separatorChar ∉ c.toList → separatorChar ∉ c'.toList →
      hashInput c s = hashInput c' s' → c = c' ∧ s = s') := by
  have alike : hashInput c s = hashInput c' s' ↔
      (c = c' ∧ s = s') ∨ GoesOn c s c' s' ∨ GoesOn c' s' c s := by
    rw [hashInput_eq, hashInput_eq, bytesOf_inj, joined_eq_iff]
  refine ⟨rfl, ?_, alike, fun hc hc' h => ?_⟩
  · cases s with
    | none => rfl
    | some t =>
      rw [Option.elim_some, textHash, ← mix_append, ← mix_append, List.singleton_append, hashInput]
  · rcases alike.mp h with same | longer | longer
    · exact same
    · exact absurd longer.mem_separatorChar hc
    · exact absurd longer.mem_separatorChar hc'

theorem hashed_alike_iff_ab :
    separatorChar ∉ "ab".toList ∧ separatorChar ∉ "a".toList ∧
      hashInput "ab" (some "c") ≠ hashInput "a" (some "bc") := by
  have hab : separatorChar ∉ "ab".toList := by decide
  have ha : separatorChar ∉ "a".toList := by decide
  refine ⟨hab, ha, fun h => ?_⟩
  have same := (hashed_alike_iff "ab" "a" (some "c") (some "bc")).2.2.2 hab ha h
  exact absurd same.1 (by decide)

/-- Pairs of texts that hold the separator may be hashed alike, and so may a pair and a context
alone. -/
theorem separator_ambiguous :
    hashInput "a" (some "b\x1fc") = hashInput "a\x1fb" (some "c") ∧
    hashInput "a" (some "b") = hashInput "a\x1fb" none ∧
    ¬∀ c s c' s', hashInput c s = hashInput c' s' → c = c' ∧ s = s' := by
  have session : hashInput "a" (some "b") = hashInput "a\x1fb" none := by decide
  refine ⟨by decide, session, fun injective => ?_⟩
  exact absurd (injective _ _ _ _ session).1 (by decide)

end Wireframe.Design
