import Wireframe.Identifier

/-!
# Legal ids

What makes a text an id, and where ids come from: the words of any text (`valid_sanitize?`), the
names of kinds (`valid_idPrefix`), and ids with a number behind them (`Valid.append`).
-/

namespace Wireframe.Identifier

/-- Whether a text is an id: it is not empty, has no characters but ASCII letters, digits, `_` and
`-`, and does not begin with a digit. -/
structure Valid (id : String) : Prop where
  nonempty : id ≠ ""
  legal : ∀ c ∈ id.toList, legal c = true
  begins : ∀ c ∈ id.toList.head?, c.isDigit = false

theorem legal_of_isDigit {c : Char} (h : c.isDigit = true) : legal c = true := by
  simp [legal, Char.isAlphanum, h]

theorem valid_ofList {c : Char} {cs : List Char} (hc : c.isDigit = false)
    (h : ∀ d ∈ c :: cs, legal d = true) : Valid (String.ofList (c :: cs)) where
  nonempty := by
    intro he
    have := congrArg String.toList he
    simp at this
  legal := by simpa using h
  begins := by simpa using hc

/-- The same by evaluation, for texts that are given. -/
theorem valid_of_all {id : String} (hl : id.toList.all Identifier.legal = true)
    (hb : id.toList.head?.any (!Char.isDigit ·) = true) : Valid id where
  nonempty := by
    rintro rfl
    cases hb
  legal := List.all_eq_true.mp hl
  begins := by
    intro c hc
    rw [Option.mem_def] at hc
    simpa [hc] using hb

theorem Valid.exists_toList {id : String} (h : Valid id) :
    ∃ c cs, id.toList = c :: cs ∧ c.isDigit = false := by
  obtain ⟨c, cs, hid⟩ := List.exists_cons_of_ne_nil (show id.toList ≠ [] by simpa using h.nonempty)
  exact ⟨c, cs, hid, h.begins c (by rw [hid]; rfl)⟩

/-- An id stays one when legal characters are put behind it. -/
theorem Valid.append {id suffix : String} (h : Valid id)
    (hs : suffix.toList.all Identifier.legal = true) : Valid (id ++ suffix) := by
  obtain ⟨c, cs, hid, begins⟩ := h.exists_toList
  have whole : id ++ suffix = String.ofList (c :: (cs ++ suffix.toList)) := by
    rw [← List.cons_append, ← hid, String.ofList_append, String.ofList_toList,
      String.ofList_toList]
  rw [whole]
  refine valid_ofList begins ?_
  rw [← List.cons_append, ← hid]
  exact List.forall_mem_append.mpr ⟨h.legal, List.all_eq_true.mp hs⟩

theorem legal_toString (n : Nat) : (toString n).toList.all legal = true := by
  rw [List.all_eq_true]
  intro c hc
  rw [Nat.toString_eq_repr, Nat.toList_repr] at hc
  exact legal_of_isDigit (Nat.isDigit_of_mem_toDigits (by decide) (by decide) hc)

/-- An id with a mark and a number behind it. -/
theorem Valid.numbered {id mark : String} (h : Valid id)
    (hm : mark.toList.all Identifier.legal = true) (n : Nat) :
    Valid (id ++ mark ++ toString n) :=
  (h.append hm).append (legal_toString n)

theorem valid_idPrefix (kind : Kind) : Valid kind.idPrefix := by
  cases kind <;> exact valid_of_all (by decide) (by decide)

theorem legal_intercalate {words : List (List Char)}
    (h : ∀ word ∈ words, ∀ c ∈ word, legal c = true) :
    ∀ c ∈ ['-'].intercalate words, legal c = true := by
  induction words with
  | nil => simp
  | cons word words ih =>
    obtain ⟨here, more⟩ := List.forall_mem_cons.mp h
    cases words with
    | nil =>
      rw [List.intercalate_singleton]
      exact here
    | cons next words =>
      rw [List.intercalate_cons_cons]
      have dash : ∀ c ∈ ['-'], legal c = true := List.forall_mem_singleton.mpr rfl
      exact List.forall_mem_append.mpr ⟨List.forall_mem_append.mpr ⟨here, dash⟩, ih more⟩

/-- What is found in a written text is an id. -/
theorem valid_sanitize? {written id : String} (h : sanitize? written = some id) : Valid id := by
  have characters : ∀ c ∈ ['-'].intercalate
      (((splitWhere Text.isBlank written.toList).map (·.filter legal)).filter (· ≠ [])),
      legal c = true := by
    refine legal_intercalate fun word hword c hc => ?_
    obtain ⟨part, -, rfl⟩ := List.mem_map.mp (List.mem_filter.mp hword).1
    exact (List.mem_filter.mp hc).2
  unfold sanitize? at h
  dsimp only at h
  split at h
  · cases h
  next c cs hcs =>
    rw [hcs] at characters
    cases hd : c.isDigit with
    | true =>
      have fronted : "id-" ++ String.ofList (c :: cs) = id := by simpa [hd] using h
      rw [← fronted]
      have front : Valid "id-" := valid_of_all (by decide) (by decide)
      exact front.append (by simpa using characters)
    | false =>
      have plain : String.ofList (c :: cs) = id := by simpa [hd] using h
      rw [← plain]
      exact valid_ofList hd characters

end Wireframe.Identifier
