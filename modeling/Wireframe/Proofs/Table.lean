import Wireframe.Table

/-!
# Tables and their values

A table is known by the values of its keys (`ext_get?`), so setting its own entries again, in a
table that has no other keys, gives it back (`insertAll_entries`). `assign` sets or leaves out one
key; assignments of different keys may change places.
-/

namespace Wireframe.Table

variable {α : Type}

theorem lookup_eq_none_of_lt {k : String} {es : List (String × α)} (h : ∀ e ∈ es, k < e.1) :
    es.lookup k = none := by
  induction es with
  | nil => rfl
  | cons e es ih =>
    obtain ⟨here, more⟩ := List.forall_mem_cons.mp h
    have other : k ≠ e.1 := fun he => String.lt_irrefl k (he ▸ here)
    rw [lookup_cons, if_neg other, ih more]

/-- The key that comes first in one of two lists with the same values does not come later in the
other. -/
theorem not_lt_of_lookup_eq {k k' : String} {v v' : α} {es fs : List (String × α)}
    (hfs : ∀ e ∈ fs, k' < e.1)
    (h : ((k, v) :: es).lookup k = ((k', v') :: fs).lookup k) : ¬k < k' := by
  intro lt
  have absent : ((k', v') :: fs).lookup k = none :=
    lookup_eq_none_of_lt (List.forall_mem_cons.mpr
      ⟨lt, fun e he => String.lt_trans lt (hfs e he)⟩)
  rw [absent, lookup_cons, if_pos rfl] at h
  cases h

theorem entries_eq_of_lookup_eq {es fs : List (String × α)}
    (hes : es.Pairwise fun a b => a.1 < b.1) (hfs : fs.Pairwise fun a b => a.1 < b.1)
    (h : ∀ k, es.lookup k = fs.lookup k) : es = fs := by
  induction es generalizing fs with
  | nil =>
    cases fs with
    | nil => rfl
    | cons f fs =>
      have first := h f.1
      rw [lookup_cons, if_pos rfl] at first
      cases first
  | cons e es ih =>
    cases fs with
    | nil =>
      have first := h e.1
      rw [lookup_cons, if_pos rfl] at first
      cases first
    | cons f fs =>
      obtain ⟨k, v⟩ := e
      obtain ⟨k', v'⟩ := f
      obtain ⟨below, sorted⟩ := List.pairwise_cons.mp hes
      obtain ⟨below', sorted'⟩ := List.pairwise_cons.mp hfs
      have key : k = k' := String.le_antisymm
        (not_lt_of_lookup_eq below (h k').symm) (not_lt_of_lookup_eq below' (h k))
      subst key
      have value := h k
      rw [lookup_cons, lookup_cons, if_pos rfl, if_pos rfl] at value
      cases value
      rw [ih sorted sorted' fun x => ?_]
      by_cases hx : x = k
      · rw [hx, lookup_eq_none_of_lt below, lookup_eq_none_of_lt below']
      · have later := h x
        rwa [lookup_cons, lookup_cons, if_neg hx, if_neg hx] at later

/-- Tables with the same values are equal. -/
theorem ext_get? {s t : Table α} (h : ∀ k, s.get? k = t.get? k) : s = t := by
  obtain ⟨es, hes⟩ := s
  obtain ⟨fs, hfs⟩ := t
  have entries : es = fs := entries_eq_of_lookup_eq hes hfs h
  subst entries
  rfl

/-- Entries that are set in increasing order of their keys go before what was there. -/
theorem get?_insertAll (s : Table α) {es : List (String × α)}
    (hes : es.Pairwise fun a b => a.1 < b.1) (k : String) :
    (s.insertAll es).get? k = (es.lookup k).or (s.get? k) := by
  induction es generalizing s with
  | nil => rfl
  | cons e es ih =>
    obtain ⟨below, sorted⟩ := List.pairwise_cons.mp hes
    have more : (s.insertAll (e :: es)).get? k = _ := ih (s.insert e.1 e.2) sorted
    rw [more, get?_insert, lookup_cons]
    by_cases hk : k = e.1
    · rw [if_pos hk, if_pos hk, hk, lookup_eq_none_of_lt below]
      rfl
    · rw [if_neg hk, if_neg hk]

theorem insertAll_append (t : Table α) (es fs : List (String × α)) :
    t.insertAll (es ++ fs) = (t.insertAll es).insertAll fs :=
  List.foldl_append

/-- The last value that is listed for a key. -/
def last? (es : List (String × α)) (k : String) : Option α :=
  (es.filter (·.1 = k)).getLast?.map (·.2)

/-- Of entries that are set in turn the last one of a key stays. -/
theorem get?_insertAll_last? (s : Table α) (es : List (String × α)) (k : String) :
    (s.insertAll es).get? k = (last? es k).or (s.get? k) := by
  induction es generalizing s with
  | nil => rfl
  | cons e es ih =>
    have more : (s.insertAll (e :: es)).get? k = _ := ih (s.insert e.1 e.2)
    rw [more, get?_insert, last?, last?]
    by_cases hk : e.1 = k
    · rw [List.filter_cons_of_pos (by simp [hk]), List.getLast?_cons, if_pos hk.symm]
      cases (es.filter (·.1 = k)).getLast? <;> rfl
    · rw [List.filter_cons_of_neg (by simp [hk]), if_neg (Ne.symm hk)]

theorem isSome_last?_iff {es : List (String × α)} {k : String} :
    (last? es k).isSome ↔ k ∈ es.map (·.1) := by
  simp [last?]

/-- Of entries with different keys each stays. -/
theorem get?_insertAll_of_mem (s : Table α) {es : List (String × α)} {k : String} {v : α}
    (once : (es.map (·.1)).Nodup) (h : (k, v) ∈ es) : (s.insertAll es).get? k = some v := by
  induction es generalizing s with
  | nil => cases h
  | cons e es ih =>
    rw [List.map_cons, List.nodup_cons] at once
    obtain rfl | more := List.mem_cons.mp h
    · have none : last? es k = none :=
        Option.not_isSome_iff_eq_none.mp fun there => once.1 (isSome_last?_iff.mp there)
      have rest : (s.insertAll ((k, v) :: es)).get? k = _ := get?_insertAll_last? (s.insert k v) es k
      rw [rest, none, Option.none_or, get?_insert_self]
    · exact ih (s.insert e.1 e.2) once.2 more

/-- Lists of entries that share no key may be set in either order. -/
theorem insertAll_comm (t : Table α) {es fs : List (String × α)}
    (h : ∀ k ∈ es.map (·.1), k ∉ fs.map (·.1)) :
    (t.insertAll es).insertAll fs = (t.insertAll fs).insertAll es := by
  refine ext_get? fun k => ?_
  rw [get?_insertAll_last?, get?_insertAll_last?, get?_insertAll_last?, get?_insertAll_last?]
  cases first : last? es k with
  | none => rw [Option.none_or, Option.none_or]
  | some v =>
    have listed : k ∈ es.map (·.1) := isSome_last?_iff.mp (by rw [first]; rfl)
    have absent : last? fs k = none :=
      Option.not_isSome_iff_eq_none.mp fun there => h k listed (isSome_last?_iff.mp there)
    rw [absent, Option.none_or, Option.none_or]

/-- Where lists of entries follow each other only the entries of the key count. -/
theorem last?_flatMap {β : Type} (f : β → List (String × α)) (xs : List β) (k : String) :
    last? (xs.flatMap f) k =
      (xs.flatMap fun x => (f x).filter (·.1 = k)).getLast?.map (·.2) := by
  rw [last?, List.filter_flatMap]

theorem get?_insert_eq_none_iff {t : Table α} {k k' : String} {v : α} :
    (t.insert k v).get? k' = none ↔ t.get? k' = none ∧ k ≠ k' := by
  rw [get?_insert]
  by_cases hk : k' = k <;> simp [hk, Ne.symm]

theorem get?_insertAll_eq_none_iff (s : Table α) (es : List (String × α)) (k : String) :
    (s.insertAll es).get? k = none ↔ s.get? k = none ∧ ∀ e ∈ es, e.1 ≠ k := by
  induction es generalizing s with
  | nil => exact ⟨fun h => ⟨h, nofun⟩, And.left⟩
  | cons e es ih =>
    have more : (s.insertAll (e :: es)).get? k = none ↔ _ := ih (s.insert e.1 e.2)
    rw [more, List.forall_mem_cons, get?_insert_eq_none_iff, and_assoc]

theorem insertAll_entries {s t : Table α} (h : ∀ k, t.get? k = none → s.get? k = none) :
    s.insertAll t.entries = t := by
  refine ext_get? fun k => ?_
  have set : (s.insertAll t.entries).get? k = (t.get? k).or (s.get? k) :=
    get?_insertAll s t.sorted k
  rw [set]
  cases hk : t.get? k with
  | none => rw [h k hk, Option.or_none]
  | some v => rfl

theorem get?_erase (t : Table α) (k k' : String) :
    (t.erase k).get? k' = if k' = k then none else t.get? k' := by
  obtain ⟨es, h⟩ := t
  simp only [get?, erase]
  clear h
  induction es with
  | nil => simp
  | cons e es ih =>
    by_cases he : e.1 = k
    · rw [List.filter_cons_of_neg (by simp [he]), ih, lookup_cons]
      by_cases hk : k' = k <;> simp [hk, he]
    · rw [List.filter_cons_of_pos (by simp [he]), lookup_cons, lookup_cons, ih]
      by_cases hk : k' = e.1
      · simp [hk, he]
      · simp [hk]

/-- The table with one key put to a value or, without a value, left out. -/
def assign (t : Table α) (k : String) : Option α → Table α
  | some v => t.insert k v
  | none => t.erase k

theorem get?_assign (t : Table α) (k k' : String) (v : Option α) :
    (t.assign k v).get? k' = if k' = k then v else t.get? k' := by
  cases v with
  | some v => exact get?_insert t k k' v
  | none => exact get?_erase t k k'

@[simp] theorem get?_assign_self (t : Table α) (k : String) (v : Option α) :
    (t.assign k v).get? k = v := by
  rw [get?_assign, if_pos rfl]

theorem get?_assign_of_ne (t : Table α) {k k' : String} (v : Option α) (h : k' ≠ k) :
    (t.assign k v).get? k' = t.get? k' := by
  rw [get?_assign, if_neg h]

theorem assign_get? (t : Table α) (k : String) : t.assign k (t.get? k) = t := by
  refine ext_get? fun k' => ?_
  by_cases hk : k' = k
  · rw [hk, get?_assign_self]
  · exact get?_assign_of_ne t _ hk

theorem assign_comm (t : Table α) {k k' : String} (h : k ≠ k') (v v' : Option α) :
    (t.assign k v).assign k' v' = (t.assign k' v').assign k v := by
  refine ext_get? fun x => ?_
  by_cases hx : x = k
  · rw [get?_assign_of_ne _ _ (hx ▸ h), hx, get?_assign_self, get?_assign_self]
  · simp only [get?_assign, if_neg hx]

theorem mem_entries_iff {t : Table α} {k : String} {v : α} :
    (k, v) ∈ t.entries ↔ t.get? k = some v := by
  obtain ⟨es, sorted⟩ := t
  simp only [get?]
  induction es with
  | nil => simp
  | cons e es ih =>
    obtain ⟨below, sorted⟩ := List.pairwise_cons.mp sorted
    rw [List.mem_cons, ih sorted, lookup_cons]
    by_cases hk : k = e.1
    · rw [if_pos hk, hk, lookup_eq_none_of_lt below]
      constructor
      · rintro (h | h)
        · rw [← h]
        · cases h
      · intro h
        cases h
        exact .inl rfl
    · rw [if_neg hk]
      exact ⟨fun h => h.resolve_left fun he => hk (congrArg Prod.fst he), .inr⟩

theorem mem_keys_iff {t : Table α} {k : String} : k ∈ t.keys ↔ (t.get? k).isSome := by
  simp only [keys, List.mem_map, Prod.exists, exists_and_right, exists_eq_right, mem_entries_iff,
    Option.isSome_iff_exists]

theorem mem_values_iff {t : Table α} {v : α} : v ∈ t.values ↔ ∃ k, t.get? k = some v := by
  simp only [values, List.mem_map, Prod.exists, exists_eq_right, mem_entries_iff]

theorem filter_entries (t : Table α) (k : String) :
    t.entries.filter (·.1 = k) = ((t.get? k).map (k, ·)).toList := by
  obtain ⟨es, sorted⟩ := t
  simp only [get?]
  induction es with
  | nil => rfl
  | cons e es ih =>
    obtain ⟨below, sorted⟩ := List.pairwise_cons.mp sorted
    rw [lookup_cons]
    by_cases hk : k = e.1
    · have absent : es.filter (·.1 = k) = [] := by
        rw [ih sorted, hk, lookup_eq_none_of_lt below]
        rfl
      rw [List.filter_cons_of_pos (by simp [hk]), absent, if_pos hk, hk]
      rfl
    · rw [List.filter_cons_of_neg (by simp [Ne.symm hk]), ih sorted, if_neg hk]

section

variable {P : String → α → Prop} {t : Table α}

theorem forall_mem_insert {k : String} {v : α} (h : ∀ e ∈ t.entries, P e.1 e.2) (hv : P k v) :
    ∀ e ∈ (t.insert k v).entries, P e.1 e.2 := by
  intro e he
  rcases mem_putEntry he with rfl | he
  · exact hv
  · exact h e he

theorem forall_mem_insertAll {es : List (String × α)} (h : ∀ e ∈ t.entries, P e.1 e.2)
    (hes : ∀ e ∈ es, P e.1 e.2) : ∀ e ∈ (t.insertAll es).entries, P e.1 e.2 := by
  induction es generalizing t with
  | nil => exact h
  | cons e es ih =>
    obtain ⟨here, more⟩ := List.forall_mem_cons.mp hes
    exact ih (forall_mem_insert h here) more

end

end Wireframe.Table
