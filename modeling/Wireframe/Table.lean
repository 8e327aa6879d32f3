/-!
# Tables with text keys

A table holds one value for each of finitely many keys, in increasing order of the keys. Since the
order is part of the type, two tables with the same values are equal, and the
listing of a table depends on its contents alone.
-/

namespace Wireframe

structure Table (α : Type) where
  entries : List (String × α)
  /-- The keys strictly increase. -/
  sorted : entries.Pairwise fun a b => a.1 < b.1
deriving Repr, DecidableEq

namespace Table

variable {α β : Type}

/-- The entries with one key put to a value; in a sorted list the key keeps its place or gets the
only one it can have. -/
def putEntry (k : String) (v : α) : List (String × α) → List (String × α)
  | [] => [(k, v)]
  | e :: es =>
    if k < e.1 then (k, v) :: e :: es
    else if k = e.1 then (k, v) :: es
    else e :: putEntry k v es

theorem mem_putEntry {k : String} {v : α} {es : List (String × α)} {x : String × α}
    (h : x ∈ putEntry k v es) : x = (k, v) ∨ x ∈ es := by
  induction es with
  | nil => simpa [putEntry] using h
  | cons e es ih =>
    simp only [putEntry] at h
    split at h
    · simpa using h
    · split at h <;> simp only [List.mem_cons] at h ⊢ <;> grind

theorem putEntry_sorted (k : String) (v : α) {es : List (String × α)}
    (h : es.Pairwise fun a b => a.1 < b.1) :
    (putEntry k v es).Pairwise fun a b => a.1 < b.1 := by
  induction es with
  | nil => simp [putEntry]
  | cons e es ih =>
    rw [List.pairwise_cons] at h
    simp only [putEntry]
    split
    · rename_i hk
      refine List.pairwise_cons.mpr ⟨fun x hx => ?_, List.pairwise_cons.mpr h⟩
      rcases List.mem_cons.mp hx with rfl | hx
      · exact hk
      · exact String.lt_trans hk (h.1 x hx)
    · split
      · rename_i hk
        exact List.pairwise_cons.mpr ⟨fun x hx => hk ▸ h.1 x hx, h.2⟩
      · refine List.pairwise_cons.mpr ⟨fun x hx => ?_, ih h.2⟩
        rcases mem_putEntry hx with rfl | hx
        · grind
        · exact h.1 x hx

/-- The table without entries. -/
def empty : Table α := ⟨[], .nil⟩

instance : Inhabited (Table α) := ⟨empty⟩

/-- The table with the value of one key set. -/
def insert (t : Table α) (k : String) (v : α) : Table α :=
  ⟨putEntry k v t.entries, putEntry_sorted k v t.sorted⟩

/-- The table without one key. -/
def erase (t : Table α) (k : String) : Table α :=
  ⟨t.entries.filter (·.1 ≠ k), t.sorted.filter _⟩

def get? (t : Table α) (k : String) : Option α :=
  t.entries.lookup k

def contains (t : Table α) (k : String) : Bool :=
  (t.get? k).isSome

def size (t : Table α) : Nat :=
  t.entries.length

def keys (t : Table α) : List String :=
  t.entries.map (·.1)

def values (t : Table α) : List α :=
  t.entries.map (·.2)

/-- The table with every value replaced by one that depends on its key and on it. -/
def mapValues (t : Table α) (f : String → α → β) : Table β :=
  ⟨t.entries.map fun e => (e.1, f e.1 e.2), List.pairwise_map.mpr t.sorted⟩

/-- The table with every listed value set in turn, so that the last one of a key stays. -/
def insertAll (t : Table α) (es : List (String × α)) : Table α :=
  es.foldl (fun t e => t.insert e.1 e.2) t

/-- The table of a list of entries; the last value of a key stays. -/
def ofList (es : List (String × α)) : Table α :=
  empty.insertAll es

theorem lookup_cons (k : String) (e : String × α) (es : List (String × α)) :
    (e :: es).lookup k = if k = e.1 then some e.2 else es.lookup k := by
  obtain ⟨k', v⟩ := e
  rw [List.lookup_cons]
  by_cases h : k = k' <;> simp [h, beq_eq_false_iff_ne.mpr]

theorem lookup_putEntry (k k' : String) (v : α) (es : List (String × α)) :
    (putEntry k v es).lookup k' = if k' = k then some v else es.lookup k' := by
  induction es with
  | nil => simp [putEntry, lookup_cons]
  | cons e es ih =>
    simp only [putEntry]
    by_cases hlt : k < e.1
    · rw [if_pos hlt, lookup_cons]
    · rw [if_neg hlt]
      by_cases he : k = e.1
      · rw [if_pos he, lookup_cons, lookup_cons, he]
        by_cases hk : k' = e.1 <;> simp [hk]
      · rw [if_neg he, lookup_cons, lookup_cons, ih]
        by_cases hk : k' = e.1
        · simp [hk, Ne.symm he]
        · simp [hk]

@[simp] theorem get?_empty (k : String) : (empty : Table α).get? k = none := rfl

theorem get?_insert (t : Table α) (k k' : String) (v : α) :
    (t.insert k v).get? k' = if k' = k then some v else t.get? k' :=
  lookup_putEntry k k' v t.entries

@[simp] theorem get?_insert_self (t : Table α) (k : String) (v : α) :
    (t.insert k v).get? k = some v := by
  simp [get?_insert]

@[simp] theorem get?_mapValues (t : Table α) (f : String → α → β) (k : String) :
    (t.mapValues f).get? k = (t.get? k).map (f k) := by
  obtain ⟨es, h⟩ := t
  simp only [get?, mapValues]
  clear h
  induction es with
  | nil => rfl
  | cons e es ih =>
    rw [List.map_cons, lookup_cons, lookup_cons]
    by_cases hk : k = e.1
    · simp [hk]
    · simp [hk, ih]

theorem get?_insert_of_ne (t : Table α) {k k' : String} (v : α) (h : k' ≠ k) :
    (t.insert k v).get? k' = t.get? k' := by
  simp [get?_insert, h]

end Table

end Wireframe
