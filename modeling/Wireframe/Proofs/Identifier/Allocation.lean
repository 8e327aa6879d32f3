import Wireframe.Proofs.Identifier.Legal

/-!
# Handing out ids

An allocator that has every id it handed out among the taken ones never hands out an id twice: a
number is looked for among all that is taken, and an id as it is written is given only when it is
not in use (`HandsOut.claim`, `HandsOut.generate`). What several steps hand out adds up
(`HandsOut.append`).
-/

namespace Wireframe.Identifier

/-- The name of the least free number is not taken. -/
theorem leastFree_spec (name : Nat → String) (hn : ∀ i j, name i = name j → i = j)
    (taken : Std.TreeSet String) (k : Nat) :
    k ≤ leastFree name taken k ∧ name (leastFree name taken k) ∉ taken := by
  fun_induction leastFree name taken k with
  | case1 taken k hk ih =>
    obtain ⟨above, free⟩ := ih
    refine ⟨Nat.le_of_succ_le above, fun hm => free ?_⟩
    have other : name k ≠ name (leastFree name (taken.erase (name k)) (k + 1)) := by
      intro he
      have := hn _ _ he
      omega
    rw [Std.TreeSet.mem_erase]
    exact ⟨by simpa using other, hm⟩
  | case2 taken k hk => exact ⟨Nat.le_refl k, hk⟩

/-- Whether `n` is the least number from `k` on that has a property. -/
structure Least (p : Nat → Prop) (k n : Nat) : Prop where
  above : k ≤ n
  holds : p n
  least : ∀ m, k ≤ m → m < n → ¬p m

theorem Least.unique {p : Nat → Prop} {k m n : Nat} (hm : Least p k m) (hn : Least p k n) :
    m = n := by
  rcases Nat.lt_trichotomy m n with lt | eq | gt
  · exact absurd hm.holds (hn.least m hm.above lt)
  · exact eq
  · exact absurd hn.holds (hm.least n hn.above gt)

/-- A number stays the least one when fewer numbers have the property and it is among them. -/
theorem Least.anti {p q : Nat → Prop} {k n : Nat} (h : Least p k n) (holds : q n)
    (fewer : ∀ m, q m → p m) : Least q k n where
  above := h.above
  holds := holds
  least := fun m hk hm hq => h.least m hk hm (fewer m hq)

/-- Every number that the search passes over is taken. -/
theorem mem_of_lt_leastFree (name : Nat → String) (taken : Std.TreeSet String) (k : Nat) :
    ∀ m, k ≤ m → m < leastFree name taken k → name m ∈ taken := by
  fun_induction leastFree name taken k with
  | case1 taken k hk ih =>
    intro m hkm hm
    rcases Nat.eq_or_lt_of_le hkm with rfl | hlt
    · exact Std.TreeSet.mem_iff_contains.mpr hk
    · exact (Std.TreeSet.mem_erase.mp (ih m hlt hm)).2
  | case2 taken k hk =>
    intro m hkm hm
    exact absurd hm (Nat.not_lt_of_le hkm)

theorem least_leastFree (name : Nat → String) (hn : ∀ i j, name i = name j → i = j)
    (taken : Std.TreeSet String) (k : Nat) :
    Least (fun n => name n ∉ taken) k (leastFree name taken k) where
  above := (leastFree_spec name hn taken k).1
  holds := (leastFree_spec name hn taken k).2
  least := fun m hk hm free => free (mem_of_lt_leastFree name taken k m hk hm)

theorem numbered_injective (stem : String) (i j : Nat)
    (h : stem ++ toString i = stem ++ toString j) : i = j := by
  have same := congrArg String.toList h
  rw [String.toList_append, String.toList_append] at same
  have digits := List.append_cancel_left same
  rw [Nat.toString_eq_repr, Nat.toString_eq_repr, Nat.toList_repr, Nat.toList_repr] at digits
  have numbers := congrArg (Nat.ofDigitChars 10 · 0) digits
  simpa using numbers

namespace Allocator

/-- Whether every id that is handed out is taken. -/
def Sound (a : Allocator) : Prop :=
  ∀ id, id ∈ a.used → id ∈ a.taken

theorem sound_empty : empty.Sound :=
  fun _ h => h

theorem Sound.reserve {a : Allocator} (h : a.Sound) (id : String) : (a.reserve id).Sound :=
  fun other ho => Std.TreeSet.mem_insert.mpr (.inr (h other ho))

theorem Sound.foldl_reserve {a : Allocator} (h : a.Sound) (ids : List String) :
    (ids.foldl Allocator.reserve a).Sound := by
  induction ids generalizing a with
  | nil => exact h
  | cons id ids ih => exact ih (h.reserve id)

theorem used_foldl_reserve (a : Allocator) (ids : List String) :
    (ids.foldl Allocator.reserve a).used = a.used := by
  induction ids generalizing a with
  | nil => rfl
  | cons id ids ih => exact ih (a.reserve id)

theorem counters_foldl_reserve (a : Allocator) (ids : List String) :
    (ids.foldl Allocator.reserve a).counters = a.counters := by
  induction ids generalizing a with
  | nil => rfl
  | cons id ids ih => exact ih (a.reserve id)

theorem mem_taken_foldl_reserve (a : Allocator) (ids : List String) (id : String) :
    id ∈ (ids.foldl Allocator.reserve a).taken ↔ id ∈ ids ∨ id ∈ a.taken := by
  induction ids generalizing a with
  | nil => simp
  | cons other ids ih =>
    rw [List.foldl_cons, ih, Allocator.reserve, Std.TreeSet.mem_insert, Std.compare_eq_iff_eq,
      List.mem_cons]
    simp only [or_left_comm, or_assoc, eq_comm]

theorem claim_of_not_mem {a : Allocator} {id : String} (h : id ∉ a.used) :
    a.claim id = (.granted id, a.use id) :=
  if_neg h

/-- An id that is in use is given with the least number behind it that is free. -/
theorem claim_of_mem {a : Allocator} {id : String} (h : id ∈ a.used) :
    ∃ n, Least (fun m => s!"{id}-{m}" ∉ a.taken) 2 n ∧
      a.claim id = (.renamed id s!"{id}-{n}", a.use s!"{id}-{n}") :=
  ⟨_, least_leastFree (fun n => s!"{id}-{n}") (numbered_injective (id ++ "-")) a.taken 2, if_pos h⟩

/-- An id that is made up is the first of its kind behind the last one that is free. -/
theorem generate_eq (a : Allocator) (kind : Kind) :
    ∃ n, Least (fun m => s!"{kind.idPrefix}_{m}" ∉ a.taken) (a.counter kind + 1) n ∧
      a.generate kind = (s!"{kind.idPrefix}_{n}",
        { a.use s!"{kind.idPrefix}_{n}" with
          counters := (kind, n) :: a.counters.filter (·.1 ≠ kind) }) :=
  ⟨_, least_leastFree (fun n => s!"{kind.idPrefix}_{n}")
    (numbered_injective (kind.idPrefix ++ "_")) a.taken (a.counter kind + 1), rfl⟩

end Allocator

/-- One allocator becomes another by handing out ids that nobody has yet. -/
structure HandsOut (a : Allocator) (ids : List String) (b : Allocator) : Prop where
  nodup : ids.Nodup
  valid : ∀ id ∈ ids, Valid id
  fresh : ∀ id ∈ ids, id ∉ a.used
  used : ∀ id, id ∈ b.used ↔ id ∈ ids ∨ id ∈ a.used
  sound : b.Sound

namespace HandsOut

open Allocator

theorem nil {a : Allocator} (h : a.Sound) : HandsOut a [] a :=
  ⟨.nil, List.forall_mem_nil _, List.forall_mem_nil _, by simp, h⟩

theorem append {a b c : Allocator} {xs ys : List String} (first : HandsOut a xs b)
    (more : HandsOut b ys c) : HandsOut a (xs ++ ys) c where
  nodup := by
    refine List.nodup_append.mpr ⟨first.nodup, more.nodup, ?_⟩
    rintro id hx _ hy rfl
    exact more.fresh id hy ((first.used id).mpr (.inl hx))
  valid := List.forall_mem_append.mpr ⟨first.valid, more.valid⟩
  fresh := by
    refine List.forall_mem_append.mpr ⟨first.fresh, fun id hy hu => ?_⟩
    exact more.fresh id hy ((first.used id).mpr (.inr hu))
  used := by
    intro id
    rw [more.used, first.used, List.mem_append, or_left_comm, or_assoc]
  sound := more.sound

/-- Handing out one id that is not in use. -/
theorem single {a b : Allocator} {id : String} (h : a.Sound) (hv : Valid id) (hf : id ∉ a.used)
    (hu : b.used = a.used.insert id) (ht : b.taken = a.taken.insert id) :
    HandsOut a [id] b where
  nodup := by simp
  valid := List.forall_mem_singleton.mpr hv
  fresh := List.forall_mem_singleton.mpr hf
  used := by
    intro other
    rw [hu, Std.TreeSet.mem_insert, List.mem_singleton, Std.compare_eq_iff_eq, eq_comm]
  sound := by
    intro other ho
    rw [hu, Std.TreeSet.mem_insert] at ho
    rw [ht, Std.TreeSet.mem_insert]
    exact ho.imp_right (h other)

/-- The id that a claim is answered with. -/
def answer : Claim → String
  | .granted id => id
  | .renamed _ granted => granted

theorem claim {a : Allocator} (h : a.Sound) {id : String} (hv : Valid id) :
    HandsOut a [answer (a.claim id).1] (a.claim id).2 := by
  by_cases hu : id ∈ a.used
  · obtain ⟨n, least, claimed⟩ := claim_of_mem hu
    rw [claimed]
    exact single h (hv.numbered (by decide) n) (fun hm => least.holds (h _ hm)) rfl rfl
  · rw [claim_of_not_mem hu]
    exact single h hv hu rfl rfl

theorem generate {a : Allocator} (h : a.Sound) (kind : Kind) :
    HandsOut a [(a.generate kind).1] (a.generate kind).2 := by
  obtain ⟨n, least, generated⟩ := a.generate_eq kind
  rw [generated]
  exact single h ((valid_idPrefix kind).numbered (by decide) n)
    (fun hm => least.holds (h _ hm)) rfl rfl

end HandsOut

end Wireframe.Identifier
