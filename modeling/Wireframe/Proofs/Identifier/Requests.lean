import Mathlib.Data.List.Induction
import Wireframe.Proofs.Identifier.Allocation

/-!
# Runs of an allocator

What an allocator answers is told by what it was asked before: by the ids it has handed out and
those it was told to reserve. Made-up and renamed ids have the least number that neither of them
has, which is found in no more tries than there were requests; no id is handed out twice, and a
reserved one only to who claims it (`answers_by_history`).
-/

namespace Wireframe.Identifier

/-- A search goes past taken names only, and each of them once. -/
theorem leastFree_le (name : Nat → String) (taken : Std.TreeSet String) (k : Nat) :
    leastFree name taken k ≤ k + taken.size := by
  fun_induction leastFree name taken k with
  | case1 taken k hk ih =>
    rw [Std.TreeSet.size_erase, if_pos hk] at ih
    have nonempty := Std.TreeSet.isEmpty_eq_false_of_contains hk
    rw [Std.TreeSet.isEmpty_eq_size_eq_zero, beq_eq_false_iff_ne] at nonempty
    omega
  | case2 taken k hk => omega

theorem Least.le_add_size {name : Nat → String} (hn : ∀ i j, name i = name j → i = j)
    {taken : Std.TreeSet String} {k n : Nat} (h : Least (fun m => name m ∉ taken) k n) :
    n ≤ k + taken.size :=
  h.unique (least_leastFree name hn taken k) ▸ leastFree_le name taken k

/-- A least number may be looked for from any smaller one on when none lies between. -/
theorem Least.extend {p : Nat → Prop} {j k n : Nat} (h : Least p k n) (hj : j ≤ k)
    (none : ∀ m, j ≤ m → m < k → ¬p m) : Least p j n where
  above := Nat.le_trans hj h.above
  holds := h.holds
  least := by
    intro m hm lt
    by_cases below : m < k
    · exact none m hm below
    · exact h.least m (Nat.le_of_not_lt below) lt

/-- What an allocator may be asked. -/
inductive Request where
  | reserve (id : String)
  | claim (id : String)
  | generate (kind : Kind)

/-- The id that a request keeps from being made up. -/
def Request.reserved? : Request → Option String
  | reserve id => some id
  | claim _ | generate _ => none

namespace Allocator

/-- The id that is handed out on a request, if one is, and the allocator behind it. -/
def serve (a : Allocator) : Request → Option String × Allocator
  | .reserve id => (none, a.reserve id)
  | .claim id =>
    let (claim, b) := a.claim id
    (some (HandsOut.answer claim), b)
  | .generate kind =>
    let (id, b) := a.generate kind
    (some id, b)

/-- The allocator behind a made-up id. -/
def made (a : Allocator) (kind : Kind) (n : Nat) : Allocator :=
  { a.use s!"{kind.idPrefix}_{n}" with
    counters := (kind, n) :: a.counters.filter (·.1 ≠ kind) }

/-- All that can come of a request. -/
inductive Served (a : Allocator) : Request → Option String → Allocator → Prop where
  | reserved (id : String) : Served a (.reserve id) none (a.reserve id)
  | granted {id : String} (new : id ∉ a.used) : Served a (.claim id) (some id) (a.use id)
  | renamed {id : String} {n : Nat} (old : id ∈ a.used)
      (least : Least (fun m => s!"{id}-{m}" ∉ a.taken) 2 n) :
      Served a (.claim id) (some s!"{id}-{n}") (a.use s!"{id}-{n}")
  | made {kind : Kind} {n : Nat}
      (least : Least (fun m => s!"{kind.idPrefix}_{m}" ∉ a.taken) (a.counter kind + 1) n) :
      Served a (.generate kind) (some s!"{kind.idPrefix}_{n}") (a.made kind n)

theorem served (a : Allocator) (r : Request) : Served a r (a.serve r).1 (a.serve r).2 := by
  cases r with
  | reserve id => exact .reserved id
  | claim id =>
    by_cases hu : id ∈ a.used
    · obtain ⟨n, least, claimed⟩ := claim_of_mem hu
      rw [serve, claimed]
      exact .renamed hu least
    · rw [serve, claim_of_not_mem hu]
      exact .granted hu
  | generate kind =>
    obtain ⟨n, least, generated⟩ := a.generate_eq kind
    rw [serve, generated]
    exact .made least

/-- The ids that are handed out on requests in turn, and the allocator behind them. -/
def run (rs : List Request) : List String × Allocator :=
  rs.foldl (fun (ids, a) r => (ids ++ (a.serve r).1.toList, (a.serve r).2)) ([], empty)

abbrev handedOut (rs : List Request) : List String :=
  (run rs).1

abbrev reached (rs : List Request) : Allocator :=
  (run rs).2

def reserved (rs : List Request) : List String :=
  rs.filterMap Request.reserved?

theorem reserved_concat (rs : List Request) (r : Request) :
    reserved (rs ++ [r]) = reserved rs ++ r.reserved?.toList := by
  rw [reserved, List.filterMap_append]
  cases r <;> rfl

theorem run_concat (rs : List Request) (r : Request) :
    run (rs ++ [r]) =
      (handedOut rs ++ ((reached rs).serve r).1.toList, ((reached rs).serve r).2) := by
  rw [run, List.foldl_append]
  rfl

theorem lookup_filter_ne {kind other : Kind} (h : other ≠ kind) (counters : List (Kind × Nat)) :
    (counters.filter (·.1 ≠ kind)).lookup other = counters.lookup other := by
  induction counters with
  | nil => rfl
  | cons c counters ih =>
    by_cases hc : c.1 = kind
    · have passed : (other == c.1) = false := beq_eq_false_iff_ne.mpr (hc ▸ h)
      rw [List.filter_cons_of_neg (by simpa using hc), ih, List.lookup_cons, passed]
    · rw [List.filter_cons_of_pos (by simpa using hc), List.lookup_cons, List.lookup_cons, ih]

/-- Only the kind that a number is made up for counts on. -/
theorem counter_made (a : Allocator) (kind other : Kind) (n : Nat) :
    (a.made kind n).counter other = if other = kind then n else a.counter other := by
  rw [counter, counter, made, List.lookup_cons]
  by_cases h : other = kind
  · rw [if_pos h, h, beq_self_eq_true]
    rfl
  · rw [if_neg h, beq_eq_false_iff_ne.mpr h, lookup_filter_ne h]

/-- What an allocator knows of the requests before. -/
structure Tells (rs : List Request) (ids : List String) (a : Allocator) : Prop where
  nodup : ids.Nodup
  used : ∀ id, id ∈ a.used ↔ id ∈ ids
  taken : ∀ id, id ∈ a.taken ↔ id ∈ ids ∨ id ∈ reserved rs
  /-- The numbers up to the last one that was made up are taken. -/
  counted : ∀ kind m, 0 < m → m ≤ a.counter kind → s!"{kind.idPrefix}_{m}" ∈ a.taken
  few : a.taken.size ≤ rs.length

namespace Tells

variable {rs : List Request} {ids : List String} {a b : Allocator}

theorem empty : Tells [] [] Allocator.empty where
  nodup := .nil
  used := by simp [Allocator.empty]
  taken := by simp [Allocator.empty, reserved]
  counted := by
    intro kind m pos (le : m ≤ 0)
    omega
  few := by simp [Allocator.empty]

theorem size_insert_le {s : Std.TreeSet String} {n : Nat} (h : s.size ≤ n) (id : String) :
    (s.insert id).size ≤ n + 1 :=
  Nat.le_trans Std.TreeSet.size_insert_le (Nat.succ_le_succ h)

theorem reserve (h : Tells rs ids a) (id : String) :
    Tells (rs ++ [.reserve id]) ids (a.reserve id) where
  nodup := h.nodup
  used := h.used
  taken := by
    intro other
    rw [Allocator.reserve, Std.TreeSet.mem_insert, Std.compare_eq_iff_eq, h.taken, reserved_concat,
      Request.reserved?, Option.toList_some, List.mem_append, List.mem_singleton]
    grind
  counted := fun kind m pos le => Std.TreeSet.mem_insert.mpr (.inr (h.counted kind m pos le))
  few := by
    rw [List.length_append]
    exact size_insert_le h.few id

/-- An id that is handed out is not in use, and in use and taken from then on. -/
theorem handOut (h : Tells rs ids a) {r : Request} {id : String} (plain : r.reserved? = none)
    (new : id ∉ a.used) (used : b.used = a.used.insert id) (taken : b.taken = a.taken.insert id)
    (counted : ∀ kind m, 0 < m → m ≤ b.counter kind → s!"{kind.idPrefix}_{m}" ∈ b.taken) :
    Tells (rs ++ [r]) (ids ++ [id]) b where
  nodup := by
    rw [h.used] at new
    exact List.nodup_append.mpr ⟨h.nodup, by simp, by
      rintro x hx _ hy rfl
      exact new (List.mem_singleton.mp hy ▸ hx)⟩
  used := by
    intro other
    rw [used, Std.TreeSet.mem_insert, Std.compare_eq_iff_eq, h.used, List.mem_append,
      List.mem_singleton, or_comm, eq_comm]
  taken := by
    intro other
    rw [taken, Std.TreeSet.mem_insert, Std.compare_eq_iff_eq, h.taken, reserved_concat, plain,
      Option.toList_none, List.append_nil, List.mem_append, List.mem_singleton]
    grind
  counted := counted
  few := by
    rw [taken, List.length_append]
    exact size_insert_le h.few id

/-- The number that is made up next is the least one of all that are free. -/
theorem least_from_one (h : Tells rs ids a) {kind : Kind} {n : Nat}
    (least : Least (fun m => s!"{kind.idPrefix}_{m}" ∉ a.taken) (a.counter kind + 1) n) :
    Least (fun m => s!"{kind.idPrefix}_{m}" ∉ a.taken) 1 n :=
  least.extend (Nat.le_add_left 1 _) fun m pos le free =>
    free (h.counted kind m pos (Nat.le_of_lt_succ le))

/-- What an allocator knows after one more request. -/
theorem serve (h : Tells rs ids a) (r : Request) :
    Tells (rs ++ [r]) (ids ++ (a.serve r).1.toList) (a.serve r).2 := by
  have sound {id : String} (free : id ∉ a.taken) : id ∉ a.used := fun used =>
    free ((h.taken id).mpr (.inl ((h.used id).mp used)))
  have counted {id : String} (kind : Kind) (m : Nat) (pos : 0 < m) (le : m ≤ a.counter kind) :
      s!"{kind.idPrefix}_{m}" ∈ a.taken.insert id :=
    Std.TreeSet.mem_insert.mpr (.inr (h.counted kind m pos le))
  have result := a.served r
  generalize (a.serve r).1 = id at result
  generalize (a.serve r).2 = b at result
  cases result with
  | reserved id =>
    rw [Option.toList_none, List.append_nil]
    exact h.reserve id
  | granted new => exact h.handOut rfl new rfl rfl counted
  | renamed _ least => exact h.handOut rfl (sound least.holds) rfl rfl counted
  | @made kind n least =>
    refine h.handOut rfl (sound least.holds) rfl rfl fun other m pos le => ?_
    rw [counter_made] at le
    split at le
    next same =>
      subst same
      -- All numbers that the search went past were taken, those before its start as well.
      obtain lt | rfl := Nat.lt_or_eq_of_le le
      · have taken := Decidable.not_not.mp ((h.least_from_one least).least m pos lt)
        exact Std.TreeSet.mem_insert.mpr (.inr taken)
      · exact Std.TreeSet.mem_insert.mpr (.inl Std.ReflCmp.compare_self)
    next => exact counted other m pos le

theorem run (rs : List Request) : Tells rs (handedOut rs) (reached rs) := by
  induction rs using List.reverseRecOn with
  | nil => exact empty
  | append_singleton rs r ih =>
    rw [handedOut, reached, run_concat]
    exact ih.serve r

end Tells

/-- Whether an id was neither handed out nor reserved. -/
def Free (rs : List Request) (id : String) : Prop :=
  id ∉ handedOut rs ∧ id ∉ reserved rs

section

variable (rs : List Request)

theorem not_mem_taken_iff (id : String) : id ∉ (reached rs).taken ↔ Free rs id := by
  rw [(Tells.run rs).taken, not_or, Free]

/-- The least number that an allocator finds, told by the requests before. -/
theorem least_free {stem : String} {k n : Nat}
    (h : Least (fun m => stem ++ toString m ∉ (reached rs).taken) k n) :
    Least (fun m => Free rs (stem ++ toString m)) k n ∧ n ≤ k + rs.length := by
  have size := h.le_add_size (numbered_injective stem)
  have few := (Tells.run rs).few
  simp only [not_mem_taken_iff] at h
  exact ⟨h, by omega⟩

theorem generate_reached (kind : Kind) : ∃ k,
    Least (fun m => Free rs s!"{kind.idPrefix}_{m}") ((reached rs).counter kind + 1) k ∧
    Least (fun m => Free rs s!"{kind.idPrefix}_{m}") 1 k ∧
    k ≤ (reached rs).counter kind + 1 + rs.length ∧
    (reached rs).generate kind = (s!"{kind.idPrefix}_{k}", (reached rs).made kind k) := by
  obtain ⟨k, least, generated⟩ := (reached rs).generate_eq kind
  obtain ⟨above, bound⟩ := least_free rs least
  exact ⟨k, above, (least_free rs ((Tells.run rs).least_from_one least)).1, bound, generated⟩

theorem claim_reached (id : String) :
    id ∉ handedOut rs ∧ ((reached rs).claim id).1 = .granted id ∨
    id ∈ handedOut rs ∧ ∃ n, Least (fun m => Free rs s!"{id}-{m}") 2 n ∧ n ≤ 2 + rs.length ∧
      ((reached rs).claim id).1 = .renamed id s!"{id}-{n}" := by
  rw [← (Tells.run rs).used]
  by_cases used : id ∈ (reached rs).used
  · obtain ⟨n, least, claimed⟩ := claim_of_mem used
    obtain ⟨free, bound⟩ := least_free rs least
    exact .inr ⟨used, n, free, bound, congrArg Prod.fst claimed⟩
  · exact .inl ⟨used, congrArg Prod.fst (claim_of_not_mem used)⟩

/-- A reserved id is handed out to nobody but who claims it. -/
theorem eq_claim_of_reserved {r : Request} {id : String}
    (given : ((reached rs).serve r).1 = some id) (kept : id ∈ reserved rs) : r = .claim id := by
  have taken : id ∈ (reached rs).taken := ((Tells.run rs).taken id).mpr (.inr kept)
  have result := (reached rs).served r
  rw [given] at result
  generalize ((reached rs).serve r).2 = b at result
  cases result with
  | granted => rfl
  | renamed _ least => exact absurd taken least.holds
  | made least => exact absurd taken least.holds

/-- After every run of requests, no id was handed out twice. The next id that is made up for a kind
has the least number above the last one for it that is neither handed out nor reserved, which is
the least of all such numbers. A claimed id is given as it is just when it was not handed out
before, and else with the least such number from two on. A search goes past no more numbers than
there were requests. And a reserved id is handed out to nobody but who claims it. -/
theorem answers_by_history :
    (handedOut rs).Nodup ∧
    (∀ kind, ∃ k,
      Least (fun m => Free rs s!"{kind.idPrefix}_{m}") ((reached rs).counter kind + 1) k ∧
      Least (fun m => Free rs s!"{kind.idPrefix}_{m}") 1 k ∧
      k ≤ (reached rs).counter kind + 1 + rs.length ∧
      ((reached rs).generate kind).1 = s!"{kind.idPrefix}_{k}" ∧
      ∀ other, ((reached rs).generate kind).2.counter other =
        if other = kind then k else (reached rs).counter other) ∧
    (∀ id,
      id ∉ handedOut rs ∧ ((reached rs).claim id).1 = .granted id ∨
      id ∈ handedOut rs ∧ ∃ n, Least (fun m => Free rs s!"{id}-{m}") 2 n ∧ n ≤ 2 + rs.length ∧
        ((reached rs).claim id).1 = .renamed id s!"{id}-{n}") ∧
    ∀ r id, ((reached rs).serve r).1 = some id → id ∈ reserved rs → r = .claim id := by
  refine ⟨(Tells.run rs).nodup, fun kind => ?_, claim_reached rs,
    fun r id => eq_claim_of_reserved rs⟩
  obtain ⟨k, above, least, bound, generated⟩ := generate_reached rs kind
  rw [generated]
  exact ⟨k, above, least, bound, rfl, fun other => counter_made (reached rs) kind other k⟩

theorem answers_by_history_text :
    let rs : List Request := [.reserve "text_1", .claim "card", .claim "text"]
    handedOut rs = ["card", "text"] ∧
    ((reached rs).serve (.claim "text_1")).1 = some "text_1" ∧ "text_1" ∈ reserved rs ∧
    Request.claim "text_1" = .claim "text_1" ∧
    ((reached rs).serve (.generate .text)).1 ≠ some "text_1" := by
  intro rs
  obtain ⟨-, -, -, only⟩ := answers_by_history rs
  have given : ((reached rs).serve (.claim "text_1")).1 = some "text_1" := by decide +kernel
  have kept : "text_1" ∈ reserved rs := by decide
  refine ⟨by decide +kernel, given, kept, only _ _ given kept, fun made => ?_⟩
  cases only _ _ made kept

end

end Allocator

end Wireframe.Identifier
