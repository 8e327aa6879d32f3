import Wireframe.Proofs.Session.Operation

/-!
# What operations on registries leave alone

Every session of a run is stored under its own id (`keyed_run`). An operation on a single session
keeps all others, an operation that only reads or that fails keeps the registry, and two operations
on different sessions may change places, answers and all (`operations_framed`).
-/

namespace Wireframe.Registry

/-- Every session is stored under its own id. -/
def Keyed (r : Registry) : Prop :=
  ∀ k s, r.get? k = some s → s.id = k

theorem keyed_empty : Keyed empty :=
  nofun

theorem keyed_apply {r : Registry} (h : Keyed r) (o : Operation) : Keyed (r.apply o).2 := by
  intro k s hs
  cases arises_of_get? hs with
  | kept hk => exact h k s hk
  | created => rfl
  | requested => rfl
  | @updated t u now ht =>
    calc ((u.change t).refreshed now).id
      _ = (u.change t).id := Session.id_refreshed _ now
      _ = t.id := u.id_change t
      _ = k := h k t ht
  | installed hid ht => exact (id_of_accept ht).trans hid

theorem keyed_run (os : List Operation) : Keyed (run os) :=
  run_induction keyed_empty (fun _ o h => keyed_apply h o) os

theorem exists_action {o : Operation} {id : String} (h : o.target? = some id) :
    ∃ a, o.action? = some a ∧ a.id = id := by
  rw [Operation.target?_eq] at h
  exact Option.map_eq_some_iff.mp h

/-- An operation on a single session keeps all other sessions. -/
theorem get?_apply_of_ne {o : Operation} {id k : String} (h : o.target? = some id) (hk : k ≠ id)
    (r : Registry) : (r.apply o).2.get? k = r.get? k := by
  obtain ⟨a, ha, rfl⟩ := exists_action h
  rw [apply_eq ha, get?_assign_of_ne _ _ hk]

/-- The operations that only read. -/
def Operation.reads : Operation → Bool
  | get _ | tokens _ | snapshot _ | list | size => true
  | _ => false

theorem apply_of_reads {o : Operation} (h : o.reads = true) (r : Registry) :
    (r.apply o).2 = r := by
  cases o with
  | get id | tokens id | snapshot id | list | size => rfl
  | _ => cases h

theorem settle_of_failure {r : Registry} {result : Result} {f : Failure}
    (h : (r.settle result).1 = .failure f) : (r.settle result).2 = r := by
  cases result with
  | ok p => cases h
  | error g => rfl
  | brokenOff left => cases h

/-- An operation that fails keeps the registry. -/
theorem apply_of_failure {o : Operation} {r : Registry} {f : Failure}
    (h : (r.apply o).1 = .failure f) : (r.apply o).2 = r := by
  cases o with
  | update id u now => exact settle_of_failure h
  | install s now => exact settle_of_failure h
  | get id | tokens id | snapshot id | list | size => rfl
  | _ => cases h

theorem apply_getOrCreate_of_mem {r : Registry} {id : String} (context : String) (now : Timestamp)
    (h : (r.get? id).isSome) : (r.apply (.getOrCreate id context now)).2 = r := by
  obtain ⟨s, hs⟩ := Option.isSome_iff_exists.mp h
  rw [apply_getOrCreate, hs]
  exact assign_of_get? hs

/-- Operations on different sessions may change places: each gives the same answer before the
other and behind it, and the registry is the same. -/
theorem apply_comm {o p : Operation} {id id' : String} (ho : o.target? = some id)
    (hp : p.target? = some id') (h : id ≠ id') (r : Registry) :
    ((r.apply o).2.apply p).1 = (r.apply p).1 ∧ ((r.apply p).2.apply o).1 = (r.apply o).1 ∧
      ((r.apply o).2.apply p).2 = ((r.apply p).2.apply o).2 := by
  obtain ⟨a, ha, rfl⟩ := exists_action ho
  obtain ⟨b, hb, rfl⟩ := exists_action hp
  have first : ((r.apply o).2).get? b.id = r.get? b.id := get?_apply_of_ne ho (Ne.symm h) r
  have second : ((r.apply p).2).get? a.id = r.get? a.id := get?_apply_of_ne hp h r
  refine ⟨?_, ?_, ?_⟩
  · rw [apply_eq hb, apply_eq hb, first]
  · rw [apply_eq ha, apply_eq ha, second]
  · rw [apply_eq hb, apply_eq ha (r.apply p).2, first, second, apply_eq ha, apply_eq hb]
    exact assign_comm r h _ _

/-- Behind every run each session stands under its own id. There an operation on a single session
keeps all others, one that fails or only reads and a request for a session that is there keep the
registry, and two operations on different sessions may change places. -/
theorem operations_framed (os : List Operation) :
    let r := run os
    (∀ k s, r.get? k = some s → s.id = k) ∧
    (∀ o id k, o.target? = some id → k ≠ id → (r.apply o).2.get? k = r.get? k) ∧
    (∀ o f, (r.apply o).1 = .failure f → (r.apply o).2 = r) ∧
    (∀ o : Operation, o.reads = true → (r.apply o).2 = r) ∧
    (∀ id context now, (r.get? id).isSome → (r.apply (.getOrCreate id context now)).2 = r) ∧
    ∀ o p id id', o.target? = some id → p.target? = some id' → id ≠ id' →
      ((r.apply o).2.apply p).1 = (r.apply p).1 ∧ ((r.apply p).2.apply o).1 = (r.apply o).1 ∧
        ((r.apply o).2.apply p).2 = ((r.apply p).2.apply o).2 := by
  intro r
  refine ⟨keyed_run os, ?_, ?_, ?_, ?_, ?_⟩
  · intro o id k ho hk
    exact get?_apply_of_ne ho hk r
  · intro o f hf
    exact apply_of_failure hf
  · intro o ho
    exact apply_of_reads ho r
  · intro id context now hid
    exact apply_getOrCreate_of_mem context now hid
  · intro o p id id' ho hp h
    exact apply_comm ho hp h r

theorem operations_framed_menu_cart :
    let r := run [.create "menu" none .web ⟨0, 0⟩, .getOrCreate "cart" "shop" ⟨1, 0⟩]
    let o : Operation := .update "menu" (.context "bank") ⟨2, 0⟩
    let p : Operation := .delete "cart"
    (∃ s, r.get? "cart" = some s ∧ s.id = "cart") ∧
    (r.apply o).2.get? "cart" = r.get? "cart" ∧
    (r.apply (.update "user" .refresh ⟨2, 0⟩)).2 = r ∧
    (r.apply .list).2 = r ∧
    (r.apply (.getOrCreate "cart" "bank" ⟨2, 0⟩)).2 = r ∧
    ((r.apply o).2.apply p).2 = ((r.apply p).2.apply o).2 := by
  intro r o p
  have there : (r.get? "cart").isSome := rfl
  obtain ⟨s, hs⟩ := Option.isSome_iff_exists.mp there
  obtain ⟨keyed, others, failing, reading, found, comm⟩ := operations_framed
    [.create "menu" none .web ⟨0, 0⟩, .getOrCreate "cart" "shop" ⟨1, 0⟩]
  refine ⟨⟨s, hs, keyed "cart" s hs⟩, ?_, ?_, ?_, ?_, ?_⟩
  · exact others o "menu" "cart" rfl (by decide)
  · exact failing _ (.notFound "user") rfl
  · exact reading .list rfl
  · exact found "cart" "bank" ⟨2, 0⟩ there
  · exact (comm o p "menu" "cart" rfl rfl (by decide)).2.2

end Wireframe.Registry
