/-!
# Interleavings

Several clients each have a list of calls to make, one after the other. What comes of them in one
order is an interleaving: at every step one of the clients makes its next call. An interleaving
holds the calls of all clients (`Interleaving.perm`), and what only one client's calls have to do
with stands in it in the order of that client (`Interleaving.flatMap_eq`).
-/

namespace Wireframe

variable {α β : Type}

/-- The calls of several clients in one order that keeps the order of each client. -/
inductive Interleaving : List (List α) → List α → Prop
  /-- No client has a call left. -/
  | done {clients} (h : ∀ c ∈ clients, c = []) : Interleaving clients []
  /-- One client makes its next call. -/
  | step {clients calls i call rest} (h : clients[i]? = some (call :: rest))
      (more : Interleaving (clients.set i rest) calls) : Interleaving clients (call :: calls)

namespace Interleaving

/-- The calls of all clients, with one client's next call first. -/
theorem flatten_perm_cons {clients : List (List α)} {i : Nat} {call : α} {rest : List α}
    (h : clients[i]? = some (call :: rest)) :
    clients.flatten.Perm (call :: (clients.set i rest).flatten) := by
  obtain ⟨hi, hc⟩ := List.getElem?_eq_some_iff.mp h
  have split : clients = clients.take i ++ (call :: rest) :: clients.drop (i + 1) := by
    rw [← hc, List.getElem_cons_drop, List.take_append_drop]
  have flat : clients.flatten = _ := congrArg List.flatten split
  rw [flat, List.set_eq_take_append_cons_drop, if_pos hi]
  simp only [List.flatten_append, List.flatten_cons, List.cons_append]
  exact List.perm_middle

/-- Every call of every client is made once. -/
theorem perm {clients : List (List α)} {calls : List α} (h : Interleaving clients calls) :
    calls.Perm clients.flatten := by
  induction h with
  | done h => rw [List.flatten_eq_nil_iff.mpr h]
  | step h _ ih => exact (ih.cons _).trans (flatten_perm_cons h).symm

theorem exists_of_flatten_eq_cons {clients : List (List α)} {call : α} {calls : List α}
    (h : clients.flatten = call :: calls) :
    ∃ i rest, clients[i]? = some (call :: rest) ∧ (clients.set i rest).flatten = calls := by
  induction clients with
  | nil => cases h
  | cons c clients ih =>
    cases c with
    | nil =>
      obtain ⟨i, rest, hi, left⟩ := ih h
      exact ⟨i + 1, rest, hi, left⟩
    | cons x rest =>
      obtain ⟨rfl, rfl⟩ := List.cons.inj h
      exact ⟨0, rest, rfl, rfl⟩

/-- The clients may come one after the other. -/
theorem flatten (clients : List (List α)) : Interleaving clients clients.flatten := by
  generalize hall : clients.flatten = calls
  induction calls generalizing clients with
  | nil => exact .done (List.flatten_eq_nil_iff.mp hall)
  | cons call calls ih =>
    obtain ⟨i, rest, hi, left⟩ := exists_of_flatten_eq_cons hall
    exact .step hi (ih _ left)

/-- What a client has left to call it had to call before. -/
theorem exists_of_getElem?_set {clients : List (List α)} {i j : Nat} {call : α}
    {rest d : List α} (h : clients[i]? = some (call :: rest))
    (hd : (clients.set i rest)[j]? = some d) : ∃ c, clients[j]? = some c ∧ ∀ x ∈ d, x ∈ c := by
  by_cases hij : i = j
  · subst hij
    have hi : i < clients.length := (List.getElem?_eq_some_iff.mp h).1
    obtain rfl : rest = d := Option.some.inj ((List.getElem?_set_self hi).symm.trans hd)
    exact ⟨_, h, fun x hx => List.mem_cons_of_mem _ hx⟩
  · exact ⟨d, (List.getElem?_set_ne hij).symm.trans hd, fun _ hx => hx⟩

/-- What the calls of the other clients add nothing to comes in the order of one client. -/
theorem flatMap_eq {f : α → List β} {clients : List (List α)} {calls : List α}
    (h : Interleaving clients calls) {i : Nat} {c : List α} (hc : clients[i]? = some c)
    (others : ∀ j d, j ≠ i → clients[j]? = some d → ∀ call ∈ d, f call = []) :
    calls.flatMap f = c.flatMap f := by
  induction h generalizing c with
  | done h => rw [h c (List.mem_of_getElem? hc)]
  | @step clients calls j call rest hj _ ih =>
    have later : ∀ c, (clients.set j rest)[i]? = some c → calls.flatMap f = c.flatMap f :=
      fun c hc => ih hc fun k d hk hd x hx => by
        obtain ⟨d', hd', sub⟩ := exists_of_getElem?_set hj hd
        exact others k d' hk hd' x (sub x hx)
    by_cases hij : j = i
    · subst hij
      obtain rfl : call :: rest = c := Option.some.inj (hj.symm.trans hc)
      have hi : j < clients.length := (List.getElem?_eq_some_iff.mp hj).1
      rw [List.flatMap_cons, List.flatMap_cons, later rest (List.getElem?_set_self hi)]
    · have none : f call = [] := others j _ hij hj call List.mem_cons_self
      rw [List.flatMap_cons, none, later c ((List.getElem?_set_ne hij).trans hc), List.nil_append]

end Interleaving

end Wireframe
