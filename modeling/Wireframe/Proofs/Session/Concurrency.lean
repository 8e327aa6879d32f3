import Wireframe.Proofs.Design.Names
import Wireframe.Proofs.Interleaving
import Wireframe.Proofs.Session.History
import Wireframe.Proofs.Session.Revisions

/-!
# Clients that share a session

Every call of a registry is one step, so what several clients do at a time comes as an interleaving
of their calls, each with the clock reading at which it is served. `Registry.serve` answers such a
list of calls, and goes on behind one that breaks off. No update gets lost in one, and each is
counted up to the last revision; clients that set different values by hand leave the same values and
tokens in all of them, and of requests for a session that is not there the first makes it for all
(`clients_interleave`).
-/

namespace Wireframe.Registry

/-- The answers to operations in turn, and the registry behind them. -/
def serve (r : Registry) : List Operation → List Answer × Registry
  | [] => ([], r)
  | o :: os =>
    let (answer, r) := r.apply o
    let (answers, r) := r.serve os
    (answer :: answers, r)

/-- The operations that update the session with an id, each at its time. -/
def updates (id : String) (calls : List (Update × Timestamp)) : List Operation :=
  calls.map fun (u, now) => .update id u now

/-- The operations that request the session with an id, each for a context and at its time. -/
def requests (id : String) (calls : List (String × Timestamp)) : List Operation :=
  calls.map fun (context, now) => .getOrCreate id context now

/-- A session behind updates, each with its time. -/
def updatedBy (s : Session) (calls : List (Update × Timestamp)) : Session :=
  calls.foldl (fun s (u, now) => (u.change s).refreshed now) s

@[simp] theorem updatedBy_nil (s : Session) : updatedBy s [] = s := rfl

theorem updatedBy_cons (s : Session) (u : Update) (now : Timestamp)
    (calls : List (Update × Timestamp)) :
    updatedBy s ((u, now) :: calls) = updatedBy ((u.change s).refreshed now) calls := rfl

/-- Updates of a session that is there all take effect on it, in the order in which they come. -/
theorem get?_serve_updates {r : Registry} {id : String} {s : Session} (hs : r.get? id = some s)
    (calls : List (Update × Timestamp)) :
    (r.serve (updates id calls)).2.get? id = some (updatedBy s calls) := by
  induction calls generalizing r s with
  | nil => exact hs
  | cons call calls ih =>
    obtain ⟨u, now⟩ := call
    have served : r.apply (.update id u now) = _ := apply_update hs u now
    simp only [updates, List.map_cons, serve, served]
    exact ih (get?_assign_self r id _)

/-- Updates are counted up to the last revision. -/
theorem toNat_revision_updatedBy (s : Session) (calls : List (Update × Timestamp)) :
    (updatedBy s calls).revision.toNat =
      min (s.revision.toNat + calls.length) (UInt64.size - 1) := by
  induction calls generalizing s with
  | nil =>
    have bound : s.revision.toNat < UInt64.size := s.revision.toNat_lt_size
    exact (Nat.min_eq_left (Nat.le_sub_one_of_lt bound)).symm
  | cons call calls ih =>
    have first := toNat_revision_refreshed (call.1.change s) call.2
    rw [call.1.revision_change] at first
    rw [updatedBy_cons, ih, first, List.length_cons]
    omega

/-- Behind updates the tokens of a session are the design that it stands for. -/
theorem tokens_updatedBy (s : Session) {calls : List (Update × Timestamp)} (h : calls ≠ []) :
    (updatedBy s calls).tokens = (updatedBy s calls).params.tokens := by
  obtain ⟨calls, call, rfl⟩ := (List.eq_nil_or_concat calls).resolve_left h
  simp only [updatedBy, List.concat_eq_append, List.foldl_append, List.foldl_cons, List.foldl_nil]
  exact Session.tokens_refreshed _ _

theorem params_updated {u : Update} (h : u.context? = none) (s : Session) (now : Timestamp) :
    ((u.change s).refreshed now).params =
      { s.params with overrides := s.overrides.insertAll u.values } := by
  rw [Session.params_refreshed]
  cases u with
  | context c => cases h
  | refresh => rfl
  | override values => rfl

/-- Updates that keep the context only set values by hand. -/
theorem params_updatedBy (s : Session) {calls : List (Update × Timestamp)}
    (h : ∀ call ∈ calls, call.1.context? = none) :
    (updatedBy s calls).params =
      { s.params with
        overrides := s.overrides.insertAll ((calls.map (·.1)).flatMap Update.values) } := by
  induction calls generalizing s with
  | nil => rfl
  | cons call calls ih =>
    obtain ⟨here, more⟩ := List.forall_mem_cons.mp h
    have first := params_updated here s call.2
    have set : ((call.1.change s).refreshed call.2).overrides =
        s.overrides.insertAll call.1.values := congrArg (·.overrides) first
    rw [updatedBy_cons, ih _ more, first, set, List.map_cons, List.flatMap_cons,
      Table.insertAll_append]

/-- The names of the values that a client sets by hand. -/
def valueNames (calls : List Update) : List String :=
  (calls.flatMap Update.values).map (·.1)

/-- The value that a client sets last under a name. -/
def lastValue? (calls : List Update) (name : String) : Option String :=
  Table.last? (calls.flatMap Update.values) name

theorem isSome_lastValue?_iff {calls : List Update} {name : String} :
    (lastValue? calls name).isSome ↔ name ∈ valueNames calls :=
  Table.isSome_last?_iff

theorem get?_insertAll_values (t : Table String) (calls : List Update) (name : String) :
    (t.insertAll (calls.flatMap Update.values)).get? name =
      (lastValue? calls name).or (t.get? name) :=
  Table.get?_insertAll_last? t _ name

theorem mem_valueNames_iff {calls : List Update} {name : String} :
    name ∈ valueNames calls ↔ ∃ u ∈ calls, ∃ e ∈ u.values, e.1 = name := by
  simp only [valueNames, List.mem_map, List.mem_flatMap]
  grind

section

variable {clients : List (List Update)} {calls calls' : List Update}

theorem disjoint_of_ne (apart : (clients.map valueNames).Pairwise List.Disjoint) {i j : Nat}
    {c d : List Update} (hij : j ≠ i) (hc : clients[i]? = some c) (hd : clients[j]? = some d) :
    List.Disjoint (valueNames d) (valueNames c) := by
  obtain ⟨hi, rfl⟩ := List.getElem?_eq_some_iff.mp hc
  obtain ⟨hj, rfl⟩ := List.getElem?_eq_some_iff.mp hd
  rw [List.pairwise_map, List.pairwise_iff_getElem] at apart
  obtain lt | lt := Nat.lt_or_gt_of_ne hij
  · exact apart j i hj hi lt
  · exact fun _ hd hc => apart i j hi hj lt hc hd

/-- A name that one client has for itself gets the value that this client sets last. -/
theorem lastValue?_eq (h : Interleaving clients calls)
    (apart : (clients.map valueNames).Pairwise List.Disjoint) {i : Nat} {c : List Update}
    (hc : clients[i]? = some c) {name : String} (hname : name ∈ valueNames c) :
    lastValue? calls name = lastValue? c name := by
  have others : ∀ j d, j ≠ i → clients[j]? = some d → ∀ u ∈ d,
      u.values.filter (·.1 = name) = [] := by
    intro j d hij hd u hu
    have elsewhere : name ∉ valueNames d := fun h => disjoint_of_ne apart hij hc hd h hname
    refine List.filter_eq_nil_iff.mpr fun e he => ?_
    simp only [decide_eq_true_eq]
    exact fun same => elsewhere (mem_valueNames_iff.mpr ⟨u, hu, e, he, same⟩)
  simp only [lastValue?, Table.last?_flatMap]
  rw [h.flatMap_eq hc others]

theorem mem_valueNames_interleaving (h : Interleaving clients calls) {name : String} :
    name ∈ valueNames calls ↔ ∃ c ∈ clients, name ∈ valueNames c := by
  simp only [mem_valueNames_iff, h.perm.mem_iff, List.mem_flatten]
  grind

/-- Clients that have no name in common set the same values in every order. -/
theorem lastValue?_congr (h : Interleaving clients calls) (h' : Interleaving clients calls')
    (apart : (clients.map valueNames).Pairwise List.Disjoint) (name : String) :
    lastValue? calls name = lastValue? calls' name := by
  by_cases set : ∃ c ∈ clients, name ∈ valueNames c
  · obtain ⟨c, mem, hname⟩ := set
    obtain ⟨i, hc⟩ := List.mem_iff_getElem?.mp mem
    rw [lastValue?_eq h apart hc hname, lastValue?_eq h' apart hc hname]
  · have absent : ∀ {calls}, Interleaving clients calls → lastValue? calls name = none :=
      fun h => Option.not_isSome_iff_eq_none.mp fun some =>
        set ((mem_valueNames_interleaving h).mp (isSome_lastValue?_iff.mp some))
    rw [absent h, absent h']

theorem insertAll_congr (h : Interleaving clients calls) (h' : Interleaving clients calls')
    (apart : (clients.map valueNames).Pairwise List.Disjoint) (t : Table String) :
    t.insertAll (calls.flatMap Update.values) = t.insertAll (calls'.flatMap Update.values) := by
  refine Table.ext_get? fun name => ?_
  rw [get?_insertAll_values, get?_insertAll_values, lastValue?_congr h h' apart]

end

section

variable {clients : List (List Update)} {calls calls' : List (Update × Timestamp)}
  (keep : ∀ c ∈ clients, ∀ u ∈ c, u.context? = none)
  (apart : (clients.map valueNames).Pairwise List.Disjoint)
  (h : Interleaving clients (calls.map (·.1))) (h' : Interleaving clients (calls'.map (·.1)))

include h in
theorem length_interleaving : calls.length = clients.flatten.length := by
  rw [← h.perm.length_eq, List.length_map]

include h in
theorem eq_nil_interleaving_iff : calls = [] ↔ clients.flatten = [] := by
  rw [← List.length_eq_zero_iff, length_interleaving h, List.length_eq_zero_iff]

include keep h in
theorem context?_eq_none : ∀ call ∈ calls, call.1.context? = none := by
  intro call mem
  have mem : call.1 ∈ clients.flatten := h.perm.mem_iff.mp (List.mem_map_of_mem mem)
  obtain ⟨c, hc, hu⟩ := List.mem_flatten.mp mem
  exact keep c hc call.1 hu

include keep apart h h'

/-- Clients that keep the context and have no name in common lead to the same design in every
order. -/
theorem params_updatedBy_congr (s : Session) :
    (updatedBy s calls).params = (updatedBy s calls').params := by
  rw [params_updatedBy s (context?_eq_none keep h), params_updatedBy s (context?_eq_none keep h'),
    insertAll_congr h h' apart]

theorem tokens_updatedBy_congr (s : Session) :
    (updatedBy s calls).tokens = (updatedBy s calls').tokens := by
  by_cases none : clients.flatten = []
  · rw [(eq_nil_interleaving_iff h).mpr none, (eq_nil_interleaving_iff h').mpr none]
  · rw [tokens_updatedBy s (mt (eq_nil_interleaving_iff h).mp none),
      tokens_updatedBy s (mt (eq_nil_interleaving_iff h').mp none),
      params_updatedBy_congr keep apart h h']

omit h'

/-- The value that a client sets last under a name of its own is the value of the session and its
token of this name. -/
theorem get?_updatedBy_of_mem (s : Session) {c : List Update} (hc : c ∈ clients) {name : String}
    (hname : name ∈ valueNames c) :
    ∃ v, lastValue? c name = some v ∧ (updatedBy s calls).overrides.get? name = some v ∧
      (updatedBy s calls).tokens.get? name = some v := by
  obtain ⟨v, hv⟩ := Option.isSome_iff_exists.mp (isSome_lastValue?_iff.mpr hname)
  obtain ⟨i, hi⟩ := List.mem_iff_getElem?.mp hc
  have last : lastValue? (calls.map (·.1)) name = some v :=
    (lastValue?_eq h apart hi hname).trans hv
  have set : (updatedBy s calls).params.overrides.get? name = some v := by
    rw [params_updatedBy s (context?_eq_none keep h), get?_insertAll_values, last, Option.some_or]
  have called : calls ≠ [] := by
    rintro rfl
    cases last
  refine ⟨v, hv, set, ?_⟩
  rw [tokens_updatedBy s called, Design.Params.get?_tokens, set, Option.some_or]

end

/-- All requests for one session give the session that the first of them finds or makes. -/
theorem answers_requests (r : Registry) (id context : String) (now : Timestamp)
    (calls : List (String × Timestamp)) :
    (r.serve (requests id ((context, now) :: calls))).1 =
      List.replicate (calls.length + 1)
        (.session ((r.get? id).getD (.make id context .web now))) := by
  induction calls generalizing r context now with
  | nil =>
    simp only [requests, List.map_cons, List.map_nil, serve, apply_getOrCreate]
    rfl
  | cons call calls ih =>
    rw [requests, List.map_cons]
    simp only [serve, apply_getOrCreate]
    rw [← requests, ih, get?_assign_self]
    rfl

/-- Clients that share the session with an id. However their updates come, when these set values by
hand or only make the tokens anew each of them adds a revision up to the last one; and where no two clients set a value
of one name, the values and the tokens behind them are the same in every order and have for each
name of a client the value that it sets last. Requests for a session that is not there, whoever
makes them in whatever order, all give the one that the first of them makes. -/
theorem clients_interleave (r : Registry) (id : String) :
    (∀ s clients, r.get? id = some s → (∀ c ∈ clients, ∀ u ∈ c, u.context? = none) →
      (∀ calls : List (Update × Timestamp), Interleaving clients (calls.map (·.1)) →
        ∃ t, (r.serve (updates id calls)).2.get? id = some t ∧
          t.revision.toNat =
            min (s.revision.toNat + clients.flatten.length) (UInt64.size - 1) ∧
          (s.revision.toNat + clients.flatten.length < UInt64.size →
            t.revision.toNat = s.revision.toNat + clients.flatten.length)) ∧
      ((clients.map valueNames).Pairwise List.Disjoint →
        ∃ (overrides : Table String) (tokens : Design.Tokens),
          (∀ calls : List (Update × Timestamp), Interleaving clients (calls.map (·.1)) →
            ∃ t, (r.serve (updates id calls)).2.get? id = some t ∧ t.overrides = overrides ∧
              t.tokens = tokens) ∧
          ∀ c ∈ clients, ∀ name ∈ valueNames c, ∃ v, lastValue? c name = some v ∧
            overrides.get? name = some v ∧ tokens.get? name = some v)) ∧
    (r.get? id = none → ∀ context now calls,
      (r.serve (requests id ((context, now) :: calls))).1 =
        List.replicate (calls.length + 1) (.session (.make id context .web now))) := by
  refine ⟨fun s clients hs keep => ⟨fun calls h => ?_, fun apart => ?_⟩,
    fun absent context now calls => ?_⟩
  · have revision : (updatedBy s calls).revision.toNat =
        min (s.revision.toNat + clients.flatten.length) (UInt64.size - 1) := by
      rw [toNat_revision_updatedBy, length_interleaving h]
    exact ⟨_, get?_serve_updates hs calls, revision,
      fun bound => revision.trans (Nat.min_eq_left (Nat.le_sub_one_of_lt bound))⟩
  · -- every order is compared with the one in which the clients come one after the other
    let calls₀ := clients.flatten.map fun u => (u, s.updatedAt)
    have turns : Interleaving clients (calls₀.map (·.1)) := by
      have inTurn : calls₀.map (·.1) = clients.flatten := by
        rw [List.map_map]
        exact List.map_id _
      rw [inTurn]
      exact .flatten clients
    refine ⟨(updatedBy s calls₀).overrides, (updatedBy s calls₀).tokens, fun calls h => ?_,
      fun c hc name hname => get?_updatedBy_of_mem keep apart turns s hc hname⟩
    exact ⟨_, get?_serve_updates hs calls,
      congrArg (·.overrides) (params_updatedBy_congr keep apart h turns s),
      tokens_updatedBy_congr keep apart h turns s⟩
  · rw [answers_requests, absent, Option.getD_none]

theorem clients_interleave_cart :
    let r := run [.getOrCreate "cart" "shop" ⟨1, 0⟩]
    let round (radius : String) : Update := .override (.ofList [("radius-sm", radius)])
    let wide : Update := .override (.ofList [("spacing-md", "20px")])
    let clients := [[round "2px", round "3px"], [wide, .refresh]]
    let calls : List (Update × Timestamp) :=
      [(round "2px", ⟨2, 0⟩), (wide, ⟨2, 5⟩), (.refresh, ⟨3, 0⟩), (round "3px", ⟨4, 0⟩)]
    Interleaving clients (calls.map (·.1)) ∧
    (∃ t, (r.serve (updates "cart" calls)).2.get? "cart" = some t ∧ t.revision.toNat = 4 ∧
      t.tokens.get? "radius-sm" = some "3px" ∧ t.tokens.get? "spacing-md" = some "20px") ∧
    (r.serve (requests "menu" [("shop", ⟨5, 0⟩), ("bank", ⟨6, 0⟩)])).1 =
      [.session (.make "menu" "shop" .web ⟨5, 0⟩), .session (.make "menu" "shop" .web ⟨5, 0⟩)] := by
  intro r round wide clients calls
  have there : r.get? "cart" = some (.make "cart" "shop" .web ⟨1, 0⟩) := rfl
  have order : Interleaving clients (calls.map (·.1)) :=
    .step (i := 0) rfl <| .step (i := 1) rfl <| .step (i := 1) rfl <| .step (i := 0) rfl <|
      .done (by simp [clients])
  have keep : ∀ c ∈ clients, ∀ u ∈ c, u.context? = none := by
    simp [clients, round, wide, Update.context?]
  have apart : (clients.map valueNames).Pairwise List.Disjoint := by
    have names : clients.map valueNames = [["radius-sm", "radius-sm"], ["spacing-md"]] := rfl
    rw [names, List.pairwise_pair]
    intro name radius spacing
    obtain rfl := List.mem_singleton.mp spacing
    exact absurd radius (by decide)
  obtain ⟨counted, same⟩ := (clients_interleave r "cart").1 _ clients there keep
  obtain ⟨t, stored, -, revision⟩ := counted calls order
  obtain ⟨overrides, tokens, final, values⟩ := same apart
  obtain ⟨t', stored', -, rfl⟩ := final calls order
  obtain rfl : t = t' := Option.some.inj (stored.symm.trans stored')
  refine ⟨order, ⟨t, stored, revision (by decide), ?_, ?_⟩, ?_⟩
  · obtain ⟨v, last, -, token⟩ := values [round "2px", round "3px"] (by simp [clients])
      "radius-sm" (by decide)
    exact token.trans last.symm
  · obtain ⟨v, last, -, token⟩ := values [wide, .refresh] (by simp [clients])
      "spacing-md" (by decide)
    exact token.trans last.symm
  · exact (clients_interleave r "menu").2 rfl "shop" ⟨5, 0⟩ [("bank", ⟨6, 0⟩)]

end Wireframe.Registry
