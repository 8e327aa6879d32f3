import Wireframe.Proofs.Analysis.Visits

/-!
# Who gets which id

Of the elements that ask for one id the first gets it, and each later one gets it with the least
number behind it that is free; an element that asks for none gets an id that nobody asks for. What
counts as free is told by the ids that were given before and by all the ids that are written
(`ids_honoured`).
-/

namespace Wireframe

/-- Whether a problem is an id that was given already. -/
def Problem.isDuplicateId : Problem → Bool
  | .duplicateId .. => true
  | _ => false

namespace Analysis

open Identifier

/-- The ids that an element may get when those `before` it got theirs and the `written` ones are
kept for who asks for them. -/
inductive Honours (written : List String) (before : List (Element × String)) (e : Element) :
    String → Prop
  /-- The first to ask for an id gets it. -/
  | first {x : String} (asks : e.cleanId? = some x) (new : ∀ p ∈ before, p.1.cleanId? ≠ some x) :
    Honours written before e x
  /-- A later one gets the least numbered one that was not given before and is not written. -/
  | again {x : String} {n : Nat} (asks : e.cleanId? = some x)
      (asked : ∃ p ∈ before, p.1.cleanId? = some x)
      (least : Least (fun m => s!"{x}-{m}" ∉ before.map Prod.snd ∧ s!"{x}-{m}" ∉ written) 2 n) :
    Honours written before e s!"{x}-{n}"
  /-- Who asks for none gets no id that is written. -/
  | made {id : String} (asks : e.cleanId? = none) (free : id ∉ written) :
    Honours written before e id

/-- The warning about an element that does not get the id it asks for. -/
def renaming? (p : Element × String) : Option Diagnostic :=
  p.1.cleanId?.bind fun x =>
    if x = p.2 then none else some ⟨.duplicateId x p.2, p.1.location⟩

/-- What an allocator does about an element. -/
inductive Assigned (a : Allocator) (e : Element) : String → List Diagnostic → Allocator → Prop
  | granted {x : String} (asks : e.cleanId? = some x) (new : x ∉ a.used) :
    Assigned a e x [] (a.use x)
  | renamed {x : String} {n : Nat} (asks : e.cleanId? = some x) (old : x ∈ a.used)
      (least : Least (fun m => s!"{x}-{m}" ∉ a.taken) 2 n) :
    Assigned a e s!"{x}-{n}" [⟨.duplicateId x s!"{x}-{n}", e.location⟩] (a.use s!"{x}-{n}")
  | made {id : String} {problems : List Diagnostic} {b : Allocator} (asks : e.cleanId? = none)
      (free : id ∉ a.taken) (unusable : ∀ d ∈ problems, ∃ w, d.problem = .unusableId w id)
      (used : b.used = a.used.insert id) (taken : b.taken = a.taken.insert id) :
    Assigned a e id problems b

theorem assignId_of_not_mem {a : Allocator} {e : Element} {x : String}
    (asks : e.cleanId? = some x) (new : x ∉ a.used) (kind : Kind) :
    assignId a e kind = (x, [], a.use x) := by
  obtain ⟨written, hw, hs⟩ := Option.bind_eq_some_iff.mp asks
  simp only [assignId, hw, hs, Allocator.claim_of_not_mem new]

theorem assignId_of_mem {a : Allocator} {e : Element} {x : String}
    (asks : e.cleanId? = some x) (old : x ∈ a.used) (kind : Kind) :
    ∃ n, Least (fun m => s!"{x}-{m}" ∉ a.taken) 2 n ∧
      assignId a e kind =
        (s!"{x}-{n}", [⟨.duplicateId x s!"{x}-{n}", e.location⟩], a.use s!"{x}-{n}") := by
  obtain ⟨written, hw, hs⟩ := Option.bind_eq_some_iff.mp asks
  obtain ⟨n, least, claimed⟩ := Allocator.claim_of_mem old
  exact ⟨n, least, by simp only [assignId, hw, hs, claimed]⟩

theorem assignId_of_none {e : Element} (asks : e.cleanId? = none) (a : Allocator) (kind : Kind) :
    assignId a e kind =
      ((a.generate kind).1,
        (e.writtenId?.map fun w => ⟨.unusableId w (a.generate kind).1, e.location⟩).toList,
        (a.generate kind).2) := by
  cases hw : e.writtenId? with
  | none =>
    simp only [assignId, hw]
    rfl
  | some written =>
    have unusable : sanitize? written = none := by simpa [Element.cleanId?, hw] using asks
    simp only [assignId, hw, unusable]
    rfl

theorem assigned (a : Allocator) (e : Element) (kind : Kind) :
    Assigned a e (assignId a e kind).1 (assignId a e kind).2.1 (assignId a e kind).2.2 := by
  cases asks : e.cleanId? with
  | none =>
    obtain ⟨n, least, generated⟩ := a.generate_eq kind
    rw [assignId_of_none asks, generated]
    refine .made asks least.holds (fun d hd => ?_) rfl rfl
    obtain ⟨written, -, rfl⟩ := Option.map_eq_some_iff.mp (Option.mem_toList.mp hd)
    exact ⟨written, rfl⟩
  | some x =>
    by_cases hu : x ∈ a.used
    · obtain ⟨n, least, given⟩ := assignId_of_mem asks hu kind
      rw [given]
      exact .renamed asks hu least
    · rw [assignId_of_not_mem asks hu]
      exact .granted asks hu

theorem numbered_ne (x : String) (n : Nat) : x ≠ s!"{x}-{n}" := by
  intro he
  have lengths : x.length = (x ++ "-" ++ toString n).length := congrArg String.length he
  rw [String.length_append, String.length_append] at lengths
  have : "-".length = 1 := rfl
  omega

namespace Assigned

variable {a b : Allocator} {e : Element} {id : String} {problems : List Diagnostic}

theorem used (h : Assigned a e id problems b) : b.used = a.used.insert id := by
  cases h with
  | granted | renamed => rfl
  | made _ _ _ used _ => exact used

theorem taken (h : Assigned a e id problems b) : b.taken = a.taken.insert id := by
  cases h with
  | granted | renamed => rfl
  | made _ _ _ _ taken => exact taken

/-- A warning about an id that was given already is about an element that does not get the id it asks
for. -/
theorem filter_isDuplicateId (h : Assigned a e id problems b) :
    problems.filter (·.problem.isDuplicateId) = (renaming? (e, id)).toList := by
  cases h with
  | granted asks _ => simp [renaming?, asks]
  | @renamed x n asks _ _ =>
    have refused : renaming? (e, s!"{x}-{n}") =
        some ⟨.duplicateId x s!"{x}-{n}", e.location⟩ := by
      rw [renaming?, asks, Option.bind_some, if_neg (numbered_ne x n)]
    rw [refused]
    rfl
  | made asks _ unusable _ _ =>
    have quiet : problems.filter (·.problem.isDuplicateId) = [] := by
      refine List.filter_eq_nil_iff.mpr fun d hd => ?_
      obtain ⟨w, hw⟩ := unusable d hd
      simp [hw, Problem.isDuplicateId]
    rw [quiet]
    simp [renaming?, asks]

end Assigned

/-- What an allocator knows about the elements that got their ids `before`: which ids these are, and
which of the `written` ids were asked for. -/
structure Records (written : List String) (before : List (Element × String)) (a : Allocator) :
    Prop where
  used : ∀ id, id ∈ a.used ↔ id ∈ before.map Prod.snd
  taken : ∀ id, id ∈ a.taken ↔ id ∈ before.map Prod.snd ∨ id ∈ written
  asked : ∀ x ∈ written, x ∈ before.map Prod.snd ↔ ∃ p ∈ before, p.1.cleanId? = some x

namespace Records

variable {written : List String} {before : List (Element × String)} {a : Allocator}

theorem honours (h : Records written before a) {e : Element} {id : String}
    {problems : List Diagnostic} {b : Allocator} (given : Assigned a e id problems b)
    (hw : ∀ x, e.cleanId? = some x → x ∈ written) : Honours written before e id := by
  cases given with
  | granted asks new =>
    refine .first asks fun p hp hx => new ?_
    exact (h.used _).mpr ((h.asked _ (hw _ asks)).mpr ⟨p, hp, hx⟩)
  | @renamed x n asks old least =>
    refine .again asks ((h.asked x (hw x asks)).mp ((h.used x).mp old)) ?_
    have apart := fun m : Nat => (not_congr (h.taken s!"{x}-{m}")).trans not_or
    exact least.anti ((apart _).mp least.holds) fun m => (apart m).mpr
  | made asks free => exact .made asks fun hid => free ((h.taken _).mpr (.inr hid))

theorem snoc (h : Records written before a) {e : Element} {id : String} {b : Allocator}
    (given : Honours written before e id) (used : b.used = a.used.insert id)
    (taken : b.taken = a.taken.insert id) : Records written (before ++ [(e, id)]) b where
  used := by
    intro other
    rw [used, Std.TreeSet.mem_insert, Std.compare_eq_iff_eq, h.used]
    simp [or_comm, eq_comm]
  taken := by
    intro other
    rw [taken, Std.TreeSet.mem_insert, Std.compare_eq_iff_eq, h.taken]
    simp [or_comm, or_left_comm, eq_comm]
  asked := by
    intro x hx
    rw [List.map_append, List.mem_append, h.asked x hx]
    -- an id that is not the one asked for is not written
    have here : x = id ∨ (∃ p ∈ before, p.1.cleanId? = some x) ↔
        e.cleanId? = some x ∨ ∃ p ∈ before, p.1.cleanId? = some x := by
      cases given with
      | first asks new => simp [asks, eq_comm]
      | @again y n asks asked least =>
        have other : x ≠ s!"{y}-{n}" := fun he => least.holds.2 (he ▸ hx)
        have covered : e.cleanId? = some x → ∃ p ∈ before, p.1.cleanId? = some x := by
          intro hx
          cases asks.symm.trans hx
          exact asked
        exact (or_iff_right other).trans (or_iff_right_of_imp covered).symm
      | made asks free =>
        have other : x ≠ id := fun he => free (he ▸ hx)
        simp [asks, other]
    simpa [or_comm, or_and_right, exists_or] using here

end Records

/-- What else is said about a component is not about its id. -/
theorem filter_isDuplicateId_remarks (strict : Bool) (target : Platform) (parent : Option Kind)
    (e : Element) (kind : Kind) :
    (placement strict parent kind e.location ++ platformProblems target kind e.location ++
      e.entryProblems).filter (·.problem.isDuplicateId) = [] := by
  refine List.filter_eq_nil_iff.mpr fun d hd => ?_
  rcases problem_of_mem_remarks strict target hd with place | platform | entry
  · cases hp : d.problem <;> simp_all [Problem.isPlacement, Problem.isDuplicateId]
  · simp [platform, Problem.isDuplicateId]
  · simp [entry, Problem.isDuplicateId]

section

variable {written : List String} {before : List (Element × String)} {a : Allocator}
variable (strict : Bool) (target : Platform)

/-- What is kept up by a run over elements: each gets the right id, and a warning tells when it is
not the one asked for. -/
structure Named (written : List String) (before : List (Element × String)) (v : Visited) :
    Prop where
  honours : ∀ earlier p later, v.named = earlier ++ p :: later →
    Honours written (before ++ earlier) p.1 p.2
  warned : v.problems.filter (·.problem.isDuplicateId) = v.named.filterMap renaming?
  records : Records written (before ++ v.named) v.ids

theorem Named.silent {problems : List Diagnostic} (h : Records written before a)
    (quiet : problems.filter (·.problem.isDuplicateId) = []) :
    Named written before ⟨[], problems, a⟩ where
  honours := by simp
  warned := quiet
  records := by simpa using h

theorem Named.single {e : Element} {id : String} {remarks problems : List Diagnostic}
    {b : Allocator} (h : Records written before a) (given : Assigned a e id problems b)
    (hw : ∀ x, e.cleanId? = some x → x ∈ written)
    (quiet : remarks.filter (·.problem.isDuplicateId) = []) :
    Named written before ⟨[(e, id)], remarks ++ problems, b⟩ where
  honours := by
    intro earlier p later split
    cases earlier with
    | nil =>
      cases split
      rw [List.append_nil]
      exact h.honours given hw
    | cons q earlier => simp at split
  warned := by
    rw [List.filter_append, quiet, given.filter_isDuplicateId]
    cases hr : renaming? (e, id) <;> simp [hr]
  records := h.snoc (h.honours given hw) given.used given.taken

theorem Named.append {v w : Visited} (first : Named written before v)
    (more : Named written (before ++ v.named) w) :
    Named written before ⟨v.named ++ w.named, v.problems ++ w.problems, w.ids⟩ where
  honours := by
    intro earlier p later split
    rcases List.append_eq_append_iff.mp split with ⟨between, rfl, inMore⟩ | ⟨rest, inFirst, tail⟩
    · rw [← List.append_assoc]
      exact more.honours between p later inMore
    · cases rest with
      | nil =>
        have whole := more.honours [] p later tail.symm
        rwa [List.append_nil, inFirst, List.append_nil] at whole
      | cons q rest =>
        cases tail
        exact first.honours earlier p rest inFirst
  warned := by
    rw [List.filter_append, List.filterMap_append, first.warned, more.warned]
  records := by
    rw [← List.append_assoc]
    exact more.records

theorem named_visit (h : Records written before a) (x : Element × Option Kind)
    (hw : ∀ p ∈ (visit strict target a x).named, ∀ y, p.1.cleanId? = some y → y ∈ written) :
    Named written before (visit strict target a x) := by
  obtain ⟨e, parent⟩ := x
  cases hk : Vocabulary.kindOf? e.tag with
  | none =>
    rw [visit_of_unknown strict target a parent hk]
    exact .silent h (by split <;> rfl)
  | some kind =>
    have remarks := filter_isDuplicateId_remarks strict target parent e kind
    cases hd : isDropped strict parent kind with
    | true =>
      rw [visit_of_dropped strict target a hk hd]
      rw [List.append_assoc, List.filter_append] at remarks
      exact .silent h (List.append_eq_nil_iff.mp remarks).1
    | false =>
      rw [visit_of_kept strict target a hk hd] at hw ⊢
      exact .single h (assigned a e kind) (hw _ (List.mem_singleton_self _)) remarks

/-- The run: all elements get the right ids. -/
theorem named_visitAll (h : Records written before a) (xs : List (Element × Option Kind))
    (hw : ∀ p ∈ (visitAll strict target a xs).named, ∀ y, p.1.cleanId? = some y → y ∈ written) :
    Named written before (visitAll strict target a xs) := by
  induction xs generalizing a before with
  | nil => exact .silent h rfl
  | cons x xs ih =>
    obtain ⟨here, later⟩ := List.forall_mem_append.mp hw
    have first := named_visit strict target h x here
    exact first.append (ih first.records later)

end

theorem records_writtenIds (o : Outline) :
    Records (writtenIds o) [] ((writtenIds o).foldl Allocator.reserve .empty) where
  used := by
    intro id
    rw [Allocator.used_foldl_reserve]
    simp [Allocator.empty]
  taken := by
    intro id
    rw [Allocator.mem_taken_foldl_reserve]
    simp [Allocator.empty]
  asked := by simp

/-- The elements of an outline that become components, each with the id that it gets. -/
def named (o : Outline) (options : Options) : List (Element × String) :=
  ((Tree.preorderAll (survivors options.strict o)).map (·.value.2)).zip
    (((document? o options).1.elim [] Document.nodes).map (·.value.id))

/-- What is left behind by the elements of an outline. -/
def visited (o : Outline) (options : Options) : Visited :=
  visitAll options.strict options.target ((writtenIds o).foldl Allocator.reserve .empty)
    (visitsAll options.strict none o)

theorem leftBehind_components (o : Outline) (options : Options) :
    LeftBehind (components o options) (visited o options) :=
  trees_eq_visitAll options.strict options.target none _ o

theorem map_fst_visited (o : Outline) (options : Options) :
    (visited o options).named.map Prod.fst =
      (Tree.preorderAll (survivors options.strict o)).map (·.value.2) := by
  have met := filterMap_visitsAll options.strict none o
  rw [Option.map_none] at met
  rw [visited, map_fst_named, met, List.map_map]
  rfl

theorem named_eq (o : Outline) (options : Options) :
    named o options = (visited o options).named := by
  have ids : (((document? o options).1.elim [] Document.nodes).map (·.value.id)) =
      (visited o options).named.map Prod.snd := by
    rw [nodes_document?]
    exact (leftBehind_components o options).ids_trees
  rw [named, ← map_fst_visited, ids, List.zip_map']
  simp

/-- What an element asks for is among the ids that are written. -/
theorem mem_writtenIds_of_mem_visited {o : Outline} {options : Options} {p : Element × String}
    (hp : p ∈ (visited o options).named) {x : String} (asks : p.1.cleanId? = some x) :
    x ∈ writtenIds o := by
  have source : p.1 ∈ (visited o options).named.map Prod.fst := List.mem_map_of_mem hp
  rw [visited, map_fst_named] at source
  obtain ⟨y, hy, same⟩ := List.mem_map.mp source
  obtain ⟨z, hz, becomes⟩ := List.mem_filterMap.mp hy
  obtain ⟨kind, hk, kept⟩ := Option.bind_eq_some_iff.mp becomes
  obtain ⟨-, rfl⟩ : _ ∧ (kind, z.1) = y := by simpa using kept
  have met := (map_fst_visitsAll_sublist options.strict none o).subset (List.mem_map_of_mem hz)
  obtain ⟨t, ht, value⟩ := List.mem_map.mp met
  refine List.mem_filterMap.mpr ⟨t, ht, ?_⟩
  rw [value, hk, Option.isSome_some, if_pos rfl]
  exact (congrArg Element.cleanId? same).trans asks

theorem named_visited (o : Outline) (options : Options) :
    Named (writtenIds o) [] (visited o options) :=
  named_visitAll options.strict options.target (records_writtenIds o) _
    fun _ hp _ asks => mem_writtenIds_of_mem_visited hp asks

/-- The components of a document are the elements that survive. Each gets the id it asks for, or the
least one made of it that is free when it is not the first to ask, and then a single warning says
so; and what is written is given to nobody who does not ask for it. -/
theorem ids_honoured (o : Outline) (options : Options) :
    ((document? o options).1.elim [] Document.nodes).map
        (fun t => (t.value.kind, t.value.props)) =
      (Tree.preorderAll (survivors options.strict o)).map
        (fun t => (t.value.1, t.value.2.props t.value.1)) ∧
    (∀ before p after, named o options = before ++ p :: after →
      Honours (writtenIds o) before p.1 p.2) ∧
    (document? o options).2.filter (·.problem.isDuplicateId) =
      (named o options).filterMap renaming? := by
  have run := named_visited o options
  refine ⟨map_value_nodes o options, fun before p after split => ?_, ?_⟩
  · rw [named_eq] at split
    have right := run.honours before p after split
    rwa [List.nil_append] at right
  · rw [named_eq, ← run.warned, document?_snd, List.filter_append,
      (leftBehind_components o options).problems]
    split
    · exact List.append_nil _
    · exact List.append_nil _

theorem ids_honoured_colliding :
    (named colliding {}).map (fun p => (p.1.cleanId?, p.2)) =
        [(some "a", "a"), (some "a", "a-3"), (none, "text_2"), (some "text_1", "text_1"),
          (some "a-2", "a-2")] ∧
      (document? colliding {}).2.filter (·.problem.isDuplicateId) =
        [⟨.duplicateId "a" "a-3", .nowhere⟩] :=
  ⟨by decide +kernel, (ids_honoured colliding {}).2.2.trans (by decide +kernel)⟩

end Analysis

end Wireframe
