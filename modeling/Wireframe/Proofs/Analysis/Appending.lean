import Wireframe.Proofs.Analysis.Naming

/-!
# Documents that grow

What is written behind an outline leaves its components, their ids and what is reported about them
as they are, unless it asks for an id that was made up for one of them (`document?_append`). The
ids that are written behind are kept from being made up from the start, so the same elements are
met by two allocators, of which one has more ids taken; they hand out the same ids all the same.
-/

namespace Wireframe

namespace Tree

variable {α β γ : Type}

mutual

theorem eq_of_map_eq {f : α → β} {g : α → γ} (hfg : ∀ a b, f a = f b → g a = g b → a = b)
    (t u : Tree α) (hf : t.map f = u.map f)
    (hg : t.preorder.map (fun v => g v.value) = u.preorder.map (fun v => g v.value)) : t = u := by
  match t, u with
  | node a ts, node b us =>
    rw [map, map] at hf
    rw [preorder, preorder, List.map_cons, List.map_cons] at hg
    obtain ⟨shape, shapes⟩ := node.inj hf
    obtain ⟨name, names⟩ := List.cons.inj hg
    rw [hfg a b shape name, eq_of_mapAll_eq hfg ts us shapes names]

/-- A forest is known by its shape and its names when these tell its values apart. -/
theorem eq_of_mapAll_eq {f : α → β} {g : α → γ} (hfg : ∀ a b, f a = f b → g a = g b → a = b)
    (ts us : List (Tree α)) (hf : mapAll f ts = mapAll f us)
    (hg : (preorderAll ts).map (fun v => g v.value) = (preorderAll us).map (fun v => g v.value)) :
    ts = us := by
  match ts, us with
  | [], [] => rfl
  | [], _ :: _ => cases hf
  | _ :: _, [] => cases hf
  | t :: ts, u :: us =>
    rw [mapAll, mapAll] at hf
    rw [preorderAll, preorderAll, List.map_append, List.map_append] at hg
    obtain ⟨shape, shapes⟩ := List.cons.inj hf
    have sizes : (t.preorder.map (fun v => g v.value)).length =
        (u.preorder.map (fun v => g v.value)).length := by
      have nodes := congrArg (fun v => v.preorder.length) shape
      simpa [preorder_map] using nodes
    obtain ⟨first, more⟩ := List.append_inj hg sizes
    rw [eq_of_map_eq hfg t u shape first, eq_of_mapAll_eq hfg ts us shapes more]

end

end Tree

namespace Analysis

open Identifier

/-- One allocator has more ids taken than another and is the same otherwise. -/
structure Extends (extra : List String) (a b : Allocator) : Prop where
  used : b.used = a.used
  counters : b.counters = a.counters
  taken : ∀ id, id ∈ b.taken ↔ id ∈ a.taken ∨ id ∈ extra

namespace Extends

variable {extra : List String} {a b : Allocator}

theorem use (h : Extends extra a b) (id : String) : Extends extra (a.use id) (b.use id) where
  used := congrArg (·.insert id) h.used
  counters := h.counters
  taken := by
    intro other
    rw [Allocator.use, Allocator.use, Std.TreeSet.mem_insert, Std.TreeSet.mem_insert, h.taken,
      or_assoc]

/-- The least free number stays the least one when its name is not among the ids that are taken
besides. -/
theorem least_eq (h : Extends extra a b) {name : Nat → String} {k m n : Nat}
    (hn : Least (fun i => name i ∉ a.taken) k n) (hm : Least (fun i => name i ∉ b.taken) k m)
    (free : name n ∉ extra) : m = n := by
  have apart := fun i => (not_congr (h.taken (name i))).trans not_or
  exact hm.unique (hn.anti ((apart n).mpr ⟨hn.holds, free⟩) fun i hi => ((apart i).mp hi).1)

theorem generate (h : Extends extra a b) (kind : Kind) (free : (a.generate kind).1 ∉ extra) :
    (b.generate kind).1 = (a.generate kind).1 ∧
      Extends extra (a.generate kind).2 (b.generate kind).2 := by
  obtain ⟨n, hn, ofA⟩ := a.generate_eq kind
  obtain ⟨m, hm, ofB⟩ := b.generate_eq kind
  have counter : b.counter kind = a.counter kind :=
    congrArg (fun cs => (cs.lookup kind).getD 0) h.counters
  rw [counter] at hm
  rw [ofA] at free ⊢
  rw [ofB, h.least_eq hn hm free, h.counters]
  exact ⟨rfl, (h.use _).used, rfl, (h.use _).taken⟩

/-- The step: an element gets the same id, and the same is said about it. -/
theorem assignId (h : Extends extra a b) (e : Element) (kind : Kind)
    (free : e.cleanId? ≠ some (assignId a e kind).1 → (assignId a e kind).1 ∉ extra) :
    (assignId b e kind).1 = (assignId a e kind).1 ∧
      (assignId b e kind).2.1 = (assignId a e kind).2.1 ∧
      Extends extra (assignId a e kind).2.2 (assignId b e kind).2.2 := by
  cases asks : e.cleanId? with
  | none =>
    rw [assignId_of_none asks a] at free ⊢
    obtain ⟨same, extends_⟩ := h.generate kind (free (by rw [asks]; exact nofun))
    rw [assignId_of_none asks b, same]
    exact ⟨rfl, rfl, extends_⟩
  | some x =>
    by_cases hu : x ∈ a.used
    · obtain ⟨n, hn, ofA⟩ := assignId_of_mem asks hu kind
      obtain ⟨m, hm, ofB⟩ := assignId_of_mem asks (h.used ▸ hu) kind
      rw [ofA] at free ⊢
      have other : e.cleanId? ≠ some s!"{x}-{n}" := by
        rw [asks]
        exact fun he => numbered_ne x n (Option.some.inj he)
      rw [ofB, h.least_eq hn hm (free other)]
      exact ⟨rfl, rfl, h.use _⟩
    · rw [assignId_of_not_mem asks hu, assignId_of_not_mem asks (h.used ▸ hu)]
      exact ⟨rfl, rfl, h.use x⟩

end Extends

section

variable {extra : List String} {a b : Allocator} (strict : Bool) (target : Platform)

/-- Two records of a run that differ in nothing but the ids that are taken besides. -/
structure SameBut (extra : List String) (v w : Visited) : Prop where
  named : w.named = v.named
  problems : w.problems = v.problems
  ids : Extends extra v.ids w.ids

theorem sameBut_visit (h : Extends extra a b) (x : Element × Option Kind)
    (free : ∀ p ∈ (visit strict target a x).named, p.1.cleanId? ≠ some p.2 → p.2 ∉ extra) :
    SameBut extra (visit strict target a x) (visit strict target b x) := by
  obtain ⟨e, parent⟩ := x
  cases hk : Vocabulary.kindOf? e.tag with
  | none =>
    rw [visit_of_unknown strict target a parent hk, visit_of_unknown strict target b parent hk]
    exact ⟨rfl, rfl, h⟩
  | some kind =>
    cases hd : isDropped strict parent kind with
    | true =>
      rw [visit_of_dropped strict target a hk hd, visit_of_dropped strict target b hk hd]
      exact ⟨rfl, rfl, h⟩
    | false =>
      rw [visit_of_kept strict target a hk hd] at free ⊢
      obtain ⟨id, problems, ids⟩ := h.assignId e kind (free _ (List.mem_singleton_self _))
      rw [visit_of_kept strict target b hk hd, id, problems]
      exact ⟨rfl, rfl, ids⟩

/-- The run: all elements get the same ids, and the same is said about them. -/
theorem sameBut_visitAll (h : Extends extra a b) (xs : List (Element × Option Kind))
    (free : ∀ p ∈ (visitAll strict target a xs).named, p.1.cleanId? ≠ some p.2 → p.2 ∉ extra) :
    SameBut extra (visitAll strict target a xs) (visitAll strict target b xs) := by
  induction xs generalizing a b with
  | nil => exact ⟨rfl, rfl, h⟩
  | cons x xs ih =>
    obtain ⟨here, later⟩ := List.forall_mem_append.mp free
    have first := sameBut_visit strict target h x here
    have more := ih first.ids later
    refine ⟨?_, ?_, more.ids⟩
    · simp only [visitAll, first.named, more.named]
    · simp only [visitAll, first.problems, more.problems]

end

theorem trees_append (strict : Bool) (target : Platform) (parent : Option Kind) (ids : Allocator)
    (ts us : List (Tree Element)) :
    trees strict target parent ids (ts ++ us) =
      let first := trees strict target parent ids ts
      let more := trees strict target parent first.ids us
      ⟨first.trees ++ more.trees, first.problems ++ more.problems, more.ids⟩ := by
  induction ts generalizing ids with
  | nil => rfl
  | cons t ts ih => simp only [List.cons_append, trees, ih, List.append_assoc]

theorem extends_reserve (xs ys : List String) :
    Extends ys (xs.foldl Allocator.reserve .empty) ((xs ++ ys).foldl Allocator.reserve .empty) where
  used := by rw [Allocator.used_foldl_reserve, Allocator.used_foldl_reserve]
  counters := by rw [Allocator.counters_foldl_reserve, Allocator.counters_foldl_reserve]
  taken := by
    intro id
    rw [Allocator.mem_taken_foldl_reserve, Allocator.mem_taken_foldl_reserve, List.mem_append]
    exact or_right_comm

theorem writtenIds_append (A B : Outline) : writtenIds (A ++ B) = writtenIds A ++ writtenIds B := by
  rw [writtenIds, Tree.preorderAll_append, List.filterMap_append]
  rfl

theorem Assigned.ne_noComponents {a b : Allocator} {e : Element} {id : String}
    {problems : List Diagnostic} (h : Assigned a e id problems b) :
    ∀ d ∈ problems, d.problem ≠ .noComponents := by
  intro d hd
  cases h with
  | granted => cases hd
  | renamed =>
    cases List.mem_singleton.mp hd
    exact nofun
  | made _ _ unusable _ _ =>
    obtain ⟨w, hw⟩ := unusable d hd
    rw [hw]
    exact nofun

theorem visit_ne_noComponents (strict : Bool) (target : Platform) (ids : Allocator)
    (x : Element × Option Kind) :
    ∀ d ∈ (visit strict target ids x).problems, d.problem ≠ .noComponents := by
  obtain ⟨e, parent⟩ := x
  cases hk : Vocabulary.kindOf? e.tag with
  | none =>
    rw [visit_of_unknown strict target ids parent hk]
    split
    · exact List.forall_mem_nil _
    · exact List.forall_mem_singleton.mpr nofun
  | some kind =>
    have remarks : ∀ d ∈ placement strict parent kind e.location ++
        platformProblems target kind e.location ++ e.entryProblems,
        d.problem ≠ .noComponents := by
      intro d hd none
      rcases problem_of_mem_remarks strict target hd with place | platform | entry
      · rw [none] at place
        cases place
      · cases none.symm.trans platform
      · cases none.symm.trans entry
    cases hd : isDropped strict parent kind with
    | true =>
      rw [visit_of_dropped strict target ids hk hd]
      exact fun d hd => remarks d (List.mem_append_left _ (List.mem_append_left _ hd))
    | false =>
      rw [visit_of_kept strict target ids hk hd]
      exact List.forall_mem_append.mpr ⟨remarks, (assigned ids e kind).ne_noComponents⟩

/-- What is said about elements is not that there are none. -/
theorem components_ne_noComponents (o : Outline) (options : Options) :
    ∀ d ∈ (components o options).problems, d.problem ≠ .noComponents := by
  rw [(leftBehind_components o options).problems, visited]
  generalize (writtenIds o).foldl Allocator.reserve .empty = ids
  induction visitsAll options.strict none o generalizing ids with
  | nil => exact List.forall_mem_nil _
  | cons x xs ih =>
    rw [visitAll]
    exact List.forall_mem_append.mpr ⟨visit_ne_noComponents _ _ ids x, ih _⟩

theorem filter_document?_ne (o : Outline) (options : Options) :
    (document? o options).2.filter (·.problem ≠ .noComponents) =
      (components o options).problems := by
  have kept : (components o options).problems.filter (·.problem ≠ .noComponents) =
      (components o options).problems :=
    List.filter_eq_self.mpr fun d hd => decide_eq_true (components_ne_noComponents o options d hd)
  rw [document?_snd, List.filter_append, kept]
  split
  · exact List.append_nil _
  · exact List.append_nil _

/-- What is written behind an outline changes nothing about it unless it asks for an id that was made
up in it. -/
theorem components_append {A B : Outline} {options : Options}
    (free : ∀ p ∈ named A options, p.1.cleanId? ≠ some p.2 → p.2 ∉ writtenIds B) :
    let whole := (writtenIds (A ++ B)).foldl Allocator.reserve .empty
    let first := trees options.strict options.target none whole A
    first.trees = (components A options).trees ∧
      first.problems = (components A options).problems := by
  intro whole first
  have reserved : Extends (writtenIds B) ((writtenIds A).foldl Allocator.reserve .empty) whole := by
    have both := extends_reserve (writtenIds A) (writtenIds B)
    rwa [← writtenIds_append] at both
  rw [named_eq] at free
  have same := sameBut_visitAll options.strict options.target reserved _ free
  have alone := leftBehind_components A options
  have behind : LeftBehind first _ := trees_eq_visitAll options.strict options.target none whole A
  refine ⟨?_, behind.problems.trans (same.problems.trans alone.problems.symm)⟩
  have shape := mapAll_treesOf options.target options.strict none whole A
  have shape' := mapAll_treesOf options.target options.strict none
    ((writtenIds A).foldl Allocator.reserve .empty) A
  refine Tree.eq_of_mapAll_eq (g := Component.id) ?_ _ _ (shape.trans shape'.symm) ?_
  · rintro ⟨kind, id, props⟩ ⟨kind', id', props'⟩ hs rfl
    cases hs
    rfl
  · exact (behind.ids_trees.trans (congrArg _ same.named)).trans alone.ids_trees.symm

/-- An outline that something is written behind keeps its components with their ids, and what is
reported about it, as long as nothing behind asks for an id that was made up for one of them. -/
theorem document?_append (A B : Outline) (options : Options)
    (free : ∀ p ∈ named A options, p.1.cleanId? ≠ some p.2 → p.2 ∉ writtenIds B) :
    (document? A options).1.elim [] Document.children <+:
        (document? (A ++ B) options).1.elim [] Document.children ∧
      (document? A options).2.filter (·.problem ≠ .noComponents) <+:
        (document? (A ++ B) options).2 := by
  obtain ⟨same, problems⟩ := components_append free
  have whole := trees_append options.strict options.target none
    ((writtenIds (A ++ B)).foldl Allocator.reserve .empty) A B
  rw [← components] at whole
  constructor
  · rw [children_document?, children_document?, whole, ← same]
    exact List.prefix_append _ _
  · rw [filter_document?_ne, ← problems, document?_snd, whole, List.append_assoc]
    exact List.prefix_append _ _

/-- An outline that asks for an id that another one asks for too, and for one made up. -/
def behind : Outline :=
  [.node (.bare "CARD" (.id "a") .nowhere) [.node (.bare "TEXT" .none .nowhere) []]]

theorem document?_append_colliding :
    (∀ p ∈ named colliding {}, p.1.cleanId? ≠ some p.2 → p.2 ∉ writtenIds behind) ∧
      (named (colliding ++ behind) {}).map (fun p => (p.1.cleanId?, p.2)) =
        [(some "a", "a"), (some "a", "a-3"), (none, "text_2"), (some "text_1", "text_1"),
          (some "a-2", "a-2"), (some "a", "a-4"), (none, "text_3")] ∧
      (document? colliding {}).1.elim [] Document.children <+:
        (document? (colliding ++ behind) {}).1.elim [] Document.children ∧
      (document? colliding {}).2.filter (·.problem ≠ .noComponents) <+:
        (document? (colliding ++ behind) {}).2 := by
  have free : ∀ p ∈ named colliding {}, p.1.cleanId? ≠ some p.2 → p.2 ∉ writtenIds behind := by
    decide +kernel
  exact ⟨free, by decide +kernel, document?_append colliding behind {} free⟩

end Analysis

end Wireframe
