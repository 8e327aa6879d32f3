import Wireframe.Document.Basic
import Wireframe.Proofs.Forest

/-!
# Walks in preorder

What a walk has yet to visit is the preorder of the trees that are pending on its stack, and one
step takes the first node off that (`Walk.next_remaining`). So every step of a walk is known
beforehand (`Walk.next_after`), and what a walk of a tree visits until its end is the recursive
preorder (`walk_eq_preorder`).

That no node is visited twice is told by positions, since two subtrees of a tree may be equal. The
positions of a tree are those at which it has a subtree, and in preorder they ascend
(`mem_positions`, `positions_ascend`).
-/

namespace Wireframe

namespace Tree

variable {α : Type}

namespace Walk

/-- What a walk has yet to visit. -/
def remaining (w : Walk α) : List (Tree α) :=
  preorderAll w.pending

/-- A walk after some of its steps. -/
def after (w : Walk α) : Nat → Walk α
  | 0 => w
  | n + 1 => w.next.2.after n

/-- A step visits the first node that a walk has yet to visit and leaves the others. -/
theorem next_remaining (w : Walk α) :
    w.next.1 = w.remaining.head? ∧ w.next.2.remaining = w.remaining.tail := by
  obtain ⟨pending, step⟩ | ⟨t, rest, later, pending, step, stacked⟩ := w.next_cases
  · rw [step, remaining, pending]
    exact ⟨rfl, rfl⟩
  · rw [step, remaining, remaining, pending, stacked, preorderAll_cons_children]
    exact ⟨rfl, rfl⟩

theorem remaining_after (w : Walk α) (n : Nat) : (w.after n).remaining = w.remaining.drop n := by
  induction n generalizing w with
  | zero => rfl
  | succ n ih => rw [after, ih, w.next_remaining.2, List.drop_tail]

/-- Each step visits the node whose turn it is in preorder, and none when all are visited. -/
theorem next_after (w : Walk α) (n : Nat) : (w.after n).next.1 = w.remaining[n]? := by
  rw [(w.after n).next_remaining.1, remaining_after, List.head?_drop]

theorem toList_eq_remaining (w : Walk α) : w.toList = w.remaining := by
  fun_induction toList w with
  | case1 w later step =>
    -- Had the walk anything left, this step would have visited the first of it.
    have first := w.next_remaining.1
    rw [step] at first
    exact (List.head?_eq_none_iff.mp first.symm).symm
  | case2 w t later step ih =>
    have ⟨first, others⟩ := w.next_remaining
    rw [step] at first others
    obtain ⟨rest, remaining⟩ := List.head?_eq_some_iff.mp first.symm
    rw [ih, others, remaining, List.tail_cons]

theorem remaining_start (t : Tree α) : (start t).remaining = t.preorder := by
  rw [remaining, pending_start, preorderAll, preorderAll, List.append_nil]

end Walk

theorem walk_eq_preorder (t : Tree α) : t.walk = t.preorder := by
  rw [walk, Walk.toList_eq_remaining, Walk.remaining_start]

example :
    (walk (node "card" [node "flex" [node "text" []], node "button" []])).map value =
      ["card", "flex", "text", "button"] := by
  cbv

theorem flatMap_walk (ts : List (Tree α)) : ts.flatMap walk = preorderAll ts := by
  rw [preorderAll_eq, funext walk_eq_preorder]

/-- The subtree at a position, which tells the number of the child to go to, from the root on. -/
def subtree? (t : Tree α) : List Nat → Option (Tree α)
  | [] => some t
  | i :: p => t.children[i]?.bind fun u => u.subtree? p

mutual

/-- The positions of the nodes of a tree, in preorder. -/
def positions : Tree α → List (List Nat)
  | node _ ts => [] :: positionsFrom 0 ts

/-- The positions of the nodes below a tree, of those in its children from number `i` on. -/
def positionsFrom (i : Nat) : List (Tree α) → List (List Nat)
  | [] => []
  | t :: ts => t.positions.map (i :: ·) ++ positionsFrom (i + 1) ts

end

theorem mem_positionsFrom {i : Nat} {ts : List (Tree α)} {p : List Nat} :
    p ∈ positionsFrom i ts ↔ ∃ j q t, p = (i + j) :: q ∧ ts[j]? = some t ∧ q ∈ t.positions := by
  induction ts generalizing i with
  | nil => simp [positionsFrom]
  | cons t ts ih =>
    rw [positionsFrom, List.mem_append, List.mem_map, ih]
    constructor
    · rintro (⟨q, hq, rfl⟩ | ⟨j, q, u, rfl, hu, hq⟩)
      · exact ⟨0, q, t, rfl, rfl, hq⟩
      · exact ⟨j + 1, q, u, by rw [Nat.add_right_comm, Nat.add_assoc], hu, hq⟩
    · rintro ⟨_ | j, q, u, rfl, hu, hq⟩
      · cases hu
        exact .inl ⟨q, hq, rfl⟩
      · exact .inr ⟨j, q, u, by rw [Nat.add_right_comm, Nat.add_assoc], hu, hq⟩

theorem cons_mem_positions {t : Tree α} {i : Nat} {p : List Nat} :
    i :: p ∈ t.positions ↔ ∃ u, t.children[i]? = some u ∧ p ∈ u.positions := by
  cases t with
  | node a ts =>
    rw [positions, List.mem_cons, mem_positionsFrom, children_node]
    simp only [reduceCtorEq, false_or, Nat.zero_add, List.cons.injEq]
    constructor
    · rintro ⟨_, _, u, ⟨rfl, rfl⟩, hu, hp⟩
      exact ⟨u, hu, hp⟩
    · rintro ⟨u, hu, hp⟩
      exact ⟨i, p, u, ⟨rfl, rfl⟩, hu, hp⟩

/-- The positions of a tree are those at which it has a subtree. -/
theorem mem_positions {t : Tree α} {p : List Nat} : p ∈ t.positions ↔ (t.subtree? p).isSome := by
  induction p generalizing t with
  | nil =>
    cases t
    simp [positions, subtree?]
  | cons i p ih =>
    rw [cons_mem_positions, subtree?]
    cases t.children[i]? with
    | none => simp
    | some u => simp [ih]

mutual

/-- Positions in preorder ascend. -/
theorem positions_ascend (t : Tree α) : t.positions.Pairwise (· < ·) := by
  match t with
  | node a ts =>
    rw [positions, List.pairwise_cons]
    refine ⟨fun p hp => ?_, positionsFrom_ascend 0 ts⟩
    obtain ⟨j, q, _, rfl, -⟩ := mem_positionsFrom.mp hp
    exact List.nil_lt_cons _ _

theorem positionsFrom_ascend (i : Nat) (ts : List (Tree α)) :
    (positionsFrom i ts).Pairwise (· < ·) := by
  match ts with
  | [] => exact .nil
  | t :: ts =>
    rw [positionsFrom, List.pairwise_append]
    refine ⟨?_, positionsFrom_ascend (i + 1) ts, fun p hp q hq => ?_⟩
    · exact (positions_ascend t).map (i :: ·) fun p q h => List.cons_lt_cons_iff.mpr (.inr ⟨rfl, h⟩)
    · obtain ⟨p, _, rfl⟩ := List.mem_map.mp hp
      obtain ⟨j, q, _, rfl, -⟩ := mem_positionsFrom.mp hq
      exact List.cons_lt_cons_iff.mpr (.inl (by omega))

end

mutual

/-- The subtrees at the positions of a tree are its nodes in preorder. -/
theorem map_subtree?_positions (t : Tree α) :
    t.positions.map t.subtree? = t.preorder.map some := by
  match t with
  | node a ts =>
    rw [positions, preorder, List.map_cons, List.map_cons, subtree?]
    exact congrArg _ (map_subtree?_positionsFrom a [] ts)

theorem map_subtree?_positionsFrom (a : α) (before ts : List (Tree α)) :
    (positionsFrom before.length ts).map (node a (before ++ ts)).subtree? =
      (preorderAll ts).map some := by
  -- The trees before these are kept, since a position counts the children from the first on.
  match ts with
  | [] => rfl
  | t :: ts =>
    have first : (node a (before ++ t :: ts)).subtree? ∘ (before.length :: ·) = t.subtree? := by
      funext p
      simp [subtree?]
    have later := map_subtree?_positionsFrom a (before ++ [t]) ts
    rw [List.length_append, List.append_assoc] at later
    rw [positionsFrom, preorderAll, List.map_append, List.map_append, List.map_map, first,
      map_subtree?_positions t]
    exact congrArg _ later

end

end Tree

namespace Document

open Wireframe.Tree

theorem nodes_eq (d : Document) : d.nodes = preorderAll d.children :=
  flatMap_walk d.children

theorem size_eq (d : Document) : d.size = sizeAll d.children := by
  rw [size, nodes_eq, length_preorderAll]

/-- A component that is found is the first with its id. -/
theorem find?_eq_some_iff {d : Document} {id : String} {t : Tree Component} :
    d.find? id = some t ↔ ∃ before after, d.nodes = before ++ t :: after ∧ t.value.id = id ∧
      ∀ u ∈ before, u.value.id ≠ id := by
  rw [find?, List.find?_eq_some_iff_append]
  constructor
  · rintro ⟨named, before, after, nodes, others⟩
    exact ⟨before, after, nodes, by simpa using named, by simpa using others⟩
  · rintro ⟨before, after, nodes, named, others⟩
    exact ⟨by simpa using named, before, after, nodes, by simpa using others⟩

theorem find?_eq_none_iff {d : Document} {id : String} :
    d.find? id = none ↔ ∀ t ∈ d.nodes, t.value.id ≠ id := by
  simp [find?]

/-- A walk visits a node and then what the walks of its children visit, in order. This is the
recursive preorder, with every node of the tree once; the steps of a walk visit one node after the
other, and none from then on. The components of a document are those of its trees, tree by tree. So
their number is that of the nodes of its forest, and what is found by an id is the first component
in preorder that has it, if any has. -/
theorem walked_in_preorder :
    (∀ t : Tree Component,
      t.walk = t :: t.children.flatMap walk ∧
      t.walk = t.preorder ∧
      t.walk.length = t.size ∧
      (∀ n, ((Walk.start t).after n).next.1 = t.walk[n]?) ∧
      t.walk.map some = t.positions.map t.subtree? ∧
      t.positions.Pairwise (· < ·) ∧
      ∀ p, p ∈ t.positions ↔ (t.subtree? p).isSome) ∧
    ∀ d : Document,
      d.nodes = d.children.flatMap preorder ∧
      d.size = sizeAll d.children ∧
      ∀ id,
        (d.find? id = none ↔ ∀ t ∈ preorderAll d.children, t.value.id ≠ id) ∧
        ∀ t, d.find? id = some t ↔ ∃ before after, preorderAll d.children = before ++ t :: after ∧
          t.value.id = id ∧ ∀ u ∈ before, u.value.id ≠ id := by
  constructor
  · intro t
    have steps (n : Nat) : ((Walk.start t).after n).next.1 = t.walk[n]? := by
      rw [Walk.next_after, Walk.remaining_start, walk_eq_preorder]
    refine ⟨?_, walk_eq_preorder t, ?_, steps, ?_, positions_ascend t, fun p => mem_positions⟩
    · rw [walk_eq_preorder, preorder_eq, flatMap_walk]
    · rw [walk_eq_preorder, length_preorder]
    · rw [walk_eq_preorder, map_subtree?_positions]
  · intro d
    refine ⟨d.nodes_eq.trans (preorderAll_eq _), d.size_eq, fun id => ?_⟩
    rw [← d.nodes_eq]
    exact ⟨find?_eq_none_iff, fun t => find?_eq_some_iff⟩

end Document

end Wireframe
