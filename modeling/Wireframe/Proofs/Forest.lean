import Wireframe.Tree

/-!
# Forests as lists

The nodes of a forest in preorder, each with the position of its parent, and the forest that grows
from such a list. Nothing is lost on the way (`ofLinks_links`), so a forest may be described by
saying for each node, in the order in which they are met, which one it belongs to.
-/

namespace Wireframe.Tree

variable {α β : Type}

theorem mapAll_eq (f : α → β) (ts : List (Tree α)) : mapAll f ts = ts.map (map f) := by
  induction ts with
  | nil => rfl
  | cons t ts ih => rw [mapAll, ih, List.map_cons]

mutual

theorem map_congr {f g : α → β} (t : Tree α) (h : ∀ u ∈ t.preorder, f u.value = g u.value) :
    t.map f = t.map g := by
  match t with
  | node a ts =>
    obtain ⟨here, below⟩ := List.forall_mem_cons.mp h
    rw [map, map, mapAll_congr ts below]
    exact congrArg (node · _) here

theorem mapAll_congr {f g : α → β} (ts : List (Tree α))
    (h : ∀ u ∈ preorderAll ts, f u.value = g u.value) : mapAll f ts = mapAll g ts := by
  match ts with
  | [] => rfl
  | t :: ts =>
    obtain ⟨first, more⟩ := List.forall_mem_append.mp h
    rw [mapAll, mapAll, map_congr t first, mapAll_congr ts more]

end

mutual

theorem map_id (t : Tree α) : t.map id = t := by
  match t with
  | node a ts => rw [map, mapAll_id ts, id]

theorem mapAll_id (ts : List (Tree α)) : mapAll id ts = ts := by
  match ts with
  | [] => rfl
  | t :: ts => rw [mapAll, map_id t, mapAll_id ts]

end

theorem preorderAll_eq (ts : List (Tree α)) : preorderAll ts = ts.flatMap preorder := by
  induction ts with
  | nil => rfl
  | cons t ts ih => rw [preorderAll, ih, List.flatMap_cons]

theorem preorder_eq (t : Tree α) : t.preorder = t :: preorderAll t.children := by
  cases t with
  | node a ts => rw [preorder, children_node]

@[simp] theorem preorderAll_append (ts us : List (Tree α)) :
    preorderAll (ts ++ us) = preorderAll ts ++ preorderAll us := by
  induction ts with
  | nil => rfl
  | cons t ts ih => rw [List.cons_append, preorderAll, ih, preorderAll, List.append_assoc]

/-- Behind the first of some trees its children come next. -/
theorem preorderAll_cons_children (t : Tree α) (ts : List (Tree α)) :
    preorderAll (t :: ts) = t :: preorderAll (t.children ++ ts) := by
  rw [preorderAll, preorder_eq, preorderAll_append, List.cons_append]

mutual

theorem preorder_map (f : α → β) (t : Tree α) : (t.map f).preorder = t.preorder.map (map f) := by
  match t with
  | node a ts => rw [map, preorder, preorder, preorderAll_mapAll f ts, List.map_cons, map]

theorem preorderAll_mapAll (f : α → β) (ts : List (Tree α)) :
    preorderAll (mapAll f ts) = (preorderAll ts).map (map f) := by
  match ts with
  | [] => rfl
  | t :: ts =>
    rw [mapAll, preorderAll, preorderAll, preorder_map f t, preorderAll_mapAll f ts,
      List.map_append]

end

@[simp] theorem value_map (f : α → β) (t : Tree α) : (t.map f).value = f t.value := by
  cases t with
  | node a ts => rw [map, value_node, value_node]

/-- The values in preorder are the other values of the nodes. -/
theorem map_value_preorderAll_mapAll (f : α → β) (ts : List (Tree α)) :
    (preorderAll (mapAll f ts)).map value = (preorderAll ts).map fun t => f t.value := by
  rw [preorderAll_mapAll, List.map_map]
  exact List.map_congr_left fun t _ => value_map f t

mutual

theorem length_preorder (t : Tree α) : t.preorder.length = t.size := by
  match t with
  | node a ts => rw [preorder, size, List.length_cons, length_preorderAll ts, Nat.add_comm]

theorem length_preorderAll (ts : List (Tree α)) : (preorderAll ts).length = sizeAll ts := by
  match ts with
  | [] => rfl
  | t :: ts =>
    rw [preorderAll, sizeAll, List.length_append, length_preorder t, length_preorderAll ts]

end

mutual

/-- The nodes of a tree whose root is given the position `i`, each with the position of its
parent. -/
def linksAt (parent : Option Nat) (i : Nat) : Tree α → List (α × Option Nat)
  | node a ts => (a, parent) :: linksFrom (some i) (i + 1) ts

/-- The nodes of a forest whose positions begin with `i`. -/
def linksFrom (parent : Option Nat) (i : Nat) : List (Tree α) → List (α × Option Nat)
  | [] => []
  | t :: ts => t.linksAt parent i ++ linksFrom parent (i + t.size) ts

end

mutual

theorem length_linksAt (parent : Option Nat) (i : Nat) (t : Tree α) :
    (t.linksAt parent i).length = t.size := by
  cases t with
  | node a ts =>
    rw [linksAt, size, List.length_cons, length_linksFrom]
    omega

theorem length_linksFrom (parent : Option Nat) (i : Nat) (ts : List (Tree α)) :
    (linksFrom parent i ts).length = sizeAll ts := by
  match ts with
  | [] => rfl
  | t :: ts =>
    rw [linksFrom, sizeAll, List.length_append, length_linksAt, length_linksFrom]

end

theorem linksFrom_append (parent : Option Nat) (i : Nat) (ts us : List (Tree α)) :
    linksFrom parent i (ts ++ us) =
      linksFrom parent i ts ++ linksFrom parent (i + sizeAll ts) us := by
  induction ts generalizing i with
  | nil => rfl
  | cons t ts ih =>
    rw [List.cons_append, linksFrom, linksFrom, ih, sizeAll, List.append_assoc, Nat.add_assoc]

/-- The trees that grow from nodes whose positions begin with `i`, each with the position of the
node that its root belongs to. -/
def growFrom : Nat → List (α × Option Nat) → List (Option Nat × Tree α)
  | _, [] => []
  | i, (a, parent) :: ls =>
    let later := growFrom (i + 1) ls
    (parent, node a ((later.filter (·.1 = some i)).map (·.2))) :: later.filter (·.1 ≠ some i)

/-- The forest that grows from its nodes: the children of a node are the nodes that belong to its
position, in their order. -/
def ofLinks (ls : List (α × Option Nat)) : List (Tree α) :=
  (growFrom 0 ls).map (·.2)

/-- Trees that belong to positions before `i`. -/
def Outside (i : Nat) (ts : List (Option Nat × Tree α)) : Prop :=
  ∀ x ∈ ts, ∀ j, x.1 = some j → j < i

theorem Outside.mono {i j : Nat} {ts : List (Option Nat × Tree α)} (h : Outside i ts)
    (hij : i ≤ j) : Outside j ts :=
  fun x hx k hk => Nat.lt_of_lt_of_le (h x hx k hk) hij

/-- The children of the node at `i` are told apart from the trees outside. -/
theorem filter_children {i : Nat} (ts : List (Tree α)) {us : List (Option Nat × Tree α)}
    (h : Outside i us) :
    (ts.map (Prod.mk (some i)) ++ us).filter (·.1 = some i) = ts.map (Prod.mk (some i)) ∧
      (ts.map (Prod.mk (some i)) ++ us).filter (·.1 ≠ some i) = us := by
  have apart : ∀ x ∈ us, x.1 ≠ some i := fun x hx hi => Nat.lt_irrefl i (h x hx i hi)
  rw [List.filter_append, List.filter_append]
  constructor
  · rw [List.filter_eq_self.mpr (by simp), List.filter_eq_nil_iff.mpr, List.append_nil]
    simpa using fun x t hx => apart (x, t) hx
  · rw [List.filter_eq_nil_iff.mpr (by simp), List.filter_eq_self.mpr, List.nil_append]
    simpa using fun x t hx => apart (x, t) hx

mutual

theorem growFrom_linksAt (parent : Option Nat) (i : Nat) (t : Tree α)
    (rest : List (α × Option Nat)) (hr : Outside i (growFrom (i + t.size) rest)) :
    growFrom i (t.linksAt parent i ++ rest) = (parent, t) :: growFrom (i + t.size) rest := by
  match t with
  | node a ts =>
    have size_eq : i + 1 + sizeAll ts = i + (node a ts).size := by
      rw [size]
      omega
    have below := growFrom_linksFrom (some i) (i + 1) ts rest (by simp)
      (size_eq ▸ hr.mono (Nat.le_succ i))
    have parts := filter_children ts hr
    rw [linksAt, List.cons_append, growFrom, below, size_eq]
    rw [parts.1, parts.2]
    simp [Function.comp_def]

theorem growFrom_linksFrom (parent : Option Nat) (i : Nat) (ts : List (Tree α))
    (rest : List (α × Option Nat)) (hp : ∀ j, parent = some j → j < i)
    (hr : Outside i (growFrom (i + sizeAll ts) rest)) :
    growFrom i (linksFrom parent i ts ++ rest) =
      ts.map (Prod.mk parent) ++ growFrom (i + sizeAll ts) rest := by
  match ts with
  | [] => rfl
  | t :: ts =>
    rw [sizeAll, ← Nat.add_assoc] at hr ⊢
    have later := growFrom_linksFrom parent (i + t.size) ts rest
      (fun j hj => Nat.lt_of_lt_of_le (hp j hj) (Nat.le_add_right i t.size))
      (hr.mono (Nat.le_add_right i t.size))
    have outside :
        Outside i (growFrom (i + t.size) (linksFrom parent (i + t.size) ts ++ rest)) := by
      intro x hx j hj
      rw [later] at hx
      rcases List.mem_append.mp hx with hx | hx
      · obtain ⟨u, _, rfl⟩ := List.mem_map.mp hx
        exact hp j hj
      · exact hr x hx j hj
    rw [linksFrom, List.append_assoc, growFrom_linksAt parent i t _ outside, later]
    rfl

end

theorem ofLinks_links (ts : List (Tree α)) : ofLinks (linksFrom none 0 ts) = ts := by
  have grown := growFrom_linksFrom none 0 ts [] (by simp) (fun x hx => by cases hx)
  rw [List.append_nil] at grown
  rw [ofLinks, grown]
  simp [growFrom, Function.comp_def]

end Wireframe.Tree
