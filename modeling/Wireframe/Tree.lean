/-!
# Ordered trees

A node carries a value and an ordered list of subtrees. The outline of a source text and the
components of a document are both forests of such trees. `Tree.walk` visits a tree with an explicit
stack, step by step; `Tree.preorder` is the recursive order.
-/

namespace Wireframe

inductive Tree (α : Type) where
  | node (value : α) (children : List (Tree α))
deriving Repr, Inhabited

namespace Tree

variable {α β : Type}

def value : Tree α → α
  | node a _ => a

def children : Tree α → List (Tree α)
  | node _ ts => ts

@[simp] theorem value_node (a : α) (ts : List (Tree α)) : (node a ts).value = a := rfl

@[simp] theorem children_node (a : α) (ts : List (Tree α)) : (node a ts).children = ts := rfl

mutual

/-- The number of nodes of a tree. -/
def size : Tree α → Nat
  | node _ ts => 1 + sizeAll ts

/-- The number of nodes of a forest. -/
def sizeAll : List (Tree α) → Nat
  | [] => 0
  | t :: ts => t.size + sizeAll ts

end

@[simp] theorem sizeAll_append (ts us : List (Tree α)) :
    sizeAll (ts ++ us) = sizeAll ts + sizeAll us := by
  induction ts with
  | nil => simp [sizeAll]
  | cons t ts ih => simp [sizeAll, ih, Nat.add_assoc]

mutual

/-- The subtrees of a tree, each before those below it and these in order. -/
def preorder : Tree α → List (Tree α)
  | node a ts => node a ts :: preorderAll ts

/-- The subtrees of a forest, tree by tree. -/
def preorderAll : List (Tree α) → List (Tree α)
  | [] => []
  | t :: ts => t.preorder ++ preorderAll ts

end

mutual

/-- The same tree with other values. -/
def map (f : α → β) : Tree α → Tree β
  | node a ts => node (f a) (mapAll f ts)

/-- The same forest with other values. -/
def mapAll (f : α → β) : List (Tree α) → List (Tree β)
  | [] => []
  | t :: ts => t.map f :: mapAll f ts

end

/-- A walk under way: a stack of the trees that are still to be visited. -/
structure Walk (α : Type) where
  stack : Array (Tree α)

namespace Walk

/-- A walk of a tree before its first step. -/
def start (t : Tree α) : Walk α :=
  ⟨#[t]⟩

/-- One step of a walk: the tree on top of the stack is visited, and its children take its place,
the first of them on top. -/
def next (w : Walk α) : Option (Tree α) × Walk α :=
  match w.stack.back? with
  | none => (none, w)
  | some t => (some t, ⟨w.stack.pop ++ t.children.reverse⟩)

/-- The trees that are still to be visited, the top of the stack first. -/
def pending (w : Walk α) : List (Tree α) :=
  w.stack.toList.reverse

@[simp] theorem pending_start (t : Tree α) : (start t).pending = [t] := rfl

/-- A walk is at its end, or its next step visits the first tree that is pending. -/
theorem next_cases (w : Walk α) :
    (w.pending = [] ∧ w.next = (none, w)) ∨
      ∃ t rest later, w.pending = t :: rest ∧ w.next = (some t, later) ∧
        later.pending = t.children ++ rest := by
  obtain ⟨stack⟩ := w
  cases top : stack.back? with
  | none =>
    rw [Array.back?_eq_none_iff] at top
    exact .inl ⟨by rw [pending, top]; rfl, by rw [next, top]; rfl⟩
  | some t =>
    obtain ⟨below, rfl⟩ := Array.back?_eq_some_iff.mp top
    refine .inr ⟨t, below.toList.reverse, ⟨below ++ t.children.reverse⟩, ?_, ?_, ?_⟩
    · simp [pending]
    · simp [next]
    · simp [pending]

/-- A step takes one node off those that are still to be visited. -/
theorem sizeAll_pending_lt {w later : Walk α} {t : Tree α} (h : w.next = (some t, later)) :
    sizeAll later.pending < sizeAll w.pending := by
  obtain ⟨-, ended⟩ | ⟨u, rest, _, pending, step, after⟩ := w.next_cases
  · rw [ended] at h
    cases h
  · cases step.symm.trans h
    rw [pending, after]
    cases t
    simp [sizeAll, size]

/-- What a walk visits until its end. -/
def toList (w : Walk α) : List (Tree α) :=
  match _h : w.next with
  | (none, _) => []
  | (some t, later) => t :: later.toList
termination_by sizeAll w.pending
decreasing_by exact sizeAll_pending_lt _h

end Walk

/-- The subtrees of a tree as a walk visits them. -/
def walk (t : Tree α) : List (Tree α) :=
  (Walk.start t).toList

mutual

/-- Equality of trees is decided by walking both in step. -/
def decEq [DecidableEq α] : (s t : Tree α) → Decidable (s = t)
  | node a ss, node b ts =>
    match decEqAll ss ts with
    | .isTrue h =>
      if hab : a = b then .isTrue (by rw [hab, h])
      else .isFalse fun he => hab (Tree.node.inj he).1
    | .isFalse h => .isFalse fun he => h (Tree.node.inj he).2

/-- Equality of forests, tree by tree. -/
def decEqAll [DecidableEq α] : (ss ts : List (Tree α)) → Decidable (ss = ts)
  | [], [] => .isTrue rfl
  | [], _ :: _ => .isFalse nofun
  | _ :: _, [] => .isFalse nofun
  | s :: ss, t :: ts =>
    match decEq s t with
    | .isTrue h =>
      match decEqAll ss ts with
      | .isTrue hs => .isTrue (by rw [h, hs])
      | .isFalse hs => .isFalse fun he => hs (List.cons.inj he).2
    | .isFalse h => .isFalse fun he => h (List.cons.inj he).1

end

instance [DecidableEq α] : DecidableEq (Tree α) := decEq

end Tree

end Wireframe
