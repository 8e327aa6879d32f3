import Wireframe.Document.Json
import Wireframe.Proofs.Json.Reading
import Wireframe.Proofs.Table

/-!
# Documents are read back

A document is read from its texts exactly when all its numbers are finite and it has no more than
62 levels (`read?_texts`): every level takes two containers, for a component and for the list of its
children, and the document and the list of its components take two more of the 127 that are read.
-/

namespace Wireframe

theorem Kind.ofName?_name (k : Kind) : Kind.ofName? k.name = some k := by
  cases k <;> rfl

theorem Platform.ofName?_name (p : Platform) : Platform.ofName? p.name = some p := by
  cases p <;> rfl

/-- Whether a value is anything but an infinity or not a number. -/
def Value.isFinite : Value → Bool
  | .number x => x.isFinite
  | .bool _ | .text _ => true

/-- Whether all numbers of a component are finite. -/
def Component.isFinite (c : Component) : Bool :=
  c.props.entries.all (·.2.isFinite)

mutual

/-- The number of levels of a tree. -/
def Tree.height {α : Type} : Tree α → Nat
  | .node _ ts => Tree.heightAll ts + 1

/-- The number of levels of a forest. -/
def Tree.heightAll {α : Type} : List (Tree α) → Nat
  | [] => 0
  | t :: ts => max (Tree.height t) (Tree.heightAll ts)

end

theorem Tree.heightAll_append {α : Type} (ts us : List (Tree α)) :
    Tree.heightAll (ts ++ us) = max (Tree.heightAll ts) (Tree.heightAll us) := by
  induction ts with
  | nil => exact (Nat.zero_max _).symm
  | cons t ts ih => rw [List.cons_append, Tree.heightAll, Tree.heightAll, ih, Nat.max_assoc]

namespace Document

open Json (settled settledItems settledMembers)

/-! ## Props -/

theorem value?_settled (v : Value) :
    value? (settled (valueJson v)) = if v.isFinite then some v else none := by
  cases v with
  | bool b => rfl
  | text s => rfl
  | number x => by_cases h : x.isFinite = true <;>
      simp [valueJson, settled, value?, Json.float?, Value.isFinite, h]

theorem mapM_value?_settled (es : List (String × Value)) :
    (settledMembers (es.map fun (k, v) => (k, valueJson v))).mapM
        (fun m => (value? m.2).map (m.1, ·)) =
      if es.all (·.2.isFinite) then some es else none := by
  induction es with
  | nil => rfl
  | cons e es ih =>
    rw [List.map_cons, settledMembers, List.mapM_cons, value?_settled, ih, List.all_cons]
    cases e.2.isFinite with
    | false => rfl
    | true => cases es.all (·.2.isFinite) <;> rfl

theorem props?_settled (c : Component) :
    props? (settled (propsJson c.props)) = if c.isFinite then some c.props else none := by
  have listed : Table.ofList c.props.entries = c.props :=
    Table.insertAll_entries fun k _ => Table.get?_empty k
  rw [propsJson, settled, props?, mapM_value?_settled, Component.isFinite]
  cases c.props.entries.all (·.2.isFinite) with
  | false => rfl
  | true => exact congrArg some listed

/-! ## Components -/

/-- Whether all numbers of components are finite. -/
def allFinite (ts : List (Tree Component)) : Bool :=
  ts.all (·.value.isFinite)

theorem fields?_tree (kind id props children : Json) :
    fields? ["type", "id", "props", "children"]
        (.obj [("type", kind), ("id", id), ("props", props), ("children", children)]) =
      some [some kind, some id, some props, some children] :=
  rfl

/-- A component is read when its numbers are finite and the components below it are read. -/
theorem tree?_node (inside : Nat) (c : Component) (ts : List (Tree Component)) :
    tree? (inside + 2) (settled (treeJson (.node c ts))) =
      if c.isFinite then
        ((settledItems (treesJson ts)).mapM (tree? inside)).map (.node c)
      else none := by
  simp only [treeJson, settled, settledMembers, tree?]
  rw [fields?_tree]
  simp only [nameJson?, Option.bind_some, Kind.ofName?_name, props?_settled, Json.str?]
  cases c.isFinite with
  | false => rfl
  | true =>
    cases (settledItems (treesJson ts)).mapM (tree? inside) <;> rfl

theorem allFinite_node (c : Component) (ts : List (Tree Component)) :
    allFinite (Tree.node c ts).preorder = (c.isFinite && allFinite (Tree.preorderAll ts)) := by
  rw [Tree.preorder]
  rfl

theorem allFinite_cons (t : Tree Component) (ts : List (Tree Component)) :
    allFinite (Tree.preorderAll (t :: ts)) =
      (allFinite t.preorder && allFinite (Tree.preorderAll ts)) := by
  rw [Tree.preorderAll]
  exact List.all_append

mutual

theorem tree?_settled : (inside : Nat) → (t : Tree Component) →
    tree? inside (settled (treeJson t)) =
      if 2 * t.height ≤ inside ∧ allFinite t.preorder = true then some t else none
  | 0, .node c ts | 1, .node c ts => by
    rw [if_neg (by rw [Tree.height]; omega), tree?]
    nofun
  | inside + 2, .node c ts => by
    have deeper : 2 * (Tree.node c ts).height ≤ inside + 2 ↔ 2 * Tree.heightAll ts ≤ inside := by
      rw [Tree.height]
      omega
    rw [tree?_node, mapM_tree?_settled inside ts, allFinite_node]
    simp only [deeper, Bool.and_eq_true]
    cases c.isFinite with
    | false => simp
    | true =>
      simp only [↓reduceIte, true_and]
      split <;> rfl

theorem mapM_tree?_settled (inside : Nat) : (ts : List (Tree Component)) →
    (settledItems (treesJson ts)).mapM (tree? inside) =
      if 2 * Tree.heightAll ts ≤ inside ∧ allFinite (Tree.preorderAll ts) = true then some ts
      else none
  | [] => by
    rw [if_pos ⟨Nat.zero_le _, by rw [Tree.preorderAll]; rfl⟩]
    rfl
  | t :: ts => by
    have deeper : 2 * Tree.heightAll (t :: ts) ≤ inside ↔
        2 * t.height ≤ inside ∧ 2 * Tree.heightAll ts ≤ inside := by
      rw [Tree.heightAll]
      omega
    rw [treesJson, settledItems, List.mapM_cons, tree?_settled inside t,
      mapM_tree?_settled inside ts, allFinite_cons]
    simp only [deeper, Bool.and_eq_true]
    by_cases first : 2 * t.height ≤ inside ∧ allFinite t.preorder = true
    · simp only [first, and_self, true_and, ↓reduceIte]
      split <;> rfl
    · have refused : ¬((2 * t.height ≤ inside ∧ 2 * Tree.heightAll ts ≤ inside) ∧
          allFinite t.preorder = true ∧ allFinite (Tree.preorderAll ts) = true) :=
        fun all => first ⟨all.1.1, all.2.1⟩
      rw [if_neg first, if_neg refused]
      rfl

end

/-! ## Documents -/

/-- What a text can hold of documents: numbers that are finite, and no more than 62 levels. -/
structure Readable (d : Document) : Prop where
  finite : allFinite (Tree.preorderAll d.children) = true
  levels : Tree.heightAll d.children ≤ 62

theorem readable_iff (d : Document) : d.Readable ↔
    allFinite (Tree.preorderAll d.children) = true ∧ Tree.heightAll d.children ≤ 62 :=
  ⟨fun h => ⟨h.finite, h.levels⟩, fun h => ⟨h.1, h.2⟩⟩

instance (d : Document) : Decidable d.Readable :=
  decidable_of_iff' _ (readable_iff d)

theorem mapM_str?_settled (entries : List String) :
    (settledItems (entries.map .str)).mapM Json.str? = some entries := by
  induction entries with
  | nil => rfl
  | cons e entries ih =>
    rw [List.map_cons, settledItems, List.mapM_cons, ih]
    rfl

theorem navigation?_settled (navigation : Option (List String)) :
    navigation? (some (settled (navigationJson navigation))) = some navigation := by
  cases navigation with
  | none => rfl
  | some entries =>
    rw [navigationJson, settled, navigation?, mapM_str?_settled]
    rfl

theorem fields?_document (children platform navigation : Json) :
    fields? ["children", "platform", "mobileNavigation"]
        (.obj [("children", children), ("platform", platform), ("mobileNavigation", navigation)]) =
      some [some children, some platform, some navigation] :=
  rfl

theorem ofJson?_settled (d : Document) :
    ofJson? (settled d.toJson) = if d.Readable then some d else none := by
  have children : (settledItems (treesJson d.children)).mapM (tree? (room - 2)) =
      if d.Readable then some d.children else none := by
    have enough : 2 * Tree.heightAll d.children ≤ room - 2 ↔ Tree.heightAll d.children ≤ 62 := by
      unfold room
      omega
    rw [mapM_tree?_settled]
    simp only [enough, readable_iff, and_comm]
  simp only [toJson, settled, settledMembers, ofJson?]
  rw [fields?_document]
  simp only [children, nameJson?, Option.bind_some, Platform.ofName?_name, navigation?_settled]
  split <;> rfl

/-- A document is read from its text on one line, and from that over several lines, exactly when
they can hold it. -/
theorem read?_texts (d : Document) :
    read? d.compact = (if d.Readable then some d else none) ∧
      read? d.pretty = (if d.Readable then some d else none) := by
  rw [read?, read?, compact, pretty, Json.read?_compact, Json.read?_pretty]
  exact ⟨ofJson?_settled d, ofJson?_settled d⟩

end Document

end Wireframe
