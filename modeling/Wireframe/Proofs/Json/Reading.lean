import Wireframe.Proofs.Json.Marks

/-!
# Printed values are read back

The marks of a value lead from where a value may stand to where it has been delivered, whatever
containers are open around it (`foldlM_marks`). So both printers are undone by the reader, at any
depth and up to what a text cannot hold (`read?_compact`, `read?_pretty`).
-/

namespace Wireframe.Json

/-! ## Marks are put together again -/

theorem foldlM_last (s : State) (m : Mark) : [m].foldlM State.step s = s.step m := by
  rw [List.foldlM_cons]
  cases s.step m <;> rfl

mutual

theorem foldlM_marks (first : Bool) (stack : List Frame) : (v : Json) →
    (marks v).foldlM State.step ⟨stack, .value first⟩ = State.deliver stack v
  | null | bool _ | int _ | float _ | str _ | malformed => by
    rw [marks]
    · exact foldlM_last _ _
    all_goals nofun
  | arr [] => by
    rw [marks, List.foldlM_cons]
    exact foldlM_last ⟨.arr [] :: stack, .value true⟩ .closeArr
  | arr (v :: vs) => by
    rw [marks, List.foldlM_cons]
    change (marks v ++ itemMarks vs).foldlM State.step ⟨.arr [] :: stack, .value true⟩ = _
    rw [List.foldlM_append, foldlM_marks true (.arr [] :: stack) v]
    exact foldlM_itemMarks stack [v] vs
  | obj [] => by
    rw [marks, List.foldlM_cons]
    exact foldlM_last ⟨.obj [] none :: stack, .name true⟩ .closeObj
  | obj ((k, v) :: ms) => by
    rw [marks, List.foldlM_cons]
    change (marks v ++ memberMarks ms).foldlM State.step
      ⟨.obj [] (some k) :: stack, .value false⟩ = _
    rw [List.foldlM_append, foldlM_marks false (.obj [] (some k) :: stack) v]
    exact foldlM_memberMarks stack [(k, v)] ms

theorem foldlM_itemMarks (stack : List Frame) (items : List Json) : (vs : List Json) →
    (itemMarks vs).foldlM State.step ⟨.arr items :: stack, .more⟩ =
      State.deliver stack (.arr (items.reverse ++ vs))
  | [] => by
    rw [List.append_nil]
    exact foldlM_last _ _
  | v :: vs => by
    rw [itemMarks, List.foldlM_cons]
    change (marks v ++ itemMarks vs).foldlM State.step ⟨.arr items :: stack, .value false⟩ = _
    rw [List.foldlM_append, foldlM_marks false (.arr items :: stack) v]
    have more := foldlM_itemMarks stack (v :: items) vs
    rw [List.reverse_cons, List.append_assoc] at more
    exact more

theorem foldlM_memberMarks (stack : List Frame) (members : List (String × Json)) :
    (ms : List (String × Json)) →
    (memberMarks ms).foldlM State.step ⟨.obj members none :: stack, .more⟩ =
      State.deliver stack (.obj (members.reverse ++ ms))
  | [] => by
    rw [List.append_nil]
    exact foldlM_last _ _
  | (k, v) :: ms => by
    rw [memberMarks, List.foldlM_cons]
    change (marks v ++ memberMarks ms).foldlM State.step
      ⟨.obj members (some k) :: stack, .value false⟩ = _
    rw [List.foldlM_append, foldlM_marks false (.obj members (some k) :: stack) v]
    have more := foldlM_memberMarks stack ((k, v) :: members) ms
    rw [List.reverse_cons, List.append_assoc] at more
    exact more

end

/-! ## Both printers are undone -/

theorem read?_text {s : String} {style : Style} {v : Json} (h : s.toList = text style 0 v) :
    read? s = some (settled v) := by
  have cut := marks?_text style 0 v delimited_nil
  rw [List.append_nil, ← h] at cut
  have empty : marks? [] = some [] := by rw [marks?]; rfl
  rw [empty, Option.map_some, List.append_nil] at cut
  rw [read?, cut]
  change ((marks (settled v)).foldlM State.step ⟨[], .value false⟩).bind _ = _
  rw [foldlM_marks]
  rfl

/-- The text of a value on one line is read as the value, up to what a text cannot hold. -/
theorem read?_compact (v : Json) : read? v.compact = some (settled v) :=
  read?_text (toList_compact 0 v)

/-- The text of a value over several lines is read as the same value. -/
theorem read?_pretty (v : Json) : read? v.pretty = some (settled v) :=
  read?_text (toList_prettyAt 0 v)

end Wireframe.Json
