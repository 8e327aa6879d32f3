/-!
# Places in a source text

A place is given by a line, a column and a byte offset. Reading a text moves a place over it one
character at a time, so the place behind any prefix of a text is a fold over that prefix:
`Location.advance_append` says that reading in two steps is reading in one.
-/

namespace Wireframe

/-- Lines and columns count from one and columns count characters; `offset` counts bytes. -/
structure Location where
  line : Nat
  column : Nat
  offset : Nat
deriving Repr, DecidableEq, Inhabited

namespace Location

/-- The place of the first character of a text. -/
def start : Location := ⟨1, 1, 0⟩

/-- The place given to what has no place in any text. -/
def nowhere : Location := ⟨0, 0, 0⟩

/-- The place behind one character. -/
def step (p : Location) (c : Char) : Location :=
  if c = '\n' then ⟨p.line + 1, 1, p.offset + 1⟩
  else ⟨p.line, p.column + 1, p.offset + c.utf8Size⟩

/-- The place behind a run of characters. -/
def advance (p : Location) (cs : List Char) : Location :=
  cs.foldl step p

@[simp] theorem advance_nil (p : Location) : p.advance [] = p := rfl

@[simp] theorem advance_cons (p : Location) (c : Char) (cs : List Char) :
    p.advance (c :: cs) = (p.step c).advance cs := rfl

theorem advance_append (p : Location) (as bs : List Char) :
    p.advance (as ++ bs) = (p.advance as).advance bs :=
  List.foldl_append

end Location

end Wireframe
