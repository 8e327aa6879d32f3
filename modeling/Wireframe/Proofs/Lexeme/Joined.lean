import Wireframe.Proofs.Lexeme.Scanning
import Wireframe.Proofs.Outline.Shift

/-!
# Texts below other texts

A text that stands below another one has its tokens further down and otherwise the same: lines and
offsets grow by those of the text above it, columns stay (`scan_joined`).
-/

namespace Wireframe

namespace Location

/-- The same place with more lines and bytes in front of it. -/
def lower (lines bytes : Nat) (p : Location) : Location :=
  ⟨p.line + lines, p.column, p.offset + bytes⟩

variable (lines bytes : Nat) (p : Location)

theorem step_lower (c : Char) :
    (p.lower lines bytes).step c = (p.step c).lower lines bytes := by
  unfold step lower
  split
  · simp only [mk.injEq, true_and]
    omega
  · simp only [mk.injEq, true_and]
    omega

theorem advance_lower (cs : List Char) :
    (p.lower lines bytes).advance cs = (p.advance cs).lower lines bytes := by
  induction cs generalizing p with
  | nil => rfl
  | cons c cs ih => rw [advance_cons, advance_cons, step_lower, ih]

/-- No text has a place in line zero. -/
theorem line_pos_advance {p : Location} (h : 0 < p.line) (cs : List Char) :
    0 < (p.advance cs).line := by
  induction cs generalizing p with
  | nil => exact h
  | cons c cs ih =>
    refine ih ?_
    unfold step
    split
    · exact Nat.succ_pos p.line
    · exact h

theorem line_advance (cs : List Char) : (p.advance cs).line = p.line + cs.count '\n' := by
  induction cs generalizing p with
  | nil => rfl
  | cons c cs ih =>
    rw [advance_cons, ih, List.count_cons, step]
    by_cases hc : c = '\n'
    · simp [hc]
      omega
    · simp [hc]

/-- The number of bytes that characters are written with. -/
def bytesOf (cs : List Char) : Nat :=
  cs.foldr (fun c bytes => c.utf8Size + bytes) 0

theorem offset_advance (cs : List Char) :
    (p.advance cs).offset = p.offset + bytesOf cs := by
  induction cs generalizing p with
  | nil => rfl
  | cons c cs ih =>
    have size : (p.step c).offset = p.offset + c.utf8Size := by
      unfold step
      split
      next hc =>
        rw [hc]
        rfl
      · rfl
    rw [advance_cons, ih, size, Nat.add_assoc]
    rfl

/-- The first place below a text. -/
theorem advance_line (cs : List Char) :
    p.advance (cs ++ ['\n']) =
      ⟨p.line + (cs.count '\n' + 1), 1, p.offset + (bytesOf cs + 1)⟩ := by
  have line := p.line_advance cs
  have offset := p.offset_advance cs
  rw [advance_append, advance_cons, advance_nil, step, if_pos rfl, line, offset]
  rfl

end Location

namespace Shift

variable (lines bytes : Nat)

/-- Places are lowered. -/
def lower : Shift where
  place p := if p = .nowhere then .nowhere else p.lower lines bytes
  width := id
  place_nowhere := if_pos rfl
  width_lt := fun h => h

theorem place_lower {p : Location} (h : 0 < p.line) :
    (lower lines bytes).place p = p.lower lines bytes := by
  refine if_neg ?_
  rintro rfl
  exact absurd h (Nat.lt_irrefl 0)

theorem token_lower (kind : Token.Kind) (text : String) {p : Location} (h : 0 < p.line) :
    (lower lines bytes).token ⟨kind, text, p⟩ = ⟨kind, text, p.lower lines bytes⟩ := by
  rw [token, place_lower lines bytes h]
  cases kind <;> rfl

/-- Lexemes that begin further down give the same tokens further down. -/
theorem tokens_lower {p : Location} (h : 0 < p.line) (ls : List Lexeme) :
    Lexeme.tokens (p.lower lines bytes) ls =
      (Lexeme.tokens p ls).map (lower lines bytes).token := by
  induction ls generalizing p with
  | nil => rfl
  | cons l ls ih =>
    have more := ih (Location.line_pos_advance h l.text)
    rw [Lexeme.tokens, Lexeme.tokens, Location.advance_lower, more, List.map_append]
    cases l.kind? with
    | none => rfl
    | some kind =>
      have here := token_lower lines bytes kind (String.ofList l.text) h
      simp only [Option.map_some, Option.toList_some, List.map_cons, List.map_nil, here]

end Shift

namespace Token

open Lexeme

/-- The number of line ends down to the first line below a text. -/
def height (source : String) : Nat :=
  (body source).count '\n' + 1

/-- The number of bytes down to the first line below a text. -/
def depth (source : String) : Nat :=
  Location.bytesOf (body source) + 1

theorem body_eq (source : String) :
    body source =
      if source.toList.head? = some '\ufeff' then source.toList.tail else source.toList := by
  unfold body
  cases source.toList with
  | nil => rfl
  | cons c cs =>
    split
    next he =>
      cases he
      rfl
    next h =>
      rw [if_neg]
      rintro hc
      cases hc
      exact h cs rfl

theorem body_joined (a : String) {b : String} (hb : b.toList.head? ≠ some '\ufeff') :
    body (a ++ "\n" ++ b) = body a ++ '\n' :: body b := by
  have text : (a ++ "\n" ++ b).toList = a.toList ++ '\n' :: b.toList := by simp
  rw [body_eq, body_eq, body_eq, if_neg hb, text]
  cases a.toList with
  | nil => rfl
  | cons c cs =>
    rw [List.cons_append, List.head?_cons, List.head?_cons, List.tail_cons, List.tail_cons]
    split <;> rfl

/-- The tokens of two texts one below the other: those of the first, the end of its last line if
that has content, and those of the second further down. -/
theorem scan_joined (a : String) {b : String} (hb : b.toList.head? ≠ some '\ufeff') :
    (scan (a ++ "\n" ++ b)).1 =
      tokens .start (ofText (body a)) ++
        (lineEndTokens (Location.start.advance (body a))
            (hasContent (ofLine (lastLine (body a)))) ++
          (scan b).1.map (Shift.lower (height a) (depth a)).token) := by
  have place : Location.start.advance (body a ++ ['\n']) =
      Location.start.lower (height a) (depth a) := by
    rw [Location.advance_line]
    simp [Location.lower, Location.start, height, depth]
  have behind : Location.start.advance (body a ++ '\n' :: body b) =
      (Location.start.advance (body b)).lower (height a) (depth a) := by
    rw [List.append_cons, Location.advance_append, place, Location.advance_lower]
  have eof : eofAt (Location.start.advance (body a ++ '\n' :: body b)) =
      (Shift.lower (height a) (depth a)).token (eofAt (Location.start.advance (body b))) := by
    rw [behind]
    exact (Shift.token_lower _ _ .eof "" (Location.line_pos_advance Nat.one_pos _)).symm
  have lowered := Shift.tokens_lower (height a) (depth a) (p := .start)
    Nat.one_pos (ofText (body b))
  simp only [scan_eq]
  rw [body_joined a hb, eof, tokens_ofText_append, place, lowered, List.map_append,
    List.map_singleton, List.append_assoc, List.append_assoc]

end Token

end Wireframe
