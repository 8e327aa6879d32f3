import Mathlib.Data.List.Chain
import Wireframe.Proofs.Outline.Locality

/-!
# Reading line by line

A run takes a state from line to line. It is kept apart from what a line does to the state, so that
the reader of outlines and a reference for it run in the same way. Tokens that come in whole lines
are read to their end (`exists_run`) and never from the middle of a line; a run that meets a tag
line is the same whatever stands behind the bracket (`exists_run_tagStart`).
-/

namespace Wireframe.Outline

open Token.Kind

/-- What kinds of tokens stand side by side in tokens that come in whole lines: an indentation
follows the end of a line and nothing else, and the end of a line is followed by an indentation or
by the end of the input. -/
structure Follows (a b : Token.Kind) : Prop where
  not_eof : a ≠ .eof
  behind_newline : a = .newline → b = .eof ∨ isIndent b = true
  before_indent : isIndent b = true → a = .newline

/-- Tokens that come in whole lines, the first of which may have begun. -/
def Lined (ts : List Token) : Prop :=
  (ts.map Token.kind).IsChain Follows

theorem Lined.suffix {ts us : List Token} (h : Lined ts) (hu : us <:+ ts) : Lined us :=
  List.IsChain.suffix h (hu.map Token.kind)

theorem Lined.follows {a b : Token} {ts : List Token} (h : Lined (a :: b :: ts)) :
    Follows a.kind b.kind :=
  (List.isChain_cons_cons.mp h).1

/-- No line is left in front of an indentation or the end of the input. -/
theorem inLine_of_begins {t : Token} (h : t.kind = .eof ∨ isIndent t.kind = true) :
    inLine t = false := by
  rcases h with h | h
  · rw [inLine, h]
    rfl
  · obtain ⟨width, hw⟩ := isIndent_eq_true.mp h
    rw [inLine, hw]
    rfl

theorem Lined.atLineEnd {t : Token} {us : List Token} (h : Lined (t :: us))
    (ht : t.kind = .newline) : AtLineEnd us := by
  cases us with
  | nil => rfl
  | cons b us => exact inLine_of_begins (h.follows.behind_newline ht)

/-- Nothing follows the end of the input. -/
theorem Lined.eof {t : Token} {us : List Token} (h : Lined (t :: us)) (ht : t.kind = .eof) :
    us = [] := by
  cases us with
  | nil => rfl
  | cons b us => exact absurd ht h.follows.not_eof

/-- A run that goes from line to line, with what it reports. -/
inductive Run {σ : Type} (read : σ → Nat → List Token → Reading σ) :
    σ → List Token → List Diagnostic → σ → List Token → Prop
  | refl (s ts) : Run read s ts [] s ts
  | newline {s t ts ps s' us} (ht : t.kind = .newline) (more : Run read s ts ps s' us) :
      Run read s (t :: ts) ps s' us
  | line {s t ts ps s' us width} (ht : t.kind = .indent width)
      (more : Run read (read s width ts).value (read s width ts).rest ps s' us) :
      Run read s (t :: ts) ((read s width ts).problems ++ ps) s' us

theorem Run.trans {σ : Type} {read : σ → Nat → List Token → Reading σ} {s s' s'' : σ}
    {ts us vs : List Token} {ps qs : List Diagnostic} (first : Run read s ts ps s' us)
    (more : Run read s' us qs s'' vs) : Run read s ts (ps ++ qs) s'' vs := by
  induction first with
  | refl => exact more
  | newline ht _ ih => exact .newline ht (ih more)
  | line ht _ ih =>
    rw [List.append_assoc]
    exact .line ht (ih more)

/-- Whether there is no more to read. -/
def AtEnd (ts : List Token) : Prop :=
  (next ts).kind = .eof

theorem readFrom_of_atEnd (b : Builder) {ts : List Token} (h : AtEnd ts) :
    readFrom b ts = (b.finish, []) := by
  cases ts with
  | nil => rw [readFrom]
  | cons t us =>
    have ht : t.kind = .eof := h
    rw [readFrom]
    simp [inLine, ht, Token.Kind.endsLine]

/-- What is read from tokens is what is read where a run from them has come to. -/
theorem readFrom_of_run {b b' : Builder} {ts us : List Token} {ps : List Diagnostic}
    (h : Run line b ts ps b' us) :
    readFrom b ts = ((readFrom b' us).1, ps ++ (readFrom b' us).2) := by
  induction h with
  | refl => rfl
  | newline ht _ ih =>
    rw [readFrom]
    simp [inLine, ht, Token.Kind.endsLine, ih]
  | line ht _ ih =>
    rw [readFrom]
    simp [inLine, ht, Token.Kind.endsLine, ih]

theorem ofTokens_of_run {b : Builder} {ts us : List Token} {ps : List Diagnostic}
    (h : Run line .empty ts ps b us) (he : AtEnd us) : ofTokens ts = (b.finish, ps) := by
  rw [ofTokens, readFrom_of_run h, readFrom_of_atEnd b he, List.append_nil]

theorem read_eq_finish {source : String} {b : Builder} {ps : List Diagnostic} {us : List Token}
    (h : Run line .empty (Token.scan source).1 ps b us) (he : AtEnd us) :
    (read source).1 = b.finish := by
  simp only [read, ofTokens_of_run h he]

/-- Whole lines are read to the end of the input. -/
theorem exists_run (b : Builder) {ts : List Token} (hl : Lined ts) (h : AtLineEnd ts) :
    ∃ ps b' us, Run line b ts ps b' us ∧ us <:+ ts ∧ AtEnd us := by
  -- every line leaves fewer tokens, none of them in the middle of a line
  induction hn : ts.length using Nat.strong_induction_on generalizing b ts with
  | _ n ih =>
    subst hn
    match ts with
    | [] => exact ⟨[], b, [], .refl b [], List.suffix_rfl, rfl⟩
    | t :: us =>
      cases ht : t.kind with
      | newline =>
        obtain ⟨ps, b', vs, run, left, done⟩ :=
          ih us.length (by simp) b (hl.suffix (List.suffix_cons t us)) (hl.atLineEnd ht) rfl
        exact ⟨ps, b', vs, .newline ht run, left.trans (List.suffix_cons t us), done⟩
      | indent width =>
        have shorter := (leaves_line b width us).suffix
        obtain ⟨ps, b', vs, run, left, done⟩ :=
          ih (line b width us).rest.length (Nat.lt_succ_of_le shorter.length_le)
            (line b width us).value (hl.suffix (shorter.trans (List.suffix_cons t us)))
            (atLineEnd_line b width us) rfl
        exact ⟨_, b', vs, .line ht run, left.trans (shorter.trans (List.suffix_cons t us)), done⟩
      | eof => exact ⟨[], b, t :: us, .refl b _, List.suffix_rfl, ht⟩
      | _ => simp [AtLineEnd, inLine, next, ht, Token.Kind.endsLine] at h

/-- Whole lines before a tag line are read up to it, whatever stands behind its bracket. -/
theorem exists_run_tagStart (b : Builder) {i o : Token} {ts : List Token} (hs : TagStart i o)
    (hl : Lined (ts ++ [i, o])) (h : AtLineEnd (ts ++ [i, o])) :
    ∃ ps b', ∀ vs, Run line b (ts ++ i :: o :: vs) ps b' (i :: o :: vs) := by
  induction hn : ts.length using Nat.strong_induction_on generalizing b ts with
  | _ n ih =>
    subst hn
    match ts with
    | [] => exact ⟨[], b, fun vs => .refl b _⟩
    | t :: us =>
      cases ht : t.kind with
      | newline =>
        obtain ⟨ps, b', run⟩ :=
          ih us.length (by simp) b (hl.suffix (List.suffix_cons t _)) (hl.atLineEnd ht) rfl
        exact ⟨ps, b', fun vs => .newline ht (run vs)⟩
      | indent width =>
        obtain ⟨left, same⟩ := keepsTagStarts_line b width hs (List.suffix_append us [i, o])
        have shorter := (leaves_line b width (us ++ [i, o])).suffix
        obtain ⟨us', hu⟩ := left
        rw [← hu] at shorter
        have length : us'.length ≤ us.length := by simpa using shorter.length_le
        obtain ⟨ps, b', run⟩ :=
          ih us'.length (Nat.lt_succ_of_le length) (line b width (us ++ [i, o])).value
            (hl.suffix (shorter.trans (List.suffix_cons t _)))
            (hu ▸ atLineEnd_line b width (us ++ [i, o])) rfl
        refine ⟨(line b width (us ++ [i, o])).problems ++ ps, b', fun vs => ?_⟩
        have here :
            line b width (us ++ i :: o :: vs) = (line b width (us ++ [i, o])).extend vs := by
          rw [← same vs, List.append_assoc]
          rfl
        rw [← Reading.extend_problems _ vs, ← here, List.cons_append]
        refine .line ht ?_
        rw [here, Reading.extend_rest, ← hu, List.append_assoc]
        exact run vs
      | eof =>
        have ended := hl.eof ht
        simp at ended
      | _ => simp [AtLineEnd, inLine, next, ht, Token.Kind.endsLine] at h

end Wireframe.Outline
