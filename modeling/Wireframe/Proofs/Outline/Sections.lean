import Wireframe.Proofs.Lexeme.Joined
import Wireframe.Proofs.Outline.Continuation
import Wireframe.Proofs.Outline.Places
import Wireframe.Proofs.Outline.ShiftedRun
import Wireframe.Proofs.Outline.TagLines

/-!
# Sections

A tag at the left margin closes all tags before it, and what is open when its line begins is given
up as at the end of the input. So a text that begins with such a tag is read below another text as
it is read on its own, only further down: the outline of the whole is the outlines of the parts, one
after the other, whatever is wrong with the first (`read_section`).
-/

namespace Wireframe

/-- The same attribute at another place. -/
def Attribute.relocate (f : Location → Location) (a : Attribute) : Attribute :=
  { a with location := f a.location }

/-- The same element with its entries at other places. -/
def Element.relocate (f : Location → Location) (e : Element) : Element :=
  { e with
    layout := e.layout.map (Attribute.relocate f)
    attributes := e.attributes.map (Attribute.relocate f)
    location := f e.location }

theorem Shift.element_lower {lines bytes : Nat} {e : Element} (h : e.Placed fun p => 0 < p.line) :
    (lower lines bytes).element e = e.relocate (Location.lower lines bytes) := by
  have entries {as : List Attribute} (ha : ∀ a ∈ as, 0 < a.location.line) :
      as.map (lower lines bytes).entry =
        as.map (Attribute.relocate (Location.lower lines bytes)) := by
    refine List.map_congr_left fun a hm => ?_
    rw [Shift.entry, Attribute.relocate, place_lower lines bytes (ha a hm)]
  rw [Shift.element, Element.relocate, entries h.layout, entries h.attributes,
    place_lower lines bytes h.location]

/-- No token stands in line zero. -/
theorem Token.line_pos_scan (source : String) : ∀ t ∈ (scan source).1, 0 < t.location.line := by
  have tokens (ls : List Lexeme) {p : Location} (hp : 0 < p.line) :
      ∀ t ∈ Lexeme.tokens p ls, 0 < t.location.line := by
    induction ls generalizing p with
    | nil => exact List.forall_mem_nil _
    | cons l ls ih =>
      rw [Lexeme.tokens]
      refine List.forall_mem_append.mpr ⟨?_, ih (Location.line_pos_advance hp l.text)⟩
      cases l.kind? with
      | none => exact List.forall_mem_nil _
      | some kind => exact List.forall_mem_singleton.mpr hp
  have eof := Location.line_pos_advance (p := .start) Nat.one_pos (body source)
  rw [fst_scan]
  exact List.forall_mem_append.mpr
    ⟨tokens (Lexeme.ofText (body source)) Nat.one_pos, List.forall_mem_singleton.mpr eof⟩

namespace Builder

/-- The same open tags behind more closed trees, the last one first. -/
def behind (b : Builder) (closed : Outline) : Builder :=
  ⟨b.frames, b.roots ++ closed⟩

variable (b : Builder) (closed : Outline)

theorem collapse_behind (p : Frame → Bool) (fs : List Frame) (roots : Outline) :
    collapse p fs (roots ++ closed) = (collapse p fs roots).behind closed := by
  fun_induction collapse p fs roots with
  | case1 roots =>
    rw [collapse]
    rfl
  | case2 f roots h =>
    rw [collapse, if_pos h]
    rfl
  | case3 f roots h =>
    rw [collapse, if_neg h]
    rfl
  | case4 f g fs roots h ih =>
    rw [collapse, if_pos h]
    exact ih
  | case5 f g fs roots h =>
    rw [collapse, if_neg h]
    rfl

theorem openTag_behind (width : Nat) (e : Element) :
    (b.behind closed).openTag width e = (b.openTag width e).behind closed := by
  simp only [openTag, behind, collapse_behind]

theorem closeWider_behind (width : Nat) :
    (b.behind closed).closeWider width = (b.closeWider width).behind closed :=
  collapse_behind closed _ b.frames b.roots

theorem attach_behind (items : List Outline.Item) :
    (b.behind closed).attach items = (b.attach items).behind closed := by
  obtain ⟨frames, roots⟩ := b
  cases frames <;> rfl

theorem finish_behind : (b.behind closed).finish = closed.reverse ++ b.finish := by
  have all := collapse_behind closed (fun _ => true) b.frames b.roots
  rw [finish, behind, all, behind, List.reverse_append]
  rfl

/-- A tag at the left margin closes all others. -/
theorem openTag_zero (e : Element) :
    b.openTag 0 e = (empty.openTag 0 e).behind b.finish.reverse := by
  have all : (fun f : Frame => decide (0 ≤ f.width)) = fun _ => true := by simp
  have none := Outline.collapse_frames_all b.frames b.roots
  simp only [openTag, all, finish, List.reverse_reverse]
  rw [none, empty, collapse]
  rfl

end Builder

namespace Outline

section Behind

variable (b : Builder) (closed : Outline) (width : Nat) (ts : List Token)

theorem itemsLine_behind :
    itemsLine (b.behind closed) ts =
      { itemsLine b ts with value := (itemsLine b ts).value.behind closed } := by
  simp only [itemsLine, Builder.attach_behind]
  rfl

/-- A line has nothing to do with the trees that are closed. -/
theorem line_behind :
    line (b.behind closed) width ts =
      { line b width ts with value := (line b width ts).value.behind closed } := by
  rw [line_eq, line_eq]
  cases lineKind (next ts).kind with
  | tag =>
    simp only [tagLine, Builder.openTag_behind, itemsLine_behind]
    rfl
  | metadata =>
    simp only [Builder.closeWider_behind, itemsLine_behind]
    have owner : (b.behind closed).hasOwner width = b.hasOwner width := rfl
    rw [owner]
    split <;> rfl
  | empty => rfl
  | stray => rfl

variable {b ts}

theorem run_behind {b' : Builder} {us : List Token} {ps : List Diagnostic}
    (h : Run line b ts ps b' us) :
    Run line (b.behind closed) ts ps (b'.behind closed) us := by
  induction h with
  | refl => exact .refl _ _
  | newline ht _ ih => exact .newline ht ih
  | @line b t ts _ _ _ width ht _ ih =>
    have one := line_behind b closed width ts
    have all : Run Outline.line (b.behind closed) (t :: ts) _ _ _ :=
      .line ht (by rw [one]; exact ih)
    rw [one] at all
    exact all

/-- A tag line at the left margin does the same behind whatever was read before it. -/
theorem run_section {i o : Token} {vs us : List Token} {ps : List Diagnostic} {b' : Builder}
    (hi : i.kind = .indent 0) (ho : o.kind = .openBracket)
    (h : Run line .empty (i :: o :: vs) ps b' us) (he : AtEnd us) (b : Builder) :
    ∃ qs, Run line b (i :: o :: vs) qs (b'.behind b.finish.reverse) us := by
  cases h with
  | refl =>
    rw [AtEnd, next, List.headD_cons, hi] at he
    cases he
  | newline ht =>
    rw [hi] at ht
    cases ht
  | line ht more =>
    rw [hi] at ht
    cases ht
    have first : line b 0 (o :: vs) =
        ⟨(line .empty 0 (o :: vs)).value.behind b.finish.reverse, (line b 0 (o :: vs)).problems,
          (line .empty 0 (o :: vs)).rest⟩ := by
      simp only [line_eq, next, List.headD_cons, ho, lineKind, tagLine, Builder.openTag_zero b,
        itemsLine_behind]
    have rest := run_behind b.finish.reverse more
    exact ⟨_, .line hi (by rw [first]; exact rest)⟩

end Behind

theorem ofLine_bracket (cs : List Char) :
    Lexeme.ofLine ('[' :: cs) = [.indent 0, .symbol .openBracket '['] ++ Lexeme.inLine cs := by
  have line : Lexeme.ofLine ('[' :: cs) = .indent 0 :: Lexeme.inLine ('[' :: cs) := rfl
  rw [line, Lexeme.inLine]
  rfl

theorem exists_kinds_ofText_bracket (cs : List Char) :
    ∃ ks, Lexeme.kinds (Lexeme.ofText ('[' :: cs)) = .indent 0 :: .openBracket :: ks := by
  obtain ⟨line, lines, hl⟩ := exists_splitWhere (· = '\n') cs
  have split : splitWhere (· = '\n') ('[' :: cs) = ('[' :: line) :: lines :=
    splitWhere_cons_of_neg (by decide) hl
  rw [Lexeme.ofText, split]
  cases lines with
  | nil => exact ⟨_, by rw [Lexeme.ofLines, ofLine_bracket]; rfl⟩
  | cons => exact ⟨_, by rw [Lexeme.ofLines_cons _ (List.cons_ne_nil _ _), ofLine_bracket]; rfl⟩

/-- A text that begins with a bracket begins with a tag line at the left margin. -/
theorem exists_scan_of_bracket {source : String} (h : source.toList.head? = some '[') :
    ∃ i o ts, (Token.scan source).1 = i :: o :: ts ∧ i.kind = .indent 0 ∧
      o.kind = .openBracket := by
  obtain ⟨cs, hcs⟩ : ∃ cs, source.toList = '[' :: cs := by
    cases hs : source.toList with
    | nil => simp [hs] at h
    | cons c cs =>
      rw [hs] at h
      cases h
      exact ⟨cs, rfl⟩
  have body : Token.body source = '[' :: cs := by
    rw [Token.body_eq, hcs]
    rfl
  obtain ⟨ks, hk⟩ := exists_kinds_ofText_bracket cs
  have kinds : (Token.scan source).1.map Token.kind =
      .indent 0 :: .openBracket :: (ks ++ [.eof]) := by
    rw [Token.map_kind_scan, body, hk]
    rfl
  obtain ⟨i, rest, hs, hi, hr⟩ := List.map_eq_cons_iff.mp kinds
  obtain ⟨o, ts, rfl, ho, -⟩ := List.map_eq_cons_iff.mp hr
  exact ⟨i, o, ts, hs, hi, ho⟩

/-- Whole lines go on with what continues their end. -/
theorem Continues.append {after ts us xs : List Token} (hl : Lined (xs ++ ts)) (hts : ts ≠ [])
    (h : Continues after ts us) : Continues after (xs ++ ts) (xs ++ us) := by
  induction xs with
  | nil => exact h
  | cons x xs ih =>
    have more := ih (hl.suffix (List.suffix_cons x _))
    refine .cons (fun hx => ?_) more
    exact hts (List.append_eq_nil_iff.mp (hl.eof hx)).2

/-- A text with a text below it goes on with the tokens of that text, further down. -/
theorem continues_scan (a : String) {b : String} (hb : b.toList.head? ≠ some '\ufeff') :
    Continues ((Token.scan b).1.map (Shift.lower (Token.height a) (Token.depth a)).token)
      (Token.scan a).1 (Token.scan (a ++ "\n" ++ b)).1 := by
  rw [Token.scan_joined a hb, Token.fst_scan a]
  refine Continues.append (Token.fst_scan a ▸ Token.lined_scan a) (List.cons_ne_nil _ []) ?_
  cases Lexeme.hasContent (Lexeme.ofLine (Lexeme.lastLine (Token.body a))) with
  | false => exact .ends rfl
  | true => exact .endsLine rfl rfl

/-- A section is read from its tokens further down, behind the outline of the text above it. -/
theorem read_joined (a : String) {b : String} (hb : b.toList.head? = some '[') :
    (read (a ++ "\n" ++ b)).1 =
      (read a).1 ++ (Shift.lower (Token.height a) (Token.depth a)).outline (read b).1 := by
  obtain ⟨i, o, ts, hscan, hi, ho⟩ := exists_scan_of_bracket hb
  have continues := continues_scan a (b := b) (by simp [hb])
  generalize hσ : Shift.lower (Token.height a) (Token.depth a) = σ at continues
  have hi' : (σ.token i).kind = .indent 0 := by
    rw [σ.kind_token, hi, ← hσ]
    rfl
  have ho' : (σ.token o).kind = .openBracket := by
    rw [σ.kind_token, ho]
    rfl
  obtain ⟨ps, above, us, run, -, done⟩ :=
    exists_run .empty (Token.lined_scan a) (Token.atLineEnd_scan a)
  obtain ⟨qs, built, vs, alone, -, ended⟩ :=
    exists_run .empty (Token.lined_scan b) (Token.atLineEnd_scan b)
  have moved := σ.run_tokens alone
  rw [hscan, List.map_cons, List.map_cons] at continues moved
  obtain ⟨rs, first⟩ := continues.run ⟨⟨0, hi'⟩, ho'⟩ run done
  obtain ⟨ss, below⟩ := run_section hi' ho' moved (σ.atEnd_tokens ended) above
  rw [read_eq_finish (first.trans below) (σ.atEnd_tokens ended), read_eq_finish run done,
    read_eq_finish alone ended, Builder.finish_behind, List.reverse_reverse, σ.finish_builder]

/-- A section that begins with a tag at the left margin is read on its own, further down: no error
above it reaches into it. -/
theorem read_section (a : String) {b : String} (hb : b.toList.head? = some '[') :
    (read (a ++ "\n" ++ b)).1 = (read a).1 ++
      Tree.mapAll (Element.relocate (Location.lower (Token.height a) (Token.depth a)))
        (read b).1 := by
  have placed : Placed (fun p => 0 < p.line) (read b).1 :=
    placed_ofTokens (Token.lined_scan b) (Token.atLineEnd_scan b) (Token.line_pos_scan b)
  rw [read_joined a hb]
  refine congrArg _ (Tree.mapAll_congr _ fun t ht => ?_)
  exact Shift.element_lower (placed t ht)

theorem read_section_text :
    "[TEXT]".toList.head? = some '[' ∧
      (read ("[CARD] \x7bgap: (" ++ "\n" ++ "[TEXT]")).1 = (read "[CARD] \x7bgap: (").1 ++
        Tree.mapAll (Element.relocate
          (Location.lower (Token.height "[CARD] \x7bgap: (") (Token.depth "[CARD] \x7bgap: (")))
          (read "[TEXT]").1 :=
  ⟨rfl, read_section _ rfl⟩

end Outline

end Wireframe
