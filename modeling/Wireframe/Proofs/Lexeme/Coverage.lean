import Wireframe.Proofs.Lexeme.LastLine

/-!
# Tokens tile their text

The texts of tokens are parts of the source text that stand in order and do not overlap. What lies
between them is white space, comments, the ends of lines without content, and characters that begin
nothing, each of them reported once and at its place (`tokens_tile`).
-/

namespace Wireframe

open Location (behind bytesOf bytesOf_append offset_advance start_advance start_offset)

/-- What stands between the tokens of a text in place of the character `c`, which has `before` in
front of it and `after` behind it; `ds` are the problems of the text. -/
inductive Gap (ts : List Token) (ds : List Diagnostic) (before : List Char) :
    Char → List Char → Prop
  /-- White space. -/
  | blank {c after} (h : Lexeme.isSpacing c = true) : Gap ts ds before c after
  /-- A comment that begins behind `lead`, up to the end of its line no part of any token. -/
  | comment {c after lead mid} (begins : before = lead ++ mid)
      (slashes : ['/', '/'] <+: mid ++ c :: after) (inside : '\n' ∉ mid ++ [c])
      (uncovered : ∀ n, bytesOf lead ≤ n →
        n < bytesOf (lead ++ (mid ++ c :: after).takeWhile (· ≠ '\n')) → ∀ t ∈ ts, ¬t.Covers n) :
      Gap ts ds before c after
  /-- The end of a line that has no indentation. -/
  | lineEnd {after} (h : Token.indents ts (1 + before.count '\n') = false) :
      Gap ts ds before '\n' after
  /-- A character that begins nothing, and the only problem at its place. -/
  | illegal {c after} (h : (ds.filter fun d => d.location.offset = bytesOf before) =
      [⟨.illegalCharacter c, behind before⟩]) : Gap ts ds before c after

namespace Lexeme

/-- A kind of lexeme that is neither white space nor at either end of a line. -/
structure Inner (P : Lexeme → Prop) : Prop where
  indent : ∀ width, ¬P (indent width)
  blanks : ∀ cs, ¬P (blanks cs)
  lineEnd : ∀ content, ¬P (lineEnd content)

section Neighbours

variable {P Q : Lexeme → Prop} (inner : Inner P) (ends : ∀ content, Q (lineEnd content))
  (behind : ∀ c cs, P (first c cs) →
    ∀ m ∈ (inLine (cs.drop ((first c cs).text.length - 1))).head?, Q m)

include behind

theorem isChain_inLine (cs : List Char) : (inLine cs).IsChain fun l m => P l → Q m := by
  fun_induction inLine cs with
  | case1 => exact List.IsChain.nil
  | case2 c cs l ih => exact List.isChain_cons.mpr ⟨fun m hm hp => behind c cs hp m hm, ih⟩

include inner

theorem isChain_ofLine (cs : List Char) : (ofLine cs).IsChain fun l m => P l → Q m := by
  have blank {lead : List Char} {ms : List Lexeme} (h : ms.IsChain fun l m => P l → Q m) :
      ((if lead = [] then [] else [blanks lead]) ++ ms).IsChain fun l m => P l → Q m := by
    split
    · exact h
    · exact List.isChain_cons.mpr ⟨fun m _ hp => absurd hp (inner.blanks lead), h⟩
  unfold ofLine
  dsimp only
  split
  · have alone := @blank (cs.takeWhile isIndentation) [] List.IsChain.nil
    rwa [List.append_nil] at alone
  split
  · exact blank (List.isChain_singleton _)
  · exact List.isChain_cons.mpr ⟨fun m _ hp => absurd hp (inner.indent _),
      blank (isChain_inLine behind _)⟩

include ends

/-- What follows a kind of lexemes within their lines, and the ends of lines, is all that follows
them. -/
theorem isChain_neighbours (lines : List (List Char)) :
    (ofLines lines).IsChain fun l m => P l → Q m := by
  induction lines with
  | nil => exact List.IsChain.nil
  | cons line lines ih =>
    by_cases hl : lines = []
    · subst hl
      exact isChain_ofLine inner behind line
    · rw [ofLines_cons line hl]
      refine List.isChain_append.mpr ⟨isChain_ofLine inner behind line, ?_, ?_⟩
      · exact List.isChain_cons.mpr ⟨fun m _ hp => absurd hp (inner.lineEnd _), ih⟩
      · intro l _ m hm _
        rw [← Option.mem_some_iff.mp hm]
        exact ends _

/-- What stands behind a lexeme of a text, if anything does. -/
theorem of_neighbours {cs : List Char} {ls₁ ls₂ : List Lexeme} {l m : Lexeme}
    (h : ofText cs = ls₁ ++ l :: m :: ls₂) (hp : P l) : Q m := by
  have chain := isChain_neighbours inner ends behind (splitWhere (· = '\n') cs)
  rw [← ofText, h] at chain
  exact (List.isChain_cons_cons.mp (List.isChain_append.mp chain).2.1).1 hp

end Neighbours

theorem first_eq_comment {c : Char} {cs text : List Char} (h : first c cs = comment text) :
    text = c :: cs := by
  have begun := begun_first c cs
  generalize first c cs = l at begun h
  cases begun with
  | comment => exact (comment.inj h).symm
  | _ => cases h

/-- Within its line no lexeme holds the end of one. -/
theorem newline_not_mem_text {cs : List Char} {l : Lexeme} (h : l ∈ ofText cs) :
    (∃ content, l = lineEnd content) ∨ '\n' ∉ l.text := by
  refine (mem_ofLines h).imp_right ?_
  rintro ⟨line, hm, hl⟩ hn
  have part : '\n' ∈ line := by
    rw [← flatMap_text_ofLine line]
    exact List.mem_flatMap.mpr ⟨l, hl, hn⟩
  have other := not_mem_splitWhere hm part
  exact absurd rfl (of_decide_eq_false other)

/-- Only the end of a line follows a comment. -/
theorem exists_lineEnd {cs text : List Char} {ls₁ ls₂ : List Lexeme} {m : Lexeme}
    (h : ofText cs = ls₁ ++ comment text :: m :: ls₂) : ∃ content, m = lineEnd content := by
  refine of_neighbours (P := fun l => ∃ text, l = comment text)
    (Q := fun m => ∃ content, m = lineEnd content) ⟨by simp, by simp, by simp⟩
    (fun content => ⟨content, rfl⟩) ?_ h ⟨text, rfl⟩
  rintro c cs ⟨text, hl⟩ m hm
  -- a comment takes all that is left of its line
  have all : (first c cs).text = c :: cs := by
    rw [hl]
    exact first_eq_comment hl
  rw [all, List.length_cons, Nat.add_sub_cancel, List.drop_length, inLine] at hm
  cases hm

/-- A comment runs to the end of its line. -/
theorem takeWhile_comment {cs text : List Char} {ls₁ ls₂ : List Lexeme}
    (h : ofText cs = ls₁ ++ comment text :: ls₂) :
    (text ++ ls₂.flatMap Lexeme.text).takeWhile (· ≠ '\n') = text := by
  have inner : ∀ c ∈ text, decide (c ≠ '\n') = true := by
    intro c hc
    rcases newline_not_mem_text (h ▸ List.mem_append_right ls₁ List.mem_cons_self) with
      ⟨_, he⟩ | hn
    · cases he
    · exact decide_eq_true fun e => hn (e ▸ hc)
  rw [List.takeWhile_append_of_pos inner]
  cases ls₂ with
  | nil => exact List.append_nil text
  | cons m ls₂ =>
    obtain ⟨content, rfl⟩ := exists_lineEnd h
    exact List.append_nil text

/-- A character that begins nothing is the only problem at its place. -/
theorem filter_problems_illegal {ls₁ ls₂ : List Lexeme} {c : Char}
    (hs : ∀ l ∈ ls₁ ++ illegal c :: ls₂, Scanned l) :
    ((problems .start (ls₁ ++ illegal c :: ls₂)).filter fun d =>
        d.location.offset = bytesOf (ls₁.flatMap text)) =
      [⟨.illegalCharacter c, behind (ls₁.flatMap text)⟩] := by
  obtain ⟨above, here⟩ := List.forall_mem_append.mp hs
  obtain ⟨-, below⟩ := List.forall_mem_cons.mp here
  have place : (behind (ls₁.flatMap text)).offset = bytesOf (ls₁.flatMap text) := rfl
  have first : (problems .start ls₁).filter (fun d =>
      d.location.offset = bytesOf (ls₁.flatMap text)) = [] := by
    refine List.filter_eq_nil_iff.mpr fun d hd => ?_
    obtain ⟨before, x, after, hb, hp⟩ := exists_of_mem_problems above hd
    have size := x.utf8Size_pos
    rw [decide_eq_true_eq, hb, hp, offset_advance, start_offset, bytesOf_append, Location.bytesOf_cons]
    omega
  have last : (problems ((behind (ls₁.flatMap text)).advance [c]) ls₂).filter (fun d =>
      d.location.offset = bytesOf (ls₁.flatMap text)) = [] := by
    refine List.filter_eq_nil_iff.mpr fun d hd => ?_
    obtain ⟨before, x, after, -, hp⟩ := exists_of_mem_problems below hd
    have size := c.utf8Size_pos
    rw [decide_eq_true_eq, hp, offset_advance, offset_advance, place, Location.bytesOf_cons]
    omega
  rw [problems_append, problems, start_advance, List.filter_append, List.filter_append, first]
  have rest : text (illegal c) = [c] := rfl
  rw [rest, last]
  simp [diagnostics, place]

end Lexeme

namespace Token

open Lexeme (Unread Scanned ofText tokens problems flatMap_text_ofText scanned_ofText)

theorem covers_eofAt (p : Location) (n : Nat) : ¬(eofAt p).Covers n := by
  rintro ⟨low, high⟩
  have size : (eofAt p).text.utf8ByteSize = 0 := rfl
  omega

theorem mem_scan {source : String} {t : Token} (h : t ∈ (scan source).1) :
    t ∈ tokens .start (ofText (body source)) ∨
      t = eofAt (Location.start.advance (body source)) := by
  rw [fst_scan] at h
  rcases List.mem_append.mp h with h | h
  · exact .inl h
  · exact .inr (List.mem_singleton.mp h)

/-- A token is a part of the text, and its place is the one behind what stands before it. -/
theorem exists_of_mem_scan {source : String} {t : Token} (h : t ∈ (scan source).1) :
    ∃ before after, body source = before ++ t.text.toList ++ after ∧
      t.location = behind before := by
  rcases mem_scan h with h | rfl
  · obtain ⟨ls₁, l, ls₂, hl, -, ht, hp⟩ := Lexeme.exists_of_mem_tokens h
    refine ⟨ls₁.flatMap Lexeme.text, ls₂.flatMap Lexeme.text, ?_, by rw [hp, start_advance]⟩
    rw [← flatMap_text_ofText (body source), hl, ht, String.toList_ofList, List.flatMap_append,
      List.flatMap_cons, List.append_assoc]
  · exact ⟨body source, [], by simp [eofAt], start_advance _⟩

theorem in_of_mem_problems {source : String} {d : Diagnostic} (h : d ∈ (scan source).2) :
    d.location.In (body source) := by
  rw [snd_scan] at h
  obtain ⟨before, c, after, hb, hp⟩ := Lexeme.exists_of_mem_problems (scanned_ofText _) h
  rw [flatMap_text_ofText] at hb
  exact Location.in_of_eq hb hp

theorem pairwise_scan (source : String) :
    (scan source).1.Pairwise fun t u =>
      t.location.offset + t.text.utf8ByteSize ≤ u.location.offset := by
  rw [fst_scan]
  refine List.pairwise_append.mpr
    ⟨Lexeme.pairwise_tokens _ _, List.pairwise_singleton _ _, fun t ht u hu => ?_⟩
  obtain rfl := List.mem_singleton.mp hu
  have within := (Lexeme.bounds_of_mem_tokens ht).2
  rw [flatMap_text_ofText, ← offset_advance] at within
  exact within

/-- The end of a line is a token, or the line has no indentation. -/
theorem gap_newline {source : String} {before after : List Char}
    (hc : body source = before ++ '\n' :: after)
    (hu : ∀ t ∈ (scan source).1, ¬t.Covers (bytesOf before)) :
    Gap (scan source).1 (scan source).2 before '\n' after := by
  refine .lineEnd ?_
  have line := Lexeme.indents_line before after
  rw [← hc] at line
  have all : indents (scan source).1 (1 + before.count '\n') =
      Lexeme.hasContent (Lexeme.ofLine (Lexeme.lastLine before)) := by
    simp only [scan_eq]
    rw [indents_append, line]
    exact Bool.or_false _
  rw [all, Bool.eq_false_iff]
  intro content
  -- then it is a token, and that token covers it
  have token : (⟨.newline, "\n", Location.start.advance before⟩ : Token) ∈ (scan source).1 := by
    simp only [scan_eq]
    rw [hc, Lexeme.tokens_ofText_append, content]
    simp [Lexeme.lineEndTokens]
  refine hu _ token ?_
  have size : "\n".utf8ByteSize = 1 := by decide
  rw [Covers, offset_advance, start_offset, size]
  omega

section

variable {source : String} {ls₁ ls₂ : List Lexeme}

theorem gap_comment {cs mid rest : List Char} {c : Char}
    (hl : ofText (body source) = ls₁ ++ .comment ('/' :: '/' :: cs) :: ls₂)
    (ht : '/' :: '/' :: cs = mid ++ c :: rest) :
    Gap (scan source).1 (scan source).2 (ls₁.flatMap Lexeme.text ++ mid) c
      (rest ++ ls₂.flatMap Lexeme.text) := by
  have whole : mid ++ c :: (rest ++ ls₂.flatMap Lexeme.text) =
      '/' :: '/' :: cs ++ ls₂.flatMap Lexeme.text := by simp [ht]
  have line := Lexeme.newline_not_mem_text (hl ▸ List.mem_append_right ls₁ List.mem_cons_self)
  refine .comment rfl ?_ ?_ fun n low high t hm => ?_
  · rw [whole]
    exact ⟨cs ++ ls₂.flatMap Lexeme.text, rfl⟩
  · rcases line with ⟨_, he⟩ | line
    · cases he
    · rw [Lexeme.text, ht, List.append_cons] at line
      exact fun hn => line (List.mem_append_left rest hn)
  · rw [whole, Lexeme.takeWhile_comment hl, bytesOf_append] at high
    rcases mem_scan hm with hm | rfl
    · rw [hl] at hm
      refine Lexeme.not_covers rfl ?_ ?_ hm
      · rw [start_offset, Nat.zero_add]
        exact low
      · rw [start_offset, Nat.zero_add]
        exact high
    · exact covers_eofAt _ n

theorem gap_illegal {mid rest : List Char} {c x : Char}
    (hl : ofText (body source) = ls₁ ++ .illegal x :: ls₂) (ht : [x] = mid ++ c :: rest) :
    Gap (scan source).1 (scan source).2 (ls₁.flatMap Lexeme.text ++ mid) c
      (rest ++ ls₂.flatMap Lexeme.text) := by
  have scanned := scanned_ofText (body source)
  rw [hl] at scanned
  have alone := Lexeme.filter_problems_illegal scanned
  obtain ⟨rfl, rfl, rfl⟩ : mid = [] ∧ c = x ∧ rest = [] := by
    cases mid with
    | nil => simpa [eq_comm] using ht
    | cons d mid => simp at ht
  refine .illegal ?_
  rw [← hl, ← snd_scan] at alone
  rw [List.append_nil]
  exact alone

/-- A lexeme that is a token covers its characters. -/
theorem covers_of_kind? {l : Lexeme} {kind : Token.Kind} {mid rest : List Char} {c : Char} {n : Nat}
    (hl : ofText (body source) = ls₁ ++ l :: ls₂) (hk : l.kind? = some kind)
    (ht : l.text = mid ++ c :: rest) (low : bytesOf (ls₁.flatMap Lexeme.text ++ mid) ≤ n)
    (high : n < bytesOf (ls₁.flatMap Lexeme.text ++ mid) + c.utf8Size) :
    ∃ t ∈ (scan source).1, t.Covers n := by
  refine ⟨⟨kind, String.ofList l.text, behind (ls₁.flatMap Lexeme.text)⟩, ?_, ?_⟩
  · simp only [scan_eq]
    rw [hl, Lexeme.tokens_append, Lexeme.tokens, hk, start_advance]
    simp
  · rw [bytesOf_append] at low high
    rw [Covers, Location.utf8ByteSize_ofList, ht, bytesOf_append, Location.bytesOf_cons]
    simp only [behind]
    omega

end

/-- What a byte belongs to that no token covers. -/
theorem gap_of_not_covers {source : String} {before after : List Char} {c : Char} {n : Nat}
    (hc : body source = before ++ c :: after) (low : bytesOf before ≤ n)
    (high : n < bytesOf before + c.utf8Size) (hu : ∀ t ∈ (scan source).1, ¬t.Covers n) :
    Gap (scan source).1 (scan source).2 before c after := by
  by_cases newline : c = '\n'
  · subst newline
    obtain rfl : n = bytesOf before := Nat.le_antisymm (Nat.le_of_lt_succ high) low
    exact gap_newline hc hu
  have lexemes := flatMap_text_ofText (body source)
  nth_rewrite 2 [hc] at lexemes
  obtain ⟨ls₁, l, ls₂, mid, rest, hl, ht, rfl, rfl⟩ := exists_of_flatMap_eq lexemes
  have unread : l.kind? = none := by
    cases hk : l.kind? with
    | none => rfl
    | some kind =>
      obtain ⟨t, hm, covers⟩ := covers_of_kind? hl hk ht low high
      exact absurd covers (hu t hm)
  have scanned := scanned_ofText (body source) l (hl ▸ by simp)
  cases scanned.unread unread with
  | @blanks cs h =>
    have blank : c ∈ cs := by
      rw [Lexeme.text] at ht
      simp [ht]
    exact .blank (h c blank)
  | comment cs => exact gap_comment hl ht
  | illegal x => exact gap_illegal hl ht
  | lineEnd =>
    -- its only character is the end of a line
    have only : c ∈ ['\n'] := by
      rw [Lexeme.text] at ht
      simp [ht]
    exact absurd (List.mem_singleton.mp only) newline

/-- The texts of the tokens are parts of the source text, in order and without overlap, each behind
what its place says. So are the places of the problems. What no token covers is white space, part of
a comment, the end of a line that has no indentation, or a character that begins nothing, which is
reported once. -/
theorem tokens_tile (source : String) :
    ((scan source).1.Pairwise fun t u =>
        t.location.offset + t.text.utf8ByteSize ≤ u.location.offset) ∧
      (∀ t ∈ (scan source).1, ∃ before after,
        body source = before ++ t.text.toList ++ after ∧ t.location = behind before) ∧
      (∀ d ∈ (scan source).2, d.location.In (body source)) ∧
      ∀ n < bytesOf (body source), (∀ t ∈ (scan source).1, ¬t.Covers n) →
        ∃ before c after, body source = before ++ c :: after ∧ bytesOf before ≤ n ∧
          n < bytesOf before + c.utf8Size ∧
            Gap (scan source).1 (scan source).2 before c after := by
  refine ⟨pairwise_scan source, fun t => exists_of_mem_scan, fun d => in_of_mem_problems, ?_⟩
  intro n hn hu
  obtain ⟨before, c, after, hc, low, high⟩ := Location.exists_of_lt_bytesOf hn
  exact ⟨before, c, after, hc, low, high, gap_of_not_covers hc low high hu⟩

end Token

end Wireframe
