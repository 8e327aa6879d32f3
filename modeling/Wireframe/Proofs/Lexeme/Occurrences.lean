import Mathlib.Data.List.TakeWhile
import Wireframe.Proofs.Lexeme.Lines
import Wireframe.Proofs.Lexeme.Places

/-!
# Where tokens and problems stand

A token of a text is a lexeme with the place behind the lexemes before it (`exists_of_mem_tokens`),
and a problem points at a character of the lexeme that has it (`exists_of_mem_problems`). So tokens
stand in order and do not overlap (`pairwise_tokens`), and what is no token is covered by none
(`not_covers`).
-/

namespace Wireframe

/-- A place in the text of a list of parts is a place in one of them. -/
theorem exists_of_flatMap_eq {α β : Type} {f : α → List β} {as : List α} {before after : List β}
    {b : β} (h : as.flatMap f = before ++ b :: after) :
    ∃ as₁ a as₂ mid rest, as = as₁ ++ a :: as₂ ∧ f a = mid ++ b :: rest ∧
      before = as₁.flatMap f ++ mid ∧ after = rest ++ as₂.flatMap f := by
  induction as generalizing before with
  | nil => simp at h
  | cons a as ih =>
    rw [List.flatMap_cons, List.append_eq_append_iff] at h
    rcases h with ⟨mid, rfl, h⟩ | ⟨mid, ha, h⟩
    · obtain ⟨as₁, d, as₂, mid', rest, rfl, hd, rfl, rfl⟩ := ih h
      exact ⟨a :: as₁, d, as₂, mid', rest, rfl, hd, by simp, rfl⟩
    · cases mid with
      | nil =>
        -- the part ends where the element begins
        have start : as.flatMap f = [] ++ b :: after := h.symm
        obtain ⟨as₁, d, as₂, mid', rest, rfl, hd, hm, rfl⟩ := ih start
        refine ⟨a :: as₁, d, as₂, mid', rest, rfl, hd, ?_, rfl⟩
        rw [List.flatMap_cons, List.append_assoc, ← hm, ha]
        simp
      | cons c mid =>
        rw [List.cons_append, List.cons.injEq] at h
        obtain ⟨rfl, rfl⟩ := h
        exact ⟨[], a, as, before, mid, rfl, ha, rfl, rfl⟩

namespace Token

/-- Whether the byte at an offset belongs to the text of a token. -/
def Covers (t : Token) (n : Nat) : Prop :=
  t.location.offset ≤ n ∧ n < t.location.offset + t.text.utf8ByteSize

end Token

namespace Quoted

theorem exists_of_mem_diagnostics {p : Location} {ss : List Segment} {d : Diagnostic}
    (h : d ∈ diagnostics p ss) :
    ∃ ss₁ s ss₂, ss = ss₁ ++ s :: ss₂ ∧ d.location = p.advance (written ss₁) := by
  induction ss generalizing p with
  | nil => cases h
  | cons s ss ih =>
    rcases List.mem_append.mp h with here | more
    · obtain ⟨problem, -, rfl⟩ : ∃ problem, s.problem = some problem ∧ ⟨problem, p⟩ = d := by
        simpa using here
      exact ⟨[], s, ss, rfl, rfl⟩
    · obtain ⟨ss₁, s', ss₂, rfl, hd⟩ := ih more
      refine ⟨s :: ss₁, s', ss₂, rfl, ?_⟩
      rw [hd, ← Location.advance_append]
      rfl

theorem text_ne_nil_of_mem_scan {cs : List Char} : ∀ s ∈ (scan cs).1, s.text ≠ [] := by
  fun_induction scan cs with
  | case1 => exact List.forall_mem_nil _
  | case2 => exact List.forall_mem_nil _
  | case3 c cs _ s ss closed hs ih =>
    rw [hs] at ih
    obtain ⟨more, hm, -⟩ := starts_segment c cs
    refine List.forall_mem_cons.mpr ⟨?_, ih⟩
    rw [hm]
    exact List.cons_ne_nil c more

end Quoted

namespace Lexeme

open Location (bytesOf bytesOf_append offset_advance)

/-- What the lexemes of a text are. -/
inductive Scanned : Lexeme → Prop
  | indent (width : Nat) : Scanned (indent width)
  | lead {cs : List Char} (h : ∀ c ∈ cs, isIndentation c = true) : Scanned (blanks cs)
  | comment (cs : List Char) : Scanned (comment ('/' :: '/' :: cs))
  | first (c : Char) (cs : List Char) : Scanned (first c cs)
  | lineEnd (content : Bool) : Scanned (lineEnd content)

theorem scanned_inLine (cs : List Char) : ∀ l ∈ inLine cs, Scanned l := by
  fun_induction inLine cs with
  | case1 => exact List.forall_mem_nil _
  | case2 c cs l ih => exact List.forall_mem_cons.mpr ⟨.first c cs, ih⟩

theorem isComment_eq_true {cs : List Char} (h : isComment cs = true) :
    ∃ more, cs = '/' :: '/' :: more := by
  unfold isComment at h
  split at h
  next more => exact ⟨more, rfl⟩
  · cases h

theorem scanned_ofLine (cs : List Char) : ∀ l ∈ ofLine cs, Scanned l := by
  have led : ∀ l ∈ (if cs.takeWhile isIndentation = [] then []
      else [blanks (cs.takeWhile isIndentation)]), Scanned l := by
    split
    · exact List.forall_mem_nil _
    · exact List.forall_mem_singleton.mpr (.lead fun c hc => List.mem_takeWhile_imp hc)
  unfold ofLine
  dsimp only
  split
  · exact led
  split
  next hc =>
    obtain ⟨more, hm⟩ := isComment_eq_true hc
    rw [hm]
    exact List.forall_mem_append.mpr ⟨led, List.forall_mem_singleton.mpr (.comment more)⟩
  · exact List.forall_mem_cons.mpr
      ⟨.indent _, List.forall_mem_append.mpr ⟨led, scanned_inLine _⟩⟩

theorem mem_ofLines {lines : List (List Char)} {l : Lexeme} (h : l ∈ ofLines lines) :
    (∃ content, l = lineEnd content) ∨ ∃ line ∈ lines, l ∈ ofLine line := by
  induction lines with
  | nil => cases h
  | cons line lines ih =>
    by_cases hl : lines = []
    · subst hl
      exact .inr ⟨line, List.mem_cons_self, h⟩
    · rw [ofLines_cons line hl] at h
      rcases List.mem_append.mp h with here | h
      · exact .inr ⟨line, List.mem_cons_self, here⟩
      rcases List.mem_cons.mp h with rfl | h
      · exact .inl ⟨_, rfl⟩
      · refine (ih h).imp_right ?_
        rintro ⟨line', hm, hl'⟩
        exact ⟨line', List.mem_cons_of_mem line hm, hl'⟩

theorem scanned_ofText (cs : List Char) : ∀ l ∈ ofText cs, Scanned l := by
  intro l hl
  rcases mem_ofLines hl with ⟨content, rfl⟩ | ⟨line, -, hm⟩
  · exact .lineEnd content
  · exact scanned_ofLine line l hm

/-- No lexeme but a word is read as one. -/
theorem Scanned.word {l : Lexeme} (hs : Scanned l) {kind : Token.Kind} (h : l.kind? = some kind)
    (hw : kind.isWord = true) : ∃ ws, l = word ws ∧ wordKind ws = kind := by
  have none {other : Token.Kind} (ho : other.isWord = false) (h : some other = some kind) :
      ∃ ws, l = .word ws ∧ wordKind ws = kind := by
    rw [← Option.some.inj h, ho] at hw
    cases hw
  cases hs with
  | indent width => exact none rfl h
  | first c cs =>
    have begun := begun_first c cs
    generalize Lexeme.first c cs = l at begun h none ⊢
    cases begun with
    | symbol hk => exact none (plain_symbol? hk).1 h
    | quoted => exact none rfl h
    | word => exact ⟨_, rfl, Option.some.inj h⟩
    | _ => cases h
  | lineEnd content =>
    cases content with
    | true => exact none rfl h
    | false => cases h
  | _ => cases h

/-- A lexeme that is no token is white space, a comment, a character that begins nothing, or the end
of a line without content. -/
inductive Unread : Lexeme → Prop
  | blanks {cs : List Char} (h : ∀ c ∈ cs, isSpacing c = true) : Unread (blanks cs)
  | comment (cs : List Char) : Unread (comment ('/' :: '/' :: cs))
  | illegal (c : Char) : Unread (illegal c)
  | lineEnd : Unread (lineEnd false)

theorem unread_first {c : Char} {cs : List Char} (h : (first c cs).kind? = none) :
    Unread (first c cs) := by
  have begun := begun_first c cs
  generalize first c cs = l at begun h ⊢
  cases begun with
  | blanks hc =>
    exact .blanks (List.forall_mem_cons.mpr ⟨hc, fun d hd => List.mem_takeWhile_imp hd⟩)
  | comment hs =>
    rw [hs]
    exact .comment _
  | illegal => exact .illegal c
  | _ => cases h

theorem Scanned.unread {l : Lexeme} (h : Scanned l) (hk : l.kind? = none) : Unread l := by
  cases h with
  | indent width => cases hk
  | lead hb =>
    refine .blanks fun c hc => ?_
    have blank := hb c hc
    unfold isIndentation at blank
    unfold isSpacing
    rw [blank, Bool.true_or]
  | comment cs => exact .comment cs
  | first c cs => exact unread_first hk
  | lineEnd content =>
    cases content with
    | false => exact .lineEnd
    | true => cases hk

/-- Whether the problems of a lexeme point at its characters. -/
def PointsInside (l : Lexeme) : Prop :=
  ∀ p, ∀ d ∈ l.diagnostics p, ∃ mid c rest, l.text = mid ++ c :: rest ∧ d.location = p.advance mid

theorem pointsInside_illegal (c : Char) : PointsInside (illegal c) := by
  intro p d hd
  obtain rfl := List.mem_singleton.mp hd
  exact ⟨[], c, [], rfl, rfl⟩

theorem pointsInside_quoted (cs : List Char) :
    PointsInside (quoted (Quoted.scan cs).1 (Quoted.scan cs).2) := by
  intro p d hd
  rcases List.mem_append.mp hd with inner | unclosed
  · obtain ⟨ss₁, s, ss₂, hss, hp⟩ := Quoted.exists_of_mem_diagnostics inner
    have hs : s ∈ (Quoted.scan cs).1 := by simp [hss]
    obtain ⟨c, more, hc⟩ := List.exists_cons_of_ne_nil (Quoted.text_ne_nil_of_mem_scan s hs)
    refine ⟨'"' :: Quoted.written ss₁, c, more ++ Quoted.written ss₂ ++
      (if (Quoted.scan cs).2 then ['"'] else []), ?_, hp⟩
    simp [text, hss, Quoted.written, hc]
  · split at unclosed
    · cases unclosed
    · obtain rfl := List.mem_singleton.mp unclosed
      exact ⟨[], '"', _, rfl, rfl⟩

theorem pointsInside_first (c : Char) (cs : List Char) : PointsInside (first c cs) := by
  have silent {l : Lexeme} (h : ∀ p, l.diagnostics p = []) : PointsInside l := by
    intro p d hd
    rw [h p] at hd
    cases hd
  have begun := begun_first c cs
  generalize first c cs = l at begun ⊢
  cases begun with
  | quoted => exact pointsInside_quoted cs
  | illegal => exact pointsInside_illegal c
  | _ => exact silent fun _ => rfl

theorem Scanned.pointsInside {l : Lexeme} (h : Scanned l) : PointsInside l := by
  cases h with
  | first c cs => exact pointsInside_first c cs
  | _ => exact fun p d hd => absurd hd List.not_mem_nil

/-- A lexeme is worth one token at most. -/
theorem mem_token {l : Lexeme} {p : Location} {t : Token}
    (h : t ∈ (l.kind?.map fun kind => (⟨kind, String.ofList l.text, p⟩ : Token)).toList) :
    l.kind? = some t.kind ∧ t = ⟨t.kind, String.ofList l.text, p⟩ := by
  obtain ⟨kind, hk, rfl⟩ : ∃ kind, l.kind? = some kind ∧
      ⟨kind, String.ofList l.text, p⟩ = t := by simpa using h
  exact ⟨hk, rfl⟩

theorem exists_of_mem_tokens {p : Location} {ls : List Lexeme} {t : Token}
    (h : t ∈ tokens p ls) :
    ∃ ls₁ l ls₂, ls = ls₁ ++ l :: ls₂ ∧ l.kind? = some t.kind ∧ t.text = String.ofList l.text ∧
      t.location = p.advance (ls₁.flatMap text) := by
  induction ls generalizing p with
  | nil => cases h
  | cons l ls ih =>
    rcases List.mem_append.mp h with here | more
    · obtain ⟨hk, ht⟩ := mem_token here
      rw [ht]
      exact ⟨[], l, ls, rfl, hk, rfl, rfl⟩
    · obtain ⟨ls₁, l', ls₂, rfl, hk, ht, hp⟩ := ih more
      refine ⟨l :: ls₁, l', ls₂, rfl, hk, ht, ?_⟩
      rw [hp, List.flatMap_cons, Location.advance_append]

/-- A problem points at a character of the lexeme that has it. -/
theorem exists_of_mem_problems {p : Location} {ls : List Lexeme} (hs : ∀ l ∈ ls, Scanned l)
    {d : Diagnostic} (h : d ∈ problems p ls) :
    ∃ before c after, ls.flatMap text = before ++ c :: after ∧ d.location = p.advance before := by
  induction ls generalizing p with
  | nil => cases h
  | cons l ls ih =>
    obtain ⟨hl, hls⟩ := List.forall_mem_cons.mp hs
    rcases List.mem_append.mp h with here | more
    · obtain ⟨mid, c, rest, hm, hp⟩ := hl.pointsInside p d here
      refine ⟨mid, c, rest ++ ls.flatMap text, ?_, hp⟩
      rw [List.flatMap_cons, hm, List.append_assoc, List.cons_append]
    · obtain ⟨before, c, after, hb, hp⟩ := ih hls more
      refine ⟨l.text ++ before, c, after, ?_, ?_⟩
      · rw [List.flatMap_cons, hb, List.append_assoc]
      · rw [hp, Location.advance_append]

/-- A token stands within the text of the lexemes that it is one of. -/
theorem bounds_of_mem_tokens {p : Location} {ls : List Lexeme} {t : Token}
    (h : t ∈ tokens p ls) :
    p.offset ≤ t.location.offset ∧
      t.location.offset + t.text.utf8ByteSize ≤ p.offset + bytesOf (ls.flatMap text) := by
  obtain ⟨ls₁, l, ls₂, rfl, -, ht, hp⟩ := exists_of_mem_tokens h
  rw [hp, ht, offset_advance, Location.utf8ByteSize_ofList, List.flatMap_append,
    List.flatMap_cons, bytesOf_append, bytesOf_append]
  omega

/-- Every token ends before the next one begins. -/
theorem pairwise_tokens (p : Location) (ls : List Lexeme) :
    (tokens p ls).Pairwise fun t u =>
      t.location.offset + t.text.utf8ByteSize ≤ u.location.offset := by
  induction ls generalizing p with
  | nil => exact List.Pairwise.nil
  | cons l ls ih =>
    refine List.pairwise_append.mpr ⟨?_, ih _, fun t ht u hu => ?_⟩
    · cases l.kind? with
      | none => exact List.Pairwise.nil
      | some kind => exact List.pairwise_singleton _ _
    · have behind := (bounds_of_mem_tokens hu).1
      rw [offset_advance] at behind
      rw [(mem_token ht).2, Location.utf8ByteSize_ofList]
      exact behind

/-- No token covers a lexeme that is none. -/
theorem not_covers {p : Location} {ls₁ ls₂ : List Lexeme} {l : Lexeme} (hk : l.kind? = none)
    {n : Nat} (low : p.offset + bytesOf (ls₁.flatMap text) ≤ n)
    (high : n < p.offset + bytesOf (ls₁.flatMap text) + bytesOf l.text) {t : Token}
    (h : t ∈ tokens p (ls₁ ++ l :: ls₂)) : ¬t.Covers n := by
  rintro ⟨hl, hu⟩
  rw [tokens_append, tokens, hk] at h
  rcases List.mem_append.mp h with h | h
  · have before := (bounds_of_mem_tokens h).2
    omega
  · have behind := (bounds_of_mem_tokens h).1
    rw [offset_advance, offset_advance] at behind
    omega

end Lexeme

end Wireframe
