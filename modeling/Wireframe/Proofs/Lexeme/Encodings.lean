import Wireframe.Proofs.Lexeme.Coverage
import Wireframe.Proofs.Lexeme.Spelling

/-!
# The encodings of a text

A literal of a text is the characters of the text between quotes, each in one of its ways
(`Quoted.IsLiteral`). What is read as a string without complaint is a literal of its value
(`Token.isLiteral_of_mem_scan`), and a literal alone on its line is read as its text, whatever the
text contains and however it is written (`Token.scan_eq_literal_iff`).
-/

namespace Wireframe

namespace Quoted

/-- How a text can be written between quotes. -/
inductive Encodes : List Char → List Char → Prop
  | nil : Encodes [] []
  | cons {c cs part text} (first : Writes c part) (more : Encodes cs text) :
      Encodes (c :: cs) (part ++ text)

/-- A literal of a text: the text between quotes, in one of its encodings. -/
def IsLiteral (s : String) (literal : List Char) : Prop :=
  ∃ inside, Encodes s.toList inside ∧ literal = '"' :: (inside ++ ['"'])

theorem diagnostics_eq_nil_iff (p : Location) (ss : List Segment) :
    diagnostics p ss = [] ↔ ∀ s ∈ ss, s.problem = none := by
  induction ss generalizing p with
  | nil => simp [diagnostics]
  | cons s ss ih => simp [diagnostics, ih]

namespace Encodes

variable {cs text : List Char}

theorem newline_not_mem (h : Encodes cs text) : '\n' ∉ text := by
  induction h with
  | nil => exact List.not_mem_nil
  | cons first _ ih => exact List.not_mem_append first.newline_not_mem ih

/-- Each part of an encoding is a segment that stands for one character. -/
theorem segments (h : Encodes cs text) :
    ∃ ss, (∀ s ∈ ss, Stands s ∧ s.problem = none) ∧ written ss = text ∧ value ss = cs := by
  induction h with
  | nil => exact ⟨[], List.forall_mem_nil _, rfl, rfl⟩
  | @cons c cs part text first _ ih =>
    obtain ⟨ss, stand, rfl, rfl⟩ := ih
    exact ⟨reading c part :: ss, List.forall_mem_cons.mpr ⟨⟨first.stands, rfl⟩, stand⟩, rfl, rfl⟩

/-- An encoding is read up to the quote behind it. -/
theorem scan (h : Encodes cs text) (rest : List Char) :
    ∃ ss, Quoted.scan (text ++ '"' :: rest) = (ss, true) ∧ written ss = text ∧ value ss = cs ∧
      ∀ p, diagnostics p ss = [] := by
  obtain ⟨ss, stand, rfl, rfl⟩ := h.segments
  exact ⟨ss, scan_written (fun s hs => (stand s hs).1) rest, rfl, rfl,
    fun p => (diagnostics_eq_nil_iff p ss).mpr fun s hs => (stand s hs).2⟩

end Encodes

theorem writes_unicodeEscape? {cs written : List Char} {c : Char}
    (h : unicodeEscape? cs = some (written, c)) : Writes c ('\\' :: 'u' :: written) := by
  have code {digits run : List Char} (hr : digits = run.takeWhile Text.isHexDigit)
      (hc : scalar? (Text.hexNumber digits) = some c) : Code c digits :=
    ⟨fun d hd => List.mem_takeWhile_imp (hr ▸ hd), scalar?_eq_some_iff.mp hc⟩
  unfold unicodeEscape? at h
  split at h
  · dsimp only at h
    split at h
    next closed =>
      obtain ⟨d, hd, he⟩ := Option.map_eq_some_iff.mp h
      cases he
      exact .braced closed.1 (code rfl hd)
    · cases h
  · dsimp only at h
    split at h
    next four =>
      obtain ⟨d, hd, he⟩ := Option.map_eq_some_iff.mp h
      cases he
      exact .four four (code rfl hd)
    · cases h

/-- An escape that is understood writes the character that it stands for. -/
theorem writes_escape {cs : List Char} (hcs : cs ≠ []) (silent : (escape cs).problem = none) :
    ∃ c part, escape cs = reading c part ∧ Writes c part := by
  revert silent
  fun_cases escape cs with
  | case1 => exact absurd rfl hcs
  | case2 cs written c h => exact fun _ => ⟨c, _, rfl, writes_unicodeEscape? h⟩
  | case4 letter cs _ c simple =>
    exact fun _ => ⟨c, _, rfl, .short (simpleEscape?_eq_some_iff.mp simple)⟩
  | _ => nofun

theorem writes_segment {c : Char} {cs : List Char} (quote : c ≠ '"') (newline : c ≠ '\n')
    (hcs : cs ≠ []) (silent : (segment c cs).problem = none) :
    ∃ d part, segment c cs = reading d part ∧ Writes d part := by
  unfold segment at silent ⊢
  split
  next slash =>
    rw [if_pos slash] at silent
    exact writes_escape hcs silent
  next slash => exact ⟨c, [c], rfl, .raw quote slash newline⟩

/-- What is read up to a quote without complaint is an encoding of its value. -/
theorem encodes_scan {cs : List Char} (closed : (scan cs).2 = true)
    (silent : ∀ s ∈ (scan cs).1, s.problem = none) (line : '\n' ∉ written (scan cs).1) :
    Encodes (value (scan cs).1) (written (scan cs).1) := by
  fun_induction scan cs with
  | case1 => cases closed
  | case2 => exact .nil
  | case3 c cs quote s ss closed' hs ih =>
    obtain ⟨here, later⟩ := List.forall_mem_cons.mp silent
    obtain ⟨more, hm, -⟩ := starts_segment c cs
    rw [hs] at ih
    have begins : '\n' ∉ s.text ∧ '\n' ∉ written ss := by
      rwa [written, List.flatMap_cons, List.mem_append, not_or] at line
    have newline : c ≠ '\n' := by
      rintro rfl
      exact begins.1 (hm ▸ List.mem_cons_self)
    have follows : cs ≠ [] := by
      rintro rfl
      rw [List.drop_nil, scan] at hs
      cases hs
      cases closed
    obtain ⟨d, part, hd, writes⟩ := writes_segment quote newline follows here
    have first : s = reading d part := hd
    rw [first]
    exact .cons writes (ih closed later begins.2)

end Quoted

namespace Lexeme

theorem wordKind_ne_str (cs : List Char) (s : String) : wordKind cs ≠ .str s := by
  unfold wordKind
  split
  · simp
  · split
    · simp
    · split <;> simp

theorem str_first {c : Char} {cs : List Char} {s : String}
    (h : (first c cs).kind? = some (.str s)) :
    first c cs = .quoted (Quoted.scan cs).1 (Quoted.scan cs).2 := by
  have begun := begun_first c cs
  generalize first c cs = l at begun h ⊢
  cases begun with
  | symbol hk => exact absurd (Option.some.inj h) ((plain_symbol? hk).2 s)
  | quoted => rfl
  | word => exact absurd (Option.some.inj h) (wordKind_ne_str _ s)
  | _ => cases h

/-- No lexeme but what a quote begins is a string. -/
theorem Scanned.str {l : Lexeme} (hs : Scanned l) {s : String} (h : l.kind? = some (.str s)) :
    ∃ cs, l = .quoted (Quoted.scan cs).1 (Quoted.scan cs).2 := by
  cases hs with
  | first c cs => exact ⟨cs, str_first h⟩
  | lineEnd content => cases content <;> cases h
  | _ => cases h

theorem diagnostics_eq_nil {p : Location} {ls₁ ls₂ : List Lexeme} {l : Lexeme}
    (h : problems p (ls₁ ++ l :: ls₂) = []) :
    l.diagnostics (p.advance (ls₁.flatMap text)) = [] := by
  rw [problems_append, problems] at h
  exact (List.append_eq_nil_iff.mp (List.append_eq_nil_iff.mp h).2).1

/-- A string about which nothing is said is closed, and what is said about its inside is nothing. -/
theorem quoted_of_silent {p : Location} {ss : List Quoted.Segment} {closed : Bool}
    (h : (quoted ss closed).diagnostics p = []) :
    closed = true ∧ ∀ s ∈ ss, s.problem = none := by
  obtain ⟨inside, ending⟩ := List.append_eq_nil_iff.mp h
  refine ⟨?_, (Quoted.diagnostics_eq_nil_iff _ ss).mp inside⟩
  cases closed with
  | true => rfl
  | false => cases ending

/-- A literal is read as one string, whatever is behind it. -/
theorem inLine_literal {s : String} {inside : List Char} (h : Quoted.Encodes s.toList inside)
    (rest : List Char) :
    ∃ l, inLine ('"' :: (inside ++ ['"'] ++ rest)) = l :: inLine rest ∧
      l.kind? = some (.str s) ∧ l.text = '"' :: (inside ++ ['"']) ∧
      ∀ p, l.diagnostics p = [] := by
  obtain ⟨ss, read, rfl, hv, silent⟩ := h.scan rest
  have quote : first '"' (Quoted.written ss ++ ['"'] ++ rest) = .quoted ss true := by
    rw [List.append_assoc, first_quote, List.singleton_append, read]
  refine ⟨.quoted ss true, inLine_of_first quote rfl, ?_, rfl, fun p => ?_⟩
  · rw [kind?, hv, String.ofList_toList]
  · rw [diagnostics, silent]
    rfl

theorem ofLine_quote (cs : List Char) : ofLine ('"' :: cs) = indent 0 :: inLine ('"' :: cs) :=
  rfl

end Lexeme

namespace Token

open Lexeme (ofText problems)

/-- What is read as a string, in a text about which there is nothing to say, is a literal of what it
is read as. -/
theorem isLiteral_of_mem_scan {source : String} {t : Token} {s : String}
    (ht : t ∈ (scan source).1) (hk : t.kind = .str s) (silent : (scan source).2 = []) :
    Quoted.IsLiteral s t.text.toList := by
  rcases mem_scan ht with ht | rfl
  · obtain ⟨ls₁, l, ls₂, hl, kind, text, -⟩ := Lexeme.exists_of_mem_tokens ht
    have mem : l ∈ ofText (body source) := hl ▸ by simp
    obtain ⟨cs, rfl⟩ := (Lexeme.scanned_ofText _ l mem).str (kind.trans (congrArg some hk))
    have quiet : problems .start (ofText (body source)) = [] := snd_scan source ▸ silent
    rw [hl] at quiet
    obtain ⟨closed, inside⟩ := Lexeme.quoted_of_silent (Lexeme.diagnostics_eq_nil quiet)
    have value : String.ofList (Quoted.value (Quoted.scan cs).1) = s :=
      Kind.str.inj (Option.some.inj (kind.trans (congrArg some hk)))
    have written : (Lexeme.quoted (Quoted.scan cs).1 (Quoted.scan cs).2).text =
        '"' :: (Quoted.written (Quoted.scan cs).1 ++ ['"']) := by
      rw [Lexeme.text, closed]
      rfl
    have line : '\n' ∉ Quoted.written (Quoted.scan cs).1 := by
      rcases Lexeme.newline_not_mem_text mem with ⟨content, he⟩ | here
      · cases he
      · rw [written] at here
        exact fun hn => here (List.mem_cons_of_mem _ (List.mem_append_left _ hn))
    refine ⟨Quoted.written (Quoted.scan cs).1, ?_, ?_⟩
    · rw [← value, String.toList_ofList]
      exact Quoted.encodes_scan closed inside line
    · rw [text, String.toList_ofList, written]
  · cases hk

/-- A text is read as one string `s` and nothing else, without complaint, exactly when it is a
literal of `s`. -/
theorem scan_eq_literal_iff (s literal : String) :
    scan literal = ([⟨.indent 0, "", .start⟩, ⟨.str s, literal, .start⟩,
        eofAt (Location.start.advance literal.toList)], []) ↔
      Quoted.IsLiteral s literal.toList := by
  constructor
  · intro h
    have mem : ⟨.str s, literal, .start⟩ ∈ (scan literal).1 := by simp [h]
    have silent : (scan literal).2 = [] := by rw [h]
    exact isLiteral_of_mem_scan mem rfl silent
  · rintro ⟨inside, encodes, hl⟩
    have body_eq : body literal = literal.toList := by
      rw [body, hl]
      rfl
    have line : '\n' ∉ literal.toList := by
      have here := encodes.newline_not_mem
      simp [hl, here]
    obtain ⟨l, read, kind, text, silent⟩ := Lexeme.inLine_literal encodes []
    have lexemes : ofText literal.toList = [.indent 0, l] := by
      rw [Lexeme.ofText_line line, hl, Lexeme.ofLine_quote]
      rw [List.append_nil, Lexeme.inLine] at read
      rw [read]
    have written : String.ofList l.text = literal := by
      rw [text, ← hl, String.ofList_toList]
    have tokens : Lexeme.tokens .start [.indent 0, l] =
        [⟨.indent 0, "", .start⟩, ⟨.str s, literal, .start⟩] := by
      rw [Lexeme.tokens, Lexeme.tokens, kind, written]
      rfl
    have quiet : problems .start [.indent 0, l] = [] := by
      rw [problems, problems, silent]
      rfl
    simp only [scan_eq, body_eq, lexemes, tokens, quiet, List.cons_append, List.nil_append]

/-- Digits behind a code are not part of it, and nothing inside quotes is a bracket or a comment. -/
example : (scan "\"[\\u00e9f\\u\x7b01F600\x7d//\\/ATTR\"").1.map Token.kind =
    [.indent 0, .str "[éf😀///ATTR", .eof] := by
  decide +kernel

end Token

end Wireframe
