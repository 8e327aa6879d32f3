import Wireframe.Proofs.Lexeme.Scanning
import Wireframe.Proofs.Outline.Run

/-!
# The lines of a token stream

The tokens of a text come in whole lines: each line with content gives an indentation and the
tokens of its lexemes, and a line without content gives nothing, not even its end
(`lined_scan`).
-/

namespace Wireframe

/-- Whether a token is read off a word: a keyword, a number or a name. -/
def Token.Kind.isWord : Token.Kind → Bool
  | .attr | .content | .ident _ | .number _ => true
  | _ => false

namespace Lexeme

open Outline (Follows Lined AtLineEnd)

/-- The kinds of the tokens that lexemes are. -/
def kinds (ls : List Lexeme) : List Token.Kind :=
  ls.filterMap kind?

@[simp] theorem kinds_append (ls ms : List Lexeme) : kinds (ls ++ ms) = kinds ls ++ kinds ms :=
  List.filterMap_append

theorem map_kind_tokens (p : Location) (ls : List Lexeme) :
    (tokens p ls).map Token.kind = kinds ls := by
  induction ls generalizing p with
  | nil => rfl
  | cons l ls ih =>
    rw [tokens, List.map_append, ih, kinds, kinds, List.filterMap_cons]
    cases l.kind? <;> rfl

theorem endsLine_symbol? {c : Char} {kind : Token.Kind} (h : symbol? c = some kind) :
    kind.endsLine = false := by
  unfold symbol? at h
  split at h <;> cases h <;> rfl

/-- A token of a single character is neither a word nor a string. -/
theorem plain_symbol? {c : Char} {kind : Token.Kind} (h : symbol? c = some kind) :
    kind.isWord = false ∧ ∀ s, kind ≠ .str s := by
  unfold symbol? at h
  split at h <;> cases h <;> exact ⟨rfl, nofun⟩

theorem endsLine_wordKind (cs : List Char) : (wordKind cs).endsLine = false := by
  unfold wordKind
  split
  · rfl
  · split
    · rfl
    · split <;> rfl

/-- Behind the indentation of a line no lexeme ends it. -/
theorem endsLine_first {c : Char} {cs : List Char} {kind : Token.Kind}
    (h : (first c cs).kind? = some kind) : kind.endsLine = false := by
  have begun := begun_first c cs
  generalize first c cs = l at begun h
  cases begun with
  | symbol hk =>
    cases h
    exact endsLine_symbol? hk
  | quoted =>
    cases h
    rfl
  | word =>
    cases h
    exact endsLine_wordKind _
  | _ => cases h

theorem endsLine_inLine (cs : List Char) {kind : Token.Kind} (h : kind ∈ kinds (inLine cs)) :
    kind.endsLine = false := by
  fun_induction inLine cs with
  | case1 => cases h
  | case2 c cs l ih =>
    rw [kinds, List.filterMap_cons] at h
    split at h
    · exact ih h
    next k hk =>
      rcases List.mem_cons.mp h with rfl | h
      · exact endsLine_first hk
      · exact ih h

/-- A line has content and begins with its indentation, or it has no tokens. -/
theorem kinds_ofLine (cs : List Char) :
    (hasContent (ofLine cs) = false ∧ kinds (ofLine cs) = []) ∨
      ∃ width, hasContent (ofLine cs) = true ∧
        kinds (ofLine cs) = .indent width :: kinds (inLine (cs.dropWhile isIndentation)) := by
  unfold ofLine
  dsimp only
  split
  · left
    split <;> exact ⟨rfl, rfl⟩
  split
  · left
    split <;> exact ⟨rfl, rfl⟩
  · right
    refine ⟨indentation (cs.takeWhile isIndentation), rfl, ?_⟩
    split <;> rfl

/-- A line stands in front of the end that follows it. -/
theorem isChain_line {a k : Token.Kind} {ks rest : List Token.Kind} (ha : a ≠ .eof)
    (ha' : a ≠ .newline) (hks : ∀ b ∈ ks, b.endsLine = false) (hk : k = .newline ∨ k = .eof)
    (h : (k :: rest).IsChain Follows) : (a :: (ks ++ k :: rest)).IsChain Follows := by
  induction ks generalizing a with
  | nil =>
    refine List.isChain_cons_cons.mpr ⟨⟨ha, fun e => absurd e ha', fun hi => ?_⟩, h⟩
    rcases hk with rfl | rfl <;> cases hi
  | cons b ks ih =>
    have hb := hks b List.mem_cons_self
    have hb' : b ≠ .eof ∧ b ≠ .newline := by
      constructor <;> rintro rfl <;> cases hb
    refine List.isChain_cons_cons.mpr ⟨⟨ha, fun e => absurd e ha', fun hi => ?_⟩, ?_⟩
    · obtain ⟨width, rfl⟩ := Outline.isIndent_eq_true.mp hi
      cases hb
    · exact ih hb'.1 hb'.2 fun c hc => hks c (List.mem_cons_of_mem _ hc)

/-- Where lines are read on from: at the end of the input or at an indentation. -/
def beginsLine : List Token.Kind → Bool
  | .eof :: _ | .indent _ :: _ => true
  | _ => false

theorem beginsLine_cons {k : Token.Kind} {ks : List Token.Kind}
    (h : beginsLine (k :: ks) = true) : k = .eof ∨ Outline.isIndent k = true := by
  unfold beginsLine at h
  split at h
  next he =>
    cases he
    exact .inl rfl
  next he =>
    cases he
    exact .inr rfl
  · cases h

theorem isChain_ofLines (lines : List (List Char)) :
    (kinds (ofLines lines) ++ [Token.Kind.eof]).IsChain Follows ∧
      beginsLine (kinds (ofLines lines) ++ [.eof]) = true := by
  fun_induction ofLines lines with
  | case1 => exact ⟨List.isChain_singleton _, rfl⟩
  | case2 cs =>
    rcases kinds_ofLine cs with ⟨-, hk⟩ | ⟨width, -, hk⟩
    · rw [hk]
      exact ⟨List.isChain_singleton _, rfl⟩
    · rw [hk]
      refine ⟨isChain_line (by simp) (by simp) (fun b => endsLine_inLine _) (.inr rfl) ?_, rfl⟩
      exact List.isChain_singleton _
  | case3 cs lines _ ih =>
    obtain ⟨chain, begins⟩ := ih
    rw [kinds_append, List.append_assoc]
    rcases kinds_ofLine cs with ⟨hc, hk⟩ | ⟨width, hc, hk⟩
    · rw [hk, hc]
      exact ⟨chain, begins⟩
    · rw [hk, hc]
      refine ⟨isChain_line (by simp) (by simp) (fun b => endsLine_inLine _) (.inl rfl) ?_, rfl⟩
      show (Token.Kind.newline :: (kinds (ofLines lines) ++ [Token.Kind.eof])).IsChain Follows
      generalize kinds (ofLines lines) ++ [.eof] = ks at chain begins
      cases ks with
      | nil => exact List.isChain_singleton _
      | cons k ks =>
        refine List.isChain_cons_cons.mpr ⟨⟨by simp, fun _ => ?_, fun _ => rfl⟩, chain⟩
        exact beginsLine_cons begins

end Lexeme

namespace Token

open Outline

theorem map_kind_scan (source : String) :
    (scan source).1.map Token.kind =
      Lexeme.kinds (Lexeme.ofText (body source)) ++ [Token.Kind.eof] := by
  simp only [scan_eq, List.map_append, Lexeme.map_kind_tokens]
  rfl

/-- The tokens of a text come in whole lines. -/
theorem lined_scan (source : String) : Lined (scan source).1 := by
  rw [Lined, map_kind_scan]
  exact (Lexeme.isChain_ofLines _).1

/-- The tokens of a text begin with a line. -/
theorem atLineEnd_scan (source : String) : AtLineEnd (scan source).1 := by
  have begins := (Lexeme.isChain_ofLines (splitWhere (· = '\n') (body source))).2
  rw [← Lexeme.ofText, ← map_kind_scan] at begins
  generalize (scan source).1 = ts at begins
  cases ts with
  | nil => rfl
  | cons t ts =>
    rw [List.map_cons] at begins
    exact inLine_of_begins (Lexeme.beginsLine_cons begins)

end Token

end Wireframe
