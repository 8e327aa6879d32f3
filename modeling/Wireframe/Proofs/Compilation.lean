import Wireframe.Compiler
import Wireframe.Proofs.Analysis.Components
import Wireframe.Proofs.Lexeme.Tiling
import Wireframe.Proofs.Outline.TagLines

/-!
# Which texts compile

A text compiles when one of its lines begins with a bracket and the name of a kind, whatever else
is wrong with it and whatever is left out of its document (`compile_eq_ok_iff`). So a
compilation that fails says why with an error, and one that reports no error has a document.
-/

namespace Wireframe

namespace Outline

open Lexeme (kinds ofLine ofLines hasContent kinds_append kinds_ofLine)

/-- The name that tokens behind a bracket begin with; empty where there is none. -/
def named : List Token.Kind → String
  | .ident name :: _ => name
  | _ => ""

/-- The names of the tag lines among tokens of the given kinds. -/
def tagNames : List Token.Kind → List String
  | [] => []
  | k :: ks =>
    (if isIndent k ∧ ks.head? = some .openBracket then [named ks.tail] else []) ++ tagNames ks

theorem map_snd_tagLines (ts : List Token) :
    (tagLines ts).map Prod.snd = tagNames (ts.map Token.kind) := by
  induction ts with
  | nil => rfl
  | cons t ts ih =>
    have bracket : (next ts).kind = .openBracket ↔
        (ts.map Token.kind).head? = some .openBracket := by
      cases ts <;> simp [next, Token.eofAt]
    have name : (ident? (next (ts.drop 1))).getD "" = named (ts.map Token.kind).tail := by
      rcases ts with _ | ⟨_, _ | ⟨u, _⟩⟩
      · rfl
      · rfl
      · cases hu : u.kind <;> simp [next, ident?, named, hu]
    rw [tagLines, List.map_append, ih, List.map_cons, tagNames]
    simp only [bracket, name]
    split <;> rfl

/-- Behind its indentation a line has no tag line in it. -/
theorem tagNames_append {ks : List Token.Kind} (h : ∀ k ∈ ks, k.endsLine = false)
    (rest : List Token.Kind) : tagNames (ks ++ rest) = tagNames rest := by
  induction ks with
  | nil => rfl
  | cons k ks ih =>
    obtain ⟨hk, hks⟩ := List.forall_mem_cons.mp h
    have width : isIndent k = false := by cases k <;> simp_all [Token.Kind.endsLine, isIndent]
    rw [List.cons_append, tagNames, if_neg (by simp [width])]
    exact ih hks

/-- The one tag line of a line is the line. -/
theorem tagNames_indent (width : Nat) {ks : List Token.Kind} (h : ∀ k ∈ ks, k.endsLine = false)
    (rest : List Token.Kind) :
    tagNames (.indent width :: (ks ++ rest)) =
      (if (ks ++ rest).head? = some .openBracket then [named (ks ++ rest).tail] else []) ++
        tagNames rest := by
  rw [tagNames, tagNames_append h]
  simp only [isIndent, true_and]

theorem tagNames_one (width : Nat) {ks : List Token.Kind} (h : ∀ k ∈ ks, k.endsLine = false) :
    tagNames (.indent width :: ks) =
      if ks.head? = some .openBracket then [named ks.tail] else [] := by
  have alone := tagNames_indent width h []
  rwa [List.append_nil, tagNames, List.append_nil] at alone

/-- A line has no content, or it has its indentation and behind that no token that ends a line. -/
theorem kinds_line (line : List Char) :
    hasContent (ofLine line) = false ∧ kinds (ofLine line) = [] ∨
      ∃ width ks, hasContent (ofLine line) = true ∧ kinds (ofLine line) = .indent width :: ks ∧
        ∀ k ∈ ks, k.endsLine = false := by
  rcases kinds_ofLine line with blank | ⟨width, hc, hl⟩
  · exact .inl blank
  · exact .inr ⟨width, _, hc, hl, fun _ => Lexeme.endsLine_inLine _⟩

/-- The tag of a line does not depend on what is below it. -/
theorem tagNames_line (line : List Char) {k : Token.Kind} (hk : k = .newline ∨ k = .eof)
    (rest : List Token.Kind) :
    tagNames (kinds (ofLine line) ++ k :: rest) =
      tagNames (kinds (ofLine line)) ++ tagNames rest := by
  have ended : tagNames (k :: rest) = tagNames rest := by
    rcases hk with rfl | rfl <;> simp [tagNames, isIndent]
  rcases kinds_line line with ⟨-, hl⟩ | ⟨width, ks, -, hl, quiet⟩
  · rw [hl]
    exact ended
  · rw [hl, List.cons_append, tagNames_indent width quiet, ended, tagNames_one width quiet]
    -- the end of a line is no bracket and no name
    rcases ks with _ | ⟨o, _ | ⟨n, ks⟩⟩
    · rcases hk with rfl | rfl <;> simp
    · rcases hk with rfl | rfl <;> simp [named]
    · cases n <;> simp [named]

/-- The tag lines of a text are those of its lines. -/
theorem tagNames_ofLines {lines : List (List Char)} (h : lines ≠ []) :
    tagNames (kinds (ofLines lines) ++ [.eof]) =
      lines.flatMap fun line => tagNames (kinds (ofLine line)) := by
  induction lines with
  | nil => exact absurd rfl h
  | cons line lines ih =>
    cases lines with
    | nil =>
      have last := tagNames_line line (.inr rfl) []
      rw [List.flatMap_singleton]
      exact last.trans (List.append_nil _)
    | cons next lines =>
      have more := ih (List.cons_ne_nil next lines)
      rw [Lexeme.ofLines_cons _ (List.cons_ne_nil next lines), kinds_append, List.append_assoc,
        List.flatMap_cons, ← more]
      rcases kinds_line line with ⟨hc, hl⟩ | ⟨_, _, hc, -, -⟩
      · rw [hl, hc]
        rfl
      · rw [hc]
        exact tagNames_line line (.inl rfl) _

/-- Whether a line begins with a bracket and the name of a kind. -/
def NamesKind (line : List Char) : Prop :=
  ∃ width name ks, kinds (ofLine line) = .indent width :: .openBracket :: .ident name :: ks ∧
    (Vocabulary.kindOf? name).isSome

theorem namesKind_iff (line : List Char) :
    NamesKind line ↔
      ∃ name ∈ tagNames (kinds (ofLine line)), (Vocabulary.kindOf? name).isSome := by
  have missing : (Vocabulary.kindOf? "").isSome = false := by decide
  unfold NamesKind
  rcases kinds_line line with ⟨-, hl⟩ | ⟨width, ks, -, hl, quiet⟩
  · simp [hl, tagNames]
  · rw [hl, tagNames_one width quiet]
    rcases ks with _ | ⟨o, ks⟩
    · simp
    · by_cases ho : o = .openBracket
      · subst ho
        rcases ks with _ | ⟨n, ks⟩
        · simp [named, missing]
        · cases n <;> simp [named, missing]
      · simp [ho]

/-- The tags of an outline are the names of the tag lines of its text. -/
theorem tags_read (source : String) :
    (Tree.preorderAll (read source).1).map (fun t => t.value.tag) =
      (splitWhere (· = '\n') (Token.body source)).flatMap fun line =>
        tagNames (kinds (ofLine line)) := by
  obtain ⟨ps, b, us, run, left, done⟩ :=
    exists_run .empty (Token.lined_scan source) (Token.atLineEnd_scan source)
  have all := marks_run run
  rw [tagLines_of_atEnd ((Token.lined_scan source).suffix left) done, List.append_nil,
    ← marks_finish, ← read_eq_finish run done] at all
  have names := congrArg (List.map Prod.snd) all
  have none : builderMarks .empty = [] := rfl
  rw [none, List.nil_append, map_snd_tagLines, Token.map_kind_scan, Lexeme.ofText,
    tagNames_ofLines (splitWhere_ne_nil _ _), marks, List.map_map] at names
  exact names

end Outline

namespace Compiler

open Outline (NamesKind)

theorem document_run_eq_none_iff (source : String) (options : Options) :
    (run source options).document = none ↔
      ∀ line ∈ splitWhere (· = '\n') (Token.body source), ¬NamesKind line := by
  have tags := Outline.tags_read source
  have doc : (run source options).document =
      (Analysis.document? (Outline.read source).1 options).1 := rfl
  have nodes : (∀ t ∈ Tree.preorderAll (Outline.read source).1,
        Vocabulary.kindOf? t.value.tag = none) ↔
      ∀ tag ∈ (Tree.preorderAll (Outline.read source).1).map (fun t => t.value.tag),
        Vocabulary.kindOf? tag = none := by
    rw [List.forall_mem_map]
  rw [doc, Analysis.document?_eq_none_iff, nodes, tags, List.forall_mem_flatMap]
  refine forall₂_congr fun line _ => ?_
  simp [Outline.namesKind_iff]

/-- A text without a document has an error that says so. -/
theorem exists_error_of_none {source : String} {options : Options}
    (h : (run source options).document = none) :
    ∃ d ∈ (run source options).diagnostics, d.isError = true := by
  have doc : (Analysis.document? (Outline.read source).1 options).1 = none := h
  have problems : (run source options).diagnostics = (Outline.read source).2 ++
      (Analysis.document? (Outline.read source).1 options).2 := rfl
  rw [Analysis.document?_fst] at doc
  have nothing : (Analysis.components (Outline.read source).1 options).trees = [] := by
    by_contra hne
    rw [if_neg hne] at doc
    cases doc
  rw [problems, Analysis.document?_snd, if_pos nothing]
  exact ⟨_, List.mem_append_right _ (List.mem_append_right _ (List.mem_singleton_self _)), rfl⟩

/-- A text compiles when one of its lines begins with a bracket and the name of a kind. It fails
with an error when there is no such line, and succeeds unless an error is reported. -/
theorem compile_eq_ok_iff (source : String) (options : Options) :
    let lines := splitWhere (· = '\n') (Token.body source)
    ((∃ c, compile source options = .ok c) ↔ ∃ line ∈ lines, NamesKind line) ∧
      ((∃ e, compile source options = .error e ∧ ∃ d ∈ e.diagnostics, d.isError = true) ↔
        ∀ line ∈ lines, ¬NamesKind line) ∧
      ((run source options).success = true ↔
        ∀ d ∈ (run source options).diagnostics, d.isError = false) := by
  intro lines
  have none_iff := document_run_eq_none_iff source options
  have error := @exists_error_of_none source options
  have lined : (∃ line ∈ lines, NamesKind line) ↔ ¬∀ line ∈ lines, ¬NamesKind line := by simp
  rw [lined, ← none_iff, compile, Compilation.success]
  cases hd : (run source options).document with
  | none =>
    obtain ⟨d, hm, he⟩ := error hd
    refine ⟨by simp, by simpa using ⟨d, hm, he⟩, ?_⟩
    simp only [Option.isSome_none, Bool.false_and, Bool.false_eq_true, false_iff, not_forall]
    exact ⟨d, hm, by simp [he]⟩
  | some document => simp

end Compiler

end Wireframe
