import Wireframe.Proofs.Identifier.Legal
import Wireframe.Proofs.Text.Case

/-!
# Cleaning texts to ids

An id is found in every text that has a legal character, and it is told without cutting the text
into words: it has the legal characters in order, and a dash between two neighbours when a blank
lies between them (`dashed_pieces`). What is an id already stays as it is (`sanitize?_of_valid`).
-/

namespace Wireframe.Identifier

open Text (isBlank)

/-- What stands in front of the first legal character. -/
def lead (cs : List Char) : List Char :=
  cs.takeWhile fun c => !legal c

/-- The legal characters in order, each with all that stands between it and the next one. -/
def pieces : List Char → List (Char × List Char)
  | [] => []
  | c :: cs => if legal c then (c, lead cs) :: pieces cs else pieces cs

/-- Characters with a dash behind each one whose gap has a blank, unless it is the last. -/
def dashed : List (Char × List Char) → List Char
  | [] => []
  | [(c, _)] => [c]
  | (c, gap) :: p :: ps => (if gap.any isBlank then [c, '-'] else [c]) ++ dashed (p :: ps)

theorem dashed_cons (c : Char) (gap : List Char) {ps : List (Char × List Char)} (h : ps ≠ []) :
    dashed ((c, gap) :: ps) = (if gap.any isBlank then [c, '-'] else [c]) ++ dashed ps := by
  cases ps with
  | nil => exact absurd rfl h
  | cons => rfl

theorem map_fst_pieces (cs : List Char) : (pieces cs).map (·.1) = cs.filter legal := by
  induction cs with
  | nil => rfl
  | cons c cs ih =>
    rw [pieces]
    split
    next hc => rw [List.map_cons, ih, List.filter_cons_of_pos hc]
    next hc => rw [ih, List.filter_cons_of_neg hc]

theorem head?_dashed (ps : List (Char × List Char)) : (dashed ps).head? = ps.head?.map (·.1) := by
  match ps with
  | [] => rfl
  | [_] => rfl
  | (c, gap) :: p :: ps =>
    rw [dashed]
    split <;> rfl

theorem dashed_eq_nil_iff {ps : List (Char × List Char)} : dashed ps = [] ↔ ps = [] := by
  rw [← List.head?_eq_none_iff, head?_dashed, Option.map_eq_none_iff, List.head?_eq_none_iff]

theorem pieces_eq_nil_iff {cs : List Char} : pieces cs = [] ↔ ∀ c ∈ cs, legal c = false := by
  rw [← List.map_eq_nil_iff (f := (·.1)), map_fst_pieces, List.filter_eq_nil_iff]
  simp only [Bool.not_eq_true]

theorem ascii_of_legal {c : Char} (h : legal c = true) : c.toNat < 128 := by
  simp only [legal, Bool.or_eq_true, decide_eq_true_eq] at h
  obtain (alphanum | rfl) | rfl := h
  · exact Text.ascii_of_isAlphanum alphanum
  · decide
  · decide

theorem not_isBlank_of_legal {c : Char} (h : legal c = true) : isBlank c = false :=
  Text.forall_ascii (P := fun c => legal c = true → isBlank c = false) (by decide +kernel)
    (ascii_of_legal h) h

/-- There is a blank in front of the first legal character when the first word has none and there is
another word. -/
theorem any_isBlank_lead {cs word : List Char} {words : List (List Char)}
    (h : splitWhere isBlank cs = word :: words) :
    (lead cs).any isBlank = (!word.any legal && !words.isEmpty) := by
  induction cs generalizing word words with
  | nil =>
    obtain ⟨rfl, rfl⟩ := List.cons.inj h
    rfl
  | cons c cs ih =>
    obtain ⟨next, more, hcs⟩ := exists_splitWhere isBlank cs
    cases blank : isBlank c with
    | true =>
      have other : legal c = false := Bool.eq_false_iff.mpr fun hc => by
        rw [not_isBlank_of_legal hc] at blank
        cases blank
      rw [splitWhere_cons_of_pos blank, hcs] at h
      obtain ⟨rfl, rfl⟩ := List.cons.inj h
      simp [lead, other, blank]
    | false =>
      rw [splitWhere_cons_of_neg blank hcs] at h
      obtain ⟨rfl, rfl⟩ := List.cons.inj h
      cases hc : legal c with
      | true => simp [lead, hc]
      | false => simpa [lead, hc, blank] using ih hcs

/-- The words of a text, cleared of all characters that are not legal. -/
def cleanWords (cs : List Char) : List (List Char) :=
  ((splitWhere isBlank cs).map (·.filter legal)).filter (· ≠ [])

theorem cleanWords_cons_of_neg {c : Char} (hc : legal c = false) (cs : List Char) :
    cleanWords (c :: cs) = cleanWords cs := by
  obtain ⟨word, words, hcs⟩ := exists_splitWhere isBlank cs
  cases blank : isBlank c with
  | true => simp [cleanWords, splitWhere_cons_of_pos blank]
  | false => simp [cleanWords, splitWhere_cons_of_neg blank hcs, hcs, hc]

/-- A legal character is a word of its own when there is a blank behind it, and else begins the next
one. -/
theorem cleanWords_cons_of_pos {c : Char} (hc : legal c = true) (cs : List Char) :
    (cleanWords (c :: cs) = [c] :: cleanWords cs ∧
      (cleanWords cs ≠ [] → (lead cs).any isBlank = true)) ∨
    ∃ word words, cleanWords cs = word :: words ∧ cleanWords (c :: cs) = (c :: word) :: words ∧
      (lead cs).any isBlank = false := by
  obtain ⟨word, words, hcs⟩ := exists_splitWhere isBlank cs
  have here := splitWhere_cons_of_neg (not_isBlank_of_legal hc) hcs
  rw [any_isBlank_lead hcs]
  cases first : word.filter legal with
  | nil =>
    have silent : word.any legal = false := by simpa using first
    refine .inl ⟨by simp [cleanWords, hcs, here, hc, first], fun more => ?_⟩
    cases words with
    | nil => simp [cleanWords, hcs, first] at more
    | cons next words => rw [silent]; rfl
  | cons d ds =>
    have mem : d ∈ word.filter legal := first ▸ List.mem_cons_self
    have heard : word.any legal = true := List.any_eq_true.mpr ⟨d, List.mem_filter.mp mem⟩
    refine .inr ⟨d :: ds, (words.map (·.filter legal)).filter (· ≠ []), ?_, ?_, by simp [heard]⟩
    · simp [cleanWords, hcs, first]
    · simp [cleanWords, here, hc, first]

theorem cleanWords_eq_nil_iff {cs : List Char} : cleanWords cs = [] ↔ pieces cs = [] := by
  induction cs with
  | nil => exact iff_of_true rfl rfl
  | cons c cs ih =>
    rw [pieces]
    cases hc : legal c with
    | false => rw [cleanWords_cons_of_neg hc, ih, if_neg Bool.false_ne_true]
    | true =>
      rw [if_pos rfl]
      obtain ⟨here, -⟩ | ⟨word, words, -, here, -⟩ := cleanWords_cons_of_pos hc cs <;> simp [here]

theorem intercalate_cons_word {sep : List Char} (c : Char) (word : List Char)
    (words : List (List Char)) :
    sep.intercalate ((c :: word) :: words) = c :: sep.intercalate (word :: words) := by
  cases words with
  | nil => simp
  | cons next words => simp [List.intercalate_cons_cons]

/-- The words joined by dashes are the legal characters with a dash for each gap with a blank. -/
theorem dashed_pieces (cs : List Char) :
    ['-'].intercalate (cleanWords cs) = dashed (pieces cs) := by
  induction cs with
  | nil => rfl
  | cons c cs ih =>
    cases hc : legal c with
    | false => rw [cleanWords_cons_of_neg hc, ih, pieces, hc, if_neg Bool.false_ne_true]
    | true =>
      rw [pieces, hc, if_pos rfl]
      -- The last legal character has no dash behind it, whatever its gap has.
      by_cases last : pieces cs = []
      · have none := cleanWords_eq_nil_iff.mpr last
        obtain ⟨here, -⟩ | ⟨word, words, some, -⟩ := cleanWords_cons_of_pos hc cs
        · rw [here, none, last, List.intercalate_singleton]
          rfl
        · rw [none] at some
          cases some
      · have more : cleanWords cs ≠ [] := fun none => last (cleanWords_eq_nil_iff.mp none)
        rw [dashed_cons c _ last, ← ih]
        obtain ⟨here, blank⟩ | ⟨word, words, some, here, none⟩ := cleanWords_cons_of_pos hc cs
        · obtain ⟨next, words, hcs⟩ := List.exists_cons_of_ne_nil more
          rw [here, blank more, if_pos rfl, hcs, List.intercalate_cons_cons]
          rfl
        · rw [here, none, if_neg Bool.false_ne_true, intercalate_cons_word, some]
          rfl

/-- What is put in front of an id that would begin with a digit. -/
def front (written : String) : String :=
  if (written.toList.find? legal).any Char.isDigit then "id-" else ""

theorem sanitize?_eq (written : String) :
    sanitize? written =
      if dashed (pieces written.toList) = [] then none
      else some (front written ++ String.ofList (dashed (pieces written.toList))) := by
  have first : written.toList.find? legal = (dashed (pieces written.toList)).head? := by
    rw [head?_dashed, ← List.head?_map, map_fst_pieces, List.head?_filter]
  rw [front, first, ← dashed_pieces]
  change (match ['-'].intercalate (cleanWords written.toList) with
    | [] => none
    | c :: cs =>
      some (if c.isDigit then "id-" ++ String.ofList (c :: cs) else String.ofList (c :: cs))) = _
  cases ['-'].intercalate (cleanWords written.toList) with
  | nil => rfl
  | cons c cs => cases hc : c.isDigit <;> simp [hc]

theorem sanitize?_eq_none_iff {written : String} :
    sanitize? written = none ↔ ∀ c ∈ written.toList, legal c = false := by
  rw [← pieces_eq_nil_iff, ← dashed_eq_nil_iff, sanitize?_eq]
  exact ite_eq_left_iff.trans (by simp)

theorem eq_of_sanitize? {written id : String} (h : sanitize? written = some id) :
    id = front written ++ String.ofList (dashed (pieces written.toList)) := by
  rw [sanitize?_eq, Option.ite_none_left_eq_some] at h
  exact (Option.some.inj h.2).symm

/-- An id is one word and stays as it is. -/
theorem sanitize?_of_valid {id : String} (h : Valid id) : sanitize? id = some id := by
  obtain ⟨c, cs, hid, begins⟩ := h.exists_toList
  have word : splitWhere isBlank id.toList = [id.toList] :=
    splitWhere_of_not_mem fun c hc => not_isBlank_of_legal (h.legal c hc)
  have all : id.toList.filter legal = id.toList := List.filter_eq_self.mpr h.legal
  have clean : cleanWords id.toList = [id.toList] := by
    rw [cleanWords, word, List.map_singleton, all, hid]
    rfl
  have whole : dashed (pieces id.toList) = id.toList := by
    rw [← dashed_pieces, clean, List.intercalate_singleton]
  have plain : front id = "" := by
    have legal : legal c = true := h.legal c (by simp [hid])
    simp [front, hid, legal, begins]
  rw [sanitize?_eq, whole, plain, String.empty_append, String.ofList_toList, hid,
    if_neg (List.cons_ne_nil c cs)]

theorem legal_of_mem_pieces {cs : List Char} :
    ∀ p ∈ pieces cs, legal p.1 = true ∧ ∀ d ∈ p.2, legal d = false := by
  induction cs with
  | nil => nofun
  | cons c cs ih =>
    rw [pieces]
    split
    next hc =>
      refine List.forall_mem_cons.mpr ⟨⟨hc, fun d hd => ?_⟩, ih⟩
      simpa using List.all_eq_true.mp List.all_takeWhile d hd
    next => exact ih

/-- A text is made of the pieces and what stands in front of them. -/
theorem flatMap_pieces (cs : List Char) :
    lead cs ++ (pieces cs).flatMap (fun p => p.1 :: p.2) = cs := by
  induction cs with
  | nil => rfl
  | cons c cs ih =>
    rw [lead] at ih ⊢
    cases hc : legal c with
    | true => simp [pieces, lead, hc, ih]
    | false => simp [pieces, hc, ih]

/-- There is no id in a text just when it has no legal character. What is found in a text is an id,
and found again in itself. It has the legal characters of the text in order, with one dash between
two of them just when a blank lies between them, and `id-` in front just when the first one is a
digit. -/
theorem sanitize?_projects (written : String) :
    (sanitize? written = none ↔ ∀ c ∈ written.toList, legal c = false) ∧
    (lead written.toList ++ (pieces written.toList).flatMap (fun p => p.1 :: p.2) =
        written.toList ∧
      ∀ p ∈ pieces written.toList, legal p.1 = true ∧ ∀ d ∈ p.2, legal d = false) ∧
    ∀ id, sanitize? written = some id →
      Valid id ∧ sanitize? id = some id ∧
      id = (if (written.toList.find? legal).any Char.isDigit then "id-" else "") ++
        String.ofList (dashed (pieces written.toList)) := by
  refine ⟨sanitize?_eq_none_iff, ⟨flatMap_pieces written.toList, legal_of_mem_pieces⟩,
    fun id h => ?_⟩
  exact ⟨valid_sanitize? h, sanitize?_of_valid (valid_sanitize? h), eq_of_sanitize? h⟩

theorem sanitize?_projects_first :
    let written := " ?1st\u3000? Card卡s x "
    pieces written.toList = [('1', []), ('s', []), ('t', ['\u3000', '?', ' ']), ('C', []),
      ('a', []), ('r', []), ('d', ['卡']), ('s', [' ']), ('x', [' '])] ∧
    sanitize? written = some "id-1st-Cards-x" ∧
    sanitize? "id-1st-Cards-x" = some "id-1st-Cards-x" := by
  intro written
  have found : sanitize? written = some "id-1st-Cards-x" := by decide +kernel
  exact ⟨by decide +kernel, found, ((sanitize?_projects written).2.2 _ found).2.1⟩

end Wireframe.Identifier
