import Wireframe.Proofs.Outline.Run

/-!
# Input that goes on with a tag line

Where the input ends, a reader gives up what it has begun: a bracket, a block, a list, a string of
words. Where the input goes on with a tag line it gives up the same, in front of that line. Two
inputs that differ in this alone are read alike, item by item and line by line, and leave inputs
that differ in the same way (`Continues.run`).
-/

namespace Wireframe.Outline

open Token.Kind

/-- Tokens up to the end of the input, and the same tokens with `after` in its place, on a line of
its own. -/
inductive Continues (after : List Token) : List Token → List Token → Prop
  | ends {e} (he : e.kind = .eof) : Continues after [e] after
  | endsLine {e n} (he : e.kind = .eof) (hn : n.kind = .newline) :
      Continues after [e] (n :: after)
  | cons {t ts us} (ht : t.kind ≠ .eof) (more : Continues after ts us) :
      Continues after (t :: ts) (t :: us)

/-- Readings of the same value that leave tokens of which the second go on with `after`. What is
wrong may differ. -/
structure Alike (after : List Token) {α : Type} (r s : Reading α) : Prop where
  value : s.value = r.value
  rest : Continues after r.rest s.rest

theorem inLine_of_kind {t : Token} {kind : Token.Kind} (h : t.kind = kind)
    (hk : kind.endsLine = false) : inLine t = true := by
  rw [inLine, h, hk]
  rfl

theorem not_inLine_newline {t : Token} (h : t.kind = .newline) : inLine t = false := by
  rw [inLine, h]
  rfl

/-- Whether a line that begins with such a token is no part of an open block. -/
def endsBlock (t : Token) : Bool :=
  t.kind = .openBracket || t.kind = .attr || t.kind = .content

theorem skipBreaks_newline {t : Token} (us : List Token) (h : t.kind = .newline) :
    skipBreaks (t :: us) = skipBreaks us := by
  rw [skipBreaks]
  simp only [h]

theorem skipBreaks_indent {t : Token} (us : List Token) (h : isIndent t.kind = true) :
    skipBreaks (t :: us) = if endsBlock (next us) then t :: us else skipBreaks us := by
  obtain ⟨width, hw⟩ := isIndent_eq_true.mp h
  rw [skipBreaks, endsBlock]
  cases hk : (next us).kind <;> simp [hw]

theorem skipBreaks_of_counts {t : Token} (us : List Token) (hn : t.kind ≠ .newline)
    (hi : isIndent t.kind = false) : skipBreaks (t :: us) = t :: us := by
  rw [skipBreaks]
  cases hk : t.kind <;> simp_all [isIndent]

theorem goesOn_cons_cons (t j : Token) (ws : List Token) :
    goesOn (t :: j :: ws) =
      (t.kind = .newline && isIndent j.kind && attributeRole (next ws).kind = .key) := by
  cases ws with
  | nil => simp [goesOn, next, Token.eofAt, attributeRole]
  | cons k ws => rfl

/-- A token that belongs to a line is no end of the input, so both inputs have it. -/
theorem Continues.drop_one {after ts us : List Token} (h : Continues after ts us)
    (ht : inLine (next ts) = true) :
    Continues after (ts.drop 1) (us.drop 1) := by
  cases h with
  | ends he | endsLine he => exact absurd he (ne_eof_of_inLine ht)
  | cons _ more => exact more

section Tokens

variable {i o : Token} (hs : TagStart i o) {vs ts us : List Token}

include hs

/-- What is the same for all tokens that end a line is the same for the next tokens. -/
theorem Continues.next_eq {α : Type} (h : Continues (i :: o :: vs) ts us)
    {f : Token → α} {a : α} (hf : ∀ {t}, inLine t = false → f t = a) :
    f (next us) = f (next ts) := by
  cases h with
  | ends he => exact (hf hs.inLine_indent).trans (hf (inLine_of_begins (.inl he))).symm
  | endsLine he hn =>
    exact (hf (not_inLine_newline hn)).trans (hf (inLine_of_begins (.inl he))).symm
  | cons => rfl

theorem Continues.inLine_next (h : Continues (i :: o :: vs) ts us) :
    inLine (next us) = inLine (next ts) :=
  h.next_eq hs id

theorem Continues.str?_next (h : Continues (i :: o :: vs) ts us) :
    str? (next us) = str? (next ts) := by
  refine h.next_eq hs (a := none) fun {t} ht => ?_
  cases hk : t.kind <;> simp_all [inLine, Token.Kind.endsLine, str?]

theorem Continues.ident?_next (h : Continues (i :: o :: vs) ts us) :
    ident? (next us) = ident? (next ts) := by
  refine h.next_eq hs (a := none) fun {t} ht => ?_
  cases hk : t.kind <;> simp_all [inLine, Token.Kind.endsLine, ident?]

theorem Continues.attributeRole_next (h : Continues (i :: o :: vs) ts us) :
    attributeRole (next us).kind = attributeRole (next ts).kind := by
  refine h.next_eq hs (f := fun t => attributeRole t.kind) (a := .stop) fun {t} ht => ?_
  cases hk : t.kind <;> simp_all [inLine, Token.Kind.endsLine, attributeRole]

theorem Continues.kind_next_eq_iff (h : Continues (i :: o :: vs) ts us)
    (kind : Token.Kind) (hk : kind.endsLine = false) :
    (next us).kind = kind ↔ (next ts).kind = kind := by
  refine iff_of_eq (h.next_eq hs (f := fun t => t.kind = kind) (a := False) fun {t} ht => ?_)
  refine eq_false fun he => ?_
  rw [inLine_of_kind he hk] at ht
  cases ht

theorem Continues.skip? (h : Continues (i :: o :: vs) ts us)
    (kind : Token.Kind) (hk : kind.endsLine = false) :
    (skip? kind ts = none ∧ skip? kind us = none) ∨
      ∃ ts' us', skip? kind ts = some ts' ∧ skip? kind us = some us' ∧
        Continues (i :: o :: vs) ts' us' := by
  have same := h.kind_next_eq_iff hs kind hk
  cases h with
  | @ends e he =>
    have hne : e.kind ≠ kind := fun hek => ne_eof_of_inLine (inLine_of_kind hek hk) he
    exact .inl ⟨if_neg hne, if_neg fun hi => hne (same.mp hi)⟩
  | @endsLine e n he hn =>
    have hne : e.kind ≠ kind := fun hek => ne_eof_of_inLine (inLine_of_kind hek hk) he
    exact .inl ⟨if_neg hne, if_neg fun hi => hne (same.mp hi)⟩
  | @cons t ts us _ more =>
    by_cases ht : t.kind = kind
    · exact .inr ⟨ts, us, if_pos ht, if_pos ht, more⟩
    · exact .inl ⟨if_neg ht, if_neg ht⟩

theorem Continues.skip?_none (h : Continues (i :: o :: vs) ts us)
    {kind : Token.Kind} (hk : kind.endsLine = false) (hn : Outline.skip? kind ts = none) :
    Outline.skip? kind us = none := by
  rcases h.skip? hs kind hk with ⟨-, none⟩ | ⟨_, _, some, -⟩
  · exact none
  · rw [hn] at some
    cases some

theorem Continues.skip?_some (h : Continues (i :: o :: vs) ts us)
    {kind : Token.Kind} (hk : kind.endsLine = false) {ts' : List Token}
    (ht : Outline.skip? kind ts = some ts') :
    ∃ us', Outline.skip? kind us = some us' ∧ Continues (i :: o :: vs) ts' us' := by
  rcases h.skip? hs kind hk with ⟨none, -⟩ | ⟨_, us', some, some', more⟩
  · rw [ht] at none
    cases none
  · rw [ht] at some
    cases some
    exact ⟨us', some', more⟩

/-- A run of tokens of one line ends where the input ends. -/
theorem Continues.span {p : Token → Bool} (h : Continues (i :: o :: vs) ts us)
    (hp : ∀ {t}, p t = true → inLine t = true) :
    us.takeWhile p = ts.takeWhile p ∧
      Continues (i :: o :: vs) (ts.dropWhile p) (us.dropWhile p) := by
  have outside {t : Token} (ht : inLine t = false) : ¬p t = true := by
    intro hpt
    rw [hp hpt] at ht
    cases ht
  induction h with
  | @ends e he =>
    have he' := outside (inLine_of_begins (.inl he))
    have hi := outside hs.inLine_indent
    rw [List.takeWhile_cons_of_neg he', List.takeWhile_cons_of_neg hi,
      List.dropWhile_cons_of_neg he', List.dropWhile_cons_of_neg hi]
    exact ⟨rfl, .ends he⟩
  | @endsLine e n he hn =>
    have he' := outside (inLine_of_begins (.inl he))
    have hn' := outside (not_inLine_newline hn)
    rw [List.takeWhile_cons_of_neg he', List.takeWhile_cons_of_neg hn',
      List.dropWhile_cons_of_neg he', List.dropWhile_cons_of_neg hn']
    exact ⟨rfl, .endsLine he hn⟩
  | @cons t ts us ht more ih =>
    by_cases hpt : p t = true
    · rw [List.takeWhile_cons_of_pos hpt, List.takeWhile_cons_of_pos hpt,
        List.dropWhile_cons_of_pos hpt, List.dropWhile_cons_of_pos hpt, ih.1]
      exact ⟨rfl, ih.2⟩
    · rw [List.takeWhile_cons_of_neg hpt, List.takeWhile_cons_of_neg hpt,
        List.dropWhile_cons_of_neg hpt, List.dropWhile_cons_of_neg hpt]
      exact ⟨rfl, .cons ht more⟩

/-- The next token that counts is the same, or it is the end of the input and the tag line. -/
theorem Continues.skipBreaks (h : Continues (i :: o :: vs) ts us) :
    (∃ e, e.kind = .eof ∧ skipBreaks ts = [e] ∧ skipBreaks us = i :: o :: vs) ∨
      ∃ t ts' us', t.kind ≠ .eof ∧ skipBreaks ts = t :: ts' ∧ skipBreaks us = t :: us' ∧
        Continues (i :: o :: vs) ts' us' := by
  have tagLine : Outline.skipBreaks (i :: o :: vs) = i :: o :: vs := by
    rw [skipBreaks_indent _ (isIndent_eq_true.mpr hs.indent), if_pos]
    simp [endsBlock, next, hs.bracket]
  have ended {e : Token} (he : e.kind = .eof) : Outline.skipBreaks [e] = [e] :=
    skipBreaks_of_counts [] (by simp [he]) (by simp [he, isIndent])
  induction h with
  | @ends e he => exact .inl ⟨e, he, ended he, tagLine⟩
  | @endsLine e n he hn => exact .inl ⟨e, he, ended he, (skipBreaks_newline _ hn).trans tagLine⟩
  | @cons t ts us ht more ih =>
    by_cases hn : t.kind = .newline
    · rw [skipBreaks_newline ts hn, skipBreaks_newline us hn]
      exact ih
    cases hi : isIndent t.kind with
    | true =>
      have same : endsBlock (next us) = endsBlock (next ts) := by
        refine more.next_eq hs (a := false) fun {u} hu => ?_
        cases hk : u.kind <;> simp_all [inLine, Token.Kind.endsLine, endsBlock]
      rw [skipBreaks_indent ts hi, skipBreaks_indent us hi, same]
      split
      · exact .inr ⟨t, ts, us, ht, rfl, rfl, more⟩
      · exact ih
    | false =>
      have counts (us : List Token) := skipBreaks_of_counts us hn hi
      exact .inr ⟨t, ts, us, ht, counts ts, counts us, more⟩

end Tokens

section Blocks

variable {i o : Token} (hs : TagStart i o) {vs ts us : List Token} {start : Location}

include hs

theorem Continues.skipBreaks_ne_nil (h : Continues (i :: o :: vs) ts us) :
    Outline.skipBreaks ts ≠ [] := by
  rcases h.skipBreaks hs with ⟨e, -, hts, -⟩ | ⟨t, ts', us', -, hts, -⟩ <;> simp [hts]

theorem Continues.skipBreaks_cons (h : Continues (i :: o :: vs) ts us)
    {t : Token} {ts' : List Token} (ht : Outline.skipBreaks ts = t :: ts') (hk : t.kind ≠ .eof) :
    ∃ us', Outline.skipBreaks us = t :: us' ∧ Continues (i :: o :: vs) ts' us' := by
  rcases h.skipBreaks hs with ⟨e, he, hts, -⟩ | ⟨t', ts'', us', -, hts, hus, more⟩
  · rw [ht] at hts
    cases hts
    exact absurd he hk
  · rw [ht] at hts
    cases hts
    exact ⟨us', hus, more⟩

/-- A block that is cut off by the end of the input is cut off by a tag line. -/
theorem Continues.skipBreaks_stop (h : Continues (i :: o :: vs) ts us)
    {role : Token.Kind → Role} (hr : ∀ width, role (.indent width) = .stop) {t : Token}
    {ts' : List Token} (ht : Outline.skipBreaks ts = t :: ts') (hk : role t.kind = .stop) :
    ∃ u us', Outline.skipBreaks us = u :: us' ∧ role u.kind = .stop ∧
      Continues (i :: o :: vs) (t :: ts') (u :: us') := by
  rcases h.skipBreaks hs with ⟨e, he, hts, hus⟩ | ⟨t', ts'', us', ht', hts, hus, more⟩
  · rw [ht] at hts
    cases hts
    obtain ⟨width, hi⟩ := hs.indent
    exact ⟨i, o :: vs, hus, by rw [hi, hr], .ends he⟩
  · rw [ht] at hts
    cases hts
    exact ⟨t, us', hus, hk, .cons ht' more⟩

theorem Continues.layout {r : Reading (List Attribute)}
    (hr : LayoutReads start ts r) (h : Continues (i :: o :: vs) ts us) :
    Alike (i :: o :: vs) r (layout start us) := by
  have goesOn {t : Token} (hk : layoutRole t.kind ≠ .stop) : t.kind ≠ .eof := by
    intro he
    rw [he] at hk
    exact hk rfl
  induction hr generalizing us with
  | runsOut ht => exact absurd ht (h.skipBreaks_ne_nil hs)
  | close ht hk =>
    obtain ⟨us', hus, more⟩ := h.skipBreaks_cons hs ht (goesOn (by simp [hk]))
    rw [layout_eq, hus]
    simp only [hk]
    exact ⟨rfl, more⟩
  | stop ht hk =>
    obtain ⟨u, us', hus, hu, more⟩ := h.skipBreaks_stop hs (fun _ => rfl) ht hk
    rw [layout_eq, hus]
    simp only [hu]
    exact ⟨rfl, more⟩
  | separator ht hk _ ih =>
    obtain ⟨us', hus, more⟩ := h.skipBreaks_cons hs ht (goesOn (by simp [hk]))
    rw [layout_eq, hus]
    simp only [hk]
    exact ih more
  | gap ht hk hc _ ih =>
    obtain ⟨us', hus, more⟩ := h.skipBreaks_cons hs ht (goesOn (by simp [hk]))
    have none := more.skip?_none hs rfl hc
    obtain ⟨value, rest⟩ := ih (more.span hs fun hp => by simp_all [inLayoutGap]).2
    rw [layout_eq, hus]
    simp only [hk, none]
    exact ⟨value, rest⟩
  | entry ht hk hc hv _ ih =>
    obtain ⟨us', hus, more⟩ := h.skipBreaks_cons hs ht (goesOn (by simp [hk]))
    obtain ⟨vs', some, behind⟩ := more.skip?_some hs rfl hc
    obtain ⟨words, left⟩ := behind.span hs (p := inLayoutValue) fun hp => by
      simp_all [inLayoutValue]
    obtain ⟨value, rest⟩ := ih left
    rw [layout_eq, hus]
    simp only [hk, some, words, hv, value]
    exact ⟨rfl, rest⟩
  | blank ht hk hc hv _ ih =>
    obtain ⟨us', hus, more⟩ := h.skipBreaks_cons hs ht (goesOn (by simp [hk]))
    obtain ⟨vs', some, behind⟩ := more.skip?_some hs rfl hc
    obtain ⟨words, left⟩ := behind.span hs (p := inLayoutValue) fun hp => by
      simp_all [inLayoutValue]
    obtain ⟨value, rest⟩ := ih left
    rw [layout_eq, hus]
    simp only [hk, some, words, hv]
    exact ⟨value, rest⟩
  | other ht hk _ ih =>
    obtain ⟨us', hus, more⟩ := h.skipBreaks_cons hs ht (goesOn (by simp [hk]))
    obtain ⟨value, rest⟩ := ih more
    rw [layout_eq, hus]
    simp only [hk]
    exact ⟨value, rest⟩

theorem Continues.arguments {r : Reading (List Token)} (hr : ArgumentsRead start ts r)
    (h : Continues (i :: o :: vs) ts us) (start' : Location) :
    Alike (i :: o :: vs) r (arguments start' us) := by
  have goesOn {t : Token} (hk : argumentRole t.kind ≠ .stop) : t.kind ≠ .eof := by
    intro he
    rw [he] at hk
    exact hk rfl
  induction hr generalizing us with
  | runsOut ht => exact absurd ht (h.skipBreaks_ne_nil hs)
  | close ht hk =>
    obtain ⟨us', hus, more⟩ := h.skipBreaks_cons hs ht (goesOn (by simp [hk]))
    rw [arguments_eq, hus]
    simp only [hk]
    exact ⟨rfl, more⟩
  | stop ht hk =>
    obtain ⟨u, us', hus, hu, more⟩ := h.skipBreaks_stop hs (fun _ => rfl) ht hk
    rw [arguments_eq, hus]
    simp only [hu]
    exact ⟨rfl, more⟩
  | other ht hk _ ih =>
    obtain ⟨us', hus, more⟩ := h.skipBreaks_cons hs ht (goesOn (by simp [hk]))
    obtain ⟨value, rest⟩ := ih more
    rw [arguments_eq, hus]
    simp only [hk, value]
    exact ⟨rfl, rest⟩

theorem Continues.attributeValue (h : Continues (i :: o :: vs) ts us) :
    Alike (i :: o :: vs) (attributeValue ts) (attributeValue us) := by
  have paren := h.skip? hs .openParen rfl
  rcases paren with ⟨none, none'⟩ | ⟨ts', _, some, some', more⟩
  · rcases h.skip? hs .colon rfl with ⟨no, no'⟩ | ⟨ts', us', yes, yes', more⟩
    · simp only [Outline.attributeValue, none, none', no, no']
      exact ⟨rfl, h⟩
    · obtain ⟨words, left⟩ := more.span hs (p := inAttributeValue) fun hp => by
        simp_all [inAttributeValue]
      simp only [Outline.attributeValue, none, none', yes, yes', words]
      exact ⟨rfl, left⟩
  · obtain ⟨value, rest⟩ := more.arguments hs (read_arguments (next ts).location ts')
      (next us).location
    simp only [Outline.attributeValue, some, some', value]
    exact ⟨rfl, rest⟩

/-- A list goes on with the next line when both inputs have it, and never with the tag line. -/
theorem Continues.goesOn (h : Continues (i :: o :: vs) ts us) :
    goesOn us = goesOn ts ∧
      (goesOn ts = true → Continues (i :: o :: vs) (ts.drop 2) (us.drop 2)) := by
  obtain ⟨width, hi⟩ := hs.indent
  have bracket (t j : Token) : Outline.goesOn (t :: j :: o :: vs) = false := by
    simp [goesOn_cons_cons, next, hs.bracket, attributeRole]
  cases h with
  | ends => exact ⟨goesOn_of_ne_newline _ (by simp [hi]), Bool.noConfusion⟩
  | endsLine => exact ⟨bracket _ i, Bool.noConfusion⟩
  | cons _ more =>
    cases more with
    | ends => exact ⟨bracket _ i, Bool.noConfusion⟩
    | endsLine _ hn => exact ⟨by simp [Outline.goesOn, isIndent, hn], Bool.noConfusion⟩
    | cons _ more =>
      refine ⟨?_, fun _ => more⟩
      rw [goesOn_cons_cons, goesOn_cons_cons, more.attributeRole_next hs]

theorem Continues.skipComma (h : Continues (i :: o :: vs) ts us) :
    Continues (i :: o :: vs) (skipComma ts) (skipComma us) := by
  rw [skipComma_eq, skipComma_eq]
  rcases h.skip? hs .comma rfl with ⟨none, none'⟩ | ⟨ts', us', some, some', more⟩
  · simp only [none, none']
    exact h
  · obtain ⟨same, next⟩ := more.goesOn hs
    simp only [some, some', same]
    split
    next hg => exact next hg
    · exact more

theorem Continues.attributes {first : Bool} {r : Reading (List Attribute)}
    (hr : AttributesRead first ts r) (h : Continues (i :: o :: vs) ts us) :
    Alike (i :: o :: vs) r (attributes first us) := by
  -- a key belongs to a line, so both inputs have it
  have both {t : Token} {ts us : List Token} (ht : attributeRole t.kind = .key)
      (h : Continues (i :: o :: vs) (t :: ts) us) :
      ∃ us', us = t :: us' ∧ Continues (i :: o :: vs) ts us' := by
    cases h with
    | ends he | endsLine he =>
      rw [he] at ht
      cases ht
    | cons _ more => exact ⟨_, rfl, more⟩
  induction hr generalizing us with
  | runsOut => cases h
  | @stop first _ _ ht =>
    have ended := read_attributes_stop first ((h.attributeRole_next hs).trans ht)
    rw [attributes_eq_of_read ended]
    exact ⟨rfl, h⟩
  | entry ht hv _ ih =>
    obtain ⟨us, rfl, more⟩ := both ht h
    obtain ⟨value, rest⟩ := more.attributeValue hs
    rw [hv] at value rest
    obtain ⟨values, left⟩ := ih (rest.skipComma hs)
    rw [attributes_cons]
    simp only [ht, value, values]
    exact ⟨rfl, left⟩
  | blank ht hv _ ih =>
    obtain ⟨us, rfl, more⟩ := both ht h
    obtain ⟨value, rest⟩ := more.attributeValue hs
    rw [hv] at value rest
    obtain ⟨values, left⟩ := ih (rest.skipComma hs)
    rw [attributes_cons]
    simp only [ht, value, values]
    exact ⟨rfl, left⟩

end Blocks

section Items

variable {i o : Token} (hs : TagStart i o) {vs ts us : List Token} {start : Location}

include hs

theorem Continues.attributeList (h : Continues (i :: o :: vs) ts us) (start : Location) :
    Alike (i :: o :: vs) (attributeList start ts) (attributeList start us) := by
  rcases h.skip? hs .colon rfl with ⟨none, none'⟩ | ⟨ts', us', some, some', more⟩
  · obtain ⟨value, rest⟩ := h.attributes hs (read_attributes true ts)
    simp only [Outline.attributeList, none, none']
    exact ⟨value, rest⟩
  · simp only [Outline.attributeList, some, some']
    exact more.attributes hs (read_attributes true ts')

theorem Continues.contentText (h : Continues (i :: o :: vs) ts us) (start : Location) :
    Alike (i :: o :: vs) (contentText start ts) (contentText start us) := by
  obtain ⟨words, left⟩ := h.span hs (p := inLine) id
  rw [contentText_eq, contentText_eq, h.str?_next hs, words]
  cases ht : str? (next ts) with
  | some text => exact ⟨rfl, h.drop_one (inLine_of_kind (str?_eq_some.mp ht) rfl)⟩
  | none =>
    simp only
    split <;> exact ⟨rfl, left⟩

theorem Continues.content (h : Continues (i :: o :: vs) ts us) (start : Location) :
    Alike (i :: o :: vs) (content start ts) (content start us) := by
  rcases h.skip? hs .colon rfl with ⟨none, none'⟩ | ⟨ts', us', some, some', more⟩
  · obtain ⟨value, rest⟩ := h.contentText hs start
    simp only [Outline.content, none, none']
    exact ⟨value, rest⟩
  · simp only [Outline.content, some, some']
    exact more.contentText hs start

theorem Continues.item? (h : Continues (i :: o :: vs) ts us) :
    (item? ts = none ∧ item? us = none) ∨
      ∃ r s, item? ts = some r ∧ item? us = some s ∧ Alike (i :: o :: vs) r s := by
  cases h with
  | ends he =>
    obtain ⟨width, hi⟩ := hs.indent
    exact .inl ⟨by simp only [Outline.item?, he], by simp only [Outline.item?, hi]⟩
  | endsLine he hn =>
    exact .inl ⟨by simp only [Outline.item?, he], by simp only [Outline.item?, hn]⟩
  | @cons t ts us _ more =>
    cases hk : t.kind with
    | openBrace =>
      obtain ⟨value, rest⟩ := more.layout hs (reads_layout t.location ts)
      exact .inr ⟨_, _, item?_openBrace ts hk, item?_openBrace us hk, by rw [value], rest⟩
    | attr =>
      obtain ⟨value, rest⟩ := more.attributeList hs t.location
      exact .inr ⟨_, _, item?_attr ts hk, item?_attr us hk, by rw [value], rest⟩
    | content =>
      obtain ⟨value, rest⟩ := more.content hs t.location
      exact .inr ⟨_, _, item?_content ts hk, item?_content us hk, by rw [value], rest⟩
    | _ => exact .inl ⟨by simp only [Outline.item?, hk], by simp only [Outline.item?, hk]⟩

theorem Continues.items {r : Reading (List Item)} (hr : ItemsRead ts r)
    (h : Continues (i :: o :: vs) ts us) : Alike (i :: o :: vs) r (items us) := by
  induction hr generalizing us with
  | stop hi =>
    rcases h.item? hs with ⟨-, none⟩ | ⟨_, _, some, -⟩
    · rw [items_eq]
      simp only [none]
      exact ⟨rfl, h⟩
    · rw [hi] at some
      cases some
  | item hi _ ih =>
    rcases h.item? hs with ⟨none, -⟩ | ⟨_, s, some, some', value, rest⟩
    · rw [hi] at none
      cases none
    · rw [hi] at some
      cases some
      obtain ⟨values, left⟩ := ih rest
      rw [items_eq]
      simp only [some', value, values]
      exact ⟨rfl, left⟩

theorem Continues.tagName (h : Continues (i :: o :: vs) ts us) :
    Alike (i :: o :: vs) (tagName ts) (tagName us) := by
  rw [tagName_eq, tagName_eq, h.ident?_next hs]
  cases ht : ident? (next ts) with
  | some name => exact ⟨rfl, h.drop_one (inLine_of_kind (ident?_eq_some.mp ht) rfl)⟩
  | none => exact ⟨rfl, h⟩

theorem Continues.payload (h : Continues (i :: o :: vs) ts us) :
    (payload us).1 = (payload ts).1 ∧ Continues (i :: o :: vs) (payload ts).2 (payload us).2 := by
  obtain ⟨words, left⟩ := h.span hs (p := inBracket) fun hp => by simp_all [inBracket]
  rw [payload_eq, payload_eq, h.str?_next hs, words]
  cases ht : str? (next ts) with
  | some text => exact ⟨rfl, h.drop_one (inLine_of_kind (str?_eq_some.mp ht) rfl)⟩
  | none => exact ⟨rfl, left⟩

theorem Continues.tagPayload (h : Continues (i :: o :: vs) ts us) :
    Alike (i :: o :: vs) (tagPayload ts) (tagPayload us) := by
  rcases h.skip? hs .colon rfl with ⟨none, none'⟩ | ⟨ts', us', some, some', more⟩
  · simp only [Outline.tagPayload, none, none', h.kind_next_eq_iff hs .closeBracket rfl,
      h.inLine_next hs]
    split
    · exact ⟨rfl, h⟩
    · exact ⟨(h.payload hs).1, (h.payload hs).2⟩
  · simp only [Outline.tagPayload, some, some']
    exact ⟨(more.payload hs).1, (more.payload hs).2⟩

theorem Continues.tag (h : Continues (i :: o :: vs) ts us) (start : Location) :
    Alike (i :: o :: vs) (tag start ts) (tag start us) := by
  obtain ⟨name, behind⟩ := h.tagName hs
  obtain ⟨written, rest⟩ := behind.tagPayload hs
  have close := rest.skip? hs .closeBracket rfl
  rcases close with ⟨none, none'⟩ | ⟨_, _, some, some', more⟩
  · simp only [Outline.tag, none, none', name, written]
    exact ⟨rfl, rest⟩
  · simp only [Outline.tag, some, some', name, written]
    exact ⟨rfl, more⟩

theorem Continues.endLine (h : Continues (i :: o :: vs) ts us) :
    Continues (i :: o :: vs) (endLine ts).rest (endLine us).rest := by
  rw [Outline.endLine, Outline.endLine, h.inLine_next hs]
  split
  · exact (h.span hs (p := inLine) id).2
  · exact h

theorem Continues.itemsLine (b : Builder) (h : Continues (i :: o :: vs) ts us) :
    Alike (i :: o :: vs) (itemsLine b ts) (itemsLine b us) := by
  obtain ⟨value, rest⟩ := h.items hs (read_items ts)
  simp only [Outline.itemsLine, value]
  exact ⟨rfl, rest.endLine hs⟩

theorem Continues.tagLine (b : Builder) (width : Nat)
    (h : Continues (i :: o :: vs) ts us) :
    Alike (i :: o :: vs) (tagLine b width start ts) (tagLine b width start us) := by
  obtain ⟨value, rest⟩ := h.tag hs start
  obtain ⟨built, left⟩ := rest.itemsLine hs (b.openTag width (Outline.tag start ts).value)
  simp only [Outline.tagLine, value]
  exact ⟨built, left⟩

/-- A line is read alike. One that has no more than its indentation before the input ends has
nothing to read; in front of a tag line it is passed over. -/
theorem Continues.line (b : Builder) (width : Nat)
    (h : Continues (i :: o :: vs) ts us) :
    Alike (i :: o :: vs) (line b width ts) (line b width us) := by
  have whole := h
  rw [line_eq, line_eq]
  cases h with
  | @ends e he =>
    obtain ⟨w, hi⟩ := hs.indent
    simp only [next, List.headD_cons, he, hi, lineKind,
      List.dropWhile_cons_of_neg (Bool.eq_false_iff.mp hs.inLine_indent)]
    exact ⟨rfl, .ends he⟩
  | endsLine he hn =>
    simp only [next, List.headD_cons, he, hn, lineKind]
    exact ⟨rfl, .endsLine he hn⟩
  | @cons t ts us _ more =>
    obtain ⟨-, left⟩ := whole.span hs (p := inLine) id
    simp only [next, List.headD_cons, List.drop_one, List.tail_cons]
    cases lineKind t.kind with
    | tag => exact more.tagLine hs b width
    | metadata =>
      simp only
      split
      · exact whole.itemsLine hs (b.closeWider width)
      · exact ⟨rfl, left⟩
    | empty => exact ⟨rfl, whole⟩
    | stray => exact ⟨rfl, left⟩

/-- What has been read when the input ends is what has been read in front of the tag line. -/
theorem Continues.run {b b' : Builder} {ps : List Diagnostic}
    {rest : List Token} (hr : Run Outline.line b ts ps b' rest) (he : AtEnd rest)
    (h : Continues (i :: o :: vs) ts us) :
    ∃ qs, Run Outline.line b us qs b' (i :: o :: vs) := by
  induction hr generalizing us with
  | refl b ts =>
    cases h with
    | ends => exact ⟨[], .refl b _⟩
    | endsLine _ hn => exact ⟨[], .newline hn (.refl b _)⟩
    | cons ht => exact absurd he ht
  | newline ht _ ih =>
    cases h with
    | ends he' | endsLine he' =>
      rw [ht] at he'
      cases he'
    | cons _ more =>
      obtain ⟨qs, run⟩ := ih he more
      exact ⟨qs, .newline ht run⟩
  | @line b t ts ps b' rest width ht _ ih =>
    cases h with
    | ends he' | endsLine he' =>
      rw [ht] at he'
      cases he'
    | cons _ more =>
      obtain ⟨value, left⟩ := more.line hs b width
      obtain ⟨qs, run⟩ := ih he left
      rw [← value] at run
      exact ⟨_, .line ht run⟩

end Items

end Wireframe.Outline
