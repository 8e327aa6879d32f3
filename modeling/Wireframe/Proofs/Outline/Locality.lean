import Wireframe.Proofs.Outline.Suffix
import Wireframe.Proofs.Runs

/-!
# How far readers look

A reader looks a few tokens past what it takes. Here is what bounds its view: a reader of a block
that found its end reads the same whatever follows, and no reader looks past the indentation and
the bracket that begin a tag line (`keepsTagStarts_line`). So a tag line is never taken for a part
of the line before it, and what stands behind it has no say in what is read before it.
-/

namespace Wireframe.Outline

open Token.Kind

section Lists

variable {ts : List Token} (vs : List Token)

theorem next_append (h : ts ≠ []) : next (ts ++ vs) = next ts := by
  obtain ⟨t, us, rfl⟩ := List.exists_cons_of_ne_nil h
  rfl

theorem drop_one_append (h : ts ≠ []) : (ts ++ vs).drop 1 = ts.drop 1 ++ vs := by
  obtain ⟨t, us, rfl⟩ := List.exists_cons_of_ne_nil h
  rfl

theorem skip?_append (kind : Token.Kind) (h : ts ≠ []) :
    skip? kind (ts ++ vs) = (skip? kind ts).map (· ++ vs) := by
  obtain ⟨t, us, rfl⟩ := List.exists_cons_of_ne_nil h
  simp only [skip?, List.cons_append]
  split <;> rfl

theorem skipBreaks_append (h : skipBreaks ts ≠ []) :
    skipBreaks (ts ++ vs) = skipBreaks ts ++ vs := by
  induction ts with
  | nil => exact absurd rfl h
  | cons t ts ih =>
    rw [List.cons_append]
    cases hk : t.kind with
    | newline =>
      rw [skipBreaks, hk] at h
      rw [skipBreaks, skipBreaks]
      simp only [hk]
      exact ih h
    | indent width =>
      rw [skipBreaks, hk] at h
      have hts : ts ≠ [] := by
        rintro rfl
        exact h rfl
      rw [skipBreaks, skipBreaks]
      simp only [hk, next_append vs hts]
      cases hn : (next ts).kind <;> simp only [hn] at h ⊢
      all_goals first | rfl | exact ih h
    | _ =>
      rw [skipBreaks, skipBreaks]
      simp only [hk, List.cons_append]

theorem skipBreaks_append_cons {t : Token} {us : List Token} (h : skipBreaks ts = t :: us) :
    skipBreaks (ts ++ vs) = t :: (us ++ vs) := by
  rw [skipBreaks_append vs (by simp [h]), h, List.cons_append]

theorem skip?_append_some {kind : Token.Kind} {us : List Token} (h : skip? kind ts = some us) :
    skip? kind (ts ++ vs) = some (us ++ vs) := by
  obtain ⟨t, ht, rfl⟩ := skip?_eq_some.mp h
  exact skip?_eq_some.mpr ⟨t, ht, rfl⟩

end Lists

section Blocks

variable {start : Location} {ts : List Token} (vs : List Token)

theorem LayoutReads.of_nil {r : Reading (List Attribute)} (h : LayoutReads start [] r) :
    r = ⟨[], [⟨.unterminatedLayout, start⟩], []⟩ := by
  rw [← layout_eq_of_reads h, layout_eq]
  rfl

/-- Reading of a block that goes on finds a token to go on with. -/
theorem LayoutReads.ne_nil {r : Reading (List Attribute)} (h : LayoutReads start ts r)
    (hr : r.rest = [] → ⟨.unterminatedLayout, start⟩ ∉ r.problems) : ts ≠ [] := by
  rintro rfl
  rw [h.of_nil] at hr
  exact hr rfl (List.mem_singleton_self _)

/-- A layout block that is closed, or cut off by what stands in front of `r.rest`, reads the same
whatever follows. -/
theorem LayoutReads.extend {r : Reading (List Attribute)} (h : LayoutReads start ts r)
    (hr : r.rest = [] → ⟨.unterminatedLayout, start⟩ ∉ r.problems) :
    LayoutReads start (ts ++ vs) (r.extend vs) := by
  induction h with
  | runsOut h => exact absurd (List.mem_singleton_self _) (hr rfl)
  | close h ht => exact .close (skipBreaks_append_cons vs h) ht
  | stop h ht => exact .stop (skipBreaks_append_cons vs h) ht
  | separator h ht _ ih => exact .separator (skipBreaks_append_cons vs h) ht (ih hr)
  | @gap ts t us es ps rest h ht hc more ih =>
    have inner : rest = [] → ⟨.unterminatedLayout, start⟩ ∉ ps :=
      fun e hm => hr e (List.mem_cons_of_mem _ hm)
    have hd := more.ne_nil inner
    have hu : us ≠ [] := by
      rintro rfl
      exact hd rfl
    rw [Reading.extend_mk, ← next_append vs hu]
    refine .gap (skipBreaks_append_cons vs h) ht (by rw [skip?_append vs _ hu, hc]; rfl) ?_
    rw [dropWhile_append_of_ne_nil vs hd]
    exact ih inner
  | entry h ht hc hv more ih =>
    have hd := more.ne_nil hr
    refine .entry (skipBreaks_append_cons vs h) ht (skip?_append_some vs hc) ?_ ?_
    · rw [takeWhile_append_of_ne_nil vs hd]
      exact hv
    · rw [dropWhile_append_of_ne_nil vs hd]
      exact ih hr
  | @blank ts t us vs' es ps rest h ht hc hv more ih =>
    have inner : rest = [] → ⟨.unterminatedLayout, start⟩ ∉ ps :=
      fun e hm => hr e (List.mem_cons_of_mem _ hm)
    have hd := more.ne_nil inner
    refine .blank (skipBreaks_append_cons vs h) ht (skip?_append_some vs hc) ?_ ?_
    · rw [takeWhile_append_of_ne_nil vs hd]
      exact hv
    · rw [dropWhile_append_of_ne_nil vs hd]
      exact ih inner
  | other h ht _ ih =>
    exact .other (skipBreaks_append_cons vs h) ht (ih fun e hm => hr e (List.mem_cons_of_mem _ hm))

/-- The same of the parentheses of a call. -/
theorem ArgumentsRead.extend {r : Reading (List Token)} (h : ArgumentsRead start ts r)
    (hr : r.rest = [] → ⟨.unterminatedArguments, start⟩ ∉ r.problems) :
    ArgumentsRead start (ts ++ vs) (r.extend vs) := by
  induction h with
  | runsOut h => exact absurd (List.mem_singleton_self _) (hr rfl)
  | close h ht => exact .close (skipBreaks_append_cons vs h) ht
  | stop h ht => exact .stop (skipBreaks_append_cons vs h) ht
  | other h ht _ ih => exact .other (skipBreaks_append_cons vs h) ht (ih hr)

end Blocks

section Brackets

variable {ts : List Token} (vs : List Token)

theorem tagName_append (h : ts ≠ []) : tagName (ts ++ vs) = (tagName ts).extend vs := by
  simp only [tagName_eq, next_append vs h, drop_one_append vs h]
  cases ident? (next ts) <;> rfl

theorem payload_append (h : (payload ts).2 ≠ []) :
    payload (ts ++ vs) = ((payload ts).1, (payload ts).2 ++ vs) := by
  have hts : ts ≠ [] := by
    rintro rfl
    exact h rfl
  simp only [payload_eq, next_append vs hts, drop_one_append vs hts] at h ⊢
  cases ht : str? (next ts) with
  | some text => rfl
  | none =>
    simp only [ht] at h
    simp only [takeWhile_append_of_ne_nil vs h, dropWhile_append_of_ne_nil vs h]

theorem tagPayload_append (h : (tagPayload ts).rest ≠ []) :
    tagPayload (ts ++ vs) = (tagPayload ts).extend vs := by
  have hts : ts ≠ [] := by
    rintro rfl
    exact h rfl
  cases hc : skip? .colon ts with
  | some us =>
    simp only [tagPayload, hc] at h
    simp only [tagPayload, hc, skip?_append_some vs hc, payload_append vs h]
    rfl
  | none =>
    simp only [tagPayload, hc] at h
    simp only [tagPayload, hc, skip?_append vs _ hts, Option.map_none, next_append vs hts]
    split
    · rfl
    next open? =>
      rw [if_neg open?] at h
      rw [payload_append vs h]
      rfl

/-- A bracket that is closed reads the same whatever follows. -/
theorem tag_append {start : Location}
    (closed : ⟨.unterminatedTag, start⟩ ∉ (tag start ts).problems) :
    tag start (ts ++ vs) = (tag start ts).extend vs := by
  cases hc : skip? .closeBracket (tagPayload (tagName ts).rest).rest with
  | some us =>
    have inner : (tagPayload (tagName ts).rest).rest ≠ [] := by
      intro hn
      rw [hn] at hc
      cases hc
    have hts : ts ≠ [] := by
      rintro rfl
      exact inner rfl
    simp only [tag, tagName_append vs hts, Reading.extend_rest, tagPayload_append vs inner, hc,
      skip?_append_some vs hc]
    rfl
  | none =>
    simp only [tag, hc] at closed
    exact absurd (List.mem_append_right _ (List.mem_singleton_self _)) closed

end Brackets

/-- The two tokens that a tag line begins with. -/
structure TagStart (i o : Token) : Prop where
  indent : ∃ width, i.kind = .indent width
  bracket : o.kind = .openBracket

/-- A reader that is given the start of a tag line leaves it, and reads the same whatever stands
behind it. -/
def KeepsTagStarts {α : Type} (f : List Token → Reading α) : Prop :=
  ∀ {i o : Token} {ts : List Token}, TagStart i o → [i, o] <:+ ts →
    [i, o] <:+ (f ts).rest ∧ ∀ vs, f (ts ++ vs) = (f ts).extend vs

section TagStarts

variable {i o t : Token} {ts us : List Token}

theorem TagStart.inLine_indent (h : TagStart i o) : inLine i = false := by
  obtain ⟨width, hi⟩ := h.indent
  rw [inLine, hi]
  rfl

theorem ne_nil_of_suffix (h : [i, o] <:+ ts) : ts ≠ [] := by
  rintro rfl
  simp at h

/-- The start of a tag line stands behind a token that is no indentation. -/
theorem TagStart.suffix_tail (hs : TagStart i o) (h : [i, o] <:+ t :: us)
    (ht : ∀ width, t.kind ≠ .indent width) : [i, o] <:+ us := by
  obtain ⟨width, hi⟩ := hs.indent
  rcases List.suffix_cons_iff.mp h with he | h
  · cases he
    exact absurd hi (ht width)
  · exact h

/-- It also stands behind an indentation that no bracket follows. -/
theorem TagStart.suffix_tail_of_next (hs : TagStart i o) (h : [i, o] <:+ t :: us)
    (ht : (next us).kind ≠ .openBracket) : [i, o] <:+ us := by
  rcases List.suffix_cons_iff.mp h with he | h
  · cases he
    exact absurd hs.bracket ht
  · exact h

theorem TagStart.suffix_skip? {kind : Token.Kind} (hs : TagStart i o) (h : [i, o] <:+ ts)
    (hk : ∀ width, kind ≠ .indent width) (hu : skip? kind ts = some us) : [i, o] <:+ us := by
  obtain ⟨t, rfl, rfl⟩ := skip?_eq_some.mp hu
  exact hs.suffix_tail h hk

theorem suffix_dropWhile {p : Token → Bool} (h : [i, o] <:+ ts) (hp : p i = false) :
    [i, o] <:+ ts.dropWhile p := by
  induction ts with
  | nil => simp at h
  | cons t ts ih =>
    rw [List.dropWhile_cons]
    split
    next ht =>
      rcases List.suffix_cons_iff.mp h with he | h
      · cases he
        simp [hp] at ht
      · exact ih h
    · exact h

theorem TagStart.suffix_skipBreaks (hs : TagStart i o) (h : [i, o] <:+ ts) :
    [i, o] <:+ skipBreaks ts := by
  fun_induction skipBreaks ts with
  | case1 => exact h
  | case2 t ts hk ih => exact ih (hs.suffix_tail h (by simp [hk]))
  | case6 t ts _ _ hn _ _ ih => exact ih (hs.suffix_tail_of_next h hn)
  | _ => exact h

/-- What stands behind the next token that counts has the start of the tag line too. -/
theorem TagStart.suffix_of_skipBreaks (hs : TagStart i o) (h : [i, o] <:+ ts)
    (ht : skipBreaks ts = t :: us) (hk : ∀ width, t.kind ≠ .indent width) : [i, o] <:+ us :=
  hs.suffix_tail (ht ▸ hs.suffix_skipBreaks h) hk

theorem TagStart.suffix_layout {start : Location} {r : Reading (List Attribute)}
    (hs : TagStart i o) (hr : LayoutReads start ts r) (h : [i, o] <:+ ts) :
    [i, o] <:+ r.rest := by
  have role {kind : Token.Kind} (hk : layoutRole kind ≠ .stop) (width : Nat) :
      kind ≠ .indent width := by
    rintro rfl
    exact hk rfl
  induction hr with
  | runsOut ht =>
    have left := hs.suffix_skipBreaks h
    rw [ht] at left
    exact left
  | close ht hk => exact hs.suffix_of_skipBreaks h ht (role (by simp [hk]))
  | stop ht hk =>
    rw [← ht]
    exact hs.suffix_skipBreaks h
  | separator ht hk _ ih | other ht hk _ ih =>
    exact ih (hs.suffix_of_skipBreaks h ht (role (by simp [hk])))
  | gap ht hk hc _ ih =>
    have behind := hs.suffix_of_skipBreaks h ht (role (by simp [hk]))
    exact ih (suffix_dropWhile behind (by simp [inLayoutGap, hs.inLine_indent]))
  | entry ht hk hc hv _ ih | blank ht hk hc hv _ ih =>
    have behind := hs.suffix_of_skipBreaks h ht (role (by simp [hk]))
    have value := hs.suffix_skip? behind (by simp) hc
    exact ih (suffix_dropWhile value (by simp [inLayoutValue, hs.inLine_indent]))

theorem TagStart.suffix_arguments {start : Location} {r : Reading (List Token)}
    (hs : TagStart i o) (hr : ArgumentsRead start ts r) (h : [i, o] <:+ ts) :
    [i, o] <:+ r.rest := by
  have role {kind : Token.Kind} (hk : argumentRole kind ≠ .stop) (width : Nat) :
      kind ≠ .indent width := by
    rintro rfl
    exact hk rfl
  induction hr with
  | runsOut ht =>
    have left := hs.suffix_skipBreaks h
    rw [ht] at left
    exact left
  | close ht hk => exact hs.suffix_of_skipBreaks h ht (role (by simp [hk]))
  | stop ht hk =>
    rw [← ht]
    exact hs.suffix_skipBreaks h
  | other ht hk _ ih => exact ih (hs.suffix_of_skipBreaks h ht (role (by simp [hk])))

end TagStarts

theorem keepsTagStarts_layout (start : Location) : KeepsTagStarts (layout start) := by
  intro i o ts hs h
  have left := hs.suffix_layout (reads_layout start ts) h
  refine ⟨left, fun vs => layout_eq_of_reads ((reads_layout start ts).extend vs ?_)⟩
  exact fun e => absurd e (ne_nil_of_suffix left)

theorem keepsTagStarts_arguments (start : Location) : KeepsTagStarts (arguments start) := by
  intro i o ts hs h
  have left := hs.suffix_arguments (read_arguments start ts) h
  refine ⟨left, fun vs => arguments_eq_of_read ((read_arguments start ts).extend vs ?_)⟩
  exact fun e => absurd e (ne_nil_of_suffix left)

theorem keepsTagStarts_attributeValue : KeepsTagStarts attributeValue := by
  intro i o ts hs h
  have hts := ne_nil_of_suffix h
  cases hp : skip? .openParen ts with
  | some us =>
    obtain ⟨left, same⟩ := keepsTagStarts_arguments (next ts).location hs
      (hs.suffix_skip? h (by simp) hp)
    constructor
    · simpa only [attributeValue, hp] using left
    · intro vs
      simp only [attributeValue, skip?_append_some vs hp, hp, next_append vs hts, same]
      rfl
  | none =>
    have nothing (kind : Token.Kind) (vs : List Token) (hn : skip? kind ts = none) :
        skip? kind (ts ++ vs) = none := by
      rw [skip?_append vs kind hts, hn]
      rfl
    cases hc : skip? .colon ts with
    | some us =>
      have left : [i, o] <:+ us.dropWhile inAttributeValue :=
        suffix_dropWhile (hs.suffix_skip? h (by simp) hc)
          (by simp [inAttributeValue, hs.inLine_indent])
      have hd := ne_nil_of_suffix left
      constructor
      · simpa only [attributeValue, hp, hc] using left
      · intro vs
        simp only [attributeValue, nothing _ vs hp, skip?_append_some vs hc, hp, hc,
          takeWhile_append_of_ne_nil vs hd, dropWhile_append_of_ne_nil vs hd]
        rfl
    | none =>
      constructor
      · simpa only [attributeValue, hp, hc] using h
      · intro vs
        simp only [attributeValue, nothing _ vs hp, nothing _ vs hc, hp, hc]
        rfl

theorem keepsTagStarts_skipComma {i o : Token} {ts : List Token} (hs : TagStart i o)
    (h : [i, o] <:+ ts) :
    [i, o] <:+ skipComma ts ∧ ∀ vs, skipComma (ts ++ vs) = skipComma ts ++ vs := by
  simp only [skipComma_eq]
  cases hc : skip? .comma ts with
  | none =>
    refine ⟨h, fun vs => ?_⟩
    rw [skip?_append vs _ (ne_nil_of_suffix h), hc]
    rfl
  | some us =>
    have left := hs.suffix_skip? h (by simp) hc
    have behind (vs : List Token) := skip?_append_some vs hc
    simp only [behind]
    obtain ⟨width, hi⟩ := hs.indent
    match us, left with
    | [], left => simp at left
    | [t], left => exact absurd left.length_le (by simp)
    | [t, k], left =>
      -- the indentation of the tag line is no end of a line, so the list is over
      obtain ⟨rfl, rfl⟩ : i = t ∧ o = k := by simpa using left.eq_of_length rfl
      have ended (us : List Token) : goesOn (i :: us) = false :=
        goesOn_of_ne_newline us (by simp [hi])
      simp [ended]
    | t :: j :: k :: us, left =>
      have same (vs : List Token) : goesOn (t :: j :: k :: us ++ vs) = goesOn (t :: j :: k :: us) :=
        rfl
      simp only [same]
      split
      next hg =>
        simp only [goesOn, Bool.and_eq_true, decide_eq_true_eq] at hg
        have next : [i, o] <:+ j :: k :: us := hs.suffix_tail left (by simp [hg.1.1])
        refine ⟨hs.suffix_tail_of_next next fun hk => ?_, fun vs => rfl⟩
        have key := hg.2
        rw [show k.kind = .openBracket from hk] at key
        cases key
      · exact ⟨left, fun vs => rfl⟩

theorem TagStart.suffix_attributes {first : Bool} {r : Reading (List Attribute)}
    {i o : Token} {ts : List Token} (hs : TagStart i o) (hr : AttributesRead first ts r)
    (h : [i, o] <:+ ts) :
    [i, o] <:+ r.rest ∧ ∀ vs, AttributesRead first (ts ++ vs) (r.extend vs) := by
  have key {kind : Token.Kind} (hk : attributeRole kind = .key) (width : Nat) :
      kind ≠ .indent width := by
    rintro rfl
    cases hk
  induction hr with
  | runsOut => simp at h
  | stop ht => exact ⟨h, fun vs => .stop ht⟩
  | entry ht hv _ ih =>
    have value := keepsTagStarts_attributeValue hs (hs.suffix_tail h (key ht))
    rw [hv] at value
    have comma := keepsTagStarts_skipComma hs value.1
    refine ⟨(ih comma.1).1, fun vs => .entry ht (value.2 vs) ?_⟩
    rw [comma.2]
    exact (ih comma.1).2 vs
  | blank ht hv _ ih =>
    have value := keepsTagStarts_attributeValue hs (hs.suffix_tail h (key ht))
    rw [hv] at value
    have comma := keepsTagStarts_skipComma hs value.1
    refine ⟨(ih comma.1).1, fun vs => .blank ht (value.2 vs) ?_⟩
    rw [comma.2]
    exact (ih comma.1).2 vs

theorem keepsTagStarts_attributes (first : Bool) : KeepsTagStarts (attributes first) := by
  intro i o ts hs h
  obtain ⟨left, same⟩ := hs.suffix_attributes (read_attributes first ts) h
  exact ⟨left, fun vs => attributes_eq_of_read (same vs)⟩

theorem keepsTagStarts_attributeList (start : Location) :
    KeepsTagStarts (attributeList start) := by
  intro i o ts hs h
  cases hc : skip? .colon ts with
  | some us =>
    obtain ⟨left, same⟩ := keepsTagStarts_attributes true hs (hs.suffix_skip? h (by simp) hc)
    constructor
    · simpa only [attributeList, hc] using left
    · intro vs
      simpa only [attributeList, hc, skip?_append_some vs hc] using same vs
  | none =>
    obtain ⟨left, same⟩ := keepsTagStarts_attributes true hs h
    constructor
    · simpa only [attributeList, hc] using left
    · intro vs
      simp only [attributeList, hc, skip?_append vs _ (ne_nil_of_suffix h), Option.map_none, same]
      rfl

/-- The first token, when it is no indentation, is behind no start of a tag line. -/
theorem TagStart.suffix_drop_one {i o : Token} {ts : List Token} (hs : TagStart i o)
    (h : [i, o] <:+ ts) (hn : ∀ width, (next ts).kind ≠ .indent width) : [i, o] <:+ ts.drop 1 := by
  obtain ⟨t, us, rfl⟩ := List.exists_cons_of_ne_nil (ne_nil_of_suffix h)
  exact hs.suffix_tail h hn

theorem keepsTagStarts_contentText (start : Location) : KeepsTagStarts (contentText start) := by
  intro i o ts hs h
  have hts := ne_nil_of_suffix h
  have left : [i, o] <:+ ts.dropWhile inLine := suffix_dropWhile h hs.inLine_indent
  have hd := ne_nil_of_suffix left
  simp only [contentText_eq, next_append _ hts, drop_one_append _ hts,
    takeWhile_append_of_ne_nil _ hd, dropWhile_append_of_ne_nil _ hd]
  cases ht : str? (next ts) with
  | some text =>
    rw [str?_eq_some] at ht
    exact ⟨hs.suffix_drop_one h (by simp [ht]), fun vs => rfl⟩
  | none =>
    simp only
    split
    · exact ⟨left, fun vs => rfl⟩
    · exact ⟨left, fun vs => rfl⟩

theorem keepsTagStarts_content (start : Location) : KeepsTagStarts (content start) := by
  intro i o ts hs h
  cases hc : skip? .colon ts with
  | some us =>
    obtain ⟨left, same⟩ := keepsTagStarts_contentText start hs (hs.suffix_skip? h (by simp) hc)
    constructor
    · simpa only [content, hc] using left
    · intro vs
      simpa only [content, hc, skip?_append_some vs hc] using same vs
  | none =>
    obtain ⟨left, same⟩ := keepsTagStarts_contentText start hs h
    constructor
    · simpa only [content, hc] using left
    · intro vs
      simp only [content, hc, skip?_append vs _ (ne_nil_of_suffix h), Option.map_none, same]
      rfl

theorem keepsTagStarts_item? {i o : Token} {ts : List Token} (hs : TagStart i o)
    (h : [i, o] <:+ ts) :
    (∀ r, item? ts = some r → [i, o] <:+ r.rest) ∧
      ∀ vs, item? (ts ++ vs) = (item? ts).map (·.extend vs) := by
  obtain ⟨t, us, rfl⟩ := List.exists_cons_of_ne_nil (ne_nil_of_suffix h)
  cases hk : t.kind with
  | openBrace =>
    obtain ⟨left, same⟩ :=
      keepsTagStarts_layout t.location hs (hs.suffix_tail h (by simp [hk]))
    simp only [List.cons_append, item?_openBrace _ hk, same]
    exact ⟨by rintro r ⟨⟩; exact left, fun vs => rfl⟩
  | attr =>
    obtain ⟨left, same⟩ :=
      keepsTagStarts_attributeList t.location hs (hs.suffix_tail h (by simp [hk]))
    simp only [List.cons_append, item?_attr _ hk, same]
    exact ⟨by rintro r ⟨⟩; exact left, fun vs => rfl⟩
  | content =>
    obtain ⟨left, same⟩ :=
      keepsTagStarts_content t.location hs (hs.suffix_tail h (by simp [hk]))
    simp only [List.cons_append, item?_content _ hk, same]
    exact ⟨by rintro r ⟨⟩; exact left, fun vs => rfl⟩
  | _ =>
    simp only [List.cons_append, item?, hk]
    exact ⟨by rintro r ⟨⟩, fun vs => rfl⟩

theorem TagStart.suffix_items {r : Reading (List Item)} {i o : Token} {ts : List Token}
    (hs : TagStart i o) (hr : ItemsRead ts r) (h : [i, o] <:+ ts) :
    [i, o] <:+ r.rest ∧ ∀ vs, ItemsRead (ts ++ vs) (r.extend vs) := by
  induction hr with
  | stop hn =>
    obtain ⟨-, same⟩ := keepsTagStarts_item? hs h
    exact ⟨h, fun vs => .stop (by rw [same, hn]; rfl)⟩
  | item hi _ ih =>
    obtain ⟨left, same⟩ := keepsTagStarts_item? hs h
    obtain ⟨last, more⟩ := ih (left _ hi)
    exact ⟨last, fun vs => .item (by rw [same, hi]; rfl) (more vs)⟩

theorem keepsTagStarts_items : KeepsTagStarts items := by
  intro i o ts hs h
  obtain ⟨left, same⟩ := hs.suffix_items (read_items ts) h
  exact ⟨left, fun vs => items_eq_of_read (same vs)⟩

theorem keepsTagStarts_tagName : KeepsTagStarts tagName := by
  intro i o ts hs h
  refine ⟨?_, fun vs => tagName_append vs (ne_nil_of_suffix h)⟩
  rw [tagName_eq]
  cases ht : ident? (next ts) with
  | some name =>
    rw [ident?_eq_some] at ht
    exact hs.suffix_drop_one h (by simp [ht])
  | none => exact h

theorem TagStart.suffix_payload {i o : Token} {ts : List Token} (hs : TagStart i o)
    (h : [i, o] <:+ ts) : [i, o] <:+ (payload ts).2 := by
  rw [payload_eq]
  cases ht : str? (next ts) with
  | some text =>
    rw [str?_eq_some] at ht
    exact hs.suffix_drop_one h (by simp [ht])
  | none => exact suffix_dropWhile h (by simp [inBracket, hs.inLine_indent])

theorem keepsTagStarts_tagPayload : KeepsTagStarts tagPayload := by
  intro i o ts hs h
  have left : [i, o] <:+ (tagPayload ts).rest := by
    cases hc : skip? .colon ts with
    | some us =>
      simp only [tagPayload, hc]
      exact hs.suffix_payload (hs.suffix_skip? h (by simp) hc)
    | none =>
      simp only [tagPayload, hc]
      split
      · exact h
      · exact hs.suffix_payload h
  exact ⟨left, fun vs => tagPayload_append vs (ne_nil_of_suffix left)⟩

theorem keepsTagStarts_tag (start : Location) : KeepsTagStarts (tag start) := by
  intro i o ts hs h
  obtain ⟨nameLeft, nameSame⟩ := keepsTagStarts_tagName hs h
  obtain ⟨left, same⟩ := keepsTagStarts_tagPayload hs nameLeft
  cases hc : skip? .closeBracket (tagPayload (tagName ts).rest).rest with
  | some us =>
    have behind (vs : List Token) := skip?_append_some vs hc
    simp only [tag, nameSame, Reading.extend_rest, same, hc, behind]
    exact ⟨hs.suffix_skip? left (by simp) hc, fun vs => rfl⟩
  | none =>
    simp only [tag, nameSame, Reading.extend_rest, same, hc,
      skip?_append _ _ (ne_nil_of_suffix left), Option.map_none]
    exact ⟨left, fun vs => rfl⟩

theorem keepsTagStarts_endLine : KeepsTagStarts endLine := by
  intro i o ts hs h
  have left : [i, o] <:+ ts.dropWhile inLine := suffix_dropWhile h hs.inLine_indent
  simp only [endLine, next_append _ (ne_nil_of_suffix h),
    dropWhile_append_of_ne_nil _ (ne_nil_of_suffix left)]
  split
  · exact ⟨left, fun vs => rfl⟩
  · exact ⟨h, fun vs => rfl⟩

theorem keepsTagStarts_itemsLine (b : Builder) : KeepsTagStarts (itemsLine b) := by
  intro i o ts hs h
  obtain ⟨runLeft, runSame⟩ := keepsTagStarts_items hs h
  obtain ⟨left, same⟩ := keepsTagStarts_endLine hs runLeft
  simp only [itemsLine, runSame, Reading.extend_rest, same]
  exact ⟨left, fun vs => rfl⟩

theorem keepsTagStarts_tagLine (b : Builder) (width : Nat) (start : Location) :
    KeepsTagStarts (tagLine b width start) := by
  intro i o ts hs h
  obtain ⟨headLeft, headSame⟩ := keepsTagStarts_tag start hs h
  obtain ⟨left, same⟩ :=
    keepsTagStarts_itemsLine (b.openTag width (tag start ts).value) hs headLeft
  simp only [tagLine, headSame, Reading.extend_rest, Reading.extend_value, same]
  exact ⟨left, fun vs => rfl⟩

/-- A line ends before the next tag line, and is read without a look behind its bracket. -/
theorem keepsTagStarts_line (b : Builder) (width : Nat) : KeepsTagStarts (line b width) := by
  intro i o ts hs h
  have hts := ne_nil_of_suffix h
  have left : [i, o] <:+ ts.dropWhile inLine := suffix_dropWhile h hs.inLine_indent
  simp only [line_eq, next_append _ hts, drop_one_append _ hts,
    dropWhile_append_of_ne_nil _ (ne_nil_of_suffix left)]
  cases hk : lineKind (next ts).kind with
  | tag =>
    refine keepsTagStarts_tagLine b width _ hs (hs.suffix_drop_one h fun w hw => ?_)
    rw [hw] at hk
    cases hk
  | metadata =>
    obtain ⟨itemsLeft, same⟩ := keepsTagStarts_itemsLine (b.closeWider width) hs h
    simp only [same]
    split
    · exact ⟨itemsLeft, fun vs => rfl⟩
    · exact ⟨left, fun vs => rfl⟩
  | empty => exact ⟨h, fun vs => rfl⟩
  | stray => exact ⟨left, fun vs => rfl⟩

end Wireframe.Outline
