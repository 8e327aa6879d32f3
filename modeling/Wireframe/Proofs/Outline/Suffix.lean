import Mathlib.Data.List.TakeWhile
import Wireframe.Proofs.Outline.Derivation

/-!
# What readers leave

A reader takes tokens from the front, none of which is the end of the input, and leaves the others.
So whatever holds of all suffixes of a token stream holds of what is still to be read, and tokens
that go on to the end of the input still do. A line is read to its end: no token that belongs to a
line is left in front (`atLineEnd_line`).
-/

namespace Wireframe.Outline

open Token.Kind

/-- Whether tokens are left when others in front of them are taken, none of which is the end of the
input. -/
def Leaves (ts us : List Token) : Prop :=
  ∃ taken, ts = taken ++ us ∧ ∀ t ∈ taken, t.kind ≠ .eof

theorem skip?_suffix {kind : Token.Kind} {ts us : List Token} (h : skip? kind ts = some us) :
    us <:+ ts := by
  obtain ⟨t, _, rfl⟩ := skip?_eq_some.mp h
  exact List.suffix_cons t us

theorem ne_eof_of_inLine {t : Token} (h : inLine t = true) : t.kind ≠ .eof := by
  intro he
  rw [inLine, he] at h
  cases h

namespace Leaves

variable {t : Token} {ts us vs : List Token}

theorem refl (ts : List Token) : Leaves ts ts :=
  ⟨[], rfl, List.forall_mem_nil _⟩

theorem trans (h : Leaves ts us) (h' : Leaves us vs) : Leaves ts vs := by
  obtain ⟨taken, rfl, first⟩ := h
  obtain ⟨more, rfl, then_⟩ := h'
  exact ⟨taken ++ more, (List.append_assoc ..).symm, List.forall_mem_append.mpr ⟨first, then_⟩⟩

theorem suffix (h : Leaves ts us) : us <:+ ts := by
  obtain ⟨taken, rfl, -⟩ := h
  exact List.suffix_append taken us

theorem cons (ht : t.kind ≠ .eof) (h : Leaves ts us) : Leaves (t :: ts) us := by
  obtain ⟨taken, rfl, ends⟩ := h
  exact ⟨t :: taken, rfl, List.forall_mem_cons.mpr ⟨ht, ends⟩⟩

theorem tail (ht : t.kind ≠ .eof) : Leaves (t :: ts) ts :=
  (refl ts).cons ht

theorem drop_one (h : (next ts).kind ≠ .eof) : Leaves ts (ts.drop 1) := by
  cases ts with
  | nil => exact refl []
  | cons t ts => exact tail h

theorem of_skip? {kind : Token.Kind} (hk : kind ≠ .eof) (h : skip? kind ts = some us) :
    Leaves ts us := by
  obtain ⟨t, rfl, rfl⟩ := skip?_eq_some.mp h
  exact tail hk

/-- What is passed over within a line. -/
theorem dropWhile {p : Token → Bool} (hp : ∀ t, p t = true → inLine t = true) (ts : List Token) :
    Leaves ts (ts.dropWhile p) :=
  ⟨ts.takeWhile p, List.takeWhile_append_dropWhile.symm,
    fun t ht => ne_eof_of_inLine (hp t (List.mem_takeWhile_imp ht))⟩

/-- The end of the input is not taken. -/
theorem exists_eof (h : Leaves ts us) (he : ∃ e ∈ ts, e.kind = .eof) :
    ∃ e ∈ us, e.kind = .eof := by
  obtain ⟨taken, rfl, ends⟩ := h
  obtain ⟨e, he, hk⟩ := he
  rcases List.mem_append.mp he with he | he
  · exact absurd hk (ends e he)
  · exact ⟨e, he, hk⟩

end Leaves

section Runs

variable {t : Token}

theorem inLine_of_inBracket (h : inBracket t = true) : inLine t = true := by
  simp only [inBracket, Bool.and_eq_true] at h
  exact h.1.1

theorem inLine_of_inLayoutValue (h : inLayoutValue t = true) : inLine t = true := by
  simp only [inLayoutValue, Bool.and_eq_true] at h
  exact h.1.1.1

theorem inLine_of_inLayoutGap (h : inLayoutGap t = true) : inLine t = true := by
  simp only [inLayoutGap, Bool.and_eq_true] at h
  exact h.1.1

theorem inLine_of_inAttributeValue (h : inAttributeValue t = true) : inLine t = true := by
  simp only [inAttributeValue, Bool.and_eq_true] at h
  exact h.1.1

end Runs

theorem leaves_payload (ts : List Token) : Leaves ts (payload ts).2 := by
  rw [payload_eq]
  split
  next text ht => exact .drop_one (by simp [str?_eq_some.mp ht])
  · exact .dropWhile (fun _ => inLine_of_inBracket) ts

theorem leaves_tagName (ts : List Token) : Leaves ts (tagName ts).rest := by
  unfold tagName
  split
  next name ht => exact .drop_one (by simp [ht])
  · exact .refl ts

theorem leaves_tagPayload (ts : List Token) : Leaves ts (tagPayload ts).rest := by
  unfold tagPayload
  split
  next us h => exact (Leaves.of_skip? (by simp) h).trans (leaves_payload us)
  next h =>
    dsimp only
    split
    · exact .refl ts
    · exact leaves_payload ts

theorem leaves_tag (start : Location) (ts : List Token) : Leaves ts (tag start ts).rest := by
  have bracket : Leaves ts (tagPayload (tagName ts).rest).rest :=
    (leaves_tagName ts).trans (leaves_tagPayload _)
  unfold tag
  dsimp only
  split
  next us h => exact bracket.trans (.of_skip? (by simp) h)
  next h => exact bracket

theorem leaves_skipBreaks (ts : List Token) : Leaves ts (skipBreaks ts) := by
  fun_induction skipBreaks ts with
  | case1 => exact .refl []
  | case2 t ts ht ih => exact ih.cons (by simp [ht])
  | case6 t ts _ ht _ _ _ ih => exact ih.cons (by simp [ht])
  | _ => exact .refl _

theorem leaves_of_skipBreaks {ts us : List Token} (h : skipBreaks ts = us) : Leaves ts us :=
  h ▸ leaves_skipBreaks ts

theorem ne_eof_of_layoutRole {kind : Token.Kind} (h : layoutRole kind ≠ .stop) : kind ≠ .eof := by
  rintro rfl
  exact h rfl

theorem ne_eof_of_argumentRole {kind : Token.Kind} (h : argumentRole kind ≠ .stop) :
    kind ≠ .eof := by
  rintro rfl
  exact h rfl

theorem ne_eof_of_attributeRole {kind : Token.Kind} (h : attributeRole kind = .key) :
    kind ≠ .eof := by
  rintro rfl
  cases h

/-- A token that does not stop the reader of a layout block is taken. -/
theorem leaves_of_layoutRole {ts us : List Token} {t : Token} {role : Role}
    (h : skipBreaks ts = t :: us) (ht : layoutRole t.kind = role) (hr : role ≠ .stop) :
    Leaves ts us :=
  (leaves_of_skipBreaks h).trans (.tail (ne_eof_of_layoutRole (ht ▸ hr)))

/-- A token that does not stop the reader of arguments is taken. -/
theorem leaves_of_argumentRole {ts us : List Token} {t : Token} {role : Role}
    (h : skipBreaks ts = t :: us) (ht : argumentRole t.kind = role) (hr : role ≠ .stop) :
    Leaves ts us :=
  (leaves_of_skipBreaks h).trans (.tail (ne_eof_of_argumentRole (ht ▸ hr)))

theorem LayoutReads.leaves {start : Location} {ts : List Token} {r : Reading (List Attribute)}
    (h : LayoutReads start ts r) : Leaves ts r.rest := by
  induction h with
  | runsOut h => exact leaves_of_skipBreaks h
  | close h ht => exact leaves_of_layoutRole h ht (by simp)
  | stop h => exact leaves_of_skipBreaks h
  | separator h ht _ ih => exact (leaves_of_layoutRole h ht (by simp)).trans ih
  | gap h ht _ _ ih =>
    have key := leaves_of_layoutRole h ht (by simp)
    exact key.trans ((Leaves.dropWhile (fun _ => inLine_of_inLayoutGap) _).trans ih)
  | entry h ht hc _ _ ih | blank h ht hc _ _ ih =>
    have colon := (leaves_of_layoutRole h ht (by simp)).trans (.of_skip? (by simp) hc)
    exact colon.trans ((Leaves.dropWhile (fun _ => inLine_of_inLayoutValue) _).trans ih)
  | other h ht _ ih => exact (leaves_of_layoutRole h ht (by simp)).trans ih

theorem leaves_layout (start : Location) (ts : List Token) : Leaves ts (layout start ts).rest :=
  (reads_layout start ts).leaves

theorem ArgumentsRead.leaves {start : Location} {ts : List Token} {r : Reading (List Token)}
    (h : ArgumentsRead start ts r) : Leaves ts r.rest := by
  induction h with
  | runsOut h => exact leaves_of_skipBreaks h
  | close h ht => exact leaves_of_argumentRole h ht (by simp)
  | stop h => exact leaves_of_skipBreaks h
  | other h ht _ ih => exact (leaves_of_argumentRole h ht (by simp)).trans ih

theorem leaves_arguments (start : Location) (ts : List Token) :
    Leaves ts (arguments start ts).rest :=
  (read_arguments start ts).leaves

theorem leaves_attributeValue (ts : List Token) : Leaves ts (attributeValue ts).rest := by
  unfold attributeValue
  split
  next us h => exact (Leaves.of_skip? (by simp) h).trans (leaves_arguments _ us)
  next h =>
    split
    next us h =>
      have value := Leaves.dropWhile (fun _ => inLine_of_inAttributeValue) us
      exact (Leaves.of_skip? (by simp) h).trans value
    next h => exact .refl ts

/-- The list goes on behind the end of a line and an indentation. -/
theorem leaves_of_goesOn {ts : List Token} (h : goesOn ts = true) : Leaves ts (ts.drop 2) := by
  unfold goesOn at h
  split at h
  next t i k us =>
    simp only [Bool.and_eq_true, decide_eq_true_eq] at h
    obtain ⟨⟨newline, indent⟩, -⟩ := h
    obtain ⟨width, hi⟩ := isIndent_eq_true.mp indent
    exact .cons (by simp [newline]) (.tail (by simp [hi]))
  · cases h

theorem leaves_skipComma (ts : List Token) : Leaves ts (skipComma ts) := by
  rw [skipComma_eq]
  split
  next h => exact .refl ts
  next us h =>
    refine (Leaves.of_skip? (by simp) h).trans ?_
    split
    next on => exact leaves_of_goesOn on
    next => exact .refl us

/-- What is left behind a key and its value, where the list may go on. -/
theorem leaves_attribute {t : Token} (us : List Token) (ht : attributeRole t.kind = .key) :
    Leaves (t :: us) (skipComma (attributeValue us).rest) :=
  ((leaves_attributeValue us).trans (leaves_skipComma _)).cons (ne_eof_of_attributeRole ht)

theorem AttributesRead.leaves {first : Bool} {ts : List Token} {r : Reading (List Attribute)}
    (h : AttributesRead first ts r) : Leaves ts r.rest := by
  induction h with
  | runsOut => exact .refl []
  | stop => exact .refl _
  | @entry _ t us _ _ _ _ _ _ ht hv _ ih | @blank _ t us _ _ _ _ _ ht hv _ ih =>
    have key := leaves_attribute us ht
    rw [hv] at key
    exact key.trans ih

theorem leaves_attributes (first : Bool) (ts : List Token) :
    Leaves ts (attributes first ts).rest :=
  (read_attributes first ts).leaves

theorem leaves_attributeList (start : Location) (ts : List Token) :
    Leaves ts (attributeList start ts).rest := by
  unfold attributeList
  split
  next us h => exact (Leaves.of_skip? (by simp) h).trans (leaves_attributes true us)
  next h => exact leaves_attributes true ts

theorem leaves_contentText (start : Location) (ts : List Token) :
    Leaves ts (contentText start ts).rest := by
  unfold contentText
  split
  next text ht => exact .drop_one (by simp [ht])
  · simp only
    split <;> exact .dropWhile (fun _ ht => ht) ts

theorem leaves_content (start : Location) (ts : List Token) :
    Leaves ts (content start ts).rest := by
  unfold content
  split
  next us h => exact (Leaves.of_skip? (by simp) h).trans (leaves_contentText start us)
  next h => exact leaves_contentText start ts

/-- An item takes at least its first token. -/
theorem leaves_item? {t : Token} {us : List Token} {r : Reading (List Item)}
    (h : item? (t :: us) = some r) : t.kind ≠ .eof ∧ Leaves us r.rest := by
  unfold item? at h
  dsimp only at h
  split at h <;> simp only [Option.some.injEq, reduceCtorEq] at h <;> subst h
  next hk => exact ⟨by simp [hk], leaves_layout t.location us⟩
  next hk => exact ⟨by simp [hk], leaves_attributeList t.location us⟩
  next hk => exact ⟨by simp [hk], leaves_content t.location us⟩

theorem leaves_of_item? {ts : List Token} {r : Reading (List Item)} (h : item? ts = some r) :
    Leaves ts r.rest := by
  cases ts with
  | nil => cases h
  | cons t us =>
    obtain ⟨ht, more⟩ := leaves_item? h
    exact more.cons ht

theorem ItemsRead.leaves {ts : List Token} {r : Reading (List Item)} (h : ItemsRead ts r) :
    Leaves ts r.rest := by
  induction h with
  | stop => exact .refl _
  | item h _ ih => exact (leaves_of_item? h).trans ih

theorem leaves_items (ts : List Token) : Leaves ts (items ts).rest :=
  (read_items ts).leaves

theorem leaves_endLine (ts : List Token) : Leaves ts (endLine ts).rest := by
  unfold endLine
  split
  · exact .dropWhile (fun _ ht => ht) ts
  · exact .refl ts

theorem leaves_itemsLine (b : Builder) (ts : List Token) : Leaves ts (itemsLine b ts).rest :=
  (leaves_items ts).trans (leaves_endLine _)

theorem leaves_tagLine (b : Builder) (width : Nat) (start : Location) (ts : List Token) :
    Leaves ts (tagLine b width start ts).rest :=
  (leaves_tag start ts).trans (leaves_itemsLine (b.openTag width (tag start ts).value) _)

theorem leaves_bracket {ts : List Token} (h : lineKind (next ts).kind = .tag) :
    Leaves ts (ts.drop 1) := by
  refine .drop_one fun he => ?_
  rw [he] at h
  cases h

theorem leaves_line (b : Builder) (width : Nat) (ts : List Token) :
    Leaves ts (line b width ts).rest := by
  have passed := Leaves.dropWhile (fun _ ht => ht) ts
  rw [line_eq]
  split
  next hk => exact (leaves_bracket hk).trans (leaves_tagLine b width _ _)
  · split
    · exact leaves_itemsLine _ ts
    · exact passed
  · exact .refl ts
  · exact passed

/-- Whether no token in front belongs to a line that has begun. -/
def AtLineEnd (ts : List Token) : Prop :=
  inLine (next ts) = false

theorem atLineEnd_dropWhile (ts : List Token) : AtLineEnd (ts.dropWhile inLine) := by
  induction ts with
  | nil => rfl
  | cons t ts ih =>
    rw [List.dropWhile_cons]
    split
    · exact ih
    next h => exact Bool.eq_false_iff.mpr h

theorem atLineEnd_endLine (ts : List Token) : AtLineEnd (endLine ts).rest := by
  unfold endLine
  split
  · exact atLineEnd_dropWhile ts
  next h => exact Bool.eq_false_iff.mpr h

theorem atLineEnd_line (b : Builder) (width : Nat) (ts : List Token) :
    AtLineEnd (line b width ts).rest := by
  rw [line_eq]
  split
  · exact atLineEnd_endLine _
  · split
    · exact atLineEnd_endLine _
    · exact atLineEnd_dropWhile ts
  next h =>
    show inLine (next ts) = false
    unfold inLine
    cases hk : (next ts).kind <;> simp_all [lineKind, Token.Kind.endsLine]
  · exact atLineEnd_dropWhile ts

end Wireframe.Outline
