import Wireframe.Proofs.Lexeme.Coverage
import Wireframe.Proofs.Outline.Places

/-!
# Where problems of lines come from

No reader takes the end of the input, so there is a token to point at wherever one finds that
something is missing. So what holds of the places of all tokens holds of the places of all problems
that are found in them (`sourced_ofTokens`).
-/

namespace Wireframe

/-- Whether tokens go on to the end of the input and `P` holds of all their places. -/
structure Outline.Sourced (P : Location → Prop) (ts : List Token) : Prop where
  ends : ∃ e : Token, e.kind = .eof ∧ [e] <:+ ts
  places : ∀ t ∈ ts, P t.location

/-- Whether a reader leaves tokens that go on to the end of the input, and `P` holds of their places
and of those of its problems. -/
structure Reading.Sourced {α : Type} (P : Location → Prop) (r : Reading α) : Prop where
  rest : Outline.Sourced P r.rest
  problems : ∀ d ∈ r.problems, P d.location

/-- More problems in front of a reading. -/
theorem Reading.Sourced.cons {α : Type} {P : Location → Prop} {a : α} {d : Diagnostic}
    {ps : List Diagnostic} {rest : List Token} (hd : P d.location)
    (h : (⟨a, ps, rest⟩ : Reading α).Sourced P) : (⟨a, d :: ps, rest⟩ : Reading α).Sourced P :=
  ⟨h.rest, List.forall_mem_cons.mpr ⟨hd, h.problems⟩⟩

namespace Outline

open Token.Kind

variable {P : Location → Prop}

namespace Sourced

variable {t : Token} {ts us : List Token}

theorem ne_nil (h : Sourced P ts) : ts ≠ [] := by
  rintro rfl
  obtain ⟨e, -, he⟩ := h.ends
  cases List.suffix_nil.mp he

theorem next (h : Sourced P ts) : P (next ts).location := by
  obtain ⟨t, us, rfl⟩ := List.exists_cons_of_ne_nil h.ne_nil
  exact h.places t List.mem_cons_self

/-- Tokens of which the end of the input is not taken still go on to it. -/
theorem leaves (h : Sourced P ts) (hl : Leaves ts us) : Sourced P us := by
  obtain ⟨taken, rfl, other⟩ := hl
  obtain ⟨e, he, hs⟩ := h.ends
  have left : us ≠ [] := by
    rintro rfl
    rw [List.append_nil] at hs
    exact other e (hs.subset (List.mem_singleton_self e)) he
  have length : [e].length ≤ us.length := List.length_pos_iff.mpr left
  exact ⟨⟨e, he, List.suffix_of_suffix_length_le hs (List.suffix_append taken us) length⟩,
    (List.forall_mem_append.mp h.places).2⟩

end Sourced

section Readers

variable {start : Location} {ts : List Token}

theorem sourced_layout (h : Sourced P ts) (hs : P start) : (layout start ts).Sourced P := by
  refine ⟨h.leaves (leaves_layout start ts), ?_⟩
  have key {ts us : List Token} {t : Token} (h : Sourced P ts) (ht : skipBreaks ts = t :: us) :
      P t.location :=
    (h.leaves (leaves_of_skipBreaks ht)).places t List.mem_cons_self
  have reads := reads_layout start ts
  generalize layout start ts = r at reads
  induction reads with
  | runsOut | stop => exact List.forall_mem_singleton.mpr hs
  | close => exact List.forall_mem_nil _
  | separator ht hr _ ih => exact ih (h.leaves (leaves_of_layoutRole ht hr (by simp)))
  | gap ht hr _ _ ih =>
    have behind := h.leaves (leaves_of_layoutRole ht hr (by simp))
    have more := ih (behind.leaves (.dropWhile (fun _ => inLine_of_inLayoutGap) _))
    exact List.forall_mem_cons.mpr ⟨behind.next, more⟩
  | entry ht hr hc _ _ ih =>
    have behind := h.leaves ((leaves_of_layoutRole ht hr (by simp)).trans (.of_skip? (by simp) hc))
    exact ih (behind.leaves (.dropWhile (fun _ => inLine_of_inLayoutValue) _))
  | blank ht hr hc _ _ ih =>
    have behind := h.leaves ((leaves_of_layoutRole ht hr (by simp)).trans (.of_skip? (by simp) hc))
    have more := ih (behind.leaves (.dropWhile (fun _ => inLine_of_inLayoutValue) _))
    exact List.forall_mem_cons.mpr ⟨key h ht, more⟩
  | other ht hr _ ih =>
    have more := ih (h.leaves (leaves_of_layoutRole ht hr (by simp)))
    exact List.forall_mem_cons.mpr ⟨key h ht, more⟩

theorem sourced_arguments (h : Sourced P ts) (hs : P start) :
    (arguments start ts).Sourced P := by
  refine ⟨h.leaves (leaves_arguments start ts), ?_⟩
  have reads := read_arguments start ts
  generalize arguments start ts = r at reads
  induction reads with
  | runsOut | stop => exact List.forall_mem_singleton.mpr hs
  | close => exact List.forall_mem_nil _
  | other ht hr _ ih => exact ih (h.leaves (leaves_of_argumentRole ht hr (by simp)))

theorem sourced_attributeValue (h : Sourced P ts) : (attributeValue ts).Sourced P := by
  refine ⟨h.leaves (leaves_attributeValue ts), ?_⟩
  unfold attributeValue
  split
  next us hu =>
    exact (sourced_arguments (h.leaves (.of_skip? (by simp) hu)) h.next).problems
  next => split <;> exact List.forall_mem_nil _

theorem sourced_attributes (first : Bool) (h : Sourced P ts) :
    (attributes first ts).Sourced P := by
  refine ⟨h.leaves (leaves_attributes first ts), ?_⟩
  have value {t : Token} {ts rest : List Token} {v : Option Value} {ps : List Diagnostic}
      (h : Sourced P (t :: ts)) (ht : attributeRole t.kind = .key)
      (hv : attributeValue ts = ⟨v, ps, rest⟩) :
      (∀ d ∈ ps, P d.location) ∧ Sourced P (skipComma rest) := by
    have read := sourced_attributeValue (h.leaves (.tail (ne_eof_of_attributeRole ht)))
    have behind := h.leaves (leaves_attribute ts ht)
    rw [hv] at read behind
    exact ⟨read.problems, behind⟩
  have reads := read_attributes first ts
  generalize attributes first ts = r at reads
  induction reads with
  | runsOut => exact absurd rfl h.ne_nil
  | @stop first t us _ =>
    cases first with
    | false => exact List.forall_mem_nil _
    | true => exact List.forall_mem_singleton.mpr (h.places t List.mem_cons_self)
  | entry ht hv _ ih =>
    obtain ⟨here, behind⟩ := value h ht hv
    exact List.forall_mem_append.mpr ⟨here, ih behind⟩
  | blank ht hv _ ih =>
    obtain ⟨here, behind⟩ := value h ht hv
    refine List.forall_mem_append.mpr ⟨here, ?_⟩
    exact List.forall_mem_cons.mpr ⟨h.places _ List.mem_cons_self, ih behind⟩

theorem sourced_attributeList (h : Sourced P ts) (hs : P start) :
    (attributeList start ts).Sourced P := by
  unfold attributeList
  split
  next us hu => exact sourced_attributes true (h.leaves (.of_skip? (by simp) hu))
  next => exact (sourced_attributes true h).cons hs

theorem sourced_contentText (h : Sourced P ts) (hs : P start) :
    (contentText start ts).Sourced P := by
  refine ⟨h.leaves (leaves_contentText start ts), ?_⟩
  unfold contentText
  split
  · exact List.forall_mem_nil _
  · dsimp only
    split
    · exact List.forall_mem_singleton.mpr hs
    · exact List.forall_mem_nil _

theorem sourced_content (h : Sourced P ts) (hs : P start) : (content start ts).Sourced P := by
  unfold content
  split
  next us hu => exact sourced_contentText (h.leaves (.of_skip? (by simp) hu)) hs
  next => exact (sourced_contentText h hs).cons hs

theorem sourced_item? (h : Sourced P ts) {r : Reading (List Item)} (hr : item? ts = some r) :
    r.Sourced P := by
  cases ts with
  | nil => cases hr
  | cons t us =>
    have here := h.places t List.mem_cons_self
    have behind (ht : t.kind ≠ .eof) : Sourced P us := h.leaves (.tail ht)
    cases hk : t.kind <;> simp only [item?, hk, Option.some.injEq, reduceCtorEq] at hr <;> subst hr
    case openBrace =>
      have block := sourced_layout (behind (by simp [hk])) here
      exact ⟨block.rest, block.problems⟩
    case attr =>
      have list := sourced_attributeList (behind (by simp [hk])) here
      exact ⟨list.rest, list.problems⟩
    case content =>
      have text := sourced_content (behind (by simp [hk])) here
      exact ⟨text.rest, text.problems⟩

theorem sourced_items (h : Sourced P ts) : (items ts).Sourced P := by
  have reads := read_items ts
  generalize items ts = r at reads
  induction reads with
  | stop => exact ⟨h, List.forall_mem_nil _⟩
  | item hi _ ih =>
    have first := sourced_item? h hi
    have more := ih first.rest
    exact ⟨more.rest, List.forall_mem_append.mpr ⟨first.problems, more.problems⟩⟩

theorem sourced_tagName (h : Sourced P ts) : (tagName ts).Sourced P := by
  refine ⟨h.leaves (leaves_tagName ts), ?_⟩
  unfold tagName
  split
  · exact List.forall_mem_nil _
  · exact List.forall_mem_singleton.mpr h.next

theorem sourced_tagPayload (h : Sourced P ts) : (tagPayload ts).Sourced P := by
  refine ⟨h.leaves (leaves_tagPayload ts), ?_⟩
  unfold tagPayload
  split
  · exact List.forall_mem_nil _
  · dsimp only
    split
    · exact List.forall_mem_nil _
    · exact List.forall_mem_singleton.mpr h.next

theorem sourced_tag (h : Sourced P ts) (hs : P start) : (tag start ts).Sourced P := by
  refine ⟨h.leaves (leaves_tag start ts), ?_⟩
  have name := sourced_tagName h
  have problems :=
    List.forall_mem_append.mpr ⟨name.problems, (sourced_tagPayload name.rest).problems⟩
  unfold tag
  dsimp only
  split
  · exact problems
  · exact List.forall_mem_append.mpr ⟨problems, List.forall_mem_singleton.mpr hs⟩

theorem sourced_endLine (h : Sourced P ts) : (endLine ts).Sourced P := by
  refine ⟨h.leaves (leaves_endLine ts), ?_⟩
  unfold endLine
  split
  · exact List.forall_mem_singleton.mpr h.next
  · exact List.forall_mem_nil _

theorem placed_replacements {present : Bool} {items : List Item}
    (h : ∀ x ∈ items, x.Placed P) :
    ∀ d ∈ Builder.replacements present items, P d.location := by
  induction items generalizing present with
  | nil => exact List.forall_mem_nil _
  | cons x items ih =>
    obtain ⟨here, more⟩ := List.forall_mem_cons.mp h
    cases x with
    | content text p =>
      refine List.forall_mem_append.mpr ⟨?_, ih more⟩
      cases present with
      | false => exact List.forall_mem_nil _
      | true => exact List.forall_mem_singleton.mpr here
    | _ => exact ih more

theorem placed_attachProblems (b : Builder) {items : List Item} (h : ∀ x ∈ items, x.Placed P) :
    ∀ d ∈ b.attachProblems items, P d.location := by
  unfold Builder.attachProblems
  split
  · exact List.forall_mem_nil _
  · exact placed_replacements h

theorem sourced_itemsLine (b : Builder) (h : Sourced P ts) : (itemsLine b ts).Sourced P := by
  have run := sourced_items h
  have added := placed_attachProblems b (placed_items h.places (read_items ts))
  have tail := sourced_endLine run.rest
  refine ⟨tail.rest, List.forall_mem_append.mpr ⟨?_, tail.problems⟩⟩
  exact List.forall_mem_append.mpr ⟨run.problems, added⟩

theorem sourced_tagLine (b : Builder) (width : Nat) (h : Sourced P ts) (hs : P start) :
    (tagLine b width start ts).Sourced P := by
  have head := sourced_tag h hs
  have more := sourced_itemsLine (b.openTag width (tag start ts).value) head.rest
  refine ⟨more.rest, List.forall_mem_append.mpr ⟨?_, more.problems⟩⟩
  refine List.forall_mem_append.mpr ⟨head.problems, ?_⟩
  split
  · exact List.forall_mem_singleton.mpr hs
  · exact List.forall_mem_nil _

theorem sourced_line (b : Builder) (width : Nat) (h : Sourced P ts) :
    (line b width ts).Sourced P := by
  refine ⟨h.leaves (leaves_line b width ts), ?_⟩
  rw [line_eq]
  split
  next hk => exact (sourced_tagLine b width (h.leaves (leaves_bracket hk)) h.next).problems
  · split
    · exact (sourced_itemsLine _ h).problems
    · exact List.forall_mem_singleton.mpr h.next
  · exact List.forall_mem_nil _
  · exact List.forall_mem_singleton.mpr h.next

end Readers

theorem sourced_run {b b' : Builder} {ts us : List Token} {ps : List Diagnostic}
    (hr : Run line b ts ps b' us) (h : Sourced P ts) : ∀ d ∈ ps, P d.location := by
  induction hr with
  | refl => exact List.forall_mem_nil _
  | newline ht _ ih => exact ih (h.leaves (.tail (by simp [ht])))
  | @line b t ts _ _ _ width ht _ ih =>
    have read := sourced_line b width (h.leaves (.tail (by simp [ht])))
    exact List.forall_mem_append.mpr ⟨read.problems, ih read.rest⟩

/-- What holds of the places of all tokens holds of the places of all problems of their lines. -/
theorem sourced_ofTokens {ts : List Token} (hl : Lined ts) (ha : AtLineEnd ts)
    (h : Sourced P ts) : ∀ d ∈ (ofTokens ts).2, P d.location := by
  obtain ⟨ps, b, us, run, -, done⟩ := exists_run .empty hl ha
  rw [ofTokens_of_run run done]
  exact sourced_run run h

end Outline

/-- The tokens of a text go on to its end, and their places are places of the text. -/
theorem Token.sourced_scan (source : String) :
    Outline.Sourced (·.In (body source)) (scan source).1 := by
  refine ⟨⟨eofAt (Location.start.advance (body source)), rfl, ?_⟩, fun t ht => ?_⟩
  · rw [fst_scan]
    exact List.suffix_append _ _
  · obtain ⟨before, after, hc, place⟩ := exists_of_mem_scan ht
    rw [List.append_assoc] at hc
    exact Location.in_of_eq hc (by rw [place, Location.start_advance])

end Wireframe
