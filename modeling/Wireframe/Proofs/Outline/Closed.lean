import Wireframe.Proofs.Outline.Locality

/-!
# What may follow an item

An item that is complete on its own is followed by another item or by the end of its line. It is
read the same in front of either (`Piece.item?`): a bracket or a block because its end is found, an
attribute list because neither goes on with it.
-/

namespace Wireframe.Outline

open Token.Kind

/-- Whether a line is over. -/
def Over (ts : List Token) : Prop :=
  (next ts).kind = .newline ∨ (next ts).kind = .eof

/-- The kinds of tokens that a complete item may be followed by. -/
def mayFollow : Token.Kind → Bool
  | .newline | .eof | .openBrace | .attr | .content => true
  | _ => false

/-- Whether tokens may follow a complete item. -/
def AfterItem (ts : List Token) : Prop :=
  mayFollow (next ts).kind = true

/-- A list that is read to its end does not go on with the end of a line. -/
theorem AttributesRead.ne_newline {first : Bool} {us : List Token} {r : Reading (List Attribute)}
    (h : AttributesRead first us r) (hr : r.rest = []) (t : Token) (ts : List Token)
    (hu : us = t :: ts) : t.kind ≠ .newline := by
  intro hk
  subst hu
  cases h with
  | stop => cases hr
  | entry ht | blank ht =>
    rw [hk] at ht
    cases ht

section

variable {vs : List Token}

theorem Over.afterItem (h : Over vs) : AfterItem vs := by
  rcases h with h | h <;> rw [AfterItem, h] <;> rfl

theorem Over.inLine (h : Over vs) : inLine (next vs) = false := by
  rcases h with h | h <;> rw [Outline.inLine, h] <;> rfl

theorem Over.item? (h : Over vs) : item? vs = none := by
  cases vs with
  | nil => rfl
  | cons t us =>
    rcases h with h | h
    · simp only [Outline.item?, show t.kind = .newline from h]
    · simp only [Outline.item?, show t.kind = .eof from h]

theorem Over.endLine (h : Over vs) : endLine vs = ⟨(), [], vs⟩ := by
  rw [Outline.endLine, if_neg (by simp [h.inLine])]

/-- An item that ends its line is the only one on it. -/
theorem Over.items (h : Over vs) {ts : List Token} {xs : List Item} {ps : List Diagnostic}
    (hi : Outline.item? ts = some ⟨xs, ps, vs⟩) : items ts = ⟨xs, ps, vs⟩ := by
  have all := ItemsRead.item hi (.stop h.item?)
  rw [items_eq_of_read all, List.append_nil, List.append_nil]

theorem Over.itemsLine (h : Over vs) {ts : List Token} {xs : List Item} {ps : List Diagnostic}
    (hi : Outline.items ts = ⟨xs, ps, vs⟩) (b : Builder) :
    itemsLine b ts = ⟨b.attach xs, ps ++ b.attachProblems xs, vs⟩ := by
  simp only [Outline.itemsLine, hi, h.endLine, List.append_nil]

/-- Metadata that is at least as wide as the innermost tag is added to it. -/
theorem line_metadata {f : Frame} {width : Nat} (h : f.width ≤ width) (fs : List Frame)
    (roots : Outline) {ts : List Token} (hk : lineKind (next ts).kind = .metadata) :
    line ⟨f :: fs, roots⟩ width ts = Outline.itemsLine ⟨f :: fs, roots⟩ ts := by
  have owner : (⟨f :: fs, roots⟩ : Builder).hasOwner width = true := by
    simp [Builder.hasOwner, h]
  have stays : (⟨f :: fs, roots⟩ : Builder).closeWider width = ⟨f :: fs, roots⟩ := by
    have narrow : ¬ decide (width < f.width) = true := by simpa using h
    unfold Builder.closeWider
    cases fs <;> rw [Builder.collapse, if_neg narrow]
  rw [line_eq, hk]
  simp only [owner, if_true, stays]

variable (h : AfterItem vs)

include h

theorem AfterItem.skip? {kind : Token.Kind} (hk : mayFollow kind = false) :
    skip? kind vs = none := by
  cases vs with
  | nil => rfl
  | cons t us =>
    have other : t.kind ≠ kind := by
      rintro rfl
      rw [AfterItem, show mayFollow (next (t :: us)).kind = false from hk] at h
      cases h
    rw [Outline.skip?, if_neg other]

theorem AfterItem.skipComma : skipComma vs = vs := by
  rw [skipComma_eq, h.skip? rfl]

theorem AfterItem.attributes (first : Bool) :
    AttributesRead first vs ⟨[], listEnd first (next vs).kind (next vs).location, vs⟩ := by
  refine read_attributes_stop first ?_
  have may : mayFollow (next vs).kind = true := h
  cases hk : (next vs).kind <;> simp_all [mayFollow, attributeRole]

/-- No token that may follow an item goes on with the value of an attribute. -/
theorem AfterItem.takeWhile (us : List Token) :
    (us ++ vs).takeWhile inAttributeValue = us.takeWhile inAttributeValue ∧
      (us ++ vs).dropWhile inAttributeValue = us.dropWhile inAttributeValue ++ vs := by
  induction us with
  | nil =>
    cases vs with
    | nil => exact ⟨rfl, rfl⟩
    | cons t ts =>
      have ht : mayFollow t.kind = true := h
      have out : ¬ inAttributeValue t = true := by
        cases hk : t.kind <;>
          simp_all [mayFollow, inAttributeValue, opensItem, Outline.inLine, Token.Kind.endsLine]
      exact ⟨List.takeWhile_cons_of_neg out, List.dropWhile_cons_of_neg out⟩
  | cons t us ih =>
    rw [List.cons_append]
    by_cases ht : inAttributeValue t = true
    · rw [List.takeWhile_cons_of_pos ht, List.takeWhile_cons_of_pos ht, ih.1]
      rw [List.dropWhile_cons_of_pos ht, List.dropWhile_cons_of_pos ht, ih.2]
      exact ⟨rfl, rfl⟩
    · rw [List.takeWhile_cons_of_neg ht, List.takeWhile_cons_of_neg ht]
      rw [List.dropWhile_cons_of_neg ht, List.dropWhile_cons_of_neg ht]
      exact ⟨rfl, rfl⟩

theorem AfterItem.attributeValue {us rest : List Token} {v : Option Value}
    {ps : List Diagnostic} (hv : attributeValue us = ⟨v, ps, rest⟩)
    (closed : ∀ p, ⟨.unterminatedArguments, p⟩ ∉ ps) :
    attributeValue (us ++ vs) = ⟨v, ps, rest ++ vs⟩ := by
  by_cases hu : us = []
  · subst hu
    cases hv
    rw [List.nil_append, Outline.attributeValue, h.skip? rfl, h.skip? rfl]
  · rw [Outline.attributeValue] at hv ⊢
    rw [skip?_append vs _ hu, skip?_append vs _ hu]
    cases hp : Outline.skip? .openParen us with
    | some ts =>
      simp only [hp] at hv
      cases hv
      have call := (read_arguments (next us).location ts).extend vs fun _ => closed _
      simp only [Option.map_some, next_append vs hu, arguments_eq_of_read call]
      rfl
    | none =>
      simp only [hp] at hv
      cases hc : Outline.skip? .colon us with
      | some ts =>
        simp only [hc] at hv
        cases hv
        simp only [Option.map_none, Option.map_some, h.takeWhile]
      | none =>
        simp only [hc] at hv
        cases hv
        rfl

/-- The comma behind an attribute is passed over in the same way when it is not the last token and
no line ends behind it. -/
theorem AfterItem.skipComma_append {us : List Token} (hc : ∀ c, c.kind = .comma → us ≠ [c])
    (hn : ∀ t ts, Outline.skipComma us = t :: ts → t.kind ≠ .newline) :
    Outline.skipComma (us ++ vs) = Outline.skipComma us ++ vs := by
  cases us with
  | nil => exact h.skipComma
  | cons t us =>
    rw [skipComma_eq] at hn
    rw [List.cons_append, skipComma_eq, skipComma_eq]
    by_cases ht : t.kind = .comma
    · simp only [Outline.skip?, ht, if_true] at hn ⊢
      rcases us with _ | ⟨x, _ | ⟨y, _ | ⟨z, us⟩⟩⟩
      · exact absurd rfl (hc t ht)
      · simp [goesOn_of_ne_newline _ (hn x _ rfl)]
      · simp [goesOn_of_ne_newline _ (hn x _ rfl)]
      · have same : goesOn (x :: y :: z :: us ++ vs) = goesOn (x :: y :: z :: us) := rfl
        rw [same]
        split <;> rfl
    · simp only [Outline.skip?, ht, if_false]
      rfl

/-- An attribute list that has an attribute, closes its parentheses and has no trailing comma ends
in front of what follows it. -/
theorem AttributesRead.append {first : Bool} {ts : List Token} {r : Reading (List Attribute)}
    (hr : AttributesRead first ts r) (hrest : r.rest = [])
    (closed : ∀ p, ⟨.unterminatedArguments, p⟩ ∉ r.problems)
    (filled : first = true → r.value ≠ []) (last : ∀ c, c.kind = .comma → ¬ [c] <:+ ts) :
    AttributesRead first (ts ++ vs) (r.extend vs) := by
  have left {v : Option Value} {ps : List Diagnostic} {us rest : List Token}
      (hv : Outline.attributeValue us = ⟨v, ps, rest⟩) (t : Token) : rest <:+ t :: us := by
    have behind := (leaves_attributeValue us).suffix
    rw [hv] at behind
    exact behind.trans (List.suffix_cons t us)
  induction hr with
  | runsOut first =>
    cases first with
    | true => exact absurd rfl (filled rfl)
    | false => exact h.attributes false
  | stop => cases hrest
  | @entry first t us v ps rest es qs final ht hv more ih =>
    have value := h.attributeValue hv fun p hp => closed p (List.mem_append_left qs hp)
    have comma := h.skipComma_append (fun c hc hr => last c hc (hr ▸ left hv t))
      (more.ne_newline hrest)
    refine .entry ht value ?_
    rw [comma]
    refine ih hrest (fun p hp => closed p (List.mem_append_right ps hp)) nofun fun c hc hr => ?_
    exact last c hc (hr.trans ((leaves_skipComma rest).suffix.trans (left hv t)))
  | @blank first t us ps rest es qs final ht hv more ih =>
    have value := h.attributeValue hv fun p hp => closed p (List.mem_append_left _ hp)
    have comma := h.skipComma_append (fun c hc hr => last c hc (hr ▸ left hv t))
      (more.ne_newline hrest)
    refine .blank ht value ?_
    rw [comma]
    refine ih hrest (fun p hp => ?_) filled fun c hc hr => ?_
    · exact closed p (List.mem_append_right ps (List.mem_cons_of_mem _ hp))
    · exact last c hc (hr.trans ((leaves_skipComma rest).suffix.trans (left hv t)))

end

/-- The tokens of an item that is complete on its own, and the item: a block that is closed, a list
that has an attribute and no trailing comma, or a string. -/
inductive Piece : List Token → Item → Prop
  | layout {o ts es ps} (ho : o.kind = .openBrace)
      (hr : Outline.layout o.location ts = ⟨es, ps, []⟩)
      (closed : ⟨.unterminatedLayout, o.location⟩ ∉ ps) : Piece (o :: ts) (.layout es)
  | attributes {k c ts es ps} (hk : k.kind = .attr) (hc : c.kind = .colon)
      (hr : Outline.attributes true ts = ⟨es, ps, []⟩) (filled : es ≠ [])
      (closed : ∀ p, ⟨.unterminatedArguments, p⟩ ∉ ps)
      (last : ∀ c, c.kind = .comma → ¬ [c] <:+ ts) : Piece (k :: c :: ts) (.attributes es)
  | content {k c s text} (hk : k.kind = .content) (hc : c.kind = .colon)
      (hs : s.kind = .str text) : Piece [k, c, s] (.content text k.location)

theorem Piece.lineKind {ts : List Token} {x : Item} (h : Piece ts x) (us : List Token) :
    Outline.lineKind (next (ts ++ us)).kind = .metadata := by
  cases h with
  | layout ho =>
    rw [List.cons_append, show (next (_ :: _)).kind = .openBrace from ho]
    rfl
  | attributes hk =>
    rw [List.cons_append, show (next (_ :: _)).kind = .attr from hk]
    rfl
  | content hk =>
    rw [List.cons_append, show (next (_ :: _)).kind = .content from hk]
    rfl

theorem Piece.afterItem {ts : List Token} {x : Item} (h : Piece ts x) (us : List Token) :
    AfterItem (ts ++ us) := by
  have kind := h.lineKind us
  rw [AfterItem]
  cases hk : (next (ts ++ us)).kind <;> simp_all [Outline.lineKind, mayFollow]

/-- A complete item is read the same whatever follows it. -/
theorem Piece.item? {ts : List Token} {x : Item} (h : Piece ts x) {vs : List Token}
    (hv : AfterItem vs) : ∃ ps, Outline.item? (ts ++ vs) = some ⟨[x], ps, vs⟩ := by
  cases h with
  | @layout o ts es ps ho hr closed =>
    have reads := reads_layout o.location ts
    rw [hr] at reads
    have block := layout_eq_of_reads (reads.extend vs fun _ => closed)
    refine ⟨ps, ?_⟩
    rw [List.cons_append, item?_openBrace _ ho, block]
    rfl
  | @attributes k c ts es ps hk hc hr filled closed last =>
    have reads := read_attributes true ts
    rw [hr] at reads
    have extended := AttributesRead.append hv reads rfl closed (fun _ => filled) last
    have list := attributes_eq_of_read extended
    have behind : attributeList k.location (c :: (ts ++ vs)) = ⟨es, ps, vs⟩ := by
      rw [attributeList, skip?, if_pos hc]
      exact list
    refine ⟨ps, ?_⟩
    rw [List.cons_append, List.cons_append, item?_attr _ hk, behind]
  | @content k c s text hk hc hs =>
    have string : Outline.content k.location (c :: s :: vs) = ⟨some text, [], vs⟩ := by
      have found : str? (next (s :: vs)) = some text := str?_eq_some.mpr hs
      rw [Outline.content, skip?, if_pos hc]
      simp only [contentText_eq, found]
      rfl
    refine ⟨[], ?_⟩
    have here := item?_content (c :: s :: vs) hk
    rw [string] at here
    exact here

end Wireframe.Outline
