import Wireframe.Proofs.Forest
import Wireframe.Proofs.Outline.Run

/-!
# Where outlines come from

Every element stands where one of its tokens stands, and so does every entry, whose value is written
by tokens too. So what is known of all tokens is known of whatever an outline is made of
(`from_ofTokens`).
-/

namespace Wireframe

open Outline

/-- Whether a token of which `K` holds stands at a place. -/
def Token.At (K : Token → Prop) (p : Location) : Prop :=
  ∃ t, K t ∧ t.location = p

/-- The values that tokens of which `K` holds write: by themselves, as arguments of a call, or by
being absent. -/
inductive Value.From (K : Token → Prop) : Value → Prop
  | run {ts v} (h : ∀ t ∈ ts, K t) (hv : valueOf? ts = some v) : Value.From K v
  | call {ts v} (h : ∀ t ∈ ts, K t) (hv : callValue? ts = some v) : Value.From K v
  | absent : Value.From K (.bool true)

/-- Whether an entry comes from tokens of which `K` holds. -/
structure Attribute.From (K : Token → Prop) (a : Attribute) : Prop where
  location : Token.At K a.location
  value : a.value.From K

/-- Whether an element and its entries come from tokens of which `K` holds. -/
structure Element.From (K : Token → Prop) (e : Element) : Prop where
  location : Token.At K e.location
  layout : ∀ a ∈ e.layout, a.From K
  attributes : ∀ a ∈ e.attributes, a.From K

namespace Outline

variable {K : Token → Prop}

/-- Whether all elements of an outline come from tokens of which `K` holds. -/
def From (K : Token → Prop) (o : Outline) : Prop :=
  ∀ t ∈ Tree.preorderAll o, t.value.From K

theorem from_append {o p : Outline} : From K (o ++ p) ↔ From K o ∧ From K p := by
  simp [From, or_imp, forall_and]

theorem from_singleton {e : Element} {ts : Outline} :
    From K [.node e ts] ↔ e.From K ∧ From K ts := by
  simp [From, Tree.preorderAll, Tree.preorder]

theorem from_reverse {o : Outline} : From K o.reverse ↔ From K o := by
  induction o with
  | nil => rfl
  | cons t o ih =>
    rw [List.reverse_cons, from_append, ih, and_comm, ← from_append]
    rfl

/-- Whether what an item adds comes from tokens of which `K` holds. -/
def Item.From (K : Token → Prop) : Item → Prop
  | .layout entries | .attributes entries => ∀ a ∈ entries, a.From K
  | .content _ location => Token.At K location

theorem forall_mem_of_suffix {ts us : List Token} (h : ∀ t ∈ ts, K t) (hu : us <:+ ts) :
    ∀ t ∈ us, K t :=
  fun t ht => h t (hu.subset ht)

section Readers

variable {start : Location} {ts : List Token} (h : ∀ t ∈ ts, K t)

include h

theorem forall_mem_takeWhile (p : Token → Bool) : ∀ t ∈ ts.takeWhile p, K t :=
  fun t ht => h t ((List.takeWhile_prefix p).subset ht)

theorem from_layout {r : Reading (List Attribute)} (hr : LayoutReads start ts r) :
    ∀ a ∈ r.value, a.From K := by
  have behind {ts us vs : List Token} {t : Token} (ht : skipBreaks ts = t :: us) (hv : vs <:+ us)
      (h : ∀ t ∈ ts, K t) : ∀ t ∈ vs, K t :=
    forall_mem_of_suffix h (hv.trans ((List.suffix_cons t us).trans (leaves_of_skipBreaks ht).suffix))
  induction hr with
  | runsOut | close | stop => exact List.forall_mem_nil _
  | separator ht _ _ ih | other ht _ _ ih => exact ih (behind ht List.suffix_rfl h)
  | gap ht _ _ _ ih => exact ih (behind ht (List.dropWhile_suffix _) h)
  | blank ht _ hc _ _ ih =>
    exact ih (behind ht ((List.dropWhile_suffix _).trans (skip?_suffix hc)) h)
  | @entry ts t us vs v _ _ _ ht _ hc hv _ ih =>
    have key : t ∈ ts := (leaves_of_skipBreaks ht).suffix.subset List.mem_cons_self
    have colon : ∀ t ∈ vs, K t := behind ht (skip?_suffix hc) h
    have here : Attribute.From K ⟨t.valueText, v, t.location⟩ :=
      ⟨⟨t, h t key, rfl⟩, .run (forall_mem_takeWhile colon _) hv⟩
    exact List.forall_mem_cons.mpr ⟨here, ih (forall_mem_of_suffix colon (List.dropWhile_suffix _))⟩

theorem forall_mem_arguments {r : Reading (List Token)} (hr : ArgumentsRead start ts r) :
    ∀ t ∈ r.value, K t := by
  induction hr with
  | runsOut | close | stop => exact List.forall_mem_nil _
  | other ht _ _ ih =>
    have front := forall_mem_of_suffix h (leaves_of_skipBreaks ht).suffix
    obtain ⟨here, behind⟩ := List.forall_mem_cons.mp front
    exact List.forall_mem_cons.mpr ⟨here, ih behind⟩

theorem from_attributeValue {v : Value} (hv : (attributeValue ts).value = some v) : v.From K := by
  unfold attributeValue at hv
  split at hv
  next us hu =>
    have inside := forall_mem_of_suffix h (skip?_suffix hu)
    exact .call (forall_mem_arguments inside (read_arguments _ us)) hv
  next =>
    split at hv
    next us hu =>
      have behind := forall_mem_of_suffix h (skip?_suffix hu)
      exact .run (forall_mem_takeWhile behind _) hv
    next =>
      obtain rfl : Value.bool true = v := Option.some.inj hv
      exact .absent

theorem from_attributes {first : Bool} {r : Reading (List Attribute)}
    (hr : AttributesRead first ts r) : ∀ a ∈ r.value, a.From K := by
  have behind {t : Token} {ts rest : List Token} {v : Option Value} {ps : List Diagnostic}
      (hv : attributeValue ts = ⟨v, ps, rest⟩) (h : ∀ u ∈ t :: ts, K u) :
      ∀ u ∈ skipComma rest, K u := by
    have value := (leaves_attributeValue ts).trans (leaves_skipComma _)
    rw [hv] at value
    exact forall_mem_of_suffix h (value.suffix.trans (List.suffix_cons t ts))
  induction hr with
  | runsOut | stop => exact List.forall_mem_nil _
  | @entry _ t us v _ _ _ _ _ _ hv _ ih =>
    obtain ⟨key, more⟩ := List.forall_mem_cons.mp h
    have here : Attribute.From K ⟨t.valueText, v, t.location⟩ :=
      ⟨⟨t, key, rfl⟩, from_attributeValue more (by rw [hv])⟩
    exact List.forall_mem_cons.mpr ⟨here, ih (behind hv h)⟩
  | blank _ hv _ ih => exact ih (behind hv h)

theorem from_attributeList : ∀ a ∈ (attributeList start ts).value, a.From K := by
  unfold attributeList
  split
  next us hc =>
    have behind := forall_mem_of_suffix h (skip?_suffix hc)
    exact from_attributes behind (read_attributes true us)
  next =>
    have list := from_attributes h (read_attributes true ts)
    exact list

theorem from_item? {r : Reading (List Item)} (hr : item? ts = some r) :
    ∀ x ∈ r.value, x.From K := by
  cases ts with
  | nil => cases hr
  | cons t us =>
    obtain ⟨here, behind⟩ := List.forall_mem_cons.mp h
    cases hk : t.kind <;> simp only [item?, hk, Option.some.injEq, reduceCtorEq] at hr <;> subst hr
    case openBrace =>
      exact List.forall_mem_singleton.mpr (from_layout behind (reads_layout t.location us))
    case attr => exact List.forall_mem_singleton.mpr (from_attributeList behind)
    case content =>
      cases (content t.location us).value with
      | none => exact List.forall_mem_nil _
      | some text => exact List.forall_mem_singleton.mpr ⟨t, here, rfl⟩

theorem from_items {r : Reading (List Item)} (hr : ItemsRead ts r) :
    ∀ x ∈ r.value, x.From K := by
  induction hr with
  | stop => exact List.forall_mem_nil _
  | item hi _ ih =>
    refine List.forall_mem_append.mpr ⟨from_item? h hi, ih ?_⟩
    exact forall_mem_of_suffix h (leaves_of_item? hi).suffix

end Readers

section Builders

theorem from_addItems {e : Element} {items : List Item} (he : e.From K)
    (hi : ∀ x ∈ items, x.From K) : (Builder.addItems e items).From K := by
  fun_induction Builder.addItems e items with
  | case1 => exact he
  | case2 e entries items ih =>
    obtain ⟨here, more⟩ := List.forall_mem_cons.mp hi
    exact ih ⟨he.location, List.forall_mem_append.mpr ⟨he.layout, here⟩, he.attributes⟩ more
  | case3 e entries items ih =>
    obtain ⟨here, more⟩ := List.forall_mem_cons.mp hi
    exact ih ⟨he.location, he.layout, List.forall_mem_append.mpr ⟨he.attributes, here⟩⟩ more
  | case4 e text p items ih =>
    exact ih ⟨he.location, he.layout, he.attributes⟩ (List.forall_mem_cons.mp hi).2

/-- Whether an outline in the making comes from tokens of which `K` holds. -/
structure BuilderFrom (K : Token → Prop) (b : Builder) : Prop where
  frames : ∀ f ∈ b.frames, f.element.From K ∧ From K f.children
  roots : From K b.roots

theorem from_cons_tree {f : Frame} {o : Outline} (hf : f.element.From K ∧ From K f.children)
    (ho : From K o) : From K (f.tree :: o) := by
  rw [← List.singleton_append, from_append]
  exact ⟨from_singleton.mpr ⟨hf.1, from_reverse.mpr hf.2⟩, ho⟩

theorem from_collapse {p : Frame → Bool} {fs : List Frame} {roots : Outline}
    (h : BuilderFrom K ⟨fs, roots⟩) : BuilderFrom K (Builder.collapse p fs roots) := by
  fun_induction Builder.collapse p fs roots with
  | case1 | case3 | case5 => exact h
  | case2 f roots _ =>
    exact ⟨List.forall_mem_nil _, from_cons_tree (h.frames f (by simp)) h.roots⟩
  | case4 f g fs roots _ ih =>
    obtain ⟨hf, hg, hfs⟩ : _ ∧ _ ∧ ∀ f' ∈ fs, _ := by simpa using h.frames
    have parent := from_cons_tree hf hg.2
    exact ih ⟨List.forall_mem_cons.mpr ⟨⟨hg.1, parent⟩, hfs⟩, h.roots⟩

theorem from_itemsLine {b : Builder} {ts : List Token} (h : ∀ t ∈ ts, K t)
    (hb : BuilderFrom K b) : BuilderFrom K (itemsLine b ts).value := by
  show BuilderFrom K (b.attach (items ts).value)
  have added := from_items h (read_items ts)
  unfold Builder.attach
  split
  · exact hb
  next f fs hf =>
    obtain ⟨here, more⟩ := List.forall_mem_cons.mp (hf ▸ hb.frames)
    have element := from_addItems here.1 added
    exact ⟨List.forall_mem_cons.mpr ⟨⟨element, here.2⟩, more⟩, hb.roots⟩

theorem from_tag {start : Location} (ts : List Token) (h : Token.At K start) :
    (tag start ts).value.From K := by
  unfold tag
  dsimp only
  split <;> exact ⟨h, List.forall_mem_nil _, List.forall_mem_nil _⟩

theorem from_openTag {b : Builder} (width : Nat) {e : Element} (he : e.From K)
    (hb : BuilderFrom K b) : BuilderFrom K (b.openTag width e) := by
  obtain ⟨frames, roots⟩ : BuilderFrom K (Builder.collapse _ b.frames b.roots) :=
    from_collapse hb
  exact ⟨List.forall_mem_cons.mpr ⟨⟨he, List.forall_mem_nil _⟩, frames⟩, roots⟩

theorem from_line {b : Builder} (width : Nat) {ts : List Token} (h : ∀ t ∈ ts, K t)
    (hb : BuilderFrom K b) : BuilderFrom K (line b width ts).value := by
  rw [line_eq]
  cases hk : lineKind (next ts).kind with
  | tag =>
    cases ts with
    | nil => cases hk
    | cons t us =>
      have opened := from_openTag width (from_tag us ⟨t, h t List.mem_cons_self, rfl⟩) hb
      exact from_itemsLine (forall_mem_of_suffix h ((leaves_tag _ us).suffix.trans (List.suffix_cons t us)))
        opened
  | metadata =>
    simp only
    split
    · exact from_itemsLine h (from_collapse hb)
    · exact hb
  | empty => exact hb
  | stray => exact hb

theorem from_run {b b' : Builder} {ts us : List Token} {ps : List Diagnostic}
    (hr : Run line b ts ps b' us) (h : ∀ t ∈ ts, K t) (hb : BuilderFrom K b) :
    BuilderFrom K b' := by
  induction hr with
  | refl => exact hb
  | @newline b t ts _ _ _ _ _ ih => exact ih (forall_mem_of_suffix h (List.suffix_cons t ts)) hb
  | @line b t ts _ _ _ width _ _ ih =>
    have behind := forall_mem_of_suffix h (List.suffix_cons t ts)
    exact ih (forall_mem_of_suffix behind (leaves_line b width ts).suffix) (from_line width behind hb)

theorem from_finish {b : Builder} (hb : BuilderFrom K b) : From K b.finish :=
  from_reverse.mpr (from_collapse hb).roots

/-- An outline is made of what is known of all tokens that it is read from. -/
theorem from_ofTokens {ts : List Token} (hl : Lined ts) (ha : AtLineEnd ts)
    (h : ∀ t ∈ ts, K t) : From K (ofTokens ts).1 := by
  obtain ⟨ps, b, us, run, left, done⟩ := exists_run .empty hl ha
  rw [ofTokens_of_run run done]
  exact from_finish (from_run run h ⟨List.forall_mem_nil _, List.forall_mem_nil _⟩)

end Builders

end Outline

end Wireframe
