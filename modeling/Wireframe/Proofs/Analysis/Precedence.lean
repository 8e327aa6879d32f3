import Wireframe.Proofs.Analysis.Pruning
import Wireframe.Proofs.Table
import Wireframe.Proofs.Vocabulary

/-!
# Where a prop comes from

A prop may come from the content of an element, from its entries, from its tag or from its kind. The
first of these that has something to say for a key is the only one that counts, and of the entries
it is the last one (`get?_props`). So nothing that is written gets lost but the id and what has no
key, and nothing is there that was not said (`isSome_props_iff`).
-/

namespace Wireframe

namespace Element

/-- The text that is written in the bracket of an element. -/
def literal? (e : Element) : Option String :=
  match e.payload with
  | .literal text => some text
  | _ => none

theorem shown?_eq (e : Element) : e.shown? = e.content.or e.literal? := by
  obtain ⟨tag, payload, layout, attributes, content, location⟩ := e
  cases content with
  | some text => rfl
  | none => cases payload <;> rfl

/-- What the content of an element says for a key. -/
def shownAs? (e : Element) (k : String) : Option Value :=
  if k = "content" then (e.content.or e.literal?).map .text else none

theorem shownAs?_eq_some_iff {e : Element} {k : String} {v : Value} :
    e.shownAs? k = some v ↔
      k = "content" ∧ ∃ text, e.content.or e.literal? = some text ∧ .text text = v := by
  rw [shownAs?]
  by_cases content : k = "content"
  · rw [if_pos content, Option.map_eq_some_iff, and_iff_right content]
  · simp [content]

/-- What entries say for a key: the value that the last one stands for whose key is a spelling of
it. The id is no prop, and neither is what has no key. -/
def written? (entries : List Attribute) (k : String) : Option Value :=
  if k = "id" ∨ k = "" then none
  else (entries.filter fun a => Vocabulary.canonicalKey a.key = k).getLast?.map fun a =>
    Vocabulary.canonicalValue k a.value

theorem written?_cons (a : Attribute) (as : List Attribute) (k : String) :
    written? (a :: as) k = (written? as k).or (written? [a] k) := by
  unfold written?
  by_cases reserved : k = "id" ∨ k = ""
  · simp only [if_pos reserved, Option.none_or]
  · simp only [if_neg reserved]
    by_cases spelled : Vocabulary.canonicalKey a.key = k
    · rw [List.filter_cons_of_pos (by simpa using spelled), List.getLast?_cons]
      cases (as.filter fun a => Vocabulary.canonicalKey a.key = k).getLast? <;> simp [spelled]
    · rw [List.filter_cons_of_neg (by simpa using spelled)]
      simp [spelled]

/-- Of entries that follow each other the later ones go before the earlier ones. -/
theorem written?_append (as bs : List Attribute) (k : String) :
    written? (as ++ bs) k = (written? bs k).or (written? as k) := by
  induction as with
  | nil =>
    have nothing : written? [] k = none := ite_self _
    rw [List.nil_append, nothing, Option.or_none]
  | cons a as ih => rw [List.cons_append, written?_cons, ih, Option.or_assoc, ← written?_cons a as]

theorem exists_entry_of_written? {entries : List Attribute} {k : String} {v : Value}
    (h : written? entries k = some v) :
    ∃ a ∈ entries, Vocabulary.canonicalKey a.key = k ∧ k ≠ "id" ∧ k ≠ "" ∧
      Vocabulary.canonicalValue k a.value = v := by
  obtain ⟨kept, said⟩ := Option.ite_none_left_eq_some.mp h
  obtain ⟨ne_id, ne_empty⟩ := not_or.mp kept
  obtain ⟨a, last, value⟩ := Option.map_eq_some_iff.mp said
  obtain ⟨listed, spelled⟩ := List.mem_filter.mp (List.mem_of_getLast? last)
  exact ⟨a, listed, of_decide_eq_true spelled, ne_id, ne_empty, value⟩

theorem isSome_written? {entries : List Attribute} {a : Attribute} {k : String} (ha : a ∈ entries)
    (spelled : Vocabulary.canonicalKey a.key = k) (ne_id : k ≠ "id") (ne_empty : k ≠ "") :
    (written? entries k).isSome := by
  rw [written?, if_neg (not_or.mpr ⟨ne_id, ne_empty⟩), Option.isSome_map, List.getLast?_isSome]
  exact List.ne_nil_of_mem (List.mem_filter.mpr ⟨ha, decide_eq_true spelled⟩)

theorem get?_putEntry (props : Table Value) (a : Attribute) (k : String) :
    (putEntry props a).get? k = (written? [a] k).or (props.get? k) := by
  rw [putEntry, written?]
  by_cases spelled : Vocabulary.canonicalKey a.key = k
  · rw [spelled]
    by_cases reserved : k = "id" ∨ k = ""
    · rw [if_pos reserved, if_pos reserved, Option.none_or]
    · simp [if_neg reserved, spelled]
  · have other : [a].filter (fun a => Vocabulary.canonicalKey a.key = k) = [] := by simp [spelled]
    rw [other, List.getLast?_nil, Option.map_none, ite_self, Option.none_or]
    split
    · rfl
    · exact Table.get?_insert_of_ne _ _ (Ne.symm spelled)

/-- Entries that are set in turn go before what was there. -/
theorem get?_foldl_putEntry (props : Table Value) (entries : List Attribute) (k : String) :
    (entries.foldl putEntry props).get? k = (written? entries k).or (props.get? k) := by
  induction entries generalizing props with
  | nil =>
    have nothing : written? [] k = none := ite_self _
    rw [nothing, Option.none_or]
    rfl
  | cons a as ih => rw [List.foldl_cons, ih, get?_putEntry, written?_cons a as, Option.or_assoc]

theorem sorted_implied (tag : String) :
    (Vocabulary.implied tag).Pairwise fun a b => a.1 < b.1 := by
  unfold Vocabulary.implied
  split <;> simp

/-- The content goes before the entries, these before the tag, and the tag before the kind. -/
theorem get?_props (e : Element) (kind : Kind) (k : String) :
    (e.props kind).get? k =
      (e.shownAs? k).or ((written? (e.layout ++ e.attributes) k).or
        (((Vocabulary.implied (Text.asciiUpper e.tag)).lookup k).or
          ((Vocabulary.defaults kind).get? k))) := by
  rw [← Table.get?_insertAll _ (sorted_implied _), ← get?_foldl_putEntry, shownAs?, ← shown?_eq,
    props]
  cases e.shown? with
  | none => rw [Option.map_none, ite_self, Option.none_or]
  | some text =>
    rw [Table.get?_insert]
    by_cases content : k = "content"
    · rw [if_pos content, if_pos content]
      rfl
    · rw [if_neg content, if_neg content, Option.none_or]

/-- A value that a source has for a key: the content, an entry, the tag or the kind. -/
inductive Supplied (e : Element) (kind : Kind) (k : String) : Value → Prop where
  | content (text : String) (key : k = "content") (shown : e.content.or e.literal? = some text) :
    Supplied e kind k (.text text)
  | entry (a : Attribute) (listed : a ∈ e.layout ++ e.attributes)
      (key : Vocabulary.canonicalKey a.key = k) (ne_id : k ≠ "id") (ne_empty : k ≠ "") :
    Supplied e kind k (Vocabulary.canonicalValue k a.value)
  | tag (v : Value) (implied : (Vocabulary.implied (Text.asciiUpper e.tag)).lookup k = some v) :
    Supplied e kind k v
  | kind (v : Value) (default : (Vocabulary.defaults kind).get? k = some v) : Supplied e kind k v

theorem supplied_of_get? {e : Element} {kind : Kind} {k : String} {v : Value}
    (h : (e.props kind).get? k = some v) : e.Supplied kind k v := by
  simp only [get?_props, Option.or_eq_some_iff] at h
  obtain content | ⟨-, said | ⟨-, implied | ⟨-, default⟩⟩⟩ := h
  · obtain ⟨key, text, shown, rfl⟩ := shownAs?_eq_some_iff.mp content
    exact .content text key shown
  · obtain ⟨a, listed, key, ne_id, ne_empty, rfl⟩ := exists_entry_of_written? said
    exact .entry a listed key ne_id ne_empty
  · exact .tag v implied
  · exact .kind v default

theorem Supplied.isSome_get? {e : Element} {kind : Kind} {k : String} {v : Value}
    (h : e.Supplied kind k v) : ((e.props kind).get? k).isSome := by
  simp only [get?_props, Option.isSome_or, Bool.or_eq_true]
  cases h with
  | content text key shown =>
    exact .inl (Option.isSome_of_eq_some (shownAs?_eq_some_iff.mpr ⟨key, text, shown, rfl⟩))
  | entry a listed key ne_id ne_empty =>
    exact .inr (.inl (isSome_written? listed key ne_id ne_empty))
  | tag v implied => exact .inr (.inr (.inl (Option.isSome_of_eq_some implied)))
  | kind v default => exact .inr (.inr (.inr (Option.isSome_of_eq_some default)))

/-- An element has a prop just when a source has a value for it. -/
theorem isSome_props_iff (e : Element) (kind : Kind) (k : String) :
    ((e.props kind).get? k).isSome ↔ ∃ v, e.Supplied kind k v := by
  constructor
  · intro there
    obtain ⟨v, hv⟩ := Option.isSome_iff_exists.mp there
    exact ⟨v, supplied_of_get? hv⟩
  · rintro ⟨v, supplied⟩
    exact supplied.isSome_get?

theorem get?_id_props (e : Element) (kind : Kind) : (e.props kind).get? "id" = none := by
  refine Option.eq_none_iff_forall_ne_some.mpr fun v there => ?_
  cases supplied_of_get? there with
  | content text key => exact absurd key (by decide)
  | entry a listed key ne_id => exact ne_id rfl
  | tag v implied =>
    exact (Vocabulary.canonical_implied _ _ (Vocabulary.mem_of_lookup implied)).ne_id rfl
  | kind v default =>
    exact (Vocabulary.canonical_defaults kind _ (Table.mem_entries_iff.mpr default)).ne_id rfl

end Element

namespace Analysis

open Element (written?)

section

variable {o : Outline} {options : Options} {d : Document}

theorem map_props_nodes (h : (document? o options).1 = some d) :
    d.nodes.map (fun t => (t.value.kind, t.value.props)) =
      (Tree.preorderAll (survivors options.strict o)).map
        (fun t => (t.value.1, t.value.2.props t.value.1)) := by
  have nodes := map_value_nodes o options
  rwa [h, Option.elim_some] at nodes

theorem exists_survivor (h : (document? o options).1 = some d) {t : Tree Component}
    (ht : t ∈ d.nodes) :
    ∃ s ∈ Tree.preorderAll (survivors options.strict o),
      s.value.1 = t.value.kind ∧ s.value.2.props s.value.1 = t.value.props := by
  have listed : (t.value.kind, t.value.props) ∈
      d.nodes.map fun t => (t.value.kind, t.value.props) := List.mem_map_of_mem ht
  rw [map_props_nodes h] at listed
  obtain ⟨s, hs, values⟩ := List.mem_map.mp listed
  exact ⟨s, hs, Prod.mk.inj values⟩

end

/-- The components of a document have the props of the elements that become components, and none of
them has its id as a prop. At a key an element has its content, if the key is that of the content
and there is some, else the value of the last entry for the key, else what its tag says, else what
its kind has by default; so it has a prop just when one of these supplies it. -/
theorem props_precedence (o : Outline) (options : Options) :
    (∀ d, (document? o options).1 = some d →
      d.nodes.map (fun t => (t.value.kind, t.value.props)) =
        (Tree.preorderAll (survivors options.strict o)).map
          (fun t => (t.value.1, t.value.2.props t.value.1)) ∧
      ∀ t ∈ d.nodes, t.value.props.get? "id" = none) ∧
    ∀ (e : Element) (kind : Kind) (k : String),
      (e.props kind).get? k =
        (e.shownAs? k).or ((written? (e.layout ++ e.attributes) k).or
          (((Vocabulary.implied (Text.asciiUpper e.tag)).lookup k).or
            ((Vocabulary.defaults kind).get? k))) ∧
      (((e.props kind).get? k).isSome ↔ ∃ v, e.Supplied kind k v) := by
  refine ⟨fun d hd => ⟨map_props_nodes hd, fun t ht => ?_⟩,
    fun e kind k => ⟨e.get?_props kind k, e.isSome_props_iff kind k⟩⟩
  obtain ⟨s, -, -, props⟩ := exists_survivor hd ht
  rw [← props]
  exact s.value.2.get?_id_props s.value.1

/-- An outline that writes one prop under several spellings, its content twice, and its id. -/
def respelt : Outline :=
  [.node ⟨"H1", .literal "Hi",
    [⟨"class", .text "a", .nowhere⟩, ⟨"Text", .text "Ho", .nowhere⟩],
    [⟨"Classes", .text "b", .nowhere⟩, ⟨"ID", .text "top", .nowhere⟩], none, .nowhere⟩ []]

theorem props_precedence_respelt :
    ∃ d, (document? respelt {}).1 = some d ∧
      d.nodes.map (fun t => t.value.props.entries) =
        [[("className", .text "b"), ("content", .text "Hi"), ("level", .number 1)]] ∧
      ∀ t ∈ d.nodes, t.value.props.get? "id" = none := by
  have entries : ((document? respelt {}).1.map fun d =>
      d.nodes.map fun t => t.value.props.entries) =
        some [[("className", .text "b"), ("content", .text "Hi"), ("level", .number 1)]] := by
    decide +kernel
  obtain ⟨d, hd, listed⟩ := Option.map_eq_some_iff.mp entries
  exact ⟨d, hd, listed, ((props_precedence respelt {}).1 d hd).2⟩

end Analysis

end Wireframe
