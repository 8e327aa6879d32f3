import Wireframe.Proofs.Analysis.Precedence
import Wireframe.Proofs.Analysis.Visits

/-!
# Props are canonical

Wherever a prop comes from, its entry is canonical (`allCanonical_props`). So writing down the
entries of a component again, with a tag that says nothing more, gives the component its props again
(`props_canonical`).
-/

namespace Wireframe

namespace Element

open Vocabulary (Canonical)

/-- A table of props of which every entry is canonical. -/
def AllCanonical (props : Table Value) : Prop :=
  ∀ p ∈ props.entries, Canonical p.1 p.2

/-- What holds of the props that a kind and a tag bring and of those that are written holds of all
props of an element. -/
theorem forall_mem_props (P : String → Value → Prop) {e : Element} {kind : Kind}
    (defaults : ∀ p ∈ (Vocabulary.defaults kind).entries, P p.1 p.2)
    (implied : ∀ p ∈ Vocabulary.implied (Text.asciiUpper e.tag), P p.1 p.2)
    (written : ∀ a ∈ e.layout ++ e.attributes,
      Vocabulary.canonicalKey a.key ≠ "id" → Vocabulary.canonicalKey a.key ≠ "" →
        P (Vocabulary.canonicalKey a.key)
          (Vocabulary.canonicalValue (Vocabulary.canonicalKey a.key) a.value))
    (content : ∀ text, P "content" (.text text)) :
    ∀ p ∈ (e.props kind).entries, P p.1 p.2 := by
  rintro ⟨k, v⟩ hp
  cases supplied_of_get? (Table.mem_entries_iff.mp hp) with
  | content text key => exact key ▸ content text
  | entry a listed key ne_id ne_empty =>
    subst key
    exact written a listed ne_id ne_empty
  | tag v said => exact implied (k, v) (Vocabulary.mem_of_lookup said)
  | kind v default => exact defaults (k, v) (Table.mem_entries_iff.mpr default)

/-- Whatever is written for an element, its props are canonical. -/
theorem allCanonical_props (e : Element) (kind : Kind) : AllCanonical (e.props kind) :=
  forall_mem_props Canonical (Vocabulary.canonical_defaults kind) (Vocabulary.canonical_implied _)
    (fun a _ => Vocabulary.canonical_of_written a.key a.value) Vocabulary.canonical_content

/-- A component has every prop that its kind has by default. -/
theorem get?_defaults_of_props {e : Element} {kind : Kind} {k : String}
    (h : (e.props kind).get? k = none) : (Vocabulary.defaults kind).get? k = none := by
  simp only [get?_props, Option.or_eq_none_iff] at h
  exact h.2.2.2

/-- A canonical entry is set as it is. -/
theorem putEntry_of_canonical (props : Table Value) {a : Attribute}
    (h : Canonical a.key a.value) : putEntry props a = props.insert a.key a.value := by
  have kept : ¬(a.key = "id" ∨ a.key = "") := not_or.mpr ⟨h.ne_id, h.ne_empty⟩
  rw [putEntry, h.key_eq, if_neg kept, h.value_eq]

theorem foldl_putEntry_of_canonical (props : Table Value) {attributes : List Attribute}
    (h : ∀ a ∈ attributes, Canonical a.key a.value) :
    attributes.foldl putEntry props =
      props.insertAll (attributes.map fun a => (a.key, a.value)) := by
  induction attributes generalizing props with
  | nil => rfl
  | cons a attributes ih =>
    obtain ⟨here, more⟩ := List.forall_mem_cons.mp h
    rw [List.foldl_cons, putEntry_of_canonical props here, ih _ more]
    rfl

/-- Attributes that list the entries of a table of canonical props set it again, in any table that
has no other keys. -/
theorem foldl_putEntry_entries {props start : Table Value} (h : AllCanonical props)
    {attributes : List Attribute}
    (lists : attributes.map (fun a => (a.key, a.value)) = props.entries)
    (covers : ∀ k, props.get? k = none → start.get? k = none) :
    attributes.foldl putEntry start = props := by
  have canonical : ∀ a ∈ attributes, Canonical a.key a.value := by
    intro a ha
    have listed : (a.key, a.value) ∈ attributes.map fun a => (a.key, a.value) :=
      List.mem_map_of_mem ha
    exact h _ (lists ▸ listed)
  rw [foldl_putEntry_of_canonical start canonical, lists, Table.insertAll_entries covers]

/-- An element that lists a table of props and says nothing more. -/
structure Restates (e : Element) (props : Table Value) : Prop where
  lists : (e.layout ++ e.attributes).map (fun a => (a.key, a.value)) = props.entries
  shows : e.shown? = none
  implies : ∀ p ∈ Vocabulary.implied (Text.asciiUpper e.tag), props.get? p.1 ≠ none

/-- The props of any kind can be listed for that kind. -/
theorem exists_restates (kind : Kind) (props : Table Value) :
    ∃ e : Element, Vocabulary.kindOf? e.tag = some kind ∧ e.Restates props := by
  obtain ⟨tag, names, plain⟩ := Vocabulary.exists_plain_tag kind
  refine ⟨⟨tag, .none, [], props.entries.map fun p => ⟨p.1, p.2, .nowhere⟩, none, .nowhere⟩, names,
    ?_, rfl, ?_⟩
  · rw [List.nil_append, List.map_map]
    exact List.map_id _
  · rw [plain]
    exact List.forall_mem_nil _

theorem props_of_restates {e again : Element} {kind : Kind} (h : again.Restates (e.props kind)) :
    again.props kind = e.props kind := by
  have again_props : again.props kind = (again.layout ++ again.attributes).foldl putEntry
      ((Vocabulary.defaults kind).insertAll (Vocabulary.implied (Text.asciiUpper again.tag))) := by
    rw [props, h.shows]
  rw [again_props]
  refine foldl_putEntry_entries (allCanonical_props e kind) h.lists fun k hk => ?_
  refine (Table.get?_insertAll_eq_none_iff _ _ k).mpr ⟨get?_defaults_of_props hk, ?_⟩
  rintro p hp rfl
  exact h.implies p hp hk

end Element

namespace Analysis

open Element (putEntry Restates)

/-- A component has the props of an element of its outline. -/
theorem exists_mem_outline {o : Outline} {options : Options} {d : Document}
    (h : (document? o options).1 = some d) {t : Tree Component} (ht : t ∈ d.nodes) :
    ∃ s ∈ Tree.preorderAll o, t.value.props = s.value.props t.value.kind := by
  obtain ⟨s, hs, kind, props⟩ := exists_survivor h ht
  have visited : (visitsAll options.strict none o).filterMap (survivor? options.strict) = _ :=
    filterMap_visitsAll options.strict none o
  have survives : s.value ∈ (visitsAll options.strict none o).filterMap
      (survivor? options.strict) := visited ▸ List.mem_map_of_mem hs
  obtain ⟨x, hx, kept⟩ := List.mem_filterMap.mp survives
  have element : x.1 = s.value.2 := by
    obtain ⟨k, -, hk⟩ := Option.bind_eq_some_iff.mp kept
    obtain ⟨-, hk⟩ := Option.ite_none_left_eq_some.mp hk
    exact congrArg Prod.snd (Option.some.inj hk)
  have met := (map_fst_visitsAll_sublist options.strict none o).subset
    (List.mem_map_of_mem (f := Prod.fst) hx)
  obtain ⟨u, hu, he⟩ := List.mem_map.mp met
  exact ⟨u, hu, by rw [he, element, ← props, kind]⟩

/-- The props of a component are those of an element. -/
theorem exists_element {o : Outline} {options : Options} {d : Document}
    (h : (document? o options).1 = some d) {t : Tree Component} (ht : t ∈ d.nodes) :
    ∃ e : Element, t.value.props = e.props t.value.kind := by
  obtain ⟨s, -, props⟩ := exists_mem_outline h ht
  exact ⟨s.value, props⟩

/-- Every entry of every component is canonical, so listing the entries sets the same props again:
from nothing, and for every element of this kind that lists them and says nothing more. -/
theorem props_canonical {o : Outline} {options : Options} {d : Document}
    (h : (document? o options).1 = some d) {t : Tree Component} (ht : t ∈ d.nodes) :
    (∀ p ∈ t.value.props.entries, Vocabulary.Canonical p.1 p.2) ∧
      (∀ attributes : List Attribute,
        attributes.map (fun a => (a.key, a.value)) = t.value.props.entries →
          attributes.foldl putEntry .empty = t.value.props) ∧
      (∃ e : Element, Vocabulary.kindOf? e.tag = some t.value.kind ∧ e.Restates t.value.props) ∧
      ∀ e : Element, e.Restates t.value.props → e.props t.value.kind = t.value.props := by
  obtain ⟨e, he⟩ := exists_element h ht
  have canonical := e.allCanonical_props t.value.kind
  rw [he]
  exact ⟨canonical,
    fun attributes lists =>
      Element.foldl_putEntry_entries canonical lists fun k _ => Table.get?_empty k,
    Element.exists_restates _ _, fun again restates => Element.props_of_restates restates⟩

/-- An outline with other spellings of a tag, of keys and of values, and with entries that set no
prop. -/
def misspelt : Outline :=
  [.node ⟨"btn", .literal "Go",
    [⟨"Variant", .text " Danger ", .nowhere⟩, ⟨"ID", .text "go", .nowhere⟩],
    [⟨"DISABLED", .text "yes", .nowhere⟩, ⟨"", .bool true, .nowhere⟩,
      ⟨"Multiline", .text "yes", .nowhere⟩],
    none, .nowhere⟩ []]

theorem props_canonical_misspelt :
    ∃ d, (document? misspelt {}).1 = some d ∧
      d.nodes.map (fun t => t.value.props.entries) =
        [[("Multiline", .text "yes"), ("content", .text "Go"), ("disabled", .bool true),
          ("size", .text "md"), ("variant", .text "destructive")]] ∧
      ∀ t ∈ d.nodes, (∀ p ∈ t.value.props.entries, Vocabulary.Canonical p.1 p.2) ∧
        ∀ e : Element, e.Restates t.value.props → e.props t.value.kind = t.value.props := by
  have entries : ((document? misspelt {}).1.map fun d =>
      d.nodes.map fun t => t.value.props.entries) =
        some [[("Multiline", .text "yes"), ("content", .text "Go"), ("disabled", .bool true),
          ("size", .text "md"), ("variant", .text "destructive")]] := by
    decide +kernel
  obtain ⟨d, hd, listed⟩ := Option.map_eq_some_iff.mp entries
  refine ⟨d, hd, listed, fun t ht => ?_⟩
  obtain ⟨canonical, -, -, restated⟩ := props_canonical hd ht
  exact ⟨canonical, restated⟩

end Analysis

end Wireframe
