import Wireframe.Proofs.Analysis.Alike
import Wireframe.Proofs.Analysis.WrittenId

/-!
# The case of letters does not matter

Tags are looked up in letters of any case, for their kinds as for what they imply, and so are the
keys that the vocabulary lists, for the props as for the id. So an outline whose tags and listed keys
are written in letters of other case becomes the same document, and the same is said about it, but
that a tag that names no kind is told as it is written (`document?_recased`).
-/

namespace Wireframe

open Text (SameLetters)

namespace Vocabulary

/-- Whether a key is one that the vocabulary lists, in letters of any case. -/
def Listed (key : String) : Prop :=
  ∃ p ∈ keys, SameLetters key p.1

instance (key : String) : Decidable (Listed key) :=
  inferInstanceAs (Decidable (∃ p ∈ keys, SameLetters key p.1))

theorem kindOf?_of_sameLetters {s t : String} (h : SameLetters s t) : kindOf? t = kindOf? s := by
  rw [kindOf?, kindOf?, h.asciiUpper_eq]

theorem isSome_lookup_of_mem_keys : ∀ p ∈ keys, (keys.lookup (Text.asciiLower p.1)).isSome := by
  decide +kernel

/-- Listed keys with the same letters stand for the same key. -/
theorem Listed.canonicalKey_eq {key key' : String} (listed : Listed key)
    (h : SameLetters key key') : canonicalKey key' = canonicalKey key := by
  obtain ⟨p, hp, spelled⟩ := listed
  have found := isSome_lookup_of_mem_keys p hp
  rw [← spelled] at found
  obtain ⟨k, hk⟩ := Option.isSome_iff_exists.mp found
  rw [canonicalKey, canonicalKey, ← h, hk, Option.getD_some, Option.getD_some]

end Vocabulary

/-- An entry with its key in letters of other case, where the vocabulary lists it. -/
structure Attribute.Recased (a b : Attribute) : Prop where
  key : b.key = a.key ∨ Vocabulary.Listed a.key ∧ SameLetters a.key b.key
  value : b.value = a.value
  location : b.location = a.location

namespace Attribute.Recased

variable {a b : Attribute}

theorem canonicalKey_eq (h : Recased a b) :
    Vocabulary.canonicalKey b.key = Vocabulary.canonicalKey a.key := by
  rcases h.key with same | ⟨listed, letters⟩
  · rw [same]
  · exact listed.canonicalKey_eq letters

theorem sameLetters (h : Recased a b) : SameLetters a.key b.key := by
  rcases h.key with same | ⟨-, letters⟩
  · rw [same]
    exact .refl _
  · exact letters

theorem sameLetters_iff (h : Recased a b) (s : String) :
    SameLetters b.key s ↔ SameLetters a.key s :=
  Eq.congr h.sameLetters.symm rfl

end Attribute.Recased

namespace Element

open Vocabulary (canonicalKey)

/-- An element with its tag and its listed keys in letters of other case. -/
structure Recased (e f : Element) : Prop where
  tag : SameLetters e.tag f.tag
  payload : f.payload = e.payload
  layout : List.Forall₂ Attribute.Recased e.layout f.layout
  attributes : List.Forall₂ Attribute.Recased e.attributes f.attributes
  content : f.content = e.content
  location : f.location = e.location

section

variable {as bs : List Attribute} (h : List.Forall₂ Attribute.Recased as bs)

include h

theorem foldl_putEntry_recased (props : Table Value) :
    bs.foldl putEntry props = as.foldl putEntry props := by
  induction h generalizing props with
  | nil => rfl
  | @cons a b as bs here _ ih =>
    have same : putEntry props b = putEntry props a := by
      rw [putEntry, putEntry, here.canonicalKey_eq, here.value]
    rw [List.foldl_cons, List.foldl_cons, same, ih]

/-- What is asked of the entries that are asked for their keys. -/
theorem map_filter_recased {β : Type} {p : Attribute → Bool} {g : Attribute → β}
    (hp : ∀ {a b}, a.Recased b → p b = p a) (hg : ∀ {a b}, a.Recased b → g b = g a) :
    (bs.filter p).map g = (as.filter p).map g := by
  induction h with
  | nil => rfl
  | @cons a b as bs here _ ih =>
    rw [List.filter_cons, List.filter_cons, hp here]
    split
    · rw [List.map_cons, List.map_cons, ih, hg here]
    · exact ih

theorem entryId?_recased : entryId? bs = entryId? as := by
  rw [entryId?, entryId?, ← List.getLast?_map, ← List.getLast?_map]
  refine congrArg List.getLast? (map_filter_recased h (fun here => ?_) (fun here => ?_))
  · exact decide_eq_decide.mpr (here.sameLetters_iff "id")
  · rw [here.value]

end

namespace Recased

variable {e f : Element} (h : Recased e f)

include h

theorem entries :
    List.Forall₂ Attribute.Recased (e.layout ++ e.attributes) (f.layout ++ f.attributes) :=
  List.rel_append h.layout h.attributes

theorem props_eq (kind : Kind) : f.props kind = e.props kind := by
  have shown : f.shown? = e.shown? := by rw [shown?, shown?, h.content, h.payload]
  unfold props
  dsimp only
  rw [shown, ← h.tag.asciiUpper_eq, foldl_putEntry_recased h.entries]

theorem writtenId?_eq : f.writtenId? = e.writtenId? := by
  have bracket : f.bracketId? = e.bracketId? := by rw [bracketId?, bracketId?, h.payload]
  rw [Element.writtenId?_eq, Element.writtenId?_eq, bracket, entryId?_recased h.layout,
    entryId?_recased h.attributes]

theorem entryProblems_eq : f.entryProblems = e.entryProblems := by
  refine map_filter_recased h.entries (fun here => ?_) (fun here => ?_)
  · rw [here.canonicalKey_eq]
  · rw [here.location]

end Recased

end Element

/-- The same problem, but for the case of the letters of a tag that names no kind. -/
inductive Problem.Recased : Problem → Problem → Prop
  | same (p : Problem) : Recased p p
  | unknownTag {s t : String} (h : SameLetters s t) : Recased (.unknownTag s) (.unknownTag t)

/-- The same diagnostic, but for the case of the letters of a tag that names no kind. -/
structure Diagnostic.Recased (d d' : Diagnostic) : Prop where
  problem : d.problem.Recased d'.problem
  location : d'.location = d.location

namespace Analysis

theorem alike_recased : Alike Element.Recased Diagnostic.Recased where
  kindOf? h := Vocabulary.kindOf?_of_sameLetters h.tag
  untagged h := h.tag.eq_empty_iff.symm
  props h := h.props_eq
  writtenId? h := h.writtenId?_eq
  entryProblems h := by
    rw [h.entryProblems_eq]
    exact List.forall₂_same.mpr fun d _ => ⟨.same d.problem, rfl⟩
  unknownTag h := ⟨.unknownTag h.tag, h.location⟩
  remark h p _ := ⟨.same p, h.location⟩
  nowhere := ⟨.same _, rfl⟩

/-- Outlines that differ in nothing but the case of letters in tags and listed keys become the same
document, and the same is said about them but for the case of letters in unknown tags. -/
theorem document?_recased {o o' : Outline} (h : Tree.PairedAll Element.Recased o o')
    (options : Options) :
    (document? o' options).1 = (document? o options).1 ∧
      List.Forall₂ Diagnostic.Recased (document? o options).2 (document? o' options).2 :=
  alike_recased.document? h options

/-- Something that is no component, in letters of either case. -/
def strange (tag key : String) : Element :=
  ⟨tag, .none, [], [⟨key, .text "wide", .nowhere⟩], none, .nowhere⟩

/-- A button with an id and two entries, one of them with a key that is not listed. -/
def saving (tag key variant : String) : Element :=
  ⟨tag, .literal "Save", [⟨key, .text "keep", .nowhere⟩],
    [⟨variant, .text "OUTLINED", .nowhere⟩, ⟨"hue", .text "red", .nowhere⟩], none, .nowhere⟩

theorem recased_listed {key key' : String} {value : Value} (hk : Vocabulary.Listed key)
    (h : SameLetters key key') :
    Attribute.Recased ⟨key, value, .nowhere⟩ ⟨key', value, .nowhere⟩ :=
  ⟨.inr ⟨hk, h⟩, rfl, rfl⟩

theorem document?_recased_saving :
    (document? [.node (strange "WIDGET" "Class") [.node (saving "Btn" "ID" "VARIANT") []]] {}).1 =
        (document? [.node (strange "widget" "class") [.node (saving "btn" "id" "variant") []]]
          {}).1 ∧
      List.Forall₂ Diagnostic.Recased [⟨.unknownTag "widget", .nowhere⟩]
        [⟨.unknownTag "WIDGET", .nowhere⟩] := by
  have outer : (strange "widget" "class").Recased (strange "WIDGET" "Class") :=
    ⟨by decide +kernel, rfl, .nil,
      .cons (recased_listed (by decide +kernel) (by decide +kernel)) .nil, rfl, rfl⟩
  have inner : (saving "btn" "id" "variant").Recased (saving "Btn" "ID" "VARIANT") := by
    refine ⟨by decide +kernel, rfl, .cons (recased_listed ?_ ?_) .nil,
      .cons (recased_listed ?_ ?_) (.cons ⟨.inl rfl, rfl, rfl⟩ .nil), rfl, rfl⟩
    all_goals decide +kernel
  have same := document?_recased (.cons (.node outer (.cons (.node inner .nil) .nil)) .nil) {}
  refine ⟨same.1, ?_⟩
  have said : (document? [.node (strange "widget" "class")
      [.node (saving "btn" "id" "variant") []]] {}).2 =
      [⟨.unknownTag "widget", .nowhere⟩] := by decide +kernel
  have said' : (document? [.node (strange "WIDGET" "Class")
      [.node (saving "Btn" "ID" "VARIANT") []]] {}).2 =
      [⟨.unknownTag "WIDGET", .nowhere⟩] := by decide +kernel
  rw [← said, ← said']
  exact same.2

end Analysis

end Wireframe
