import Wireframe.Vocabulary

/-!
# Canonical entries

What a spelling stands for stands for itself, for keys (`canonicalKey_idem`) and for values
(`canonicalValue_idem`): the words on the right of the tables are among those on the left. So what
is written once in its canonical form stays as it is, whatever the author wrote, and the entries
that the vocabulary brings along are of that form too.
-/

namespace Wireframe.Vocabulary

theorem mem_of_lookup {β : Type} {k : String} {v : β} {es : List (String × β)}
    (h : es.lookup k = some v) : (k, v) ∈ es := by
  obtain ⟨before, after, rfl, -⟩ := List.lookup_eq_some_iff.mp h
  exact List.mem_append_right before List.mem_cons_self

theorem canonicalKey_of_mem_keys : ∀ p ∈ keys, canonicalKey p.2 = p.2 := by decide +kernel

theorem canonicalKey_idem (key : String) : canonicalKey (canonicalKey key) = canonicalKey key := by
  cases found : keys.lookup (Text.asciiLower key) with
  | none =>
    have same : canonicalKey key = key := by rw [canonicalKey, found, Option.getD_none]
    rw [same, same]
  | some k =>
    have stands : canonicalKey key = k := by rw [canonicalKey, found, Option.getD_some]
    rw [stands]
    exact canonicalKey_of_mem_keys (Text.asciiLower key, k) (mem_of_lookup found)

theorem lookup_of_mem_words :
    ∀ p ∈ words, words.lookup (Text.asciiLower (Text.trim p.2)) = some p.2 := by decide +kernel

theorem canonicalValue_idem (key : String) (v : Value) :
    canonicalValue key (canonicalValue key v) = canonicalValue key v := by
  cases v with
  | bool b => rfl
  | number x => rfl
  | text s =>
    rw [canonicalValue]
    by_cases listed : key ∈ enumerated
    · rw [if_pos listed]
      cases found : words.lookup (Text.asciiLower (Text.trim s)) with
      | none => rw [Option.elim_none, canonicalValue, if_pos listed, found, Option.elim_none]
      | some w =>
        rw [Option.elim_some, canonicalValue, if_pos listed,
          lookup_of_mem_words _ (mem_of_lookup found), Option.elim_some]
    · rw [if_neg listed]
      by_cases truth : key ∈ booleans
      · rw [if_pos truth]
        cases found : truths.lookup (Text.asciiLower (Text.trim s)) with
        | none =>
          rw [Option.elim_none, canonicalValue, if_neg listed, if_pos truth, found,
            Option.elim_none]
        | some b => rfl
      · rw [if_neg truth, canonicalValue, if_neg listed, if_neg truth]

/-- An entry of which nothing is another spelling, and which is a prop: neither the id nor without
a key. -/
structure Canonical (key : String) (v : Value) : Prop where
  key_eq : canonicalKey key = key
  ne_id : key ≠ "id"
  ne_empty : key ≠ ""
  value_eq : canonicalValue key v = v

instance (key : String) (v : Value) : Decidable (Canonical key v) :=
  decidable_of_iff
    (canonicalKey key = key ∧ key ≠ "id" ∧ key ≠ "" ∧ canonicalValue key v = v)
    ⟨fun ⟨hk, hi, he, hv⟩ => ⟨hk, hi, he, hv⟩, fun ⟨hk, hi, he, hv⟩ => ⟨hk, hi, he, hv⟩⟩

/-- Whatever an author writes stands for a canonical entry, unless it is no prop. -/
theorem canonical_of_written (key : String) (v : Value) (hi : canonicalKey key ≠ "id")
    (he : canonicalKey key ≠ "") :
    Canonical (canonicalKey key) (canonicalValue (canonicalKey key) v) where
  key_eq := canonicalKey_idem key
  ne_id := hi
  ne_empty := he
  value_eq := canonicalValue_idem _ v

theorem canonical_content (text : String) : Canonical "content" (.text text) where
  key_eq := by decide +kernel
  ne_id := by decide
  ne_empty := by decide
  value_eq := by
    have plain : "content" ∉ enumerated ∧ "content" ∉ booleans := by decide
    rw [canonicalValue, if_neg plain.1, if_neg plain.2]

theorem canonical_defaults (kind : Kind) : ∀ p ∈ (defaults kind).entries, Canonical p.1 p.2 := by
  cases kind <;> decide +kernel

theorem canonical_implied (tag : String) : ∀ p ∈ implied tag, Canonical p.1 p.2 := by
  unfold implied
  split <;> decide +kernel

/-- Every kind has a tag that says nothing beyond it. -/
theorem exists_plain_tag (kind : Kind) :
    ∃ tag, kindOf? tag = some kind ∧ implied (Text.asciiUpper tag) = [] := by
  have listed : ∀ k ∈ Kind.all, ∃ p ∈ tags,
      p.2 = k ∧ kindOf? p.1 = some k ∧ (implied (Text.asciiUpper p.1)).isEmpty = true := by
    decide +kernel
  obtain ⟨p, -, -, names, plain⟩ := listed kind (Kind.mem_all kind)
  exact ⟨p.1, names, List.isEmpty_iff.mp plain⟩

end Wireframe.Vocabulary
