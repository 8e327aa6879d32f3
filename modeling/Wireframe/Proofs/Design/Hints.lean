import Wireframe.Design.Category
import Wireframe.Proofs.Text.Surroundings

/-!
# Hints in longer contexts

The words that give a scene away are looked for in the lower case of the whole context, and none of
them has a sigma. So a context that is made longer keeps its hint, unless the new words give away a
scene that is tried earlier (`hintedBy?_append`).
-/

namespace Wireframe.Design

/-- A search with a weaker test ends where it ended before, or earlier. -/
theorem exists_find?_of_imp {α : Type} {p q : α → Bool} {xs : List α} {x : α}
    (weaker : ∀ y ∈ xs, p y = true → q y = true) (h : xs.find? p = some x) :
    ∃ y, xs.find? q = some y ∧ (y = x ∨ [y, x].Sublist xs) := by
  obtain ⟨hp, earlier, later, rfl, -⟩ := List.find?_eq_some_iff_append.mp h
  have hq : q x = true := weaker x (List.mem_append_right _ List.mem_cons_self) hp
  rw [List.find?_append, List.find?_cons_of_pos hq]
  cases found : earlier.find? q with
  | none => exact ⟨x, rfl, .inl rfl⟩
  | some y =>
    have first : [y].Sublist earlier := List.singleton_sublist.mpr (List.mem_of_find?_eq_some found)
    exact ⟨y, rfl, .inr (first.append (List.singleton_sublist.mpr List.mem_cons_self))⟩

namespace Scene

/-- The words of one scene are looked for before those of another. -/
def TriedBefore (s t : Scene) : Prop :=
  [s, t].Sublist (hints.map (·.1))

instance (s t : Scene) : Decidable (TriedBefore s t) :=
  inferInstanceAs (Decidable (List.Sublist _ _))

theorem sigma_not_mem_hints :
    ∀ h ∈ hints, ∀ word ∈ h.2, 'σ' ∉ word.toList ∧ 'ς' ∉ word.toList := by
  decide +kernel

/-- The words that occur in a context occur in every longer one. -/
theorem any_occursIn_append {entry : Scene × List String} (listed : entry ∈ hints)
    {context : String}
    (h : (entry.2.any fun word => Text.occursIn word.toList (Text.lower context).toList) = true)
    (before behind : String) :
    (entry.2.any fun word =>
      Text.occursIn word.toList (Text.lower (before ++ context ++ behind)).toList) = true := by
  obtain ⟨word, mem, occurs⟩ := List.any_eq_true.mp h
  obtain ⟨inside, final⟩ := sigma_not_mem_hints entry listed word mem
  exact List.any_eq_true.mpr
    ⟨word, mem, Text.occursIn_lower_append inside final occurs before behind⟩

/-- A context whose words give away a scene gives away this scene or one that is tried before it,
whatever is put in front of it and behind it. So no hash picks the scene of the longer context. -/
theorem hintedBy?_append {context : String} {s : Scene} (h : hintedBy? context = some s)
    (before behind : String) :
    ∃ t, hintedBy? (before ++ context ++ behind) = some t ∧ (t = s ∨ t.TriedBefore s) ∧
      ∀ hash, (Categories.select (before ++ context ++ behind) hash).scene = t := by
  rw [hintedBy?, Option.map_eq_some_iff] at h
  obtain ⟨entry, found, rfl⟩ := h
  obtain ⟨first, found', place⟩ := exists_find?_of_imp
    (fun entry listed h => any_occursIn_append listed h before behind) found
  have hinted : hintedBy? (before ++ context ++ behind) = some first.1 := by
    rw [hintedBy?, found', Option.map_some]
  refine ⟨first.1, hinted, ?_, fun hash => ?_⟩
  · exact place.imp (congrArg Prod.fst) (List.Sublist.map Prod.fst)
  · rw [Categories.select, hinted, Option.getD_some]

/-- The last sigma of the context is no longer at the end of a word. -/
theorem hintedBy?_append_bank :
    hintedBy? "game ΟΔΟΣ" = some .playful ∧
    ∃ t, hintedBy? ("Bank of " ++ "game ΟΔΟΣ" ++ "ΛΑ") = some t ∧
      (t = .playful ∨ t.TriedBefore .playful) ∧
      ∀ hash, (Categories.select ("Bank of " ++ "game ΟΔΟΣ" ++ "ΛΑ") hash).scene = t := by
  have hinted : hintedBy? "game ΟΔΟΣ" = some .playful := by decide +kernel
  exact ⟨hinted, hintedBy?_append hinted "Bank of " "ΛΑ"⟩

end Scene

end Wireframe.Design
