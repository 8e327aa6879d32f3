import Wireframe.Proofs.Outline.Origins

/-!
# Where places come from

What holds of the places of all tokens holds of all places in the outline that is read from them
(`placed_ofTokens`).
-/

namespace Wireframe

open Outline

/-- Whether `P` holds of the place of an element and of those of its entries. -/
structure Element.Placed (P : Location → Prop) (e : Element) : Prop where
  location : P e.location
  layout : ∀ a ∈ e.layout, P a.location
  attributes : ∀ a ∈ e.attributes, P a.location

variable {P : Location → Prop}

theorem Token.At.placed {p : Location} (h : Token.At (fun t => P t.location) p) : P p := by
  obtain ⟨t, ht, rfl⟩ := h
  exact ht

theorem Element.From.placed {e : Element} (h : e.From fun t => P t.location) : e.Placed P where
  location := h.location.placed
  layout a ha := (h.layout a ha).location.placed
  attributes a ha := (h.attributes a ha).location.placed

namespace Outline

/-- Whether `P` holds of all places in an outline. -/
def Placed (P : Location → Prop) (o : Outline) : Prop :=
  ∀ t ∈ Tree.preorderAll o, t.value.Placed P

/-- Whether `P` holds of the places of what an item adds. -/
def Item.Placed (P : Location → Prop) : Item → Prop
  | .layout entries | .attributes entries => ∀ a ∈ entries, P a.location
  | .content _ location => P location

theorem Item.From.placed {x : Item} (h : x.From fun t => P t.location) : x.Placed P := by
  cases x with
  | layout entries | attributes entries => exact fun a ha => (h a ha).location.placed
  | content text location => exact Token.At.placed h

theorem placed_items {ts : List Token} (h : ∀ t ∈ ts, P t.location) {r : Reading (List Item)}
    (hr : ItemsRead ts r) : ∀ x ∈ r.value, x.Placed P :=
  fun x hx => Item.From.placed (from_items h hr x hx)

/-- What holds of the places of all tokens holds of all places in their outline. -/
theorem placed_ofTokens {ts : List Token} (hl : Lined ts) (ha : AtLineEnd ts)
    (h : ∀ t ∈ ts, P t.location) : Placed P (ofTokens ts).1 :=
  fun t ht => (from_ofTokens hl ha h t ht).placed

end Outline

end Wireframe
