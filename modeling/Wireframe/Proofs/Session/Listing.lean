import Mathlib.Data.List.Nodup
import Wireframe.Proofs.Session.Frame

/-!
# Listings of registries

A registry gives its entries in no order of its own. Sorted by age, and by their ids where they are
of one age, the sessions come in one order only, since no two of them have the same id: so the
listing does not depend on the order in which the entries came (`listing_in_order`).
-/

namespace Wireframe

namespace Session

variable {s t : Session}

/-- Whether `s` is older than `t`, or of one age with it and before it by its id. -/
def Before (s t : Session) : Prop :=
  s.createdAt < t.createdAt ∨ s.createdAt = t.createdAt ∧ s.id < t.id

theorem listedBefore_iff :
    listedBefore s t = true ↔
      s.createdAt < t.createdAt ∨ s.createdAt = t.createdAt ∧ s.id ≤ t.id :=
  decide_eq_true_iff

theorem listedBefore_trans (s t u : Session) (h : listedBefore s t = true)
    (h' : listedBefore t u = true) : listedBefore s u = true := by
  rw [listedBefore_iff] at *
  obtain older | ⟨same, ids⟩ := h
  · obtain older' | ⟨same', -⟩ := h'
    · exact .inl (Timestamp.lt_trans older older')
    · exact .inl (same' ▸ older)
  · obtain older' | ⟨same', ids'⟩ := h'
    · exact .inl (same ▸ older')
    · exact .inr ⟨same.trans same', String.le_trans ids ids'⟩

theorem listedBefore_total (s t : Session) : (listedBefore s t || listedBefore t s) = true := by
  rw [Bool.or_eq_true, listedBefore_iff, listedBefore_iff]
  obtain older | same | younger := Timestamp.lt_or_eq_or_gt s.createdAt t.createdAt
  · exact .inl (.inl older)
  · exact (String.le_total s.id t.id).imp (fun ids => .inr ⟨same, ids⟩)
      (fun ids => .inr ⟨same.symm, ids⟩)
  · exact .inr (.inl younger)

theorem before_of_listedBefore (h : listedBefore s t = true) (ne : s.id ≠ t.id) : s.Before t := by
  obtain older | ⟨same, ids⟩ := listedBefore_iff.mp h
  · exact .inl older
  · exact .inr ⟨same, String.not_le.mp fun ids' => ne (String.le_antisymm ids ids')⟩

theorem Before.asymm (h : s.Before t) : ¬ t.Before s := by
  rintro (younger | ⟨same, ids⟩)
  · obtain older | ⟨same, -⟩ := h
    · exact Timestamp.lt_irrefl _ (Timestamp.lt_trans older younger)
    · exact Timestamp.lt_irrefl _ (same ▸ younger)
  · obtain older | ⟨-, ids'⟩ := h
    · exact Timestamp.lt_irrefl _ (same ▸ older)
    · exact String.lt_irrefl _ (String.lt_trans ids ids')

end Session

namespace Registry

variable {r : Registry} {entries others : List (String × Session)}

/-- The entries of a registry in any order: every id once, each with the session under it. -/
structure Enumerates (r : Registry) (entries : List (String × Session)) : Prop where
  nodup : (entries.map (·.1)).Nodup
  mem_iff : ∀ id s, (id, s) ∈ entries ↔ r.get? id = some s

/-- The sessions of a registry whose entries come in a given order, the oldest first. -/
def listing (entries : List (String × Session)) : List Session :=
  (entries.map (·.2)).mergeSort Session.listedBefore

theorem list_eq_listing (r : Registry) : r.list = listing r.sessions.entries := rfl

theorem listing_perm (entries : List (String × Session)) :
    (listing entries).Perm (entries.map (·.2)) :=
  List.mergeSort_perm _ _

theorem listing_sorted (entries : List (String × Session)) :
    (listing entries).Pairwise fun s t => Session.listedBefore s t = true :=
  List.pairwise_mergeSort Session.listedBefore_trans Session.listedBefore_total _

theorem enumerates_entries (r : Registry) : r.Enumerates r.sessions.entries where
  nodup := List.pairwise_map.mpr (r.sessions.sorted.imp fun lt => String.ne_of_lt lt)
  mem_iff _ _ := Table.mem_entries_iff

theorem enumerates_iff_perm : r.Enumerates entries ↔ entries.Perm r.sessions.entries := by
  have sorted := enumerates_entries r
  constructor
  · intro h
    have once := List.Nodup.of_map _ h.nodup
    have once' := List.Nodup.of_map _ sorted.nodup
    refine (List.perm_ext_iff_of_nodup once once').mpr fun (id, s) => ?_
    rw [h.mem_iff, sorted.mem_iff]
  · intro perm
    refine ⟨(perm.map _).nodup_iff.mpr sorted.nodup, fun id s => ?_⟩
    rw [perm.mem_iff, sorted.mem_iff]

namespace Enumerates

theorem mem_listing_iff (h : r.Enumerates entries) {s : Session} :
    s ∈ listing entries ↔ ∃ id, r.get? id = some s := by
  simp only [(listing_perm entries).mem_iff, List.mem_map, Prod.exists, exists_eq_right, h.mem_iff]

theorem length_listing (h : r.Enumerates entries) : (listing entries).length = r.size := by
  rw [(listing_perm entries).length_eq, List.length_map]
  exact (enumerates_iff_perm.mp h).length_eq

variable (keyed : Keyed r)

include keyed

/-- Sessions that stand under their own ids have different ids. -/
theorem nodup_ids (h : r.Enumerates entries) : ((listing entries).map (·.id)).Nodup := by
  have ids : (entries.map (·.2)).map (·.id) = entries.map (·.1) := by
    rw [List.map_map]
    exact List.map_congr_left fun (id, s) mem => keyed id s ((h.mem_iff id s).mp mem)
  rw [((listing_perm entries).map _).nodup_iff, ids]
  exact h.nodup

theorem pairwise_before (h : r.Enumerates entries) : (listing entries).Pairwise Session.Before := by
  have ids := List.pairwise_map.mp (h.nodup_ids keyed)
  exact (listing_sorted entries).imp₂ (fun _ _ => Session.before_of_listedBefore) ids

/-- The order in which the entries come has no say in the listing. -/
theorem listing_eq (h : r.Enumerates entries) (h' : r.Enumerates others) :
    listing entries = listing others := by
  have perm : entries.Perm others :=
    (enumerates_iff_perm.mp h).trans (enumerates_iff_perm.mp h').symm
  have same : (listing entries).Perm (listing others) :=
    (listing_perm entries).trans ((perm.map _).trans (listing_perm others).symm)
  exact same.eq_of_pairwise (fun _ _ _ _ before after => absurd after before.asymm)
    (h.pairwise_before keyed) (h'.pairwise_before keyed)

end Enumerates

/-- Behind every run, and in whatever order the entries of the registry come: the listing has every
stored session once and no other, each before all that are younger or of its age with a greater id.
So it is the same for all these orders, and there are as many sessions in it as in the registry. -/
theorem listing_in_order (os : List Operation) {entries : List (String × Session)}
    (h : (run os).Enumerates entries) :
    let r := run os
    (∀ id s, r.get? id = some s → (listing entries).count s = 1) ∧
    (∀ s ∈ listing entries, r.get? s.id = some s) ∧
    (listing entries).Pairwise Session.Before ∧
    listing entries = r.list ∧
    (listing entries).length = r.size := by
  intro r
  have keyed : Keyed r := keyed_run os
  have once : (listing entries).Nodup := List.Nodup.of_map _ (h.nodup_ids keyed)
  refine ⟨fun id s hs => ?_, fun s mem => ?_, h.pairwise_before keyed, ?_, h.length_listing⟩
  · exact List.count_eq_one_of_mem once (h.mem_listing_iff.mpr ⟨id, hs⟩)
  · obtain ⟨id, hs⟩ := h.mem_listing_iff.mp mem
    rwa [keyed id s hs]
  · rw [list_eq_listing]
    exact h.listing_eq keyed (enumerates_entries r)

theorem listing_in_order_twins :
    let r := run [.getOrCreate "menu" "shop" ⟨1, 0⟩, .getOrCreate "cart" "shop" ⟨1, 0⟩]
    let entries := r.sessions.entries.reverse
    r.Enumerates entries ∧ entries.map (·.1) = ["menu", "cart"] ∧
    (listing entries).Pairwise Session.Before ∧ listing entries = r.list ∧
    (listing entries).length = 2 := by
  intro r entries
  have all : r.Enumerates entries := enumerates_iff_perm.mpr (List.reverse_perm _)
  obtain ⟨-, -, before, same, length⟩ :=
    listing_in_order [.getOrCreate "menu" "shop" ⟨1, 0⟩, .getOrCreate "cart" "shop" ⟨1, 0⟩] all
  exact ⟨all, rfl, before, same, length⟩

end Registry

end Wireframe
