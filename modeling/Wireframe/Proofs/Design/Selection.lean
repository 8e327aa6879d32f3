import Wireframe.Design.Category

/-!
# Which categories a hash selects

The scene of a design is given by its context or picked by the lowest byte of the hash, and each of
the four bytes above it picks a category among those that go with the scene; the hue is the two
bytes above these. So no slice has a say in what another one selects, and every design that the
context allows is the one of some hash (`select_by_slices`).
-/

namespace Wireframe.Design

/-- Two words have the same bits from place `lo` up to place `hi`. -/
def AgreeOn (lo hi : Nat) (v w : UInt64) : Prop :=
  ∀ i < hi, lo ≤ i → v.toNat.testBit i = w.toNat.testBit i

instance (lo hi : Nat) (v w : UInt64) : Decidable (AgreeOn lo hi v w) :=
  inferInstanceAs (Decidable (∀ i < hi, lo ≤ i → _))

section

variable {start len : UInt64} (hs : start.toNat < 64) (hl : len.toNat < 64)

include hs hl

theorem toNat_bitSlice (w : UInt64) :
    (bitSlice w start len).toNat = (w.toNat >>> start.toNat) % (1 <<< len.toNat) := by
  have power : ((1 : UInt64) <<< len).toNat = 1 <<< len.toNat := by
    rw [UInt64.toNat_shiftLeft, Nat.mod_eq_of_lt hl, UInt64.toNat_one, Nat.one_shiftLeft]
    exact Nat.mod_eq_of_lt (Nat.pow_lt_pow_right (by decide) hl)
  have one_le : (1 : UInt64) ≤ 1 <<< len := by
    rw [UInt64.le_iff_toNat_le, power, UInt64.toNat_one, Nat.one_shiftLeft]
    exact Nat.one_le_two_pow
  rw [bitSlice, UInt64.toNat_and, UInt64.toNat_shiftRight, Nat.mod_eq_of_lt hs,
    UInt64.toNat_sub_of_le _ _ one_le, power, UInt64.toNat_one, Nat.one_shiftLeft,
    Nat.and_two_pow_sub_one_eq_mod]

theorem bitSlice_congr {v w : UInt64} (h : AgreeOn start.toNat (start.toNat + len.toNat) v w) :
    bitSlice v start len = bitSlice w start len := by
  refine UInt64.toNat_inj.mp (Nat.eq_of_testBit_eq fun i => ?_)
  rw [toNat_bitSlice hs hl, toNat_bitSlice hs hl, Nat.one_shiftLeft, Nat.testBit_mod_two_pow,
    Nat.testBit_mod_two_pow, Nat.testBit_shiftRight, Nat.testBit_shiftRight]
  by_cases hi : i < len.toNat
  · rw [h (start.toNat + i) (by omega) (by omega)]
  · simp [hi]

end

/-- The word that has given numbers for its slices, five of a byte and one of two bytes. -/
def ofSlices (a b c d e f : Nat) : UInt64 :=
  .ofNat (a + 256 * (b + 256 * (c + 256 * (d + 256 * (e + 256 * f)))))

theorem bitSlice_ofSlices {a b c d e f : Nat} (ha : a < 256) (hb : b < 256) (hc : c < 256)
    (hd : d < 256) (he : e < 256) (hf : f < 65536) :
    let w := ofSlices a b c d e f
    (bitSlice w 0 8).toNat = a ∧ (bitSlice w 8 8).toNat = b ∧ (bitSlice w 16 8).toNat = c ∧
      (bitSlice w 24 8).toNat = d ∧ (bitSlice w 32 8).toNat = e ∧
      (bitSlice w 40 16).toNat = f := by
  intro w
  have number : w.toNat = a + 256 * (b + 256 * (c + 256 * (d + 256 * (e + 256 * f)))) :=
    UInt64.toNat_ofNat_of_lt' (show _ < 18446744073709551616 by omega)
  have byte (start : UInt64) (hs : start.toNat < 64) :
      (bitSlice w start 8).toNat = (w.toNat >>> start.toNat) % 256 :=
    toNat_bitSlice hs (by decide) w
  have pair : (bitSlice w 40 16).toNat = (w.toNat >>> 40) % 65536 :=
    toNat_bitSlice (by decide) (by decide) w
  rw [byte 0 (by decide), byte 8 (by decide), byte 16 (by decide), byte 24 (by decide),
    byte 32 (by decide), pair, number]
  simp only [UInt64.reduceToNat]
  refine ⟨?_, ?_, ?_, ?_, ?_, ?_⟩ <;> omega

theorem Choices.exists_pick {α : Type} {c : Choices α} {x : α} (hx : x ∈ c.toList)
    (few : c.toList.length ≤ 256) :
    ∃ n < 256, ∀ w : UInt64, w.toNat = n → c.pick w = x := by
  obtain ⟨i, hi, rfl⟩ := List.getElem_of_mem hx
  refine ⟨i, Nat.lt_of_lt_of_le hi few, fun w hw => ?_⟩
  rw [pick, hw, Nat.mod_eq_of_lt hi, List.getD_eq_getElem?_getD, List.getElem?_eq_getElem hi,
    Option.getD_some]

/-- A context may have the scene that its words give away or, if they give none away, any scene. -/
def Scene.AllowedBy (context : String) (s : Scene) : Prop :=
  ∀ hinted, hintedBy? context = some hinted → s = hinted

/-- In no dimension does a scene have more categories than a byte can tell apart. -/
theorem Scene.length_choices_le (s : Scene) :
    s.densities.toList.length ≤ 256 ∧ s.typeScales.toList.length ≤ 256 ∧
      s.shapes.toList.length ≤ 256 ∧ s.ornaments.toList.length ≤ 256 := by
  cases s <;> decide

theorem Scene.exists_slice {context : String} {s : Scene} (h : s.AllowedBy context) :
    ∃ n < 256, ∀ w : UInt64, w.toNat = n → (hintedBy? context).getD (all.pick w) = s := by
  cases hinted : hintedBy? context with
  | none => exact all.exists_pick (by cases s <;> decide) (by decide)
  | some t => exact ⟨0, by decide, fun _ _ => (h t hinted).symm⟩

namespace Categories

/-- Categories that go with their scene. -/
structure Admissible (c : Categories) : Prop where
  density : c.density ∈ c.scene.densities.toList
  typeScale : c.typeScale ∈ c.scene.typeScales.toList
  shape : c.shape ∈ c.scene.shapes.toList
  ornament : c.ornament ∈ c.scene.ornaments.toList

theorem admissible_select (context : String) (hash : UInt64) :
    (select context hash).Admissible := by
  rw [select]
  -- Each category is one of those of the scene, however the scene is found.
  generalize (Scene.hintedBy? context).getD (Scene.all.pick (bitSlice hash 0 8)) = scene
  exact ⟨Choices.pick_mem _ _, Choices.pick_mem _ _, Choices.pick_mem _ _, Choices.pick_mem _ _⟩

theorem allowedBy_select (context : String) (hash : UInt64) :
    (select context hash).scene.AllowedBy context := by
  intro hinted h
  rw [select, h, Option.getD_some]

theorem exists_select {context : String} {c : Categories} (allowed : c.scene.AllowedBy context)
    (h : c.Admissible) : ∃ hash, select context hash = c := by
  obtain ⟨densities, typeScales, shapes, ornaments⟩ := c.scene.length_choices_le
  obtain ⟨n₀, hn₀, scene⟩ := Scene.exists_slice allowed
  obtain ⟨n₁, hn₁, density⟩ := Choices.exists_pick h.density densities
  obtain ⟨n₂, hn₂, typeScale⟩ := Choices.exists_pick h.typeScale typeScales
  obtain ⟨n₃, hn₃, shape⟩ := Choices.exists_pick h.shape shapes
  obtain ⟨n₄, hn₄, ornament⟩ := Choices.exists_pick h.ornament ornaments
  let hash := ofSlices n₀ n₁ n₂ n₃ n₄ c.hueBits.toNat
  obtain ⟨s₀, s₁, s₂, s₃, s₄, s₅⟩ := bitSlice_ofSlices hn₀ hn₁ hn₂ hn₃ hn₄ c.hueBits.toNat_lt
  have hue : (bitSlice hash 40 16).toUInt16 = c.hueBits := by
    rw [← UInt16.toNat_inj, UInt64.toNat_toUInt16, s₅]
    exact Nat.mod_eq_of_lt c.hueBits.toNat_lt
  refine ⟨hash, ?_⟩
  rw [select, scene _ s₀, density _ s₁, typeScale _ s₂, shape _ s₃, ornament _ s₄, hue]

/-- The categories of a context and a hash go with a scene that the context allows. The category in
each dimension is known from the scene and a byte of the hash, and the hue from two bytes, whatever
the other bits are. And all categories that go with a scene that the context allows, with every hue,
are those of some hash. -/
theorem select_by_slices (context : String) :
    (∀ hash, (select context hash).Admissible ∧ (select context hash).scene.AllowedBy context) ∧
    (∀ context' hash hash', (select context hash).scene = (select context' hash').scene →
      (AgreeOn 8 16 hash hash' →
        (select context hash).density = (select context' hash').density) ∧
      (AgreeOn 16 24 hash hash' →
        (select context hash).typeScale = (select context' hash').typeScale) ∧
      (AgreeOn 24 32 hash hash' → (select context hash).shape = (select context' hash').shape) ∧
      (AgreeOn 32 40 hash hash' →
        (select context hash).ornament = (select context' hash').ornament)) ∧
    (∀ context' hash hash', AgreeOn 40 56 hash hash' →
      (select context hash).hueBits = (select context' hash').hueBits) ∧
    ∀ c : Categories, c.scene.AllowedBy context → c.Admissible →
      ∃ hash, select context hash = c := by
  refine ⟨fun hash => ⟨admissible_select context hash, allowedBy_select context hash⟩, ?_, ?_,
    fun c allowed admissible => exists_select allowed admissible⟩
  · intro context' hash hash' scene
    have byte (start : UInt64) (hs : start.toNat < 64)
        (h : AgreeOn start.toNat (start.toNat + 8) hash hash') :
        bitSlice hash start 8 = bitSlice hash' start 8 :=
      bitSlice_congr hs (by decide) h
    simp only [select] at scene ⊢
    rw [scene]
    exact ⟨fun h => by rw [byte 8 (by decide) h], fun h => by rw [byte 16 (by decide) h],
      fun h => by rw [byte 24 (by decide) h], fun h => by rw [byte 32 (by decide) h]⟩
  · intro context' hash hash' h
    have slice : bitSlice hash 40 16 = bitSlice hash' 40 16 :=
      bitSlice_congr (by decide) (by decide) h
    simp only [select, slice]

theorem select_by_slices_blog :
    let pills : Categories := ⟨.energetic, .normal, .augmentedFourth, .pill, .rich, 0xbeef⟩
    Scene.hintedBy? "recipe blog" = none ∧ pills.Admissible ∧
    (∃ hash, select "recipe blog" hash = pills) ∧
    Scene.hintedBy? "luxury watch store" = some .elegant ∧
    (select "luxury watch store" 0x0100).density = (select "recipe blog" 0xbb0102).density ∧
    (select "luxury watch store" 0x0100).hueBits = (select "recipe blog" 0xbb0102).hueBits := by
  intro pills
  have unhinted : Scene.hintedBy? "recipe blog" = none := by decide +kernel
  have hinted : Scene.hintedBy? "luxury watch store" = some .elegant := by decide +kernel
  have admissible : pills.Admissible := ⟨by decide, by decide, by decide, by decide⟩
  have allowed : pills.scene.AllowedBy "recipe blog" := fun s h => by
    rw [unhinted] at h
    cases h
  have scene : (select "luxury watch store" 0x0100).scene =
      (select "recipe blog" 0xbb0102).scene := by
    rw [select, select, hinted, unhinted]
    decide
  obtain ⟨-, -, -, all⟩ := select_by_slices "recipe blog"
  obtain ⟨-, bytes, hue, -⟩ := select_by_slices "luxury watch store"
  refine ⟨unhinted, admissible, all pills allowed admissible, hinted, ?_, ?_⟩
  · exact (bytes "recipe blog" 0x0100 0xbb0102 scene).1 (by decide)
  · exact hue "recipe blog" 0x0100 0xbb0102 (by decide)

end Categories

end Wireframe.Design
