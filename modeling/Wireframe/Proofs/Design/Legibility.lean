import Wireframe.Proofs.Design.Extremes
import Wireframe.Proofs.Design.Names
import Wireframe.Proofs.Design.WrittenColor

/-!
# Text that can be read

A colour that cannot be read beside others moves in steps of lightness (`Moves`). Nothing bounds the
steps, but there are few of them from where a palette starts: they come to the end of the lightness
(`moves_moveUntil`). So a colour comes to rest where the contrast is high enough, or where there is
no lightness left to move through, as black or white. The contrast is that of the channels that are
written, so what is promised of a colour and the text on it can be read off their tokens
(`pairs_legible`).
-/

namespace Wireframe.Design

open Rgb (ofHex?_hex)

/-- Whether two written colours have at least a contrast. -/
def Legible (least : Float) (a b : String) : Prop :=
  ∃ contrast, contrastOf? a b = some contrast ∧ least ≤ contrast

theorem legible_hex {least : Float} {a b : Rgb} (h : least ≤ a.contrast b) :
    Legible least a.hex b.hex := by
  refine ⟨a.contrast b, ?_, h⟩
  rw [contrastOf?, ofHex?_hex, ofHex?_hex]
  rfl

namespace Hsl

theorem readable_iff {least : Float} {against : List Rgb} {c : Rgb} :
    readable least against c = true ↔ ∀ other ∈ against, least ≤ c.contrast other := by
  simp [readable]

section

variable (left : Float32 → Bool) (amount : Float32)

/-- Steps of lightness, as long as a colour does not pass and there is lightness left. -/
inductive Moves (passes : Rgb → Bool) : Hsl → Hsl → Prop where
  | passed {c : Hsl} (h : passes c.rgb = true) : Moves passes c c
  | spent {c : Hsl} (h : left c.lightness = false) : Moves passes c c
  | step {c d : Hsl} (more : left c.lightness = true) (fails : passes c.rgb = false)
      (rest : Moves passes (c.shift amount) d) : Moves passes c d

/-- The lightness at which nothing is left, if less than `n` steps lead there. -/
def lastWithin : Nat → Float32 → Option Float32
  | 0, _ => none
  | n + 1, l => if left l then lastWithin n (clamp 0 1 (l + amount)) else some l

variable {left amount} {passes : Rgb → Bool} {c d : Hsl} {last : Float32} {n : Nat}

/-- Where a colour comes to rest it passes or has the last lightness. -/
theorem Moves.ends (h : Moves left amount passes c d)
    (hl : lastWithin left amount n c.lightness = some last) :
    passes d.rgb = true ∨ d.lightness = last := by
  induction h generalizing n with
  | passed h => exact .inl h
  | spent h =>
    cases n with
    | zero => cases hl
    | succ n =>
      rw [lastWithin, h] at hl
      exact .inr (Option.some.inj hl)
  | step more _ _ ih =>
    cases n with
    | zero => cases hl
    | succ n =>
      rw [lastWithin, if_pos more] at hl
      exact ih hl

theorem Moves.bounded (h : Moves left amount passes c d) (hc : c.Bounded) : d.Bounded := by
  induction h with
  | passed => exact hc
  | spent => exact hc
  | step _ _ _ ih => exact ih (hc.shift amount)

/-- A loop from a lightness that runs out moves a colour to its rest. -/
theorem moves_moveUntil (hl : lastWithin left amount n c.lightness = some last) :
    Moves left amount passes c (moveUntil left amount passes c) := by
  -- By induction on the steps after which the lightness has run out, whatever passes before.
  induction n generalizing c with
  | zero => cases hl
  | succ n ih =>
    rw [moveUntil_eq]
    cases more : left c.lightness with
    | false => exact .spent more
    | true =>
      rw [lastWithin, if_pos more] at hl
      cases passed : passes c.rgb with
      | true => exact .passed passed
      | false => exact .step more passed (ih hl)

end

/-- A colour that is darkened against others, as long as it cannot be read beside them. -/
abbrev Darkens (least : Float) (against : List Rgb) : Hsl → Hsl → Prop :=
  Moves (0 < ·) (-step) (readable least against)

/-- A colour that is lightened against others, as long as it cannot be read beside them. -/
abbrev Lightens (least : Float) (against : List Rgb) : Hsl → Hsl → Prop :=
  Moves (· < 1) step (readable least against)

/-- Whether some sixty steps lead from a lightness to none and to all of it. -/
structure Spans (l : Float32) : Prop where
  dark : lastWithin (0 < ·) (-step) 60 l = some 0
  light : lastWithin (· < 1) step 60 l = some 1

instance (l : Float32) : Decidable (Spans l) :=
  decidable_of_iff
    (lastWithin (0 < ·) (-step) 60 l = some 0 ∧ lastWithin (· < 1) step 60 l = some 1)
    ⟨fun ⟨dark, light⟩ => ⟨dark, light⟩, fun ⟨dark, light⟩ => ⟨dark, light⟩⟩

/-- What makes a colour one to start from: it can get to black and to white. -/
structure Start (c : Hsl) : Prop where
  bounded : c.Bounded
  spans : Spans c.lightness

variable {c d : Hsl} {against : List Rgb} {least : Float}

theorem Start.darkens (h : Start c) : Darkens least against c (c.darkenUntil against least) :=
  moves_moveUntil h.spans.dark

theorem Start.lightens (h : Start c) : Lightens least against c (c.lightenUntil against least) :=
  moves_moveUntil h.spans.light

/-- A darkened colour can be read beside all others, or is black. -/
theorem Start.legible_or_black (start : Start c) (h : Darkens least against c d) :
    (∀ other ∈ against, Legible least d.hex other.hex) ∨ d.hex = "#000000" := by
  obtain passed | none := h.ends start.spans.dark
  · exact .inl fun other ho => legible_hex (readable_iff.mp passed other ho)
  · right
    rw [hex, rgb_of_no_lightness (h.bounded start.bounded) none]
    decide

/-- A lightened colour can be read beside all others, or is white. -/
theorem Start.legible_or_white (start : Start c) (h : Lightens least against c d) :
    (∀ other ∈ against, Legible least d.hex other.hex) ∨ d.hex = "#ffffff" := by
  obtain passed | all := h.ends start.spans.light
  · exact .inl fun other ho => legible_hex (readable_iff.mp passed other ho)
  · right
    rw [hex, rgb_of_all_lightness (h.bounded start.bounded) all]
    decide

/-- What becomes of a colour that text is put on: it is darkened under white text, or lightened
under dark text, whichever reads better at first. -/
inductive Settles (dark : Rgb) (c : Hsl) : Pairing → Prop where
  | underWhite {base : Hsl} (better : c.rgb.contrast dark ≤ c.rgb.contrast .white)
      (moves : Darkens textContrast [.white] c base) : Settles dark c ⟨base, .white⟩
  | underDark {base : Hsl} (better : ¬c.rgb.contrast dark ≤ c.rgb.contrast .white)
      (moves : Lightens textContrast [dark] c base) : Settles dark c ⟨base, dark⟩

theorem Start.settles (h : Start c) (dark : Rgb) : Settles dark c (c.pairing dark) := by
  rw [pairing]
  split
  next better => exact .underWhite better h.darkens
  next better => exact .underDark better h.lightens

/-- The text is white or dark, and it can be read unless the colour has come to the other end. -/
theorem Start.legible {dark : Rgb} {p : Pairing} (start : Start c) (h : Settles dark c p) :
    p.text.hex = "#ffffff" ∧
        (Legible textContrast p.base.hex p.text.hex ∨ p.base.hex = "#000000") ∨
      p.text = dark ∧ (Legible textContrast p.base.hex p.text.hex ∨ p.base.hex = "#ffffff") := by
  cases h with
  | underWhite _ moves =>
    have white : Rgb.white.hex = "#ffffff" := by decide
    refine .inl ⟨white, (start.legible_or_black moves).imp_left fun legible => ?_⟩
    exact legible _ List.mem_cons_self
  | underDark _ moves =>
    refine .inr ⟨rfl, (start.legible_or_white moves).imp_left fun legible => ?_⟩
    exact legible _ List.mem_cons_self

end Hsl

namespace Palette

/-- The lightnesses that the colours of a palette are moved from. -/
theorem spans_of_mem : ∀ l ∈ [(0.12 : Float32), 0.42, 0.45, 0.50], Hsl.Spans l := by
  decide +kernel

/-- The roles of colours with text on them. -/
def roleNames : List String :=
  ["primary", "secondary", "accent", "success", "warning", "danger", "info"]

variable (scene : Scene) (hueBits : UInt16) (seed : UInt64)

/-- The colours that text is put on, by their role, before they are moved. -/
def starts : List (String × Hsl) :=
  scene.leads hueBits seed ++ statusColors

theorem map_fst_starts : (starts scene hueBits seed).map (·.1) = roleNames := rfl

/-- The colours with text on them, by their role. -/
def pairings (p : Palette) : List (String × Pairing) :=
  p.roles ++ p.statuses

theorem pairings_make : (make scene hueBits seed).pairings =
    (starts scene hueBits seed).map fun (role, c) =>
      (role, c.pairing (make scene hueBits seed).foreground.rgb) :=
  rfl

theorem start_ofHue {hue saturation lightness : Float32} (hh : Within 33 hue)
    (hs : Within 10 saturation) (hl : lightness ∈ [(0.12 : Float32), 0.42, 0.45, 0.50]) :
    (Hsl.ofHue hue saturation lightness).Start :=
  ⟨Hsl.bounded_ofHue hh hs, spans_of_mem lightness hl⟩

theorem start_of_mem : ∀ e ∈ starts scene hueBits seed, e.2.Start := by
  have hue := scene.within_hue hueBits
  have saturation := scene.within_saturation seed
  have style : Within 31 scene.colorStyle.secondary ∧ Within 31 scene.colorStyle.accent := by
    cases scene <;> decide +kernel
  have softer := (saturation.mul (y := 0.8) (l := 0) (by decide +kernel) (by decide)).mono
    (by decide : 9 ≤ 10)
  have stronger := saturation.add (y := 0.1) (by decide +kernel) (by decide)
  simp only [starts, Scene.leads, statusColors, List.cons_append, List.nil_append,
    List.forall_mem_cons, List.not_mem_nil, false_implies, implies_true, and_true]
  refine ⟨?_, ?_, ?_, ?_, ?_, ?_, ?_⟩
  · exact start_ofHue (hue.mono (by decide)) (saturation.mono (by decide)) (by simp)
  · exact start_ofHue (hue.add style.1 (by decide)) softer (by simp)
  · exact start_ofHue (hue.add style.2 (by decide)) (stronger.ite (by decide +kernel)) (by simp)
  all_goals exact start_ofHue (by decide +kernel) (by decide +kernel) (by simp)

/-- Where the foreground starts from. -/
def foregroundStart : Hsl :=
  .ofHue (scene.hue hueBits) 0.15 0.12

/-- Where muted text starts from. -/
def mutedStart : Hsl :=
  .ofHue (scene.hue hueBits) 0.10 0.42

theorem start_foregroundStart : (foregroundStart scene hueBits).Start :=
  start_ofHue ((scene.within_hue hueBits).mono (by decide)) (by decide +kernel) (by simp)

theorem start_mutedStart : (mutedStart scene hueBits).Start :=
  start_ofHue ((scene.within_hue hueBits).mono (by decide)) (by decide +kernel) (by simp)

/-- The colour that the tokens of a palette give a name. -/
def written? (p : Palette) (name : String) : Option String :=
  (Table.ofList p.tokens).get? ("color-" ++ name)

/-- The tokens of a palette have different names. -/
theorem written?_of_mem {name value : String}
    (h : ("color-" ++ name, value) ∈ (make scene hueBits seed).tokens) :
    (make scene hueBits seed).written? name = some value :=
  Table.get?_insertAll_of_mem .empty (map_fst_palette scene hueBits seed ▸ by decide) h

theorem written?_of_mem_pairings {name : String} {pair : Pairing}
    (h : (name, pair) ∈ (make scene hueBits seed).pairings) :
    (make scene hueBits seed).written? name = some pair.base.hex ∧
      (make scene hueBits seed).written? (name ++ "-foreground") = some pair.text.hex := by
  have tokens : ∀ e ∈ pairTokens name pair, e ∈ (make scene hueBits seed).tokens := by
    intro e he
    rw [Palette.tokens]
    obtain role | status := List.mem_append.mp h
    · refine List.mem_append_left _ (List.mem_append_right _ (List.mem_flatMap.mpr ⟨_, role, ?_⟩))
      exact List.mem_append_left _ he
    · exact List.mem_append_right _ (List.mem_flatMap.mpr ⟨_, status, he⟩)
  have base := tokens ("color-" ++ name, pair.base.hex) (by simp [pairTokens])
  have text := tokens ("color-" ++ (name ++ "-foreground"), pair.text.hex)
    (by simp [pairTokens, String.append_assoc])
  exact ⟨written?_of_mem scene hueBits seed base, written?_of_mem scene hueBits seed text⟩

/-- A colour that text is put on has been moved away from the text, and the two are written as they
came to rest: the text is white, and can be read unless the colour has got black, or the text is the
foreground, and can be read unless the colour has got white. The foreground has been moved away from
the background, and muted text from the background and the muted colour, and they can be read there
unless they have got black. That they can be read is told of what is written. -/
theorem pairs_legible (scene : Scene) (hueBits : UInt16) (seed : UInt64) :
    let p := make scene hueBits seed
    (∀ role ∈ roleNames, ∃ start pair, (role, start) ∈ starts scene hueBits seed ∧
      Hsl.Settles p.foreground.rgb start pair ∧
      p.written? role = some pair.base.hex ∧
      p.written? (role ++ "-foreground") = some pair.text.hex ∧
      (pair.text.hex = "#ffffff" ∧
          (Legible 4.5 pair.base.hex pair.text.hex ∨ pair.base.hex = "#000000") ∨
        pair.text.hex = p.foreground.hex ∧
          (Legible 4.5 pair.base.hex pair.text.hex ∨ pair.base.hex = "#ffffff"))) ∧
    (p.written? "background" = some p.background.hex ∧
      p.written? "foreground" = some p.foreground.hex ∧
      p.written? "muted" = some p.muted.hex ∧
      p.written? "muted-foreground" = some p.mutedForeground.hex) ∧
    (Hsl.Darkens 7 [p.background.rgb] (foregroundStart scene hueBits) p.foreground ∧
      (Legible 7 p.foreground.hex p.background.hex ∨ p.foreground.hex = "#000000")) ∧
    (Hsl.Darkens 4.5 [p.background.rgb, p.muted.rgb] (mutedStart scene hueBits) p.mutedForeground ∧
      (Legible 4.5 p.mutedForeground.hex p.background.hex ∧
          Legible 4.5 p.mutedForeground.hex p.muted.hex ∨
        p.mutedForeground.hex = "#000000")) := by
  intro p
  have there {name value : String} :
      ("color-" ++ name, value) ∈ p.tokens → p.written? name = some value :=
    written?_of_mem scene hueBits seed
  refine ⟨fun role hr => ?_, ⟨there (by simp [tokens]), there (by simp [tokens]),
    there (by simp [tokens]), there (by simp [tokens])⟩, ?_, ?_⟩
  · rw [← map_fst_starts scene hueBits seed] at hr
    obtain ⟨⟨role, start⟩, hs, rfl⟩ := List.mem_map.mp hr
    have known := start_of_mem scene hueBits seed _ hs
    have settles := known.settles p.foreground.rgb
    have written : (role, start.pairing p.foreground.rgb) ∈ p.pairings :=
      pairings_make scene hueBits seed ▸ List.mem_map.mpr ⟨_, hs, rfl⟩
    obtain ⟨base, text⟩ := written?_of_mem_pairings scene hueBits seed written
    refine ⟨start, _, hs, settles, base, text, (known.legible settles).imp_right ?_⟩
    exact fun ⟨dark, legible⟩ => ⟨congrArg Rgb.hex dark, legible⟩
  · have start := start_foregroundStart scene hueBits
    have darkens : Hsl.Darkens 7 [p.background.rgb] _ p.foreground := start.darkens
    refine ⟨darkens, (start.legible_or_black darkens).imp_left fun legible => ?_⟩
    exact legible _ List.mem_cons_self
  · have start := start_mutedStart scene hueBits
    have darkens : Hsl.Darkens 4.5 [p.background.rgb, p.muted.rgb] _ p.mutedForeground :=
      start.darkens
    refine ⟨darkens, (start.legible_or_black darkens).imp_left fun legible => ⟨?_, ?_⟩⟩
    · exact legible _ List.mem_cons_self
    · exact legible _ (List.mem_cons_of_mem _ List.mem_cons_self)

theorem pairs_legible_danger :
    "danger" ∈ roleNames ∧ ∃ start pair, ("danger", start) ∈ starts .playful 1234 99 ∧
      Hsl.Settles (make .playful 1234 99).foreground.rgb start pair ∧
      (make .playful 1234 99).written? "danger" = some pair.base.hex ∧
      (make .playful 1234 99).written? ("danger" ++ "-foreground") = some pair.text.hex ∧
      (pair.text.hex = "#ffffff" ∧
          (Legible 4.5 pair.base.hex pair.text.hex ∨ pair.base.hex = "#000000") ∨
        pair.text.hex = (make .playful 1234 99).foreground.hex ∧
          (Legible 4.5 pair.base.hex pair.text.hex ∨ pair.base.hex = "#ffffff")) :=
  ⟨by decide, (pairs_legible .playful 1234 99).1 "danger" (by decide)⟩

end Palette

end Wireframe.Design
