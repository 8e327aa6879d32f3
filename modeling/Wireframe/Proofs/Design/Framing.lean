import Wireframe.Proofs.Design.Names

/-!
# What overrides and the platform change

A value that is set by hand stands for its own name and for no other, on every platform. Going from
one platform to the other touches the names with certain beginnings (`Resized`) and the name that
only a small screen has, where they are not set by hand (`tokens_framed`).
-/

namespace Wireframe.Design

/-- The names of the tokens that may have another value on a small screen. -/
def Resized (token : String) : Prop :=
  ∃ start ∈ ["spacing-", "font-size-", "line-height-"], Text.startsWith token start = true

instance (token : String) : Decidable (Resized token) :=
  inferInstanceAs (Decidable (∃ start ∈ _, _))

theorem compressed?_eq_none {token : String} (h : ¬Resized token) (value : String) :
    compressed? token value = none := by
  have apart : ∀ start ∈ ["spacing-", "font-size-", "line-height-"],
      ¬Text.startsWith token start = true := fun start listed starts => h ⟨start, listed, starts⟩
  rw [compressed?, if_neg (apart _ (by decide)), if_neg (apart _ (by decide)),
    if_neg (apart _ (by decide))]

theorem resized_eq {token : String} (h : ¬Resized token) (value : String) :
    resized token value = value := by
  rw [resized, compressed?_eq_none h, Option.getD_none]

namespace Params

/-- The same design without values set by hand. -/
def plain (p : Params) : Params :=
  { p with overrides := .empty }

/-- The same design on another platform. -/
def on (p : Params) (platform : Platform) : Params :=
  { p with platform }

theorem on_platform (p : Params) : p.on p.platform = p := rfl

theorem on_eq {p : Params} {platform : Platform} (h : p.platform = platform) :
    p.on platform = p := by
  rw [← h, on_platform]

theorem get?_derived_mobile (p : Params) (k : String) :
    (p.on .mobile).derived.get? k =
      if k = touchTarget.1 then some touchTarget.2
      else ((p.on .web).derived.get? k).map (resized k) :=
  get?_compress (p.on .web).derived k

/-- On every platform a token has its value on the web, unless it is one of those that a small
screen resizes or adds. -/
theorem get?_derived_on (p : Params) (platform : Platform) {k : String} (h : ¬Resized k)
    (touch : k ≠ touchTarget.1) : (p.on platform).derived.get? k = (p.on .web).derived.get? k := by
  cases platform with
  | web => rfl
  | mobile =>
    have same : resized k = id := funext fun value => resized_eq h value
    rw [get?_derived_mobile, if_neg touch, same, Option.map_id_fun, id]

theorem get?_derived_touchTarget (p : Params) :
    p.derived.get? touchTarget.1 = match p.platform with
      | .web => none
      | .mobile => some touchTarget.2 := by
  cases hp : p.platform with
  | web =>
    refine (p.get?_derived_eq_none_iff _).mpr ?_
    rw [names, hp]
    exact touchTarget_not_mem_names
  | mobile => rw [← on_eq hp, get?_derived_mobile, if_pos rfl]

theorem get?_tokens_on (p : Params) (platform : Platform) (k : String) :
    (p.on platform).tokens.get? k =
      (p.overrides.get? k).or ((p.on platform).derived.get? k) :=
  (p.on platform).get?_tokens k

/-- A value that is set by hand is the value of its name, and every other name has the value that it
has without values set by hand. Two designs that differ in their platforms alone agree on the names
that are set by hand and on those that a small screen neither resizes nor adds. Of the others, those
that it may resize have the resized value there, and the one that it adds is there and not on the
web. -/
theorem tokens_framed (p : Params) (k : String) :
    p.tokens.get? k = (p.overrides.get? k).or (p.plain.tokens.get? k) ∧
    (∀ platform, p.overrides.get? k ≠ none ∨ ¬Resized k ∧ k ≠ "touch-target-min" →
      (p.on platform).tokens.get? k = p.tokens.get? k) ∧
    (p.overrides.get? k = none → k ≠ "touch-target-min" →
      (p.on .mobile).tokens.get? k = ((p.on .web).tokens.get? k).map (resized k)) ∧
    (p.overrides.get? "touch-target-min" = none →
      p.tokens.get? "touch-target-min" = match p.platform with
        | .web => none
        | .mobile => some "44px") := by
  refine ⟨p.get?_tokens k, fun platform kept => ?_, fun unset touch => ?_, fun unset => ?_⟩
  · rw [get?_tokens_on, get?_tokens]
    obtain set | ⟨fixed, touch⟩ := kept
    · obtain ⟨v, hv⟩ := Option.ne_none_iff_exists'.mp set
      rw [hv, Option.some_or, Option.some_or]
    · have here := p.get?_derived_on p.platform fixed touch
      rw [p.get?_derived_on platform fixed touch, ← here, on_platform]
  · have other : k ≠ touchTarget.1 := touch
    rw [get?_tokens_on, get?_tokens_on, unset, Option.none_or, Option.none_or,
      get?_derived_mobile, if_neg other]
  · rw [get?_tokens, unset, Option.none_or]
    exact p.get?_derived_touchTarget

theorem tokens_framed_shop :
    let p : Params :=
      { context := "shop", overrides := .ofList [("brand", "kite"), ("spacing-md", "20px")] }
    let q := p.on .mobile
    q.tokens.get? "spacing-md" = p.tokens.get? "spacing-md" ∧
    q.tokens.get? "color-hue" = p.tokens.get? "color-hue" ∧
    q.tokens.get? "spacing-lg" = (p.tokens.get? "spacing-lg").map (resized "spacing-lg") ∧
    p.tokens.get? "touch-target-min" = none ∧
    q.tokens.get? "touch-target-min" = some "44px" := by
  intro p q
  refine ⟨?_, ?_, ?_, ?_, ?_⟩
  · exact (tokens_framed p "spacing-md").2.1 .mobile (.inl (by decide))
  · exact (tokens_framed p "color-hue").2.1 .mobile (.inr (by decide))
  · exact (tokens_framed p "spacing-lg").2.2.1 (by decide) (by decide)
  · exact (tokens_framed p "").2.2.2 (by decide)
  · exact (tokens_framed q "").2.2.2 (by decide)

end Params

end Wireframe.Design
