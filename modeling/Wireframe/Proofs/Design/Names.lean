import Wireframe.Design.Params
import Wireframe.Proofs.Table

/-!
# Names of the tokens of a design

Whatever the categories and the hash, a design is expanded into tokens with the same names in the
same order (`map_fst_expanded`). A design on a small screen has one more
(`get?_derived_eq_none_iff`), and the values set by hand add theirs and go before all others
(`get?_tokens`).
-/

namespace Wireframe.Design

def Density.names : List String :=
  ["spacing-density", "spacing-unit", "spacing-xs", "spacing-sm", "spacing-md", "spacing-lg",
    "spacing-xl", "spacing-2xl"]

def TypeScale.names : List String :=
  ["type-scale", "type-scale-ratio", "font-size-xs", "font-size-sm", "font-size-base",
    "font-size-lg", "font-size-xl", "font-size-2xl", "font-size-3xl", "line-height-tight",
    "line-height-normal", "line-height-relaxed", "font-family-body", "font-family-heading",
    "font-family-mono", "font-weight-body", "font-weight-heading"]

def ShapeStyle.names : List String :=
  ["radius-style", "radius-sm", "radius-md", "radius-lg", "radius-full", "radius-button",
    "radius-input", "radius-card"]

def Ornament.names : List String :=
  ["ornament-level", "shadow-sm", "shadow-md", "shadow-lg", "border-width", "ornament-blur",
    "ornament-gradient"]

def Palette.names : List String :=
  ["color-style", "color-hue", "color-background", "color-foreground", "color-surface",
    "color-muted", "color-muted-foreground", "color-border", "color-primary",
    "color-primary-foreground", "color-primary-hover", "color-secondary",
    "color-secondary-foreground", "color-secondary-hover", "color-accent",
    "color-accent-foreground", "color-accent-hover", "color-success", "color-success-foreground",
    "color-warning", "color-warning-foreground", "color-danger", "color-danger-foreground",
    "color-info", "color-info-foreground"]

/-- The names of the tokens of every design. -/
def names : List String :=
  Density.names ++ TypeScale.names ++ ShapeStyle.names ++ Ornament.names ++ Palette.names

theorem touchTarget_not_mem_names : touchTarget.1 ∉ names := by decide +kernel

theorem map_fst_density (d : Density) : d.tokens.map (·.1) = Density.names := rfl

theorem map_fst_typeScale (s : TypeScale) (scene : Scene) :
    (s.tokens scene).map (·.1) = TypeScale.names := rfl

theorem map_fst_shape (s : ShapeStyle) : s.tokens.map (·.1) = ShapeStyle.names := rfl

theorem map_fst_ornament (o : Ornament) : o.tokens.map (·.1) = Ornament.names := rfl

theorem map_fst_palette (scene : Scene) (hueBits : UInt16) (seed : UInt64) :
    (Palette.make scene hueBits seed).tokens.map (·.1) = Palette.names := rfl

/-- The value of a token on a small screen. -/
def resized (token value : String) : String :=
  (compressed? token value).getD value

theorem get?_compress (t : Tokens) (k : String) :
    (Tokens.compress t).get? k =
      if k = touchTarget.1 then some touchTarget.2 else (t.get? k).map (resized k) := by
  rw [Tokens.compress, Table.get?_insert, Table.get?_mapValues]
  rfl

namespace Params

theorem map_fst_expanded (p : Params) : p.expanded.map (·.1) = names := by
  unfold expanded
  -- The categories stay unevaluated.
  generalize p.categories = c
  rw [List.map_append, List.map_append, List.map_append, List.map_append, map_fst_density,
    map_fst_typeScale, map_fst_shape, map_fst_ornament, map_fst_palette]
  rfl

theorem get?_expanded_eq_none_iff (p : Params) (k : String) :
    (Table.ofList p.expanded).get? k = none ↔ k ∉ Design.names := by
  have absent : (Table.ofList p.expanded).get? k = none ↔ _ :=
    Table.get?_insertAll_eq_none_iff .empty p.expanded k
  rw [absent, and_iff_right (Table.get?_empty k), ← map_fst_expanded p, List.mem_map]
  simp only [not_exists, not_and, ne_eq]

/-- The names of the tokens that a design has on its platform, before values are set by hand. -/
def names (p : Params) : List String :=
  match p.platform with
  | .web => Design.names
  | .mobile => touchTarget.1 :: Design.names

theorem mem_names {p : Params} {k : String} (h : k ∈ p.names) :
    k ∈ touchTarget.1 :: Design.names := by
  unfold names at h
  cases hp : p.platform with
  | web => rw [hp] at h; exact List.mem_cons_of_mem _ h
  | mobile => rw [hp] at h; exact h

theorem get?_derived_eq_none_iff (p : Params) (k : String) :
    p.derived.get? k = none ↔ k ∉ p.names := by
  unfold derived names
  cases p.platform with
  | web => exact p.get?_expanded_eq_none_iff k
  | mobile =>
    dsimp only [Tokens.compress]
    rw [Table.get?_insert_eq_none_iff, Table.get?_mapValues, Option.map_eq_none_iff,
      get?_expanded_eq_none_iff, List.mem_cons, not_or, and_comm, ne_comm]

/-- The values set by hand go before all others. -/
theorem get?_tokens (p : Params) (k : String) :
    p.tokens.get? k = (p.overrides.get? k).or (p.derived.get? k) :=
  Table.get?_insertAll p.derived p.overrides.sorted k

end Params

end Wireframe.Design
