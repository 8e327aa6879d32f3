import Wireframe.Design.Hash
import Wireframe.Text.Basic
import Wireframe.Text.LowerCase

/-!
# Categories of designs

A design is described by one category in each of its dimensions. The scene comes first: words in
the context may give it away, otherwise the hash picks it. The scene narrows down what the hash may
pick in the other dimensions, each by a slice of its own.
-/

namespace Wireframe.Design

inductive Scene where
  | professional
  | playful
  | elegant
  | energetic
deriving Repr, DecidableEq

inductive Density where
  | compact
  | normal
  | spacious
deriving Repr, DecidableEq

inductive TypeScale where
  | minorThird
  | majorThird
  | perfectFourth
  | augmentedFourth
deriving Repr, DecidableEq

inductive ShapeStyle where
  | sharp
  | soft
  | rounded
  | pill
deriving Repr, DecidableEq

inductive Ornament where
  | none
  | subtle
  | rich
deriving Repr, DecidableEq

/-- The categories that there are to pick from, at least one. -/
structure Choices (α : Type) where
  first : α
  others : List α

def Choices.toList (c : Choices α) : List α :=
  c.first :: c.others

/-- The choice that a number picks, going round. -/
def Choices.pick (c : Choices α) (n : UInt64) : α :=
  c.toList.getD (n.toNat % c.toList.length) c.first

theorem Choices.pick_mem (c : Choices α) (n : UInt64) : c.pick n ∈ c.toList := by
  have h : n.toNat % c.toList.length < c.toList.length :=
    Nat.mod_lt _ (by simp [toList])
  rw [pick, List.getD_eq_getElem?_getD, List.getElem?_eq_getElem h]
  exact List.getElem_mem h

namespace Scene

def all : Choices Scene := ⟨professional, [playful, elegant, energetic]⟩

def name : Scene → String
  | professional => "professional"
  | playful => "playful"
  | elegant => "elegant"
  | energetic => "energetic"

def densities : Scene → Choices Density
  | professional => ⟨.compact, [.normal]⟩
  | playful => ⟨.normal, [.spacious]⟩
  | elegant => ⟨.normal, [.spacious]⟩
  | energetic => ⟨.compact, [.normal]⟩

def typeScales : Scene → Choices TypeScale
  | professional => ⟨.minorThird, [.majorThird]⟩
  | playful => ⟨.majorThird, [.perfectFourth]⟩
  | elegant => ⟨.perfectFourth, [.augmentedFourth]⟩
  | energetic => ⟨.majorThird, [.perfectFourth, .augmentedFourth]⟩

def shapes : Scene → Choices ShapeStyle
  | professional => ⟨.sharp, [.soft]⟩
  | playful => ⟨.rounded, [.pill]⟩
  | elegant => ⟨.sharp, [.soft]⟩
  | energetic => ⟨.soft, [.rounded, .pill]⟩

def ornaments : Scene → Choices Ornament
  | professional => ⟨.none, [.subtle]⟩
  | playful => ⟨.subtle, [.rich]⟩
  | elegant => ⟨.none, [.subtle]⟩
  | energetic => ⟨.subtle, [.rich]⟩

/-- The words that give a scene away, in the order in which the scenes are tried. -/
def hints : List (Scene × List String) :=
  [(professional,
      ["enterprise", "admin", "dashboard", "finance", "bank", "saas", "b2b", "crm", "erp",
        "企业", "管理", "金融", "后台", "办公"]),
    (playful, ["kids", "children", "game", "toy", "儿童", "游戏", "玩具", "幼儿"]),
    (elegant,
      ["luxury", "fashion", "jewelry", "wedding", "boutique", "奢侈", "时尚", "珠宝", "婚礼"]),
    (energetic, ["fitness", "sport", "gym", "music", "festival", "运动", "健身", "音乐"])]

/-- The first scene of which a word occurs in a context, in any case and inside other words. -/
def hintedBy? (context : String) : Option Scene :=
  let lowered := (Text.lower context).toList
  (hints.find? fun h => h.2.any fun word => Text.occursIn word.toList lowered).map (·.1)

end Scene

def Density.name : Density → String
  | compact => "compact"
  | normal => "normal"
  | spacious => "spacious"

namespace TypeScale

def name : TypeScale → String
  | minorThird => "minor-third"
  | majorThird => "major-third"
  | perfectFourth => "perfect-fourth"
  | augmentedFourth => "augmented-fourth"

/-- The factor between a size and the next. -/
def ratio : TypeScale → Float
  | minorThird => 1.2
  | majorThird => 1.25
  | perfectFourth => 1.333
  | augmentedFourth => 1.414

end TypeScale

def ShapeStyle.name : ShapeStyle → String
  | sharp => "sharp"
  | soft => "soft"
  | rounded => "rounded"
  | pill => "pill"

def Ornament.name : Ornament → String
  | none => "none"
  | subtle => "subtle"
  | rich => "rich"

/-- One category of each dimension, and 16 bits for the hue. -/
structure Categories where
  scene : Scene
  density : Density
  typeScale : TypeScale
  shape : ShapeStyle
  ornament : Ornament
  hueBits : UInt16
deriving Repr, DecidableEq

/-- The categories of a context whose hash is given. -/
def Categories.select (context : String) (hash : UInt64) : Categories :=
  let scene := (Scene.hintedBy? context).getD (Scene.all.pick (bitSlice hash 0 8))
  { scene
    density := scene.densities.pick (bitSlice hash 8 8)
    typeScale := scene.typeScales.pick (bitSlice hash 16 8)
    shape := scene.shapes.pick (bitSlice hash 24 8)
    ornament := scene.ornaments.pick (bitSlice hash 32 8)
    hueBits := (bitSlice hash 40 16).toUInt16 }

end Wireframe.Design
