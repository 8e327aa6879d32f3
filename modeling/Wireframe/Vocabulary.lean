import Wireframe.Kind
import Wireframe.Table
import Wireframe.Value

/-!
# The vocabulary of outlines

Plain tables: which tags name which kinds and what a tag says beyond its kind, under which names
props may be written, which values have several spellings, and the props that a kind has without
being told. A key or a value that no table lists stands for itself.
-/

namespace Wireframe.Vocabulary

/-- The tags, in capitals. -/
def tags : List (String × Kind) :=
  [("SECTION", .section), ("CONTAINER", .container), ("BOX", .container), ("DIV", .container),
    ("GRID", .grid), ("FLEX", .flex), ("ROW", .flex), ("COLUMN", .flex), ("STACK", .flex),
    ("SPACER", .spacer), ("CARD", .card), ("TEXT", .text), ("P", .text), ("PARAGRAPH", .text),
    ("LABEL", .text), ("IMAGE", .image), ("IMG", .image), ("ICON", .icon), ("BADGE", .badge),
    ("TAG", .badge), ("LINK", .link), ("A", .link), ("BUTTON", .button), ("BTN", .button),
    ("INPUT", .input), ("TEXTAREA", .input), ("TABLE", .table), ("LIST", .list), ("TABS", .tabs),
    ("ALERT", .alert), ("MODAL", .modal), ("DIALOG", .modal), ("DIVIDER", .divider),
    ("HR", .divider), ("CODE", .code), ("FORM", .form), ("HEADER", .header), ("FOOTER", .footer),
    ("SIDEBAR", .sidebar), ("NAV", .nav), ("NAVBAR", .nav), ("HEADING", .heading),
    ("TITLE", .heading), ("H1", .heading), ("H2", .heading), ("H3", .heading), ("QUOTE", .quote),
    ("BLOCKQUOTE", .quote), ("MOBILE_HEADER", .mobileHeader), ("APP_BAR", .mobileHeader),
    ("TAB_BAR", .tabBar), ("BOTTOM_NAV", .tabBar), ("BOTTOM_SHEET", .bottomSheet), ("FAB", .fab),
    ("LIST_ITEM", .listItem), ("ITEM", .listItem)]

/-- The kind that a tag names, in any case. -/
def kindOf? (tag : String) : Option Kind :=
  tags.lookup (Text.asciiUpper tag)

/-- What a tag, given in capitals, says beyond its kind. -/
def implied (tag : String) : List (String × Value) :=
  match tag with
  | "H1" => [("level", .number 1)]
  | "H2" => [("level", .number 2)]
  | "H3" => [("level", .number 3)]
  | "COLUMN" | "STACK" => [("direction", .text "column")]
  | "ROW" => [("direction", .text "row")]
  | "TEXTAREA" => [("multiline", .bool true)]
  | _ => []

/-- The spellings of keys, in small letters, and the keys that they stand for. -/
def keys : List (String × String) :=
  [("classname", "className"), ("class", "className"), ("classes", "className"),
    ("variant", "variant"), ("size", "size"), ("src", "src"), ("source", "src"),
    ("image", "src"), ("alt", "alt"), ("href", "href"), ("link", "href"), ("url", "href"),
    ("to", "href"), ("target", "target"), ("placeholder", "placeholder"), ("type", "type"),
    ("inputtype", "type"), ("label", "label"), ("title", "title"), ("icon", "icon"),
    ("name", "name"), ("value", "value"), ("level", "level"), ("cols", "cols"),
    ("columns", "cols"), ("rows", "rows"), ("gap", "gap"), ("spacing", "gap"),
    ("padding", "padding"), ("margin", "margin"), ("direction", "direction"),
    ("dir", "direction"), ("align", "align"), ("alignitems", "align"), ("justify", "justify"),
    ("justifycontent", "justify"), ("wrap", "wrap"), ("width", "width"), ("height", "height"),
    ("color", "color"), ("disabled", "disabled"), ("required", "required"), ("open", "open"),
    ("ordered", "ordered"), ("items", "items"), ("headers", "headers"),
    ("language", "language"), ("lang", "language"), ("cite", "cite"), ("author", "cite"),
    ("position", "position"), ("orientation", "orientation"), ("id", "id"),
    ("content", "content"), ("text", "content")]

/-- The key that a spelling stands for. -/
def canonicalKey (key : String) : String :=
  (keys.lookup (Text.asciiLower key)).getD key

/-- The keys whose values are words with several spellings. -/
def enumerated : List String :=
  ["variant", "size", "direction", "align", "justify", "position", "orientation", "type"]

/-- The keys whose values are truth values. -/
def booleans : List String :=
  ["disabled", "required", "open", "ordered", "wrap", "multiline"]

/-- The spellings of words, in small letters, and the words that they stand for. -/
def words : List (String × String) :=
  [("primary", "primary"), ("secondary", "secondary"), ("outline", "outline"),
    ("outlined", "outline"), ("ghost", "ghost"), ("link", "link"),
    ("destructive", "destructive"), ("danger", "destructive"), ("error", "destructive"),
    ("default", "default"), ("info", "info"), ("success", "success"), ("warning", "warning"),
    ("xs", "xs"), ("extrasmall", "xs"), ("sm", "sm"), ("small", "sm"), ("md", "md"),
    ("medium", "md"), ("lg", "lg"), ("large", "lg"), ("xl", "xl"), ("extralarge", "xl"),
    ("row", "row"), ("horizontal", "horizontal"), ("vertical", "vertical"),
    ("column", "column"), ("col", "column"), ("start", "start"), ("left", "start"),
    ("top", "top"), ("center", "center"), ("centre", "center"), ("middle", "center"),
    ("end", "end"), ("right", "end"), ("bottom", "bottom"), ("between", "between"),
    ("space-between", "between"), ("around", "around"), ("space-around", "around"),
    ("stretch", "stretch"), ("email", "email"), ("password", "password"),
    ("number", "number"), ("search", "search"), ("tel", "tel"),
    ("bottom-right", "bottom-right"), ("bottom-left", "bottom-left")]

/-- The spellings of truth values, in small letters. -/
def truths : List (String × Bool) :=
  [("true", true), ("yes", true), ("false", false), ("no", false)]

/-- The value that a value of a key, given in its canonical form, stands for. -/
def canonicalValue (key : String) (v : Value) : Value :=
  match v with
  | .text s =>
    let spelling := Text.asciiLower (Text.trim s)
    if key ∈ enumerated then (words.lookup spelling).elim v .text
    else if key ∈ booleans then (truths.lookup spelling).elim v .bool
    else v
  | _ => v

/-- The props that a kind has without being told. -/
def defaults : Kind → Table Value
  | .button => .ofList [("variant", .text "primary"), ("size", .text "md")]
  | .heading => .ofList [("level", .number 2)]
  | .grid => .ofList [("cols", .number 2), ("gap", .text "md")]
  | .flex => .ofList [("direction", .text "row"), ("gap", .text "md")]
  | .spacer => .ofList [("size", .text "md")]
  | .image => .ofList [("alt", .text "")]
  | .icon => .ofList [("size", .text "md")]
  | .badge => .ofList [("variant", .text "default")]
  | .input => .ofList [("type", .text "text")]
  | .alert => .ofList [("variant", .text "info")]
  | .modal | .bottomSheet => .ofList [("open", .bool false)]
  | .divider => .ofList [("orientation", .text "horizontal")]
  | .code => .ofList [("language", .text "text")]
  | .list => .ofList [("ordered", .bool false)]
  | .link => .ofList [("href", .text "#")]
  | .tabBar => .ofList [("position", .text "bottom")]
  | .fab => .ofList [("position", .text "bottom-right"), ("icon", .text "plus")]
  | _ => .empty

end Wireframe.Vocabulary
