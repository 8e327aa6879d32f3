import Wireframe.Split

/-!
# Paths

A path is a text whose parts are set off by slashes.
-/

namespace Wireframe.Path

/-- A path seen from a directory. An absolute one stands for itself. -/
def join (directory path : String) : String :=
  if path.toList.head? = some '/' then path
  else if directory = "" ∨ directory.toList.getLast? = some '/' then directory ++ path
  else directory ++ "/" ++ path

/-- Whether a part of a path leads nowhere else. -/
def idle (part : List Char) : Bool :=
  part = [] || part = ['.']

/-- A path without the parts at its ends that lead nowhere else. -/
def trimmed (path : List Char) : String :=
  let parts := (splitWhere (· = '/') path).dropWhile idle
  let parts := (parts.reverse.dropWhile idle).reverse
  String.ofList (['/'].intercalate parts)

/-- What follows a first part that stands for the home directory. -/
def behindHome? (path : String) : Option String :=
  match path.toList with
  | ['~'] => some ""
  | '~' :: '/' :: rest => some (trimmed rest)
  | _ => none

/-- A path whose first part may stand for the home directory. -/
def expandHome (home : Option String) (path : String) : String :=
  match home, behindHome? path with
  | some home, some rest => join home rest
  | _, _ => path

end Wireframe.Path
