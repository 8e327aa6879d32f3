import Wireframe.Timestamp.Basic

/-!
# What surrounds the program

The command line reads and writes texts, tells the time and makes up ids through the operations of a
host, so that it runs in any monad that has them.
-/

namespace Wireframe.CommandLine

/-- Why a file cannot be read or written. -/
inductive FileFailure where
  | notFound
  | alreadyThere
  | notDirectory
  | isDirectory
  | notText
  /-- What the host says. -/
  | other (text : String)
deriving Repr, DecidableEq

def FileFailure.message : FileFailure → String
  | notFound => "No such file or directory (os error 2)"
  | alreadyThere => "File exists (os error 17)"
  | notDirectory => "Not a directory (os error 20)"
  | isDirectory => "Is a directory (os error 21)"
  | notText => "stream did not contain valid UTF-8"
  | other text => text

structure Host (m : Type → Type) where
  input : m (Except FileFailure String)
  load : String → m (Except FileFailure String)
  /-- Writes a file; the directories on its path are made where they are missing. -/
  save : String → String → m (Except FileFailure Unit)
  now : m Timestamp
  /-- An id that no session has. -/
  freshId : m String
  home : m (Option String)

/-- What comes of running the program. -/
structure Outcome where
  code : Nat
  output : String := ""
  errors : String := ""
deriving Repr, DecidableEq

end Wireframe.CommandLine
