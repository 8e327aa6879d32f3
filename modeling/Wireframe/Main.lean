import Std.Time.DateTime.Timestamp
import Wireframe.CommandLine.Run

/-!
# The program

The host of the program is the machine that it runs on.
-/

namespace Wireframe.CommandLine

/-- What a failed operation on files says. Some of these operations give the number of the failure
negated. -/
def FileFailure.ofError : IO.Error → FileFailure
  | .noFileOrDirectory .. => .notFound
  | .alreadyExists .. => .alreadyThere
  | .inappropriateType _ number _ =>
    if number = 20 ∨ number = 0 - 20 then .notDirectory else .isDirectory
  | .permissionDenied .. => .other "Permission denied (os error 13)"
  | e => .other (toString e)

/-- An operation on files, whose failure is a value. -/
def attempt {α : Type} (operation : IO α) : IO (Except FileFailure α) := do
  match ← operation.toBaseIO with
  | .ok a => return .ok a
  | .error e => return .error (.ofError e)

/-- The text that bytes spell. -/
def spelled (bytes : ByteArray) : Except FileFailure String :=
  match String.fromUTF8? bytes with
  | some text => .ok text
  | none => .error .notText

/-- The directory of a file; nothing for the working directory. -/
def directory? (path : String) : Option String :=
  match path.toList.reverse.dropWhile (· ≠ '/') with
  | [] => none
  | rest => some (String.ofList rest.reverse)

/-- An id of 122 random bits, written like every id of its kind. -/
def randomId : IO String := do
  let bytes ← IO.getRandomBytes 16
  let number := bytes.foldl (fun n b => n * 256 + b.toNat) 0
  let digits := Text.hexDigits 32 number
  let variant := Text.hexDigits 1 (8 + (number >>> 62) % 4)
  let groups :=
    [digits.take 8, (digits.drop 8).take 4, '4' :: (digits.drop 13).take 3,
      variant ++ (digits.drop 17).take 3, digits.drop 20]
  return String.ofList (['-'].intercalate groups)

/-- The time that the machine shows. -/
def clock : IO Timestamp := do
  let nanos := (← Std.Time.Timestamp.now).toNanosecondsSinceUnixEpoch.val
  return ⟨nanos / 1000000000, (nanos % 1000000000).toNat⟩

/-- All that is left of a stream. -/
def drain (stream : IO.FS.Stream) : IO ByteArray := do
  let mut bytes := ByteArray.empty
  repeat
    let chunk ← stream.read 65536
    if chunk.isEmpty then break
    bytes := bytes ++ chunk
  return bytes

def machine : Host IO where
  input := do
    let bytes ← attempt (do drain (← IO.getStdin))
    return bytes.bind spelled
  load path := do
    let bytes ← attempt (IO.FS.readBinFile path)
    return bytes.bind spelled
  save path text := attempt do
    if let some directory := directory? path then
      IO.FS.createDirAll directory
    IO.FS.writeFile path text
  now := clock
  freshId := randomId
  home := IO.getEnv "HOME"

end Wireframe.CommandLine

/-- Runs the program with the arguments that it is given. -/
def main (args : List String) : IO UInt32 := do
  let outcome ← Wireframe.CommandLine.run Wireframe.CommandLine.machine args
  (← IO.getStdout).putStr outcome.output
  (← IO.getStderr).putStr outcome.errors
  return outcome.code.toUInt32
