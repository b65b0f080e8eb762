import Shortcode.Command.Run

/-! # The program

The system that the program runs on, and its entry point. -/

namespace Shortcode.Main

def fileError : IO.Error → FileError
  | .noFileOrDirectory _ _ _ => .notFound
  | .inappropriateType _ code details => ofCode code details
  | .invalidArgument _ code details => ofCode code details
  | e => .other e.toString
where
  /-- Some operations give the code of an error as it is, and others its negative. -/
  ofCode (code : UInt32) (details : String) : FileError :=
    if code = 20 ∨ 0 - code = 20 then .notDirectory
    else if code = 21 ∨ 0 - code = 21 then .isDirectory
    else if code = 36 ∨ 0 - code = 36 then .nameTooLong
    else .other details

def attempt {α : Type} (x : IO α) : IO (Except FileError α) := do
  match ← x.toBaseIO with
  | .ok a => return .ok a
  | .error e => return .error (fileError e)

def attemptAt {α : Type} (path : Text) (x : String → IO α) : IO (Except FileError α) :=
  if path.contains '\x00' then return .error .zeroInPath else attempt (x (String.ofList path))

/-- The bytes of a stream, after those that have been read. -/
partial def readAll (stream : IO.FS.Stream) (bytes : ByteArray) : IO ByteArray := do
  let more ← stream.read 4096
  if more.isEmpty then return bytes else readAll stream (bytes ++ more)

def word (bytes : List UInt8) : UInt64 :=
  bytes.foldl (fun w b => w * 256 + b.toUInt64) 0

instance : MonadSystem IO where
  workingDirectory := return Path.parts (← IO.currentDir).toString.toList
  isPresent path := do
    match ← attemptAt path fun path => IO.FS.Handle.mk path .read with
    | .error .notFound => return false
    | .error .notDirectory => return false
    | .error .nameTooLong => return false
    | .error .zeroInPath => return false
    | _ => return true
  readFile path := do
    return (← attemptAt path fun path => IO.FS.readBinFile path) >>= FileTree.decode
  writeFile path text := attemptAt path fun path => IO.FS.writeFile path (String.ofList text)
  readInput := return (← attempt (do readAll (← IO.getStdin) .empty)) >>= FileTree.decode
  environment names := do
    let values ← names.mapM fun name => IO.getEnv (String.ofList name)
    let known := names.zip values
    return fun name => (known.lookup name).bind fun value? => value?.map String.toList
  entropy := do
    let bytes ← IO.getRandomBytes 16
    return Entropy.stream (word (bytes.toList.take 8)) (word (bytes.toList.drop 8))

end Shortcode.Main

def main (arguments : List String) : IO UInt32 := do
  let outcome ← Shortcode.Command.run (m := IO) (arguments.map String.toList)
  for note in outcome.notes do
    IO.eprintln (String.ofList note)
  IO.print (String.ofList outcome.output)
  return outcome.exit.toUInt32
