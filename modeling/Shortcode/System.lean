import Shortcode.Environment
import Shortcode.Files.Tree
import Shortcode.Ids

/-! # Systems

What a program asks of the system that it runs on. A `Machine` is a system as a value: its files,
working directory, environment, standard input and randomness; running a program on a machine is
pure. -/

namespace Shortcode

/-- The operations of a system, in a monad. -/
class MonadSystem (m : Type → Type) where
  /-- The working directory, as the names on the way to it. -/
  workingDirectory : m Place
  isPresent : Text → m Bool
  readFile : Text → m (Except FileError Text)
  writeFile : Text → Text → m (Except FileError Unit)
  readInput : m (Except FileError Text)
  /-- An environment that is right about the given names. -/
  environment : List Text → m Environment
  /-- Random bytes, any number of times. -/
  entropy : m (Nat → Entropy)

structure Machine where
  files : FileTree
  cwd : Place
  env : Environment
  input : ByteArray
  random : Nat → Entropy

namespace Machine

def write (s : Machine) (path text : Text) : Except FileError Unit × Machine :=
  match s.files.write s.cwd path text with
  | .ok files => (.ok (), { s with files })
  | .error e => (.error e, s)

instance : MonadSystem (StateM Machine) where
  workingDirectory := fun s => (s.cwd, s)
  isPresent path := fun s => (s.files.contains s.cwd path, s)
  readFile path := fun s => (s.files.read s.cwd path, s)
  writeFile path text := fun s => s.write path text
  readInput := fun s => (FileTree.decode s.input, s)
  environment _ := fun s => (s.env, s)
  entropy := fun s => (s.random, s)

end Machine

end Shortcode
