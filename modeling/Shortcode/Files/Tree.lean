import Shortcode.Files.Error
import Shortcode.Files.Path

/-! # File trees

Files and directories by their place. A path is followed part by part: every part but the last has
to lead to a directory, a dot stays where it is, and two dots go up from where the path has led. -/

namespace Shortcode

inductive Entry where
  | file (content : ByteArray)
  | directory

/-- A place in a file tree: the names on the way to it from the root. -/
abbrev Place := List Text

abbrev FileTree := Place → Option Entry

namespace FileTree

def requireDirectory (t : FileTree) (place : Place) : Except FileError Unit :=
  match t place with
  | none => .error .notFound
  | some (.file _) => .error .notDirectory
  | some .directory => .ok ()

def requirePath (path : Text) : Except FileError Unit :=
  if path.contains '\x00' then .error .zeroInPath
  else if path.isEmpty then .error .notFound
  else if Path.maxLength < path.utf8Length then .error .nameTooLong
  else .ok ()

def requireName (part : Text) : Except FileError Unit :=
  if Path.maxPartLength < part.utf8Length then .error .nameTooLong else .ok ()

def follow (t : FileTree) : Place → List Text → Except FileError Place
  | place, [] => .ok place
  | place, part :: parts => do
    t.requireDirectory place
    requireName part
    if part = "." then follow t place parts
    else if part = ".." then follow t place.dropLast parts
    else follow t (place ++ [part]) parts

def origin (cwd : Place) (path : Text) : Place :=
  if path.head? = some '/' then [] else cwd

/-- The entry that a path leads to. A slash at the end asks for a directory. -/
def entry (t : FileTree) (cwd : Place) (path : Text) : Except FileError Entry := do
  requirePath path
  let place ← t.follow (origin cwd path) (Path.parts path)
  if path.getLast? = some '/' then t.requireDirectory place
  match t place with
  | some entry => return entry
  | none => throw .notFound

def contains (t : FileTree) (cwd : Place) (path : Text) : Bool :=
  (t.entry cwd path).toOption.isSome

def decode (content : ByteArray) : Except FileError Text :=
  match String.fromUTF8? content with
  | some s => .ok s.toList
  | none => .error .notText

def read (t : FileTree) (cwd : Place) (path : Text) : Except FileError Text := do
  match ← t.entry cwd path with
  | .file content => decode content
  | .directory => throw .isDirectory

/-- The place of a file that is to be written. Its directory has to exist, and there may be no
directory at the place itself. -/
def writable (t : FileTree) (cwd : Place) (path : Text) : Except FileError Place := do
  requirePath path
  match (Path.parts path).getLast? with
  | none => throw .isDirectory
  | some name =>
    let directory ← t.follow (origin cwd path) (Path.parts path).dropLast
    t.requireDirectory directory
    if name = "." ∨ name = ".." ∨ path.getLast? = some '/' then throw .isDirectory
    requireName name
    match t (directory ++ [name]) with
    | some .directory => throw .isDirectory
    | _ => return directory ++ [name]

def put (t : FileTree) (place : Place) (content : ByteArray) : FileTree :=
  fun p => if p = place then some (.file content) else t p

def write (t : FileTree) (cwd : Place) (path text : Text) : Except FileError FileTree := do
  let place ← t.writable cwd path
  return t.put place (String.ofList text).toUTF8

end FileTree

end Shortcode
