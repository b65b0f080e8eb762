import Shortcode.Text.Basic

/-! # Paths

Paths are texts whose parts are set off by slashes. They are joined and cut as they are written:
neither an inner dot nor a parent reference is resolved. -/

namespace Shortcode.Path

/-- How many bytes a path may take. -/
def maxLength : Nat := 4095

def maxPartLength : Nat := 255

/-- The path of `path` as seen from the directory `base`. An absolute path replaces the base. -/
def join (base path : Text) : Text :=
  if path.head? = some '/' ∨ base.isEmpty ∨ base.getLast? = some '/' then
    if path.head? = some '/' then path else base ++ path
  else base ++ '/' :: path

/-- A reversed path without the slashes and lone dots at its end, except for the slash of the root
and a dot that is the whole path. -/
def trimEndReversed : Text → Text
  | ['/'] => ['/']
  | '/' :: rest => trimEndReversed rest
  | '.' :: '/' :: rest => trimEndReversed ('/' :: rest)
  | path => path

/-- The last part of a path. It is empty for the root and for the empty path. -/
def lastPart (path : Text) : Text :=
  ((trimEndReversed path.reverse).takeWhile (· ≠ '/')).reverse

/-- The directory of what a path leads to. The root and the empty path have none. -/
def parent? (path : Text) : Option Text :=
  let trimmed := trimEndReversed path.reverse
  if trimmed.isEmpty ∨ trimmed = ['/'] then none
  else some (trimEndReversed (trimmed.dropWhile (· ≠ '/'))).reverse

/-- What follows the last dot of a file name. A name that only begins with a dot has no extension,
and neither have references to a directory itself or its parent. -/
def extension? (path : Text) : Option Text :=
  let name := lastPart path
  if name = ".." then none
  else
    let reversed := name.reverse
    match reversed.dropWhile (· ≠ '.') with
    | '.' :: _ :: _ => some (reversed.takeWhile (· ≠ '.')).reverse
    | _ => none

/-- A directory, given by the names on the way to it from the root, and the directories above it,
from the nearest to the root. -/
def ancestors : List Text → List (List Text)
  | [] => [[]]
  | name :: names => (ancestors names).map (name :: ·) ++ [[]]

def parts (path : Text) : List Text :=
  (path.splitOn '/').filter (! ·.isEmpty)

def absolute (names : List Text) : Text :=
  '/' :: ['/'].intercalate names

end Shortcode.Path
