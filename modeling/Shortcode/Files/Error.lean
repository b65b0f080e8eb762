import Shortcode.Text.Basic

/-! # File errors

Why a file cannot be read or written. -/

namespace Shortcode

inductive FileError where
  /-- There is nothing at the path, or a directory on the way is missing. -/
  | notFound
  | notDirectory
  | isDirectory
  /-- The path, or a name in it, is longer than the system allows. -/
  | nameTooLong
  /-- The path holds the character zero, which no name has. -/
  | zeroInPath
  | notText
  | other (reason : Text)
deriving DecidableEq, Repr

def FileError.message : FileError → Text
  | notFound => "No such file or directory (os error 2)"
  | notDirectory => "Not a directory (os error 20)"
  | isDirectory => "Is a directory (os error 21)"
  | nameTooLong => "File name too long (os error 36)"
  | zeroInPath => "file name contained an unexpected NUL byte"
  | notText => "stream did not contain valid UTF-8"
  | other reason => reason

end Shortcode
