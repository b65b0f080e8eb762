import Shortcode.Text.Blank

/-! # Joining URLs

A path is joined to a base URL with exactly one slash at the seam. An empty base leaves the path
as it is. -/

namespace Shortcode.Url

def dropSlashesEnd (text : Text) : Text :=
  Text.dropEndWhile (· = '/') text

def dropSlashesStart (text : Text) : Text :=
  text.dropWhile (· = '/')

/-- The base and the path with one slash between them. -/
def join (base path : Text) : Text :=
  if base.isEmpty then path else dropSlashesEnd base ++ '/' :: dropSlashesStart path

end Shortcode.Url
