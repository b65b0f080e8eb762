import Shortcode.Text.Basic

/-! # Case folding onto ASCII

Keywords are written in small ASCII letters and are compared under simple case folding. Besides
the capitals two characters outside ASCII fold onto an ASCII letter: the long s U+017F onto `s`
and the Kelvin sign U+212A onto `k`. -/

namespace Shortcode.Text

/-- The simple case folding of a character, as far as it lies in ASCII; every other character
stands for itself. -/
def fold (c : Char) : Char :=
  if c = '\u017f' then 's' else if c = '\u212a' then 'k' else c.toLower

/-- What remains of `text` after `word`, compared under case folding, or `none` if `text` does not
begin so. The word is expected in small letters. -/
def afterFolded? : Text → Text → Option Text
  | [], text => some text
  | _ :: _, [] => none
  | w :: word, c :: text => if fold c = w then afterFolded? word text else none

end Shortcode.Text
