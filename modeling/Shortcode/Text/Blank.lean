import Shortcode.Text.Basic

/-! # Blank characters

The characters with the Unicode property White_Space, and trimming by it. The zero-width space
U+200B and the byte order mark U+FEFF do not have the property. -/

namespace Shortcode.Text

/-- A character with the property White_Space. -/
def isBlank (c : Char) : Bool :=
  let n := c.toNat
  (0x09 ≤ n && n ≤ 0x0D) || n == 0x20 || n == 0x85 || n == 0xA0 || n == 0x1680 ||
    (0x2000 ≤ n && n ≤ 0x200A) || n == 0x2028 || n == 0x2029 || n == 0x202F || n == 0x205F ||
    n == 0x3000

def trimStart (text : Text) : Text :=
  text.dropWhile isBlank

def dropEndWhile (p : Char → Bool) (text : Text) : Text :=
  (text.reverse.dropWhile p).reverse

def trimEnd (text : Text) : Text :=
  dropEndWhile isBlank text

def trim (text : Text) : Text :=
  trimEnd (trimStart text)

end Shortcode.Text
