set_option autoImplicit false

/-! Blank characters and the trimming of them. A character is blank when Unicode gives it the
property `White_Space`, which is wider than the ASCII blanks of `Char.isWhitespace`. -/

namespace PollHerald.Text

/-- The characters with the Unicode property `White_Space`. -/
def isBlank (character : Char) : Bool :=
  let code := character.toNat
  (0x09 ≤ code && code ≤ 0x0D) || code == 0x20 || code == 0x85 || code == 0xA0 ||
    code == 0x1680 || (0x2000 ≤ code && code ≤ 0x200A) || code == 0x2028 || code == 0x2029 ||
    code == 0x202F || code == 0x205F || code == 0x3000

def trimFront (text : List Char) : List Char :=
  text.dropWhile isBlank

def trimBack (text : List Char) : List Char :=
  (text.reverse.dropWhile isBlank).reverse

def trim (text : List Char) : List Char :=
  trimBack (trimFront text)

end PollHerald.Text
