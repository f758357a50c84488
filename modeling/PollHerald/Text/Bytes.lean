set_option autoImplicit false

/-! Measures of text in UTF-8 bytes. Offsets into a text count bytes, so a text is cut only where
the offset falls between two characters. -/

namespace PollHerald.Text

def byteLength : List Char → Nat
  | [] => 0
  | character :: rest => character.utf8Size + byteLength rest

/-- Cuts a text after `offset` bytes. There is no cut beyond the end or inside a character. -/
def cutAt (offset : Nat) : List Char → Option (List Char × List Char)
  | [] => if offset = 0 then some ([], []) else none
  | character :: rest =>
    if offset = 0 then
      some ([], character :: rest)
    else if character.utf8Size ≤ offset then
      (cutAt (offset - character.utf8Size) rest).map fun (front, back) =>
        (character :: front, back)
    else
      none

def utf8 (text : String) : List UInt8 :=
  text.toByteArray.data.toList

end PollHerald.Text
