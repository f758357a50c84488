set_option autoImplicit false

/-! The bounds of whole numbers that are held in a fixed number of bits. -/

namespace PollHerald.Width

def bound16 : Nat := 65536

def bound32 : Nat := 4294967296

def bound64 : Nat := 18446744073709551616

end PollHerald.Width
