/-!
The characters below U+0080.
-/

namespace AccountGate.Text

def isAscii (cs : List Char) : Bool := cs.all fun c => c.toNat < 128

/-- The small letter of a capital one; any other character is its own. -/
def lower (c : Char) : Char := if 'A' ≤ c ∧ c ≤ 'Z' then Char.ofNat (c.toNat + 32) else c

end AccountGate.Text
