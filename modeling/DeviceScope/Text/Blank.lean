/-!
# Blank characters

The characters with the Unicode property of white space.
-/

namespace DeviceScope

/-- Whether a character is white space in Unicode: the five ASCII controls from tab to carriage
return, the space, next line, no-break space, and the other spaces and separators. -/
def isBlank (c : Char) : Bool :=
  (0x9 ≤ c.toNat && c.toNat ≤ 0xD) || c.toNat = 0x20 || c.toNat = 0x85 || c.toNat = 0xA0 ||
  c.toNat = 0x1680 || (0x2000 ≤ c.toNat && c.toNat ≤ 0x200A) || c.toNat = 0x2028 ||
  c.toNat = 0x2029 || c.toNat = 0x202F || c.toNat = 0x205F || c.toNat = 0x3000

end DeviceScope
