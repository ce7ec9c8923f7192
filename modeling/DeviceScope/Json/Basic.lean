/-!
# JSON values

A JSON value as its text gives it: an object is the list of its members in the order in which
they stand, repetitions included, and a number is its literal.

A quoted string need not spell a text: an escape may name one half of a surrogate pair, and in a
file a byte may belong to no character. Such a string is kept as `none`; it can be passed over,
but not used. Written out again it becomes a lone surrogate escape.
-/

namespace DeviceScope

/-- A JSON value. -/
inductive Json where
  | null
  | bool (value : Bool)
  /-- A number, as the characters of its literal. -/
  | number (literal : List Char)
  /-- A string, or `none` for one that spells no text. -/
  | string (text : Option String)
  | array (items : List Json)
  /-- The members of an object in the order in which they stand. -/
  | object (members : List (Option String × Json))
  deriving Inhabited

namespace Json

/-- The string that spells `text`. -/
def text (text : String) : Json := .string (some text)

/-- The number `n`. -/
def nat (n : Nat) : Json := .number (Nat.toDigits 10 n)

/-- The object with the given members in their order. -/
def fields (members : List (String × Json)) : Json :=
  .object (members.map fun member => (some member.1, member.2))

def text? : Json → Option String
  | .string text => text
  | _ => none

end Json

end DeviceScope
