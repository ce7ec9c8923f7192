import DeviceScope.Json.Basic
import DeviceScope.Text.Decimal

/-!
# Writing JSON

Two written forms: `compact` writes no white space, `indented` puts every item and member on a
line of its own, indented by two spaces per level. In both, a quotation mark, a backslash and the
characters below U+0020 are escaped, by the one-letter escape where there is one, and everything
else stands for itself.
-/

namespace DeviceScope.Json

def hexDigit (n : Nat) : Char := Nat.digitChar n

/-- A character as it stands in a written string. -/
def writeChar (c : Char) : List Char :=
  if c = '"' then ['\\', '"']
  else if c = '\\' then ['\\', '\\']
  else if c = '\x08' then ['\\', 'b']
  else if c = '\x0c' then ['\\', 'f']
  else if c = '\n' then ['\\', 'n']
  else if c = '\r' then ['\\', 'r']
  else if c = '\t' then ['\\', 't']
  else if c.toNat < 0x20 then
    ['\\', 'u', '0', '0', hexDigit (c.toNat / 16), hexDigit (c.toNat % 16)]
  else [c]

/-- A string in quotation marks. One that spells no text is written as a lone surrogate. -/
def writeString : Option String → List Char
  | some text => '"' :: (text.toList.flatMap writeChar ++ ['"'])
  | none => ['"', '\\', 'u', 'd', '8', '0', '0', '"']

/-- Two lists with a comma between them, if both are there. -/
def commaBetween (first : Bool) (rest : List Char) : List Char :=
  if first then rest else ',' :: rest

mutual

/-- A value without white space. -/
def compact : Json → List Char
  | .null => ['n', 'u', 'l', 'l']
  | .bool true => ['t', 'r', 'u', 'e']
  | .bool false => ['f', 'a', 'l', 's', 'e']
  | .number literal => literal
  | .string text => writeString text
  | .array items => '[' :: (compactItems true items ++ [']'])
  | .object members => '\x7b' :: (compactMembers true members ++ ['\x7d'])

/-- Items with commas between them; before the first one too unless `first`. -/
def compactItems (first : Bool) : List Json → List Char
  | [] => []
  | item :: rest => commaBetween first (compact item ++ compactItems false rest)

/-- Members with commas between them; before the first one too unless `first`. -/
def compactMembers (first : Bool) : List (Option String × Json) → List Char
  | [] => []
  | (key, value) :: rest =>
    commaBetween first (writeString key ++ ':' :: (compact value ++ compactMembers false rest))

end

/-- The beginning of a line at a level of nesting. -/
def newLine (level : Nat) : List Char := '\n' :: List.replicate (2 * level) ' '

mutual

/-- A value over several lines, its inner lines one level deeper than `level`. -/
def indented (level : Nat) : Json → List Char
  | .array [] => ['[', ']']
  | .array (item :: rest) =>
    '[' :: (newLine (level + 1) ++ indented (level + 1) item ++ indentedItems (level + 1) rest ++
      newLine level ++ [']'])
  | .object [] => ['\x7b', '\x7d']
  | .object ((key, value) :: rest) =>
    '\x7b' :: (newLine (level + 1) ++ writeString key ++ [':', ' '] ++
      indented (level + 1) value ++ indentedMembers (level + 1) rest ++ newLine level ++ ['\x7d'])
  | .null => ['n', 'u', 'l', 'l']
  | .bool true => ['t', 'r', 'u', 'e']
  | .bool false => ['f', 'a', 'l', 's', 'e']
  | .number literal => literal
  | .string text => writeString text

/-- The items after the first one, each after a comma on a new line. -/
def indentedItems (level : Nat) : List Json → List Char
  | [] => []
  | item :: rest =>
    ',' :: (newLine level ++ indented level item ++ indentedItems level rest)

/-- The members after the first one, each after a comma on a new line. -/
def indentedMembers (level : Nat) : List (Option String × Json) → List Char
  | [] => []
  | (key, value) :: rest =>
    ',' :: (newLine level ++ writeString key ++ [':', ' '] ++ indented level value ++
      indentedMembers level rest)

end

def compactText (value : Json) : String := String.ofList value.compact

def indentedText (value : Json) : String := String.ofList (value.indented 0)

end DeviceScope.Json
