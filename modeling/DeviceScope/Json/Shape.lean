import DeviceScope.Json.Basic
import DeviceScope.Json.Number

/-!
# Reading values out of JSON

How a value with named fields, a choice between names, and a list of texts are read from JSON.

A value with fields is an object, whose members may stand in any order and among members of other
names, or an array of the fields in their declared order, which may break off early. Both forms
give, for each field, the value that stands for it, if any (`fieldValues?`); the field then says
what it makes of it (`required`, `optional`, `defaulted`).
-/

namespace DeviceScope.Json

/-- The value of the only member with a key; `none` inside if there is no such member. A key that
is given twice is refused. -/
def onlyMember? (members : List (Option String × Json)) (key : String) : Option (Option Json) :=
  match members.filter (·.1 == some key) with
  | [] => some none
  | [member] => some (some member.2)
  | _ => none

/-- What stands for each of the named fields, in the order of the names. -/
def fieldValues? (names : List String) : Json → Option (List (Option Json))
  | .object members =>
    if members.all (·.1.isSome) then names.mapM (onlyMember? members) else none
  | .array items =>
    if items.length ≤ names.length then
      some (items.map some ++ List.replicate (names.length - items.length) none)
    else none
  | _ => none

/-- A field that has to be given. -/
def required {α : Type} (read? : Json → Option α) (value : Option Json) : Option α :=
  value.bind read?

/-- A field that may be left out or be null. -/
def optional {α : Type} (read? : Json → Option α) : Option Json → Option (Option α)
  | none | some .null => some none
  | some value => (read? value).map some

/-- A field that may be left out, and then has a value of its own. -/
def defaulted {α : Type} (default : α) (read? : Json → Option α) : Option Json → Option α
  | none => some default
  | some value => read? value

def texts? : Json → Option (List String)
  | .array items => items.mapM text?
  | _ => none

/-- Whether a value stands for nothing. When the value was held back (`held`), an object without
members does so too. -/
def isNothing (held : Bool) : Json → Bool
  | .null => true
  | .object [] => held
  | _ => false

/-- One of the named choices: its name, or an object whose only member has that name and nothing
as its value. -/
def choice? {α : Type} (held : Bool) (choices : List (String × α)) : Json → Option α
  | .string (some name) => choices.lookup name
  | .object [(some name, value)] => if value.isNothing held then choices.lookup name else none
  | _ => none

/-! ### Values held back

A member whose meaning depends on a later one is held back until that one has been read. Unlike a
member that is skipped, it has to be usable throughout: every string spells a text, every number
is finite, and arrays and objects are nested no deeper than `room`. -/

mutual

/-- Whether a value can be held back. -/
def isHoldable (room : Nat) : Json → Bool
  | .null | .bool _ => true
  | .number literal => Number.isFinite literal
  | .string text => text.isSome
  | .array items => room ≠ 0 && areHoldable (room - 1) items
  | .object members => room ≠ 0 && areMembersHoldable (room - 1) members

/-- Whether every item can be held back. -/
def areHoldable (room : Nat) : List Json → Bool
  | [] => true
  | item :: rest => isHoldable room item && areHoldable room rest

/-- Whether every member can be held back. -/
def areMembersHoldable (room : Nat) : List (Option String × Json) → Bool
  | [] => true
  | (key, value) :: rest => key.isSome && isHoldable room value && areMembersHoldable room rest

end

end DeviceScope.Json
