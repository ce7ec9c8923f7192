import DeviceScope.Json.Basic

/-!
# Ordered JSON

A value whose objects, at every depth, have their members in ascending order of their names.
-/

namespace DeviceScope.Json

/-- Whether a member may stand in front of another one. -/
def mayPrecede (a b : Option String × Json) : Bool := decide (a.1.getD "" ≤ b.1.getD "")

mutual

/-- The value with the members of all its objects in order. -/
def ordered : Json → Json
  | .array items => .array (orderedItems items)
  | .object members => .object ((orderedMembers members).mergeSort mayPrecede)
  | value => value

/-- Values, each with its members in order. -/
def orderedItems : List Json → List Json
  | [] => []
  | item :: rest => ordered item :: orderedItems rest

/-- Members, each with the members of its value in order. -/
def orderedMembers : List (Option String × Json) → List (Option String × Json)
  | [] => []
  | (key, value) :: rest => (key, ordered value) :: orderedMembers rest

end

end DeviceScope.Json
