import DeviceScope.Fault
import DeviceScope.Identity.Form
import DeviceScope.Record.Basic

/-!
# The stored form of records

A record is kept as a JSON text under its id. `Record.encode` writes it, unless its stamp has no
written form, and `Record.decode` reads it back and refuses a record that lies under a key other
than its id.

An entry names its state and, if the id is present, the identity. When the identity stands before
the state, it cannot be read yet: it is held back until the state is known.
-/

namespace DeviceScope

namespace Entry

/-- The entry as JSON. -/
def toJson : Entry → Json
  | .present identity => .fields [("state", .text "present"), ("identity", identity.toJson)]
  | .absent => .fields [("state", .text "absent")]

/-- The states by name: whether an identity is held. -/
def states : List (String × Bool) := [("present", true), ("absent", false)]

/-- The entry for a state and what stands for the identity. -/
def ofParts? (held isPresent : Bool) (identity : Option Json) : Option Entry :=
  if isPresent then (Json.required (Identity.ofJson? held) identity).map .present
  else
    match identity with
    | none | some .null => some .absent
    | some _ => none

/-- How deep a value that is held back inside a record may be nested. -/
def heldNesting : Nat := 125

/-- The entry that a value spells. -/
def ofJson? : Json → Option Entry
  | .object members =>
    if members.all (·.1.isSome) then
      match members.filter fun member => member.1 = some "state" ∨ member.1 = some "identity" with
      | [(some "state", state)] => do
        let isPresent ← Json.choice? false states state
        ofParts? false isPresent none
      | [(some "state", state), (some "identity", identity)] => do
        let isPresent ← Json.choice? false states state
        ofParts? false isPresent (some identity)
      -- The identity comes first and is held back.
      | [(some "identity", identity), (some "state", state)] => do
        let isPresent ← Json.choice? false states state
        if identity.isHoldable heldNesting then ofParts? true isPresent (some identity) else none
      | _ => none
    else none
  | .array [state, identity] => do
    let isPresent ← Json.choice? false states state
    ofParts? false isPresent (some identity)
  | _ => none

end Entry

namespace Record

/-- The record as JSON, if its stamp has a written form. -/
def toJson? (record : Record) : Option Json := do
  let stamp ← record.stamp.toText?
  some (.fields [("id", .text record.id), ("entry", record.entry.toJson),
    ("timestamp", .text stamp)])

def stampOfJson? (value : Json) : Option Timestamp := value.text? >>= Timestamp.ofText?

/-- The record that a value spells. -/
def ofJson? (value : Json) : Option Record := do
  match ← value.fieldValues? ["id", "entry", "timestamp"] with
  | [id, entry, stamp] =>
    let id ← Json.required Json.text? id
    let entry ← Json.required Entry.ofJson? entry
    let stamp ← Json.required stampOfJson? stamp
    some ⟨id, entry, stamp⟩
  | _ => none

/-- The text under which a record is stored. -/
@[irreducible] def encode (record : Record) : Except ScopeError String :=
  match record.toJson? with
  | some value => .ok value.compactText
  | none => .error (.invalidRecord record.id .unwritable)

/-- The record that is stored under a key as a text. -/
@[irreducible] def decode (key text : String) : Except ScopeError Record :=
  match Json.ofText? text >>= ofJson? with
  | some record =>
    if record.id = key then .ok record else .error (.invalidRecord key (.misplaced record.id))
  | none => .error (.invalidRecord key .unreadable)

end Record

end DeviceScope
