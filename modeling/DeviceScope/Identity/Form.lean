import DeviceScope.Identity.Basic
import DeviceScope.Json.Printer
import DeviceScope.Json.Reader
import DeviceScope.Json.Shape

/-!
# Identities in JSON

The members of an identity are written in one fixed order. Those that are absent are left out;
the two lists are always written. Reading takes members in any order, passes over others, and
takes a list that is left out for an empty one.

`held` says that the value was held back while something before it was waited for; see
`Json.choice?` for the one difference that it makes.
-/

namespace DeviceScope

/-- The member for a value that may be absent. -/
def Json.member? (name : String) : Option Json → List (String × Json)
  | some value => [(name, value)]
  | none => []

def Json.ofTexts (texts : List String) : Json := .array (texts.map Json.text)

namespace Status

def choices : List (String × Status) := [("enabled", .enabled), ("disabled", .disabled)]

def toJson (status : Status) : Json := .text status.name

/-- The status that a value spells. -/
def ofJson? (held : Bool) : Json → Option Status := Json.choice? held choices

end Status

namespace CredentialKind

def choices : List (String × CredentialKind) :=
  [("none", .none), ("sas", .sas), ("x509Thumbprint", .thumbprint), ("x509Ca", .authority)]

def toJson (kind : CredentialKind) : Json := .text kind.name

def ofJson? (held : Bool) : Json → Option CredentialKind := Json.choice? held choices

end CredentialKind

namespace Pair

/-- The pair as JSON, under the given names. -/
def toJson (primary secondary : String) (pair : Pair) : Json :=
  .fields [(primary, .text pair.primary), (secondary, .text pair.secondary)]

/-- The pair that a value spells under the given names. -/
def ofJson? (primary secondary : String) (value : Json) : Option Pair := do
  match ← value.fieldValues? [primary, secondary] with
  | [first, second] =>
    let first ← Json.required Json.text? first
    let second ← Json.required Json.text? second
    some ⟨first, second⟩
  | _ => none

end Pair

namespace Credential

def toJson (credential : Credential) : Json :=
  .fields <|
    ("type", credential.kind.toJson) ::
    (Json.member? "symmetricKey" (credential.keys.map (Pair.toJson "primaryKey" "secondaryKey")) ++
    Json.member? "x509Thumbprint"
      (credential.thumbprints.map (Pair.toJson "primaryThumbprint" "secondaryThumbprint")))

def ofJson? (held : Bool) (value : Json) : Option Credential := do
  match ← value.fieldValues? ["type", "symmetricKey", "x509Thumbprint"] with
  | [kind, keys, thumbprints] =>
    let kind ← Json.required (CredentialKind.ofJson? held) kind
    let keys ← Json.optional (Pair.ofJson? "primaryKey" "secondaryKey") keys
    let thumbprints ←
      Json.optional (Pair.ofJson? "primaryThumbprint" "secondaryThumbprint") thumbprints
    some ⟨kind, keys, thumbprints⟩
  | _ => .none

end Credential

namespace Identity

def toJson (identity : Identity) : Json :=
  .fields <|
    ("deviceId", .text identity.device) ::
    (Json.member? "moduleId" (identity.module.map .text) ++
    ("generationId", .text identity.generation) ::
    (Json.member? "deviceScope" (identity.scope.map .text) ++
    [("parentScopes", .ofTexts identity.parentScopes),
      ("authentication", identity.credential.toJson),
      ("capabilities", .ofTexts identity.capabilities),
      ("status", identity.status.toJson)]))

/-- The names of the members, in their declared order. -/
def memberNames : List String :=
  ["deviceId", "moduleId", "generationId", "deviceScope", "parentScopes", "authentication",
    "capabilities", "status"]

def ofJson? (held : Bool) (value : Json) : Option Identity := do
  match ← value.fieldValues? memberNames with
  | [device, module, generation, scope, parentScopes, credential, capabilities, status] =>
    let device ← Json.required Json.text? device
    let module ← Json.optional Json.text? module
    let generation ← Json.required Json.text? generation
    let scope ← Json.optional Json.text? scope
    let parentScopes ← Json.defaulted [] Json.texts? parentScopes
    let credential ← Json.required (Credential.ofJson? held) credential
    let capabilities ← Json.defaulted [] Json.texts? capabilities
    let status ← Json.required (Status.ofJson? held) status
    some ⟨device, module, generation, scope, parentScopes, credential, capabilities, status⟩
  | _ => none

def toText (identity : Identity) : String := identity.toJson.compactText

def ofText? (text : String) : Option Identity := Json.ofText? text >>= ofJson? false

def listOfText? (text : String) : Option (List Identity) :=
  match Json.ofText? text with
  | some (.array items) => items.mapM (ofJson? false)
  | _ => none

end Identity

end DeviceScope
