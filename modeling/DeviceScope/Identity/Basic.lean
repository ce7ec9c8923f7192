import DeviceScope.Identity.Key

/-!
# Identities

An identity is what the directory knows of a device or of a module on a device: its names, the
scopes that it belongs to, the credential that it shows, and whether it may connect. Identities
are equal when they agree in every field, so a rotated key makes another identity.
-/

namespace DeviceScope

/-- Whether an identity may connect. -/
inductive Status where
  | enabled | disabled
  deriving DecidableEq, Repr, Inhabited

def Status.name : Status → String
  | .enabled => "enabled"
  | .disabled => "disabled"

/-- The kind of credential that an identity shows. -/
inductive CredentialKind where
  /-- No credential is registered. -/
  | none
  /-- Shared access keys. -/
  | sas
  /-- A certificate known by its thumbprint. -/
  | thumbprint
  /-- A certificate of a trusted authority. -/
  | authority
  deriving DecidableEq, Repr, Inhabited

def CredentialKind.name : CredentialKind → String
  | .none => "none"
  | .sas => "sas"
  | .thumbprint => "x509Thumbprint"
  | .authority => "x509Ca"

/-- Something in two copies, so that one can be replaced while the other is in use. -/
structure Pair where
  primary : String
  secondary : String
  deriving DecidableEq, Repr, Inhabited

/-- The credential of an identity. -/
structure Credential where
  kind : CredentialKind
  /-- The shared access keys. -/
  keys : Option Pair
  /-- The thumbprints of the certificates. -/
  thumbprints : Option Pair
  deriving DecidableEq, Repr, Inhabited

namespace Credential

def none : Credential := ⟨.none, .none, .none⟩

/-- Shared access keys. -/
def sas (primary secondary : String) : Credential := ⟨.sas, some ⟨primary, secondary⟩, .none⟩

/-- Certificates known by their thumbprints. -/
def thumbprint (primary secondary : String) : Credential :=
  ⟨.thumbprint, .none, some ⟨primary, secondary⟩⟩

/-- A certificate of a trusted authority. -/
def authority : Credential := ⟨.authority, .none, .none⟩

end Credential

/-- What the directory knows of a device or of a module. -/
structure Identity where
  /-- The name of the device, or of the one that hosts the module. -/
  device : String
  /-- The name of the module; a device has none. -/
  module : Option String
  /-- Tells apart successive holders of one name. -/
  generation : String
  /-- The scope that the identity spans. -/
  scope : Option String
  /-- The scopes that the identity belongs to. -/
  parentScopes : List String
  credential : Credential
  capabilities : List String
  status : Status
  deriving DecidableEq, Repr, Inhabited

namespace Identity

/-- A device without scopes and capabilities. -/
def ofDevice (device generation : String) (credential : Credential) (status : Status) : Identity :=
  ⟨device, none, generation, none, [], credential, [], status⟩

/-- A module without scopes and capabilities. -/
def ofModule (device module generation : String) (credential : Credential) (status : Status) :
    Identity :=
  { ofDevice device generation credential status with module := some module }

/-- What the identity is of. -/
def key (identity : Identity) : Key :=
  match identity.module with
  | some module => .module identity.device module
  | none => .device identity.device

/-- The id under which the identity is kept and looked up. -/
def id (identity : Identity) : String := identity.key.text

/-- Whether the identity may connect. -/
def isEnabled (identity : Identity) : Bool := identity.status = .enabled

def isModule (identity : Identity) : Bool := identity.module.isSome

end Identity

end DeviceScope
