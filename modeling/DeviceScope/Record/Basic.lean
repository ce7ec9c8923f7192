import DeviceScope.Identity.Basic
import DeviceScope.Time.Span
import DeviceScope.Time.Timestamp

/-!
# Records

A record says what is known of one id, and since when: that the directory holds an identity under
it, or that it holds none. That an id is absent is a fact like any other and is kept; it is not
the same as knowing nothing about the id.
-/

namespace DeviceScope

/-- What is known of an id. -/
inductive Entry where
  /-- The directory holds this identity. -/
  | present (identity : Identity)
  /-- The directory holds no identity. -/
  | absent
  deriving DecidableEq, Repr, Inhabited

namespace Entry

def identity? : Entry → Option Identity
  | .present identity => some identity
  | .absent => none

def isPresent (entry : Entry) : Bool := entry.identity?.isSome

/-- Whether an identity is held that may connect. -/
def isEnabled (entry : Entry) : Bool := entry.identity?.any Identity.isEnabled

end Entry

/-- What is known of an id, and since when. -/
structure Record where
  id : String
  entry : Entry
  /-- When the record was written. -/
  stamp : Timestamp
  deriving DecidableEq, Repr, Inhabited

namespace Record

/-- The record of an identity that the directory holds. -/
def present (identity : Identity) (stamp : Timestamp) : Record :=
  ⟨identity.id, .present identity, stamp⟩

/-- The record of an id under which the directory holds nothing. -/
def absent (id : String) (stamp : Timestamp) : Record := ⟨id, .absent, stamp⟩

def identity? (record : Record) : Option Identity := record.entry.identity?

/-- Whether two records say the same of the same id since the same instant. The offsets of their
stamps do not matter. -/
def same (a b : Record) : Bool := a.id = b.id && a.entry = b.entry && a.stamp.same b.stamp

/-- The nanoseconds that have passed since the record was written; none if that is yet to come. -/
def ageAt (record : Record) (now : Timestamp) : Nat := (now.nanos - record.stamp.nanos).toNat

/-- Whether the record is older than `limit`. -/
def isStaleAt (record : Record) (limit : Span) (now : Timestamp) : Bool :=
  limit.nanos < record.ageAt now

end Record

end DeviceScope
