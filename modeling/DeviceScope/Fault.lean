/-!
# What can go wrong

Each part has its own errors, and each error a text. Only two of them, that an id is out of scope
and that its identity is disabled, say that something may not connect; all others say that a part
did not do its work.

Of a malformed text and of a failure of the file system the messages say that it was one, and no
more: `syntaxDetail` and `ioDetail` stand for the particulars.
-/

namespace DeviceScope

/-- Stands for what is wrong with a malformed text. -/
def syntaxDetail : String := "<parse error>"

/-- Stands for what the file system answered. -/
def ioDetail : String := "<io error>"

/-- Why the directory did not answer, or answered that an id is out of scope. -/
inductive DirectoryError where
  /-- The directory states that the id is out of scope; the only error that says something about
  the id. -/
  | invalidState (id message : String)
  /-- The directory was not reached. -/
  | unavailable (message : String)
  /-- The directory reported an error of its own. -/
  | service (status : Nat) (message : String)
  /-- The directory took too long. -/
  | timeout (message : String)
  /-- Something unexpected on the way. -/
  | internal (message : String)
  deriving DecidableEq, Repr, Inhabited

namespace DirectoryError

def text : DirectoryError → String
  | .invalidState id message => "Invalid identity state for " ++ id ++ ": " ++ message
  | .unavailable message => "Directory unavailable: " ++ message
  | .service status message =>
    "Directory service error: status " ++ toString status ++ " - " ++ message
  | .timeout message => "Directory request timed out: " ++ message
  | .internal message => "Directory client error: " ++ message

/-- Whether the directory states that the id is out of scope. -/
def isInvalidState : DirectoryError → Bool
  | .invalidState _ _ => true
  | _ => false

/-- Whether the error says nothing about the id. -/
def isTransient (error : DirectoryError) : Bool := !error.isInvalidState

/-- The kind of trouble, for statistics. -/
def category : DirectoryError → String
  | .invalidState _ _ => "scope"
  | .unavailable _ | .timeout _ => "connectivity"
  | .service _ _ => "service"
  | .internal _ => "internal"

end DirectoryError

/-- Why a store could not be read or written. -/
inductive StoreError where
  /-- The medium failed. -/
  | io (message : String)
  /-- What is on the medium is not a store. -/
  | serialization (message : String)
  /-- The store does not take requests. -/
  | unavailable (message : String)
  deriving DecidableEq, Repr, Inhabited

namespace StoreError

def text : StoreError → String
  | .io message => "Store I/O error: " ++ message
  | .serialization message => "Store serialization error: " ++ message
  | .unavailable message => "Store unavailable: " ++ message

/-- The kind of trouble, for statistics. -/
def category : StoreError → String
  | .io _ | .unavailable _ => "storage"
  | .serialization _ => "internal"

end StoreError

/-- Why there is no valid configuration. -/
inductive ConfigError where
  /-- A value is outside its range. -/
  | invalidValue (message : String)
  /-- The text is not a configuration. -/
  | malformed (message : String)
  /-- The file at `path` could not be read. -/
  | unreadable (path message : String)
  deriving DecidableEq, Repr, Inhabited

def ConfigError.text : ConfigError → String
  | .invalidValue message => "Invalid configuration value: " ++ message
  | .malformed message => "Failed to parse configuration: " ++ message
  | .unreadable path message => "Failed to read configuration file " ++ path ++ ": " ++ message

/-- What is wrong with a stored record. -/
inductive RecordFlaw where
  /-- Its text is not that of a record. -/
  | unreadable
  /-- It is kept under a key that is not its id. -/
  | misplaced (id : String)
  /-- It has no written form. -/
  | unwritable
  /-- Something that a keeper of records has to say about it. -/
  | described (message : String)
  deriving DecidableEq, Repr, Inhabited

def RecordFlaw.text : RecordFlaw → String
  | .unreadable | .unwritable => syntaxDetail
  | .misplaced id => "record id '" ++ id ++ "' does not match store key"
  | .described message => message

/-- Why a request was not met. -/
inductive ScopeError where
  /-- The id is not known to be in scope. -/
  | outOfScope (id : String)
  /-- The identity is in scope and may not connect. -/
  | disabled (id : String)
  | directory (error : DirectoryError)
  | store (error : StoreError)
  /-- The record under a key cannot be read or written. -/
  | invalidRecord (key : String) (flaw : RecordFlaw)
  | configuration (error : ConfigError)
  deriving DecidableEq, Repr, Inhabited

namespace ScopeError

/-- The text of the error; that of a part where a part failed. -/
def text : ScopeError → String
  | .outOfScope id => "Identity not in device scope: " ++ id
  | .disabled id => "Identity disabled: " ++ id
  | .directory error => error.text
  | .store error => error.text
  | .invalidRecord key flaw => "Invalid stored identity " ++ key ++ ": " ++ flaw.text
  | .configuration error => error.text

/-- Whether the error is a decision on who may connect. -/
def isAuthorizationFailure : ScopeError → Bool
  | .outOfScope _ | .disabled _ => true
  | _ => false

/-- The kind of trouble, for statistics. -/
def category : ScopeError → String
  | .outOfScope _ | .disabled _ => "authorization"
  | .directory _ => "directory"
  | .store _ | .invalidRecord _ _ => "storage"
  | .configuration _ => "configuration"

end ScopeError

end DeviceScope
