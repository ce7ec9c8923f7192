import DeviceScope.Toml.Quoted

/-!
# Reading TOML documents

A document is a sequence of lines, each of which assigns a value to a key, opens a table, or is
blank; a comment may end any of them. `ofText?` gives the members of the table that the document
is, or `none` if it breaks a rule of TOML 1.1 anywhere.
-/

namespace DeviceScope.Toml

def dropBlanks (cs : List Char) : List Char := cs.dropWhile fun c => c = ' ' || c = '\t'

/-- Drops a comment at the front of a text, up to the end of its line. -/
def dropComment? : List Char → Option (List Char)
  | '#' :: rest =>
    match rest.dropWhile Quoted.isPlain with
    | [] => some []
    | '\n' :: rest => some ('\n' :: rest)
    | '\r' :: '\n' :: rest => some ('\n' :: rest)
    | _ => none
  | cs => some cs

/-- Drops a line end at the front of a text; the end of the text is one too. -/
def dropNewline? : List Char → Option (List Char)
  | [] => some []
  | '\n' :: rest => some rest
  | '\r' :: '\n' :: rest => some rest
  | _ => none

/-- Drops blanks, line ends and comments at the front of a text. -/
def dropGaps? : Nat → List Char → Option (List Char)
  | 0, _ => none
  | fuel + 1, cs =>
    match dropBlanks cs with
    | '\n' :: rest => dropGaps? fuel rest
    | '\r' :: '\n' :: rest => dropGaps? fuel rest
    | '#' :: rest => (dropComment? ('#' :: rest)).bind (dropGaps? fuel)
    | rest => some rest

/-- Whether a character may stand in a key without quotation marks. -/
def isBare (c : Char) : Bool := c.isAlphanum || c = '_' || c = '-'

def takeKey? : List Char → Option (String × List Char)
  | '"' :: rest => (Quoted.basic? rest).map fun (text, rest) => (String.ofList text, rest)
  | '\'' :: rest => (Quoted.literal? rest).map fun (text, rest) => (String.ofList text, rest)
  | cs =>
    let key := cs.takeWhile isBare
    if key.isEmpty then none else some (String.ofList key, cs.dropWhile isBare)

/-- Takes keys with dots between them off the front of a text, and the blanks after them. -/
def takePath? : Nat → List Char → Option (List String × List Char)
  | 0, _ => none
  | fuel + 1, cs => do
    let (key, rest) ← takeKey? (dropBlanks cs)
    match dropBlanks rest with
    | '.' :: rest => do
      let (path, rest) ← takePath? fuel rest
      some (key :: path, rest)
    | rest => some ([key], rest)

/-- The items of an array after its opening bracket. -/
def takeItems? (take? : List Char → Option (Value × List Char)) :
    Nat → List Char → Option (List Value × List Char)
  | 0, _ => none
  | fuel + 1, cs => do
    match ← dropGaps? (cs.length + 1) cs with
    | ']' :: rest => some ([], rest)
    | cs => do
      let (item, rest) ← take? cs
      match ← dropGaps? (rest.length + 1) rest with
      | ',' :: rest => do
        let (items, rest) ← takeItems? take? fuel rest
        some (item :: items, rest)
      | ']' :: rest => some ([item], rest)
      | _ => none

/-- A key, an equals sign and a value. -/
def takePair? (take? : List Char → Option (Value × List Char)) (cs : List Char) :
    Option (List String × Value × List Char) := do
  let (path, rest) ← takePath? (cs.length + 1) cs
  match rest with
  | '=' :: rest => do
    let (value, rest) ← take? (dropBlanks rest)
    some (path, value, rest)
  | _ => none

/-- The members of an inline table after its opening brace, added to those read so far. -/
def takeMembers? (take? : List Char → Option (Value × List Char)) :
    Nat → Members → List Char → Option (Members × List Char)
  | 0, _, _ => none
  | fuel + 1, members, cs => do
    match ← dropGaps? (cs.length + 1) cs with
    | '\x7d' :: rest => some (members, rest)
    | cs => do
      let (path, value, rest) ← takePair? take? cs
      let (_, members) ← members.assign? path value .header
      match ← dropGaps? (rest.length + 1) rest with
      | ',' :: rest => takeMembers? take? fuel members rest
      | '\x7d' :: rest => some (members, rest)
      | _ => none

/-- The value at the front of a text, with what follows it. Arrays and inline tables may be
nested as deep as `room` says. -/
def takeValue? : Nat → List Char → Option (Value × List Char)
  | room, cs =>
    match cs with
    | '"' :: _ | '\'' :: _ =>
      (Quoted.take? cs).map fun (text, rest) => (.string (String.ofList text), rest)
    | '[' :: rest =>
      match room with
      | 0 => none
      | room + 1 =>
        (takeItems? (takeValue? room) (rest.length + 1) rest).map fun (items, rest) =>
          (.array items, rest)
    | '\x7b' :: rest =>
      match room with
      | 0 => none
      | room + 1 =>
        (takeMembers? (takeValue? room) (rest.length + 1) [] rest).map fun (members, rest) =>
          (.table .inline members, rest)
    | _ =>
      let (word, rest) := Scalar.takeWord cs
      (Scalar.ofWord? word).map fun value => (value, rest)

/-- How deep arrays and inline tables may be nested. -/
def maxNesting : Nat := 80

/-- The rest of a line after what it says: blanks and a comment. -/
def endLine? (cs : List Char) : Option (List Char) :=
  (dropComment? (dropBlanks cs)).bind dropNewline?

/-- What has been read of a document. -/
structure Progress where
  /-- The members of the document. -/
  members : Members
  /-- The path to the table that the last header opened. -/
  table : List String

def line? (progress : Progress) (cs : List Char) : Option (Progress × List Char) :=
  match dropBlanks cs with
  | '[' :: '[' :: rest => do
    let (path, rest) ← takePath? (rest.length + 1) rest
    match rest with
    | ']' :: ']' :: rest => do
      let members ← progress.members.header? true path
      let rest ← endLine? rest
      some (⟨members, path⟩, rest)
    | _ => none
  | '[' :: rest => do
    let (path, rest) ← takePath? (rest.length + 1) rest
    match rest with
    | ']' :: rest => do
      let members ← progress.members.header? false path
      let rest ← endLine? rest
      some (⟨members, path⟩, rest)
    | _ => none
  | [] => some (progress, [])
  | '#' :: rest => (endLine? ('#' :: rest)).map fun rest => (progress, rest)
  | '\n' :: rest => some (progress, rest)
  | '\r' :: '\n' :: rest => some (progress, rest)
  | cs => do
    let (path, value, rest) ← takePair? (takeValue? maxNesting) cs
    let members ← progress.members.assignUnder? progress.table path value
    let rest ← endLine? rest
    some (⟨members, progress.table⟩, rest)

/-- Reads lines to the end of the text. -/
def lines? : Nat → Progress → List Char → Option Members
  | 0, _, _ => none
  | _, progress, [] => some progress.members
  | fuel + 1, progress, cs => do
    let (progress, rest) ← line? progress cs
    lines? fuel progress rest

/-- The members of the document that characters spell. A byte order mark in front is passed
over. -/
def ofChars? (cs : List Char) : Option Members :=
  let cs := if cs.head? = some '\uFEFF' then cs.tail else cs
  lines? (cs.length + 1) ⟨[], []⟩ cs

def ofText? (text : String) : Option Members := ofChars? text.toList

end DeviceScope.Toml
