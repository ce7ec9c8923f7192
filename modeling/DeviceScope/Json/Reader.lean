import DeviceScope.Json.Basic
import DeviceScope.Json.Number
import DeviceScope.Text.Utf8

/-!
# Reading JSON

The grammar of RFC 8259 as a pushdown automaton: `Reader.step?` takes one symbol, `Reader.run?`
folds it over a text, and `Reader.result?` says which value has been read when the text ends. The
stack holds the arrays and objects that are still open, so nesting may go to any depth, and what
has been read of a text never depends on what follows it (`run?_append`).

A symbol is a character, or `none` for a byte of a file that belongs to no character; such a byte
is admitted inside a string, which then spells no text.
-/

namespace DeviceScope.Json

/-- An array or object that is still open. -/
inductive Frame where
  /-- An array with the items read so far, the last one first. -/
  | array (items : List Json)
  /-- An object with the members read so far, the last one first, and the key whose value is
  being read. -/
  | object (members : List (Option String × Json)) (key : Option String)

/-- What has been read of a quoted string. -/
structure Quoted where
  /-- The characters so far, the last one first; `none` once the string spells no text. -/
  chars : Option (List Char)
  /-- The first half of a surrogate pair whose second half has to follow. -/
  high : Option Nat
  deriving Inhabited

namespace Quoted

/-- A string of which nothing has been read. -/
def empty : Quoted := ⟨some [], none⟩

/-- The string that spells no text. -/
def broken : Quoted := ⟨none, none⟩

def push (q : Quoted) (c : Char) : Quoted :=
  match q.high with
  | some _ => broken
  | none => ⟨q.chars.map (c :: ·), none⟩

/-- Takes in the character that a number stands for, if there is one. -/
def put (q : Quoted) : Option Char → Quoted
  | some c => ⟨q.chars.map (c :: ·), none⟩
  | none => broken

/-- Takes in the UTF-16 unit that an escape names. -/
def pushUnit (q : Quoted) (unit : Nat) : Quoted :=
  if 0xDC00 ≤ unit ∧ unit < 0xE000 then
    match q.high with
    | some high => q.put (Utf8.charOf? (0x10000 + (high - 0xD800) * 0x400 + (unit - 0xDC00)))
    | none => broken
  else
    match q.high with
    | some _ => broken
    | none =>
      if 0xD800 ≤ unit ∧ unit < 0xDC00 then ⟨q.chars, some unit⟩ else q.put (Utf8.charOf? unit)

/-- The text that the string spells, at its closing quote. -/
def text? (q : Quoted) : Option String :=
  match q.high with
  | some _ => none
  | none => q.chars.map fun cs => String.ofList cs.reverse

end Quoted

/-- How far an escape has been read. -/
inductive Escape where
  /-- No escape is open. -/
  | closed
  /-- The backslash has been read. -/
  | opened
  /-- `count` digits of a numbered escape are to come; those read so far denote `value`. -/
  | digits (count value : Nat)

/-- What the reader expects. -/
inductive Expect where
  /-- A value; the end of an array too, if `orEnd`. -/
  | value (orEnd : Bool)
  /-- The opening quote of a key; the end of an object too, if `orEnd`. -/
  | key (orEnd : Bool)
  /-- The colon after a key. -/
  | colon
  /-- A comma, or the end of the innermost open array or object. -/
  | next
  /-- The rest of a string, which is a key if `isKey`. -/
  | string (isKey : Bool) (quoted : Quoted) (escape : Escape)
  /-- The rest of a number literal of which `literal` has been read, the last character first. -/
  | number (literal : List Char) (state : Number.State)
  /-- The rest of a word that stands for a value. -/
  | word (rest : List Char) (value : Json)
  /-- Nothing more: the value of the whole text has been read. -/
  | done (value : Json)

/-- The state of the reader: the open arrays and objects, innermost first, and what may follow. -/
structure Reader where
  stack : List Frame
  expect : Expect

namespace Reader

/-- The reader at the beginning of a text. -/
def start : Reader := ⟨[], .value false⟩

/-- White space between tokens. -/
def isSpace (c : Char) : Bool := c = ' ' || c = '\t' || c = '\n' || c = '\r'

/-- The value of a hexadecimal digit. -/
def hexDigit? (c : Char) : Option Nat :=
  if c.isDigit then some (c.toNat - '0'.toNat)
  else if 'a' ≤ c ∧ c ≤ 'f' then some (c.toNat - 'a'.toNat + 10)
  else if 'A' ≤ c ∧ c ≤ 'F' then some (c.toNat - 'A'.toNat + 10)
  else none

/-- The character that a one-letter escape stands for. -/
def shortEscape? (c : Char) : Option Char :=
  if c = '"' ∨ c = '\\' ∨ c = '/' then some c
  else if c = 'b' then some '\x08'
  else if c = 'f' then some '\x0c'
  else if c = 'n' then some '\n'
  else if c = 'r' then some '\r'
  else if c = 't' then some '\t'
  else none

def complete (value : Json) : List Frame → Reader
  | [] => ⟨[], .done value⟩
  | .array items :: stack => ⟨.array (value :: items) :: stack, .next⟩
  | .object members key :: stack => ⟨.object ((key, value) :: members) none :: stack, .next⟩

def completeString (isKey : Bool) (text : Option String) (stack : List Frame) : Option Reader :=
  if isKey then
    match stack with
    | .object members _ :: rest => some ⟨.object members text :: rest, .colon⟩
    | _ => none
  else some (complete (.string text) stack)

def beginValue? (stack : List Frame) (c : Char) : Option Reader :=
  if c = '[' then some ⟨.array [] :: stack, .value true⟩
  else if c = '\x7b' then some ⟨.object [] none :: stack, .key true⟩
  else if c = '"' then some ⟨stack, .string false .empty .closed⟩
  else if c = 't' then some ⟨stack, .word ['r', 'u', 'e'] (.bool true)⟩
  else if c = 'f' then some ⟨stack, .word ['a', 'l', 's', 'e'] (.bool false)⟩
  else if c = 'n' then some ⟨stack, .word ['u', 'l', 'l'] .null⟩
  else (Number.start? c).map fun state => ⟨stack, .number [c] state⟩

def endArray? : List Frame → Option Reader
  | .array items :: stack => some (complete (.array items.reverse) stack)
  | _ => none

def endObject? : List Frame → Option Reader
  | .object members _ :: stack => some (complete (.object members.reverse) stack)
  | _ => none

/-- A character between two values, or after the last one. -/
def between? (stack : List Frame) (c : Char) : Option Reader :=
  if isSpace c then some ⟨stack, .next⟩
  else if c = ',' then
    match stack with
    | .array _ :: _ => some ⟨stack, .value false⟩
    | .object _ _ :: _ => some ⟨stack, .key false⟩
    | [] => none
  else if c = ']' then endArray? stack
  else if c = '\x7d' then endObject? stack
  else none

/-- A character after a value that ends without a mark of its own: the next one ends it. -/
def after? (reader : Reader) (c : Char) : Option Reader :=
  match reader.expect with
  | .next => between? reader.stack c
  | .done value => if isSpace c then some ⟨[], .done value⟩ else none
  | _ => none

def inString? (stack : List Frame) (isKey : Bool) (quoted : Quoted) (c : Char) :
    Escape → Option Reader
  | .closed =>
    if c = '"' then completeString isKey quoted.text? stack
    else if c = '\\' then some ⟨stack, .string isKey quoted .opened⟩
    else if c.toNat < 0x20 then none
    else some ⟨stack, .string isKey (quoted.push c) .closed⟩
  | .opened =>
    if c = 'u' then some ⟨stack, .string isKey quoted (.digits 3 0)⟩
    else (shortEscape? c).map fun d => ⟨stack, .string isKey (quoted.push d) .closed⟩
  | .digits count value =>
    (hexDigit? c).map fun digit =>
      match count with
      | 0 => ⟨stack, .string isKey (quoted.pushUnit (value * 16 + digit)) .closed⟩
      | count + 1 => ⟨stack, .string isKey quoted (.digits count (value * 16 + digit))⟩

/-- Takes one character in; `none` if the text cannot go on with it. -/
def stepChar? (reader : Reader) (c : Char) : Option Reader :=
  match reader.expect with
  | .value orEnd =>
    if isSpace c then some reader
    else if c = ']' ∧ orEnd then endArray? reader.stack
    else beginValue? reader.stack c
  | .key orEnd =>
    if isSpace c then some reader
    else if c = '\x7d' ∧ orEnd then endObject? reader.stack
    else if c = '"' then some ⟨reader.stack, .string true .empty .closed⟩
    else none
  | .colon =>
    if isSpace c then some reader
    else if c = ':' then some ⟨reader.stack, .value false⟩
    else none
  | .next => between? reader.stack c
  | .string isKey quoted escape => inString? reader.stack isKey quoted c escape
  | .number literal state =>
    match state.step? c with
    | some state => some ⟨reader.stack, .number (c :: literal) state⟩
    | none =>
      -- The character ends the number and is itself what comes after a value.
      if state.accepts then after? (complete (.number literal.reverse) reader.stack) c else none
  | .word rest value =>
    match rest with
    | [] => none
    | d :: rest =>
      if c ≠ d then none
      else if rest.isEmpty then some (complete value reader.stack)
      else some ⟨reader.stack, .word rest value⟩
  | .done value => if isSpace c then some ⟨[], .done value⟩ else none

/-- Takes one symbol in. A byte that belongs to no character may stand in a string, outside of
escapes, and spoils it. -/
def step? (reader : Reader) : Option Char → Option Reader
  | some c => reader.stepChar? c
  | none =>
    match reader.expect with
    | .string isKey _ .closed => some ⟨reader.stack, .string isKey .broken .closed⟩
    | _ => none

/-- Takes symbols in, one after another. -/
def run? (reader : Reader) (symbols : List (Option Char)) : Option Reader :=
  symbols.foldlM step? reader

/-- The value that has been read, if the text may end here. -/
def result? (reader : Reader) : Option Json :=
  match reader.expect with
  | .done value => some value
  | .number literal state =>
    if state.accepts then
      match (complete (.number literal.reverse) reader.stack).expect with
      | .done value => some value
      | _ => none
    else none
  | _ => none

theorem run?_append (reader : Reader) (a b : List (Option Char)) :
    reader.run? (a ++ b) = (reader.run? a).bind (·.run? b) := by
  simp [run?, List.foldlM_append, bind]

end Reader

/-- The value that the symbols spell, if they spell exactly one. -/
def ofSymbols? (symbols : List (Option Char)) : Option Json :=
  (Reader.start.run? symbols).bind Reader.result?

/-- The value that a text spells. -/
def ofText? (text : String) : Option Json := ofSymbols? (text.toList.map some)

/-- The value that the content of a file spells. -/
def ofBytes? (bytes : Bytes) : Option Json := ofSymbols? (Utf8.symbols bytes)

end DeviceScope.Json
