import DeviceScope.Json.Number
import DeviceScope.Time.Calendar
import DeviceScope.Toml.Value

/-!
# TOML values without quotation marks

Booleans, integers in four bases, floating-point numbers, and dates and times of day, each read
from the whole of a word.
-/

namespace DeviceScope.Toml.Scalar

def digit? (base : Nat) (c : Char) : Option Nat :=
  let value :=
    if c.isDigit then c.toNat - '0'.toNat
    else if 'a' ≤ c ∧ c ≤ 'f' then c.toNat - 'a'.toNat + 10
    else if 'A' ≤ c ∧ c ≤ 'F' then c.toNat - 'A'.toNat + 10
    else base
  if value < base then some value else none

/-- The digits of a run in which single underscores may stand between digits. -/
def digits? (base : Nat) : List Char → Option (List Nat)
  | [] => none
  | [c] => (digit? base c).map fun d => [d]
  | c :: '_' :: rest => do
    let d ← digit? base c
    let ds ← digits? base rest
    some (d :: ds)
  | c :: rest => do
    let d ← digit? base c
    let ds ← digits? base rest
    some (d :: ds)

/-- The number that digits denote. -/
def ofDigits (base : Nat) (digits : List Nat) : Nat := digits.foldl (· * base + ·) 0

/-- Decimal digits without a needless leading zero. -/
def decimal? (cs : List Char) : Option Nat :=
  match digits? 10 cs with
  | some [d] => some d
  | some (0 :: _) => none
  | some ds => some (ofDigits 10 ds)
  | none => none

/-- The sign in front of a number, and what follows it. -/
def sign (cs : List Char) : Bool × List Char :=
  match cs with
  | '+' :: rest => (false, rest)
  | '-' :: rest => (true, rest)
  | _ => (false, cs)

/-- An integer of at most 128 bits. -/
def bounded? (value : Int) : Option Value :=
  if -(Nat.pow 2 127 : Int) ≤ value ∧ value < (Nat.pow 2 128 : Int) then some (.integer value)
  else none

/-- The integer that a word spells. -/
def integer? : List Char → Option Value
  | '0' :: 'x' :: rest => (digits? 16 rest).bind fun ds => bounded? (ofDigits 16 ds)
  | '0' :: 'o' :: rest => (digits? 8 rest).bind fun ds => bounded? (ofDigits 8 ds)
  | '0' :: 'b' :: rest => (digits? 2 rest).bind fun ds => bounded? (ofDigits 2 ds)
  | cs =>
    let (negative, rest) := sign cs
    (decimal? rest).bind fun n => bounded? (if negative then -n else n)

/-- Whether a character ends the digits before the point of a floating-point number. -/
def isExponentMark (c : Char) : Bool := c = 'e' || c = 'E'

/-- The exponent that follows its mark. -/
def exponent? (cs : List Char) : Option Int :=
  let (negative, rest) := sign cs
  (digits? 10 rest).map fun ds =>
    let n : Int := ofDigits 10 ds
    if negative then -n else n

/-- The floating-point number that a word spells. One that is too large is refused. -/
def float? (cs : List Char) : Option Value :=
  let (_, unsigned) := sign cs
  if unsigned = ['i', 'n', 'f'] ∨ unsigned = ['n', 'a', 'n'] then some .float
  else
    let whole := unsigned.takeWhile fun c => c ≠ '.' && !isExponentMark c
    let rest := unsigned.drop whole.length
    match rest with
    | [] => none
    | '.' :: rest => do
      let _ ← decimal? whole
      let fraction := rest.takeWhile fun c => !isExponentMark c
      let ws ← digits? 10 whole
      let fs ← digits? 10 fraction
      let e ← match rest.drop fraction.length with
        | [] => some 0
        | _ :: rest => exponent? rest
      if Number.isFiniteMagnitude (ofDigits 10 (ws ++ fs)) (e - fs.length) then some .float
      else none
    | _ :: rest => do
      let n ← decimal? whole
      let e ← exponent? rest
      if Number.isFiniteMagnitude n e then some .float else none

/-- The number that exactly so many digits denote. -/
def fixed? (count : Nat) (cs : List Char) : Option Nat :=
  if cs.length = count ∧ cs.all Char.isDigit then some (Decimal.value cs) else none

/-- Whether ten characters are a date that exists. -/
def isDate (cs : List Char) : Bool :=
  match fixed? 4 (cs.take 4), cs.drop 4 with
  | some year, '-' :: m₁ :: m₂ :: '-' :: rest =>
    match fixed? 2 [m₁, m₂], fixed? 2 rest with
    | some month, some day => (Calendar.Date.mk year month day).isValid
    | _, _ => false
  | _, _ => false

/-- Whether the characters after the minutes of a time of day are its seconds, if it has any. -/
def isSeconds : List Char → Bool
  | [] => true
  | ':' :: s₁ :: s₂ :: rest =>
    match fixed? 2 [s₁, s₂] with
    | some second =>
      second ≤ 60 &&
        match rest with
        | [] => true
        | '.' :: fraction => !fraction.isEmpty && fraction.all Char.isDigit
        | _ => false
    | none => false
  | _ => false

/-- Whether the characters are a time of day, to the minute at least. -/
def isTime : List Char → Bool
  | h₁ :: h₂ :: ':' :: m₁ :: m₂ :: rest =>
    match fixed? 2 [h₁, h₂], fixed? 2 [m₁, m₂] with
    | some hour, some minute => hour ≤ 23 && minute ≤ 59 && isSeconds rest
    | _, _ => false
  | _ => false

/-- Whether the characters are an offset from UTC of hours and minutes. -/
def isOffset : List Char → Bool
  | sign :: h₁ :: h₂ :: ':' :: m₁ :: m₂ :: [] =>
    match fixed? 2 [h₁, h₂], fixed? 2 [m₁, m₂] with
    | some hour, some minute => (sign = '+' || sign = '-') && hour ≤ 23 && minute ≤ 59
    | _, _ => false
  | _ => false

/-- Whether the characters are a time of day, with or without an offset. -/
def isTimeWithOffset (cs : List Char) : Bool :=
  isTime cs ||
    (match cs.getLast? with
      | some c => (c = 'Z' || c = 'z') && isTime cs.dropLast
      | none => false) ||
    (isTime (cs.take (cs.length - 6)) && isOffset (cs.drop (cs.length - 6)))

/-- The date, the time of day, or the two together that a word spells. -/
def moment? (cs : List Char) : Option Value :=
  if isTime cs then some .moment
  else if isDate (cs.take 10) then
    match cs.drop 10 with
    | [] => some .moment
    | mark :: time =>
      if (mark = 'T' ∨ mark = 't' ∨ mark = ' ') ∧ isTimeWithOffset time then some .moment
      else none
  else none

def ofWord? (cs : List Char) : Option Value :=
  if cs = ['t', 'r', 'u', 'e'] then some (.bool true)
  else if cs = ['f', 'a', 'l', 's', 'e'] then some (.bool false)
  else (integer? cs <|> float? cs <|> moment? cs)

def isWordChar (c : Char) : Bool :=
  c.isAlphanum || c = '_' || c = '+' || c = '-' || c = '.' || c = ':'

/-- Takes a word off the front of a text. After a date, a blank and a digit carry it on, since a
time of day may follow there. -/
def takeWord (cs : List Char) : List Char × List Char :=
  let word := cs.takeWhile isWordChar
  match cs.dropWhile isWordChar with
  | ' ' :: d :: rest =>
    if isDate word && d.isDigit then
      (word ++ ' ' :: d :: rest.takeWhile isWordChar, rest.dropWhile isWordChar)
    else (word, ' ' :: d :: rest)
  | rest => (word, rest)

end DeviceScope.Toml.Scalar
