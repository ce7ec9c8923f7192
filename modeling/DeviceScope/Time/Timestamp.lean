import DeviceScope.Time.Calendar
import DeviceScope.Time.Span
import DeviceScope.Text.Decimal

/-!
# Points in time

A timestamp is an instant, to the nanosecond, together with the offset from UTC at which it was
noted. Two timestamps of one instant compare as equal whatever their offsets (`Timestamp.same`).

The written form is the one of RFC 3339, read by `Timestamp.ofText?` and written by
`Timestamp.toText?`: the date and time of day at the offset, the fraction of a second without
trailing zeros, and `Z` for an offset of zero.
-/

namespace DeviceScope

def secondsPerDay : Nat := 86400

/-- An instant and the offset from UTC at which it was noted. -/
structure Timestamp where
  /-- Nanoseconds since the beginning of 1970 in UTC. -/
  nanos : Int
  /-- Seconds by which the local time is ahead of UTC. -/
  offset : Int
  deriving DecidableEq, Repr, Inhabited

namespace Timestamp

/-- An instant noted in UTC. -/
def utc (nanos : Int) : Timestamp := ⟨nanos, 0⟩

/-- Whether two timestamps are of one instant. -/
def same (a b : Timestamp) : Bool := a.nanos = b.nanos

/-- The number of days between the beginning of the year 0 and that of 1970. -/
def epochDay : Int := 719528

/-- The time of day of a timestamp at its offset, and the day it belongs to. -/
structure Clock where
  /-- Days since the beginning of the year 0. -/
  day : Int
  hour : Nat
  minute : Nat
  second : Nat
  /-- Nanoseconds within the second. -/
  nano : Nat
  deriving DecidableEq, Repr

/-- Seconds since midnight. -/
def Clock.secondOfDay (clock : Clock) : Nat := clock.hour * 3600 + clock.minute * 60 + clock.second

/-- What a clock at the timestamp's offset shows. -/
def clock (t : Timestamp) : Clock :=
  let seconds := t.nanos / nanosPerSecond + t.offset
  let ofDay := (seconds % secondsPerDay).toNat
  ⟨seconds / secondsPerDay + epochDay, ofDay / 3600, ofDay / 60 % 60, ofDay % 60,
    (t.nanos % nanosPerSecond).toNat⟩

/-- The timestamp at which a clock at the given offset shows this. -/
def ofClock (clock : Clock) (offset : Int) : Timestamp :=
  let seconds := (clock.day - epochDay) * secondsPerDay + clock.secondOfDay - offset
  ⟨seconds * nanosPerSecond + clock.nano, offset⟩

/-! ### Reading -/

/-- Takes the given number of decimal digits off the front. -/
def digits? (count : Nat) (cs : List Char) : Option (Nat × List Char) :=
  let front := cs.take count
  if front.length = count ∧ front.all Char.isDigit then
    some (Decimal.value front, cs.drop count)
  else none

/-- Takes the given character off the front. -/
def mark? (c : Char) : List Char → Option (List Char)
  | [] => none
  | d :: rest => if d = c then some rest else none

/-- Takes the character between date and time off the front: any one of a single byte. -/
def separator? : List Char → Option (List Char)
  | [] => none
  | c :: rest => if c.toNat < 0x80 then some rest else none

/-- Takes an optional fraction of a second off the front, in nanoseconds. Digits after the ninth
are cut off. -/
def fraction? : List Char → Option (Nat × List Char)
  | '.' :: rest =>
    let front := rest.takeWhile Char.isDigit
    if front.isEmpty then none
    else
      let nine := front.take 9
      some (Decimal.value nine * Nat.pow 10 (9 - nine.length), rest.dropWhile Char.isDigit)
  | rest => some (0, rest)

/-- The offset, in seconds, that makes up the whole of a text. -/
def offset? : List Char → Option Int
  | ['Z'] | ['z'] => some 0
  | sign :: rest => do
    let (hours, rest) ← digits? 2 rest
    let rest ← mark? ':' rest
    let (minutes, rest) ← digits? 2 rest
    if rest.isEmpty ∧ hours ≤ 23 ∧ minutes ≤ 59 then
      let size : Int := hours * 3600 + minutes * 60
      if sign = '+' then some size else if sign = '-' then some (-size) else none
    else none
  | [] => none

/-- Whether the instant lies in the last second of a month in UTC. -/
def endsMonth (t : Timestamp) : Bool :=
  let clock := (utc t.nanos).clock
  clock.hour = 23 && clock.minute = 59 && clock.second = 59 &&
    (Calendar.Date.ofDay (clock.day + 1)).day = 1

/-- The timestamp that the characters of a text spell. A leap second, which can only follow the
last second of a month in UTC, is read as the last nanosecond before it. -/
def ofChars? (cs : List Char) : Option Timestamp := do
  let (year, cs) ← digits? 4 cs
  let cs ← mark? '-' cs
  let (month, cs) ← digits? 2 cs
  let cs ← mark? '-' cs
  let (day, cs) ← digits? 2 cs
  let cs ← separator? cs
  let (hour, cs) ← digits? 2 cs
  let cs ← mark? ':' cs
  let (minute, cs) ← digits? 2 cs
  let cs ← mark? ':' cs
  let (second, cs) ← digits? 2 cs
  let (nano, cs) ← fraction? cs
  let offset ← offset? cs
  let date : Calendar.Date := ⟨year, month, day⟩
  if date.isValid ∧ hour ≤ 23 ∧ minute ≤ 59 then
    if second ≤ 59 then some (ofClock ⟨date.dayNumber, hour, minute, second, nano⟩ offset)
    else if second = 60 then
      let t := ofClock ⟨date.dayNumber, hour, minute, 59, nanosPerSecond - 1⟩ offset
      if t.endsMonth then some t else none
    else none
  else none

def ofText? (text : String) : Option Timestamp := ofChars? text.toList

/-! ### Writing -/

/-- The fraction of a second, without trailing zeros; nothing at all for zero. -/
def fractionChars (nano : Nat) : List Char :=
  if nano = 0 then []
  else '.' :: ((Decimal.padded 9 nano).reverse.dropWhile (· = '0')).reverse

/-- An offset of whole minutes. -/
def offsetChars (offset : Int) : List Char :=
  if offset = 0 then ['Z']
  else
    (if offset < 0 then '-' else '+') ::
      (Decimal.padded 2 (offset.natAbs / 3600) ++ ':' :: Decimal.padded 2 (offset.natAbs / 60 % 60))

/-- Whether the timestamp has a written form: its year, at its own offset, has four digits, and
its offset is a whole number of minutes below a day. -/
def isWritable (t : Timestamp) : Bool :=
  let year := (Calendar.Date.ofDay t.clock.day).year
  0 ≤ year && year < 10000 && t.offset % 60 = 0 && t.offset.natAbs < secondsPerDay

/-- The characters of the written form. -/
def chars (t : Timestamp) : List Char :=
  let clock := t.clock
  let date := Calendar.Date.ofDay clock.day
  Decimal.padded 4 date.year.toNat ++ '-' :: Decimal.padded 2 date.month ++
    '-' :: Decimal.padded 2 date.day ++ 'T' :: Decimal.padded 2 clock.hour ++
    ':' :: Decimal.padded 2 clock.minute ++ ':' :: Decimal.padded 2 clock.second ++
    fractionChars clock.nano ++ offsetChars t.offset

/-- The written form, if there is one. -/
def toText? (t : Timestamp) : Option String :=
  if t.isWritable then some (String.ofList t.chars) else none

end Timestamp

end DeviceScope
