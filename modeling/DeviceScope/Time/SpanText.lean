import DeviceScope.Time.Span
import DeviceScope.Text.Blank
import DeviceScope.Text.Decimal

/-!
# Lengths of time as people write them

A span is written as a sum of parts, each a number and a unit, such as `1h 30m`. Every part is
worked out in 64 bits: a number of seconds or of nanoseconds that does not fit is refused, even
where a later part could never bring it back. A number may have a fraction, which has to come to
a whole number of nanoseconds, or of seconds for the units from the hour on.

A month has 30.44 days and a year 365.25. The written form splits a span from the year down to
the nanosecond and leaves out what is zero.
-/

namespace DeviceScope.Span

/-- A unit of time. -/
inductive TimeUnit where
  | nanosecond | microsecond | millisecond | second | minute | hour | day | week | month | year
  deriving DecidableEq, Repr

namespace TimeUnit

/-- The seconds of a unit of at least one second. -/
def seconds : TimeUnit → Nat
  | .second => 1
  | .minute => 60
  | .hour => 3600
  | .day => 86400
  | .week => 604800
  | .month => 2630016
  | .year => 31557600
  | .nanosecond | .microsecond | .millisecond => 0

/-- The nanoseconds of a unit of less than one second. -/
def nanos : TimeUnit → Nat
  | .nanosecond => 1
  | .microsecond => 1000
  | .millisecond => 1000000
  | _ => 0

/-- How a fraction of the unit is worked out: as a number of nanoseconds (`true`) or of seconds,
and how many of these a whole unit has. There are no fractions of a nanosecond. -/
def fractionScale? : TimeUnit → Option (Bool × Nat)
  | .nanosecond => none
  | .microsecond => some (true, 1000)
  | .millisecond => some (true, 1000000)
  | .second => some (true, 1000000000)
  | .minute => some (true, 60000000000)
  | unit => some (false, unit.seconds)

def names : List (String × TimeUnit) := [
  ("nanos", .nanosecond), ("nsec", .nanosecond), ("ns", .nanosecond),
  ("usec", .microsecond), ("us", .microsecond), ("µs", .microsecond),
  ("millis", .millisecond), ("msec", .millisecond), ("ms", .millisecond),
  ("seconds", .second), ("second", .second), ("secs", .second), ("sec", .second), ("s", .second),
  ("minutes", .minute), ("minute", .minute), ("min", .minute), ("mins", .minute), ("m", .minute),
  ("hours", .hour), ("hour", .hour), ("hrs", .hour), ("hr", .hour), ("h", .hour),
  ("days", .day), ("day", .day), ("d", .day),
  ("weeks", .week), ("week", .week), ("wks", .week), ("wk", .week), ("w", .week),
  ("months", .month), ("month", .month), ("M", .month),
  ("years", .year), ("year", .year), ("yrs", .year), ("yr", .year), ("y", .year)]

def ofName? (name : List Char) : Option TimeUnit := names.lookup (String.ofList name)

end TimeUnit

/-- A number that fits in 64 bits. -/
def word? (n : Nat) : Option Nat := if n < UInt64.size then some n else none

/-- The sum of a span and as many seconds and nanoseconds, if it is a span. Every sum that is too
long is refused, also the one to which the nanoseconds bring exactly the second that is one too
many, where a carry made only with the span itself would break off the program. -/
def add? (span : Span) (seconds nanos : Nat) : Option Span := do
  let _ ← word? (span.subNanos + nanos)
  ofNanos? (span.nanos + seconds * nanosPerSecond + nanos)

/-- The fraction of a number: the digits after the point. -/
structure Fraction where
  numerator : Nat
  denominator : Nat

/-- A part of a written span: a number, its fraction, and a unit. -/
structure Part where
  whole : Nat
  fraction : Option Fraction
  unit : TimeUnit

def addFraction? (span : Span) (unit : TimeUnit) (fraction : Fraction) : Option Span := do
  let (inNanos, scale) ← unit.fractionScale?
  let product ← word? (fraction.numerator * scale)
  if product % fraction.denominator = 0 then
    let amount := product / fraction.denominator
    if inNanos then span.add? 0 amount else span.add? amount 0
  else none

def addPart? (span : Span) (part : Part) : Option Span := do
  let seconds ← word? (part.whole * part.unit.seconds)
  let nanos ← word? (part.whole * part.unit.nanos)
  let span ← span.add? seconds nanos
  match part.fraction with
  | none => some span
  | some fraction => span.addFraction? part.unit fraction

/-! ### Reading -/

/-- Whether a character may stand in a number: a digit, or a blank, which is passed over. -/
def isNumeral (c : Char) : Bool := c.isDigit || isBlank c

def isUnitLetter (c : Char) : Bool := c.isAlpha || c = 'µ'

/-- The number that digits among blanks denote, if it fits in 64 bits. -/
def numeral? (cs : List Char) : Option Nat := word? (Decimal.value (cs.filter Char.isDigit))

/-- The digits after a point, among blanks, as a fraction. -/
def fractionOf? (cs : List Char) : Option Fraction := do
  let digits := cs.filter Char.isDigit
  if digits.isEmpty then none
  else
    let denominator ← word? (Nat.pow 10 digits.length)
    let numerator ← numeral? cs
    some ⟨numerator, denominator⟩

/-- Takes the fraction off the front of what follows the digits of a number. -/
def takeFraction? : List Char → Option (Option Fraction × List Char)
  | '.' :: rest => do
    let fraction ← fractionOf? (rest.takeWhile isNumeral)
    some (some fraction, rest.dropWhile isNumeral)
  | rest => some (none, rest)

/-- Takes a part off the front of a text that begins with a digit. -/
def takePart? (cs : List Char) : Option (Part × List Char) := do
  let whole ← numeral? (cs.takeWhile isNumeral)
  let (fraction, rest) ← takeFraction? (cs.dropWhile isNumeral)
  let unit ← TimeUnit.ofName? (rest.takeWhile isUnitLetter)
  some (⟨whole, fraction, unit⟩, rest.dropWhile isUnitLetter)

/-- Adds the parts that make up a text to a span; `fuel` bounds their number. -/
def addParts? : Nat → Span → List Char → Option Span
  | 0, _, _ => none
  | fuel + 1, span, cs =>
    match cs.dropWhile isBlank with
    | [] => some span
    | c :: rest =>
      if c.isDigit then do
        let (part, rest) ← takePart? (c :: rest)
        let span ← span.addPart? part
        addParts? fuel span rest
      else none

/-- The span that a text spells. A zero alone needs no unit. -/
def ofChars? (cs : List Char) : Option Span :=
  if cs = ['0'] then some zero
  else if (cs.dropWhile isBlank).isEmpty then none
  else addParts? (cs.length + 1) zero cs

def ofText? (text : String) : Option Span := ofChars? text.toList

/-! ### Writing -/

/-- The amounts into which a span is split for its written form, with their units. Units of a day
and more are written out and take an `s` for more than one. -/
def amounts (span : Span) : List (Nat × List Char) :=
  let seconds := span.seconds
  let inYear := seconds % 31557600
  let inMonth := inYear % 2630016
  let inDay := inMonth % 86400
  let nanos := span.subNanos
  let counted (n : Nat) (name : List Char) := (n, if n = 1 then name else name ++ ['s'])
  [counted (seconds / 31557600) ['y', 'e', 'a', 'r'],
    counted (inYear / 2630016) ['m', 'o', 'n', 't', 'h'],
    counted (inMonth / 86400) ['d', 'a', 'y'],
    (inDay / 3600, ['h']), (inDay / 60 % 60, ['m']), (inDay % 60, ['s']),
    (nanos / 1000000, ['m', 's']), (nanos / 1000 % 1000, ['u', 's']), (nanos % 1000, ['n', 's'])]

/-- The characters of the written form. -/
def chars (span : Span) : List Char :=
  if span.isZero then ['0', 's']
  else
    let parts := (span.amounts.filter (·.1 ≠ 0)).map fun part => Decimal.digits part.1 ++ part.2
    [' '].intercalate parts

/-- The written form of a span. -/
def toText (span : Span) : String := String.ofList span.chars

end DeviceScope.Span
