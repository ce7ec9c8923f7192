import DeviceScope.Text.Decimal

/-!
# Number literals

The grammar of JSON numbers as an automaton over their characters, and what a literal denotes:
a plain natural number (`natural?`), or a magnitude that a double-precision number can or cannot
hold (`isFinite`).
-/

namespace DeviceScope.Number

/-- How far a number literal has been read. -/
inductive State where
  /-- A minus sign has been read. -/
  | sign
  /-- The literal is `0` so far, or `-0`. -/
  | zero
  /-- Inside the digits before the point. -/
  | whole
  /-- The point has been read. -/
  | point
  /-- Inside the digits after the point. -/
  | fraction
  /-- The exponent mark has been read. -/
  | mark
  /-- The sign of the exponent has been read. -/
  | exponentSign
  /-- Inside the digits of the exponent. -/
  | exponent
  deriving DecidableEq, Inhabited

/-- The state after the first character of a literal. -/
def start? (c : Char) : Option State :=
  if c = '-' then some .sign
  else if c = '0' then some .zero
  else if c.isDigit then some .whole
  else none

/-- The state after one more character; `none` if the literal cannot go on with it. -/
def State.step? : State → Char → Option State
  | .sign, c => if c = '0' then some .zero else if c.isDigit then some .whole else none
  | .zero, c => tail c
  | .whole, c => if c.isDigit then some .whole else tail c
  | .point, c => if c.isDigit then some .fraction else none
  | .fraction, c => if c.isDigit then some .fraction else exponentMark c
  | .mark, c =>
    if c = '+' ∨ c = '-' then some .exponentSign else if c.isDigit then some .exponent else none
  | .exponentSign, c | .exponent, c => if c.isDigit then some .exponent else none
where
  /-- What may follow the digits before the point. -/
  tail (c : Char) : Option State := if c = '.' then some .point else exponentMark c
  /-- What may follow the digits of a number without exponent. -/
  exponentMark (c : Char) : Option State := if c = 'e' ∨ c = 'E' then some .mark else none

/-- Whether a literal may end here. -/
def State.accepts : State → Bool
  | .zero | .whole | .fraction | .exponent => true
  | .sign | .point | .mark | .exponentSign => false

def IsLiteral : List Char → Bool
  | [] => false
  | c :: cs =>
    match start? c >>= fun state => cs.foldlM State.step? state with
    | some state => state.accepts
    | none => false

/-- The number that a literal of digits alone denotes. -/
def natural? (literal : List Char) : Option Nat := Decimal.read? literal

/-- The parts of a literal: the digits before and after the point, and the exponent. -/
def parts (literal : List Char) : List Char × List Char × Int :=
  let unsigned := if literal.head? = some '-' then literal.tail else literal
  let whole := unsigned.takeWhile Char.isDigit
  let rest := unsigned.dropWhile Char.isDigit
  let afterPoint := if rest.head? = some '.' then rest.tail else []
  let fraction := afterPoint.takeWhile Char.isDigit
  let rest := if rest.head? = some '.' then afterPoint.dropWhile Char.isDigit else rest
  let exponent := rest.tail.filter Char.isDigit
  let negative := rest.tail.head? = some '-'
  let e : Int := Decimal.value exponent
  (whole, fraction, if negative then -e else e)

/-- The least magnitude that rounds beyond the largest double-precision number. -/
def overflowBound : Nat := Nat.pow 2 1024 - Nat.pow 2 970

/-- Whether the magnitude `mantissa * 10 ^ exponent` rounds to a finite double-precision number.
The order of magnitude is looked at first, so that no power of an absurd exponent is computed. -/
def isFiniteMagnitude (mantissa : Nat) (exponent : Int) : Bool :=
  if mantissa = 0 then true
  else
    let order : Int := (Decimal.digits mantissa).length + exponent
    if order < 309 then true
    else if 309 < order then false
    else if 0 ≤ exponent then mantissa * Nat.pow 10 exponent.toNat < overflowBound
    else mantissa < overflowBound * Nat.pow 10 (-exponent).toNat

/-- Whether a literal denotes a number that rounds to a finite double-precision number. -/
def isFinite (literal : List Char) : Bool :=
  let (whole, fraction, exponent) := parts literal
  isFiniteMagnitude (Decimal.value (whole ++ fraction)) (exponent - fraction.length)

end DeviceScope.Number
