import DeviceScope.Text.Utf8
import DeviceScope.Toml.Scalar

/-!
# TOML strings

The four kinds of strings: with escapes or literal, on one line or over several. Each reader
takes what follows the opening marks and gives the text and what follows the closing marks.
-/

namespace DeviceScope.Toml.Quoted

/-- Whether a character may stand for itself in a string or comment: a tab, or anything that is
no control character. -/
def isPlain (c : Char) : Bool := c = '\t' || (0x20 ≤ c.toNat && c.toNat ≠ 0x7F)

/-- The character whose code point hexadecimal digits denote. -/
def hexChar? (cs : List Char) : Option Char := do
  let ds ← cs.mapM (Scalar.digit? 16)
  Utf8.charOf? (Scalar.ofDigits 16 ds)

/-- The character that a one-letter escape stands for. -/
def shortEscape? (c : Char) : Option Char :=
  if c = '"' ∨ c = '\\' then some c
  else if c = 'b' then some '\x08'
  else if c = 't' then some '\t'
  else if c = 'n' then some '\n'
  else if c = 'f' then some '\x0c'
  else if c = 'r' then some '\r'
  else if c = 'e' then some '\x1b'
  else none

/-- A text read so far, with a character in front. -/
def push (c : Char) (read : Option (List Char × List Char)) : Option (List Char × List Char) :=
  read.map fun (text, rest) => (c :: text, rest)

/-- A string with escapes on one line. -/
def basic? : List Char → Option (List Char × List Char)
  | [] => none
  | '"' :: rest => some ([], rest)
  | '\\' :: 'x' :: a :: b :: rest => do push (← hexChar? [a, b]) (basic? rest)
  | '\\' :: 'u' :: a :: b :: c :: d :: rest => do push (← hexChar? [a, b, c, d]) (basic? rest)
  | '\\' :: 'U' :: a :: b :: c :: d :: e :: f :: g :: h :: rest => do
    push (← hexChar? [a, b, c, d, e, f, g, h]) (basic? rest)
  | '\\' :: c :: rest => do push (← shortEscape? c) (basic? rest)
  | c :: rest => if isPlain c then push c (basic? rest) else none

/-- A literal string on one line. -/
def literal? : List Char → Option (List Char × List Char)
  | [] => none
  | '\'' :: rest => some ([], rest)
  | c :: rest => if isPlain c then push c (literal? rest) else none

/-- Whether a backslash at the end of a line is being followed up. -/
inductive Trim where
  | off
  /-- The backslash has been read, the end of its line has not. -/
  | line
  /-- White space and line ends are passed over. -/
  | lines
  deriving DecidableEq

/-- A string with escapes over several lines. Up to two quotation marks may stand before the
closing three. -/
def basicLines? (trim : Trim) : List Char → Option (List Char × List Char)
  | [] => none
  | '\r' :: '\n' :: rest =>
    match trim with
    | .off => push '\r' (push '\n' (basicLines? .off rest))
    | _ => basicLines? .lines rest
  | '\n' :: rest =>
    match trim with
    | .off => push '\n' (basicLines? .off rest)
    | _ => basicLines? .lines rest
  | c :: rest =>
    if trim ≠ .off ∧ (c = ' ' ∨ c = '\t') then basicLines? trim rest
    else if trim = .line then none
    else
      match c, rest with
      | '"', '"' :: '"' :: '"' :: '"' :: rest => some (['"', '"'], rest)
      | '"', '"' :: '"' :: '"' :: rest => some (['"'], rest)
      | '"', '"' :: '"' :: rest => some ([], rest)
      | '\\', 'x' :: a :: b :: rest => do push (← hexChar? [a, b]) (basicLines? .off rest)
      | '\\', 'u' :: a :: b :: c :: d :: rest => do
        push (← hexChar? [a, b, c, d]) (basicLines? .off rest)
      | '\\', 'U' :: a :: b :: c :: d :: e :: f :: g :: h :: rest => do
        push (← hexChar? [a, b, c, d, e, f, g, h]) (basicLines? .off rest)
      | '\\', '\n' :: rest => basicLines? .lines rest
      | '\\', '\r' :: '\n' :: rest => basicLines? .lines rest
      | '\\', ' ' :: rest => basicLines? .line rest
      | '\\', '\t' :: rest => basicLines? .line rest
      | '\\', d :: rest => do push (← shortEscape? d) (basicLines? .off rest)
      | '\\', [] => none
      | c, rest => if isPlain c then push c (basicLines? .off rest) else none

/-- A literal string over several lines. Up to two quotation marks may stand before the closing
three. -/
def literalLines? : List Char → Option (List Char × List Char)
  | [] => none
  | '\r' :: '\n' :: rest => push '\r' (push '\n' (literalLines? rest))
  | '\'' :: '\'' :: '\'' :: '\'' :: '\'' :: rest => some (['\'', '\''], rest)
  | '\'' :: '\'' :: '\'' :: '\'' :: rest => some (['\''], rest)
  | '\'' :: '\'' :: '\'' :: rest => some ([], rest)
  | c :: rest => if c = '\n' ∨ isPlain c then push c (literalLines? rest) else none

/-- Drops the line end right after the opening marks. -/
def dropLineEnd : List Char → List Char
  | '\n' :: rest => rest
  | '\r' :: '\n' :: rest => rest
  | cs => cs

/-- The string at the front of a text, with what follows it. -/
def take? : List Char → Option (List Char × List Char)
  | '"' :: '"' :: '"' :: rest => basicLines? .off (dropLineEnd rest)
  | '"' :: rest => basic? rest
  | '\'' :: '\'' :: '\'' :: rest => literalLines? (dropLineEnd rest)
  | '\'' :: rest => literal? rest
  | _ => none

end DeviceScope.Toml.Quoted
