/-!
# Text as bytes

A file holds bytes; a text is written to it in UTF-8. Reading back takes each well-formed
sequence for its character and every byte that belongs to none for an unreadable symbol, so that
a damaged stretch spoils only itself: what follows it is found again.
-/

namespace DeviceScope

/-- The content of a file. -/
abbrev Bytes := List UInt8

namespace Utf8

def encodeChar (c : Char) : Bytes :=
  let n := c.toNat
  if n < 0x80 then [.ofNat n]
  else if n < 0x800 then [.ofNat (0xC0 + n / 64), .ofNat (0x80 + n % 64)]
  else if n < 0x10000 then
    [.ofNat (0xE0 + n / 4096), .ofNat (0x80 + n / 64 % 64), .ofNat (0x80 + n % 64)]
  else
    [.ofNat (0xF0 + n / 262144), .ofNat (0x80 + n / 4096 % 64), .ofNat (0x80 + n / 64 % 64),
      .ofNat (0x80 + n % 64)]

/-- A text in UTF-8. -/
def encode (cs : List Char) : Bytes := cs.flatMap encodeChar

/-- The six bits that a continuation byte carries. -/
def continuation? (b : UInt8) : Option Nat :=
  if 0x80 ≤ b.toNat ∧ b.toNat < 0xC0 then some (b.toNat - 0x80) else none

/-- The character with a code point, if there is one. -/
def charOf? (n : Nat) : Option Char :=
  if h : n.isValidChar then some ⟨.ofNatLT n (Nat.lt_trans (by
    rcases h with h | h
    · exact Nat.lt_trans h (by decide)
    · exact h.2 : n < 0x110000) (by decide)), by
      simpa [UInt32.isValidChar, UInt32.toNat_ofNatLT] using h⟩ else none

/-- The character of a sequence of two bytes. -/
def two? (a b : UInt8) : Option Char := do
  let y ← continuation? b
  if 0xC2 ≤ a.toNat ∧ a.toNat < 0xE0 then charOf? ((a.toNat - 0xC0) * 64 + y) else none

/-- The character of a sequence of three bytes. -/
def three? (a b c : UInt8) : Option Char := do
  let y ← continuation? b
  let z ← continuation? c
  if 0xE0 ≤ a.toNat ∧ a.toNat < 0xF0 then
    let n := (a.toNat - 0xE0) * 4096 + y * 64 + z
    if 0x800 ≤ n then charOf? n else none
  else none

/-- The character of a sequence of four bytes. -/
def four? (a b c d : UInt8) : Option Char := do
  let x ← continuation? b
  let y ← continuation? c
  let z ← continuation? d
  if 0xF0 ≤ a.toNat ∧ a.toNat < 0xF8 then
    let n := (a.toNat - 0xF0) * 262144 + x * 4096 + y * 64 + z
    if 0x10000 ≤ n then charOf? n else none
  else none

/-- The characters that bytes spell; `none` stands for a byte that is part of no character. -/
def symbols : Bytes → List (Option Char)
  | [] => []
  | a :: rest =>
    if a.toNat < 0x80 then charOf? a.toNat :: symbols rest
    else
      match rest with
      | [] => [none]
      | b :: rest₂ =>
        match two? a b with
        | some ch => some ch :: symbols rest₂
        | none =>
          match rest₂ with
          | [] => none :: symbols [b]
          | c :: rest₃ =>
            match three? a b c with
            | some ch => some ch :: symbols rest₃
            | none =>
              match rest₃ with
              | [] => none :: symbols [b, c]
              | d :: rest₄ =>
                match four? a b c d with
                | some ch => some ch :: symbols rest₄
                | none => none :: symbols (b :: c :: d :: rest₄)
termination_by bytes => bytes.length

/-- The text that bytes spell, if they spell nothing else. -/
def decode? (bytes : Bytes) : Option (List Char) := (symbols bytes).mapM id

end Utf8

end DeviceScope
