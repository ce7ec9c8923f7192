import DeviceScope.Json.Reader
import DeviceScope.Proofs.Json.Number

/-!
# Spellings of a value

One value has many texts. White space may stand between any two tokens, and most characters of a
string can be named in several ways: as they are, by an escape of one letter, or by the numbers of
their UTF-16 units. `Json.Spells` says which texts spell a value, and nothing in it refers to how a
text is read. The reader takes every one of them for the value (`Json.ofSymbols?_of_spells`,
`Json.ofText?_of_spells`), so a value is all that it makes of a text.

The reader is an automaton, so the statement that goes through the induction says in which state
it is left by a part of the text: `Reader.Reads` relates two states by the characters between
them. A value that has a last mark of its own leaves the reader where `Reader.complete` says; a
number is ended only by what follows it. `Reader.Ends` covers both, and the two agree on every
character that may follow a value (`Ends.stepChar?_eq`).
-/

namespace DeviceScope.Json

/-! ### Texts of a value -/

/-- The characters that are white space between tokens. -/
def blanks : List Char := [' ', '\t', '\n', '\r']

/-- The escapes of one letter, each with the character that it stands for. -/
def shortEscapes : List (Char × Char) :=
  [('"', '"'), ('\\', '\\'), ('/', '/'), ('b', '\x08'), ('f', '\x0c'), ('n', '\n'), ('r', '\r'),
    ('t', '\t')]

/-- The hexadecimal digits and their values. -/
def hexDigits : List (Char × Nat) :=
  [('0', 0), ('1', 1), ('2', 2), ('3', 3), ('4', 4),
    ('5', 5), ('6', 6), ('7', 7), ('8', 8), ('9', 9),
    ('a', 10), ('b', 11), ('c', 12), ('d', 13), ('e', 14), ('f', 15),
    ('A', 10), ('B', 11), ('C', 12), ('D', 13), ('E', 14), ('F', 15)]

/-- The characters are those of the items, each one spelled in some way, one after another. -/
inductive InSequence {α : Type} (Spelled : α → List Char → Prop) : List α → List Char → Prop where
  | nil : InSequence Spelled [] []
  | cons {item : α} {items : List α} {cs more : List Char} (h : Spelled item cs)
    (hrest : InSequence Spelled items more) : InSequence Spelled (item :: items) (cs ++ more)

namespace InSequence

variable {α : Type} {Spelled : α → List Char → Prop}

theorem single {item : α} {cs : List Char} (h : Spelled item cs) :
    InSequence Spelled [item] cs := by
  have hcs : InSequence Spelled [item] (cs ++ []) := .cons h .nil
  rwa [List.append_nil] at hcs

theorem append {a b : List α} {x y : List Char} (ha : InSequence Spelled a x)
    (hb : InSequence Spelled b y) : InSequence Spelled (a ++ b) (x ++ y) := by
  induction ha with
  | nil => exact hb
  | cons h _ ih =>
    rw [List.append_assoc]
    exact .cons h ih

/-- Where the items are two parts, so are the characters. -/
theorem of_append {a b : List α} {cs : List Char} (h : InSequence Spelled (a ++ b) cs) :
    ∃ x y, cs = x ++ y ∧ InSequence Spelled a x ∧ InSequence Spelled b y := by
  induction a generalizing cs with
  | nil => exact ⟨[], cs, rfl, .nil, h⟩
  | cons item a ih =>
    cases h with
    | @cons _ _ first _ hitem hrest =>
      obtain ⟨x, y, rfl, hx, hy⟩ := ih hrest
      exact ⟨first ++ x, y, (List.append_assoc ..).symm, .cons hitem hx, hy⟩

theorem of_single {item : α} {cs : List Char} (h : InSequence Spelled [item] cs) :
    Spelled item cs := by
  cases h with
  | cons hitem hrest =>
    cases hrest
    rwa [List.append_nil]

end InSequence

/-- What is named inside a string at one place. -/
inductive Piece where
  | char (c : Char)
  /-- A UTF-16 unit, which may be a character or one half of a surrogate pair. -/
  | unit (n : Nat)

/-- The ways to name something in a string. -/
inductive Piece.Spelled : Piece → List Char → Prop where
  /-- A character that stands for itself. -/
  | plain {c : Char} (hquote : c ≠ '"') (hslash : c ≠ '\\') (hcontrol : 0x20 ≤ c.toNat) :
    Spelled (.char c) [c]
  | short {letter c : Char} (h : (letter, c) ∈ shortEscapes) :
    Spelled (.char c) ['\\', letter]
  /-- The number of a unit, in four hexadecimal digits. -/
  | numbered {a b c d : Char} {w x y z : Nat} (ha : (a, w) ∈ hexDigits) (hb : (b, x) ∈ hexDigits)
    (hc : (c, y) ∈ hexDigits) (hd : (d, z) ∈ hexDigits) :
    Spelled (.unit (((w * 16 + x) * 16 + y) * 16 + z)) ['\\', 'u', a, b, c, d]

/-- The text that pieces make up: two halves of a surrogate pair are one character. There is none
if a half stands alone. -/
def textOfPieces? : List Piece → Option (List Char)
  | [] => some []
  | .char c :: rest => (textOfPieces? rest).map (c :: ·)
  | .unit n :: rest =>
    if 0xD800 ≤ n ∧ n < 0xDC00 then
      match rest with
      | .unit low :: rest =>
        if 0xDC00 ≤ low ∧ low < 0xE000 then
          (Utf8.charOf? (0x10000 + (n - 0xD800) * 0x400 + (low - 0xDC00))).bind fun c =>
            (textOfPieces? rest).map (c :: ·)
        else none
      | _ => none
    else (Utf8.charOf? n).bind fun c => (textOfPieces? rest).map (c :: ·)

inductive Token where
  /-- A mark, or a word that stands for a value. -/
  | fixed (cs : List Char)
  | number (literal : List Char)
  /-- A string, or `none` for one that spells no text. -/
  | string (text : Option String)

namespace Token

def mark (c : Char) : Token := .fixed [c]

/-- The ways to spell a token. -/
inductive Spelled : Token → List Char → Prop where
  | fixed (cs : List Char) : Spelled (.fixed cs) cs
  | number {literal : List Char} (h : Number.Literal literal) : Spelled (.number literal) literal
  | string {pieces : List Piece} {body : List Char} (h : InSequence Piece.Spelled pieces body) :
    Spelled (.string ((textOfPieces? pieces).map String.ofList)) ('"' :: (body ++ ['"']))

/-- The ways to spell a token, with white space before it. -/
inductive Written (token : Token) : List Char → Prop where
  | mk {blank cs : List Char} (hblank : ∀ c ∈ blank, c ∈ blanks)
    (h : token.Spelled cs) : Written token (blank ++ cs)

end Token

/-- Two lists of tokens with a comma between them, if both are there. -/
def commaToken (first : Bool) (rest : List Token) : List Token :=
  if first then rest else .mark ',' :: rest

mutual

/-- The tokens of a value. -/
def tokens : Json → List Token
  | .null => [.fixed ['n', 'u', 'l', 'l']]
  | .bool true => [.fixed ['t', 'r', 'u', 'e']]
  | .bool false => [.fixed ['f', 'a', 'l', 's', 'e']]
  | .number literal => [.number literal]
  | .string text => [.string text]
  | .array items => .mark '[' :: (itemTokens true items ++ [.mark ']'])
  | .object members => .mark '\x7b' :: (memberTokens true members ++ [.mark '\x7d'])

/-- Items with commas between them; before the first one too unless `first`. -/
def itemTokens (first : Bool) : List Json → List Token
  | [] => []
  | item :: rest => commaToken first (tokens item ++ itemTokens false rest)

/-- Members with commas between them; before the first one too unless `first`. -/
def memberTokens (first : Bool) : List (Option String × Json) → List Token
  | [] => []
  | (key, value) :: rest =>
    commaToken first (.string key :: .mark ':' :: (tokens value ++ memberTokens false rest))

end

/-- **The texts of a value**: its tokens, with white space before and after each one. -/
inductive Spells (value : Json) : List Char → Prop where
  | mk {cs blank : List Char} (h : InSequence Token.Written value.tokens cs)
    (hblank : ∀ c ∈ blank, c ∈ blanks) : Spells value (cs ++ blank)

namespace Reader

/-! ### From one state to another -/

/-- The characters take the reader from one state to another. -/
def Reads (reader : Reader) (cs : List Char) (later : Reader) : Prop :=
  reader.run? (cs.map some) = some later

theorem Reads.nil (reader : Reader) : Reads reader [] reader := rfl

theorem Reads.cons {reader later : Reader} {c : Char} {cs : List Char} (next : Reader)
    (hstep : reader.stepChar? c = some next) (hrest : Reads next cs later) :
    Reads reader (c :: cs) later := by
  rw [Reads, List.map_cons, run?, List.foldlM_cons, step?, hstep]
  exact hrest

theorem Reads.single {reader later : Reader} {c : Char}
    (hstep : reader.stepChar? c = some later) : Reads reader [c] later :=
  .cons later hstep (.nil later)

theorem Reads.append {reader next later : Reader} {a b : List Char} (ha : Reads reader a next)
    (hb : Reads next b later) : Reads reader (a ++ b) later := by
  rw [Reads, List.map_append, run?_append, ha]
  exact hb

theorem isSpace_of_mem {c : Char} (h : c ∈ blanks) : isSpace c = true := by
  simp only [blanks, List.mem_cons, List.not_mem_nil, or_false] at h
  rcases h with rfl | rfl | rfl | rfl <;> rfl

/-- The reader stays as it is while white space comes. -/
def Idle (reader : Reader) : Prop := ∀ c, isSpace c = true → reader.stepChar? c = some reader

theorem Idle.reads {reader : Reader} (h : reader.Idle) {blank : List Char}
    (hblank : ∀ c ∈ blank, c ∈ blanks) : Reads reader blank reader := by
  induction blank with
  | nil => exact .nil reader
  | cons c blank ih =>
    exact .cons reader (h c (isSpace_of_mem (hblank c List.mem_cons_self)))
      (ih fun d hd => hblank d (List.mem_cons_of_mem _ hd))

theorem idle_value (stack : List Frame) (orEnd : Bool) : Idle ⟨stack, .value orEnd⟩ :=
  fun _ hc => if_pos hc

theorem idle_key (stack : List Frame) (orEnd : Bool) : Idle ⟨stack, .key orEnd⟩ :=
  fun _ hc => if_pos hc

theorem idle_colon (stack : List Frame) : Idle ⟨stack, .colon⟩ :=
  fun _ hc => if_pos hc

theorem idle_complete (value : Json) (stack : List Frame) : (complete value stack).Idle := by
  intro c hc
  cases stack with
  | nil => exact if_pos hc
  | cons frame stack => cases frame <;> exact if_pos hc

/-- A mark that the reader waits for is found behind white space. -/
theorem Idle.reads_mark {reader next : Reader} (h : reader.Idle) {c : Char}
    (hstep : reader.stepChar? c = some next) {cs : List Char}
    (hcs : (Token.mark c).Written cs) : Reads reader cs next := by
  obtain ⟨hblank, hspelled⟩ := hcs
  cases hspelled with
  | fixed => exact (h.reads hblank).append (.single hstep)

end Reader

/-! ### Strings -/

namespace Quoted

/-- The string with one more piece. -/
def take (q : Quoted) : Piece → Quoted
  | .char c => q.push c
  | .unit n => q.pushUnit n

theorem chars_put {q : Quoted} (h : q.chars = none) (c? : Option Char) :
    (q.put c?).chars = none := by
  cases c? with
  | none => rfl
  | some c =>
    rw [put, h]
    rfl

/-- A string that spells no text does not come to spell one. -/
theorem chars_take {q : Quoted} (h : q.chars = none) (piece : Piece) :
    (q.take piece).chars = none := by
  cases piece with
  | char c =>
    rw [take, push]
    split
    · rfl
    · rw [h]
      rfl
  | unit n =>
    rw [take, pushUnit]
    split
    · split
      · exact chars_put h _
      · rfl
    · split
      · rfl
      · split
        · exact h
        · exact chars_put h _

theorem text?_foldl_of_none {q : Quoted} (h : q.chars = none) (pieces : List Piece) :
    (pieces.foldl take q).text? = none := by
  induction pieces generalizing q with
  | nil =>
    rw [List.foldl_nil, text?, h]
    split <;> rfl
  | cons piece pieces ih => exact ih (chars_take h piece)

/-- A low surrogate that follows no high one stands for no character. -/
theorem charOf?_low {n : Nat} (h : 0xDC00 ≤ n ∧ n < 0xE000) : Utf8.charOf? n = none :=
  dif_neg fun hvalid => by rcases hvalid with hlow | hhigh <;> omega

/-- A unit that is no high surrogate is a character by itself, or nothing. -/
theorem pushUnit_of_not_high {chars : Option (List Char)} {n : Nat}
    (h : ¬ (0xD800 ≤ n ∧ n < 0xDC00)) :
    pushUnit ⟨chars, none⟩ n = put ⟨chars, none⟩ (Utf8.charOf? n) := by
  rw [pushUnit]
  by_cases hlow : 0xDC00 ≤ n ∧ n < 0xE000
  · rw [if_pos hlow, charOf?_low hlow]
    rfl
  · rw [if_neg hlow]
    exact if_neg h

theorem pushUnit_of_high {chars : Option (List Char)} {n : Nat} (h : 0xD800 ≤ n ∧ n < 0xDC00) :
    pushUnit ⟨chars, none⟩ n = ⟨chars, some n⟩ := by
  rw [pushUnit, if_neg (by omega)]
  exact if_pos h

theorem pushUnit_pair {chars : Option (List Char)} {high low : Nat}
    (h : 0xDC00 ≤ low ∧ low < 0xE000) :
    pushUnit ⟨chars, some high⟩ low =
      put ⟨chars, none⟩ (Utf8.charOf? (0x10000 + (high - 0xD800) * 0x400 + (low - 0xDC00))) := by
  rw [pushUnit, if_pos h]
  dsimp only
  cases Utf8.charOf? (0x10000 + (high - 0xD800) * 0x400 + (low - 0xDC00)) <;> rfl

/-- Behind a high surrogate stands its low one, or the string spells no text. -/
theorem chars_take_of_high {chars : Option (List Char)} {high : Nat} {piece : Piece}
    (h : ∀ low, piece = .unit low → ¬ (0xDC00 ≤ low ∧ low < 0xE000)) :
    (take ⟨chars, some high⟩ piece).chars = none := by
  cases piece with
  | char c => rfl
  | unit n =>
    rw [take, pushUnit, if_neg (h n rfl)]
    rfl

/-- A character that was taken in stands before what follows. -/
theorem text?_foldl_put {chars : List Char} {c? : Option Char} {pieces : List Piece}
    (h : ∀ chars : List Char, (pieces.foldl take ⟨some chars, none⟩).text? =
      (textOfPieces? pieces).map fun cs => String.ofList (chars.reverse ++ cs)) :
    (pieces.foldl take (put ⟨some chars, none⟩ c?)).text? =
      (c?.bind fun c => (textOfPieces? pieces).map (c :: ·)).map fun cs =>
        String.ofList (chars.reverse ++ cs) := by
  cases c? with
  | none => exact text?_foldl_of_none rfl pieces
  | some c =>
    rw [Option.bind_some, Option.map_map]
    refine (h (c :: chars)).trans (congrArg (fun f => Option.map f _) (funext fun cs => ?_))
    show _ = String.ofList (chars.reverse ++ (c :: cs))
    rw [List.reverse_cons, List.append_assoc]
    rfl

/-- **What the pieces make up** is the text of the string when all of them have been read. -/
theorem text?_foldl_take (pieces : List Piece) (chars : List Char) :
    (pieces.foldl take ⟨some chars, none⟩).text? =
      (textOfPieces? pieces).map fun cs => String.ofList (chars.reverse ++ cs) := by
  fun_induction textOfPieces? pieces generalizing chars with
  | case1 =>
    show some (String.ofList chars.reverse) = some (String.ofList (chars.reverse ++ []))
    rw [List.append_nil]
  | case2 c rest ih => exact @text?_foldl_put chars (some c) rest ih
  | case3 n hhigh low rest hlow ih =>
    -- The two halves of a pair.
    rw [List.foldl_cons, List.foldl_cons, take, take, pushUnit_of_high hhigh, pushUnit_pair hlow]
    exact text?_foldl_put ih
  | case4 n hhigh low rest hlow =>
    rw [List.foldl_cons, take, pushUnit_of_high hhigh]
    refine text?_foldl_of_none (chars_take_of_high ?_) rest
    rintro _ ⟨⟩
    exact hlow
  | case5 n rest hhigh hrest =>
    rw [List.foldl_cons, take, pushUnit_of_high hhigh]
    cases rest with
    | nil => rfl
    | cons piece rest =>
      refine text?_foldl_of_none (chars_take_of_high ?_) rest
      rintro low rfl
      exact absurd rfl (hrest low rest)
  | case6 n rest hhigh ih =>
    rw [List.foldl_cons, take, pushUnit_of_not_high hhigh]
    exact text?_foldl_put ih

end Quoted

namespace Reader

theorem shortEscape?_of_mem : ∀ entry ∈ shortEscapes, shortEscape? entry.1 = some entry.2 := by
  decide

theorem hexDigit?_of_mem : ∀ entry ∈ hexDigits, hexDigit? entry.1 = some entry.2 := by
  decide

/-- The reader inside a string, between two pieces. -/
def inQuotes (stack : List Frame) (isKey : Bool) (q : Quoted) : Reader :=
  ⟨stack, .string isKey q .closed⟩

theorem reads_piece (stack : List Frame) (isKey : Bool) (q : Quoted) {piece : Piece}
    {cs : List Char} (h : piece.Spelled cs) :
    Reads (inQuotes stack isKey q) cs (inQuotes stack isKey (q.take piece)) := by
  let expecting (escape : Escape) : Reader := ⟨stack, .string isKey q escape⟩
  cases h with
  | @plain c hquote hslash hcontrol =>
    refine .single ?_
    show inString? stack isKey q c .closed = _
    rw [inString?, if_neg hquote, if_neg hslash, if_neg (by omega)]
    rfl
  | @short letter c h =>
    have hletter : letter ≠ 'u' := by
      rintro rfl
      simp [shortEscapes] at h
    refine .cons (expecting .opened) rfl (.single ?_)
    show inString? stack isKey q letter .opened = _
    rw [inString?, if_neg hletter, shortEscape?_of_mem _ h]
    rfl
  | @numbered a b c d w x y z ha hb hc hd =>
    have hdigit : ∀ {e : Char} {n : Nat}, (e, n) ∈ hexDigits → ∀ count value,
        inString? stack isKey q e (.digits (count + 1) value) =
          some (expecting (.digits count (value * 16 + n))) := by
      intro e n he count value
      rw [inString?, hexDigit?_of_mem _ he]
      rfl
    refine .cons (expecting .opened) rfl (.cons (expecting (.digits 3 0)) rfl
      (.cons (expecting (.digits 2 w)) ?_ (.cons _ (hdigit hb 1 w)
        (.cons _ (hdigit hc 0 _) (.single ?_)))))
    · have hfirst := hdigit ha 2 0
      rwa [Nat.zero_mul, Nat.zero_add] at hfirst
    · show inString? stack isKey q d (.digits 0 ((w * 16 + x) * 16 + y)) = _
      rw [inString?, hexDigit?_of_mem _ hd]
      rfl

theorem reads_pieces (stack : List Frame) (isKey : Bool) (q : Quoted) {pieces : List Piece}
    {body : List Char} (h : InSequence Piece.Spelled pieces body) :
    Reads (inQuotes stack isKey q) body (inQuotes stack isKey (pieces.foldl Quoted.take q)) := by
  induction h generalizing q with
  | nil => exact .nil _
  | cons hpiece _ ih => exact (reads_piece stack isKey q hpiece).append (ih _)

/-- **A string is read back**, where one may stand. -/
theorem Idle.reads_string {reader later : Reader} (hidle : reader.Idle) {stack : List Frame}
    {isKey : Bool} (hopen : reader.stepChar? '"' = some (inQuotes stack isKey .empty))
    {text : Option String} (hlater : completeString isKey text stack = some later)
    {cs : List Char} (h : (Token.string text).Written cs) : Reads reader cs later := by
  obtain ⟨hblank, hspelled⟩ := h
  cases hspelled with
  | @string pieces body hpieces =>
    refine (hidle.reads hblank).append (.cons _ hopen
      ((reads_pieces stack isKey .empty hpieces).append (.single ?_)))
    show completeString isKey (pieces.foldl Quoted.take .empty).text? stack = _
    rw [Quoted.empty, Quoted.text?_foldl_take]
    exact hlater

/-! ### Numbers -/

theorem ne_of_start? {c d : Char} {state : Number.State} (h : Number.start? c = some state)
    (hd : Number.start? d = none) : c ≠ d := by
  rintro rfl
  rw [hd] at h
  exact absurd h (by simp)

/-- The first character of a literal begins a number. -/
theorem stepChar?_start {stack : List Frame} {orEnd : Bool} {c : Char} {state : Number.State}
    (h : Number.start? c = some state) :
    stepChar? ⟨stack, .value orEnd⟩ c = some ⟨stack, .number [c] state⟩ := by
  -- None of the other characters that may stand here begins a number.
  have hspace : isSpace c = false := by
    rw [isSpace]
    simp only [ne_of_start? h (show Number.start? ' ' = none by decide),
      ne_of_start? h (show Number.start? '\t' = none by decide),
      ne_of_start? h (show Number.start? '\n' = none by decide),
      ne_of_start? h (show Number.start? '\r' = none by decide), decide_false, Bool.or_self]
  rw [stepChar?]
  dsimp only
  rw [if_neg (by rw [hspace]; simp),
    if_neg (fun h' => ne_of_start? h (by decide) h'.1), beginValue?,
    if_neg (ne_of_start? h (by decide)), if_neg (ne_of_start? h (by decide)),
    if_neg (ne_of_start? h (by decide)), if_neg (ne_of_start? h (by decide)),
    if_neg (ne_of_start? h (by decide)), if_neg (ne_of_start? h (by decide)), h]
  rfl

theorem reads_literal {stack : List Frame} {cs read : List Char} {state last : Number.State}
    (h : cs.foldlM Number.State.step? state = some last) :
    Reads ⟨stack, .number read state⟩ cs ⟨stack, .number (cs.reverse ++ read) last⟩ := by
  -- What has been read so far changes from character to character, so it is any list here.
  induction cs generalizing read state with
  | nil =>
    obtain rfl : state = last := by simpa using h
    exact .nil _
  | cons c cs ih =>
    rw [List.foldlM_cons] at h
    obtain ⟨next, hnext, hrest⟩ := Option.bind_eq_some_iff.1 h
    refine .cons ⟨stack, .number (c :: read) next⟩ ?_ ?_
    · rw [stepChar?]
      dsimp only
      rw [hnext]
    · rw [List.reverse_cons, List.append_assoc]
      exact ih hrest

/-! ### Ends of values -/

/-- The reader has come to the end of a value, as far as it can tell: a number may still go on. -/
inductive Ends (value : Json) (stack : List Frame) : Reader → Prop where
  | complete : Ends value stack (complete value stack)
  | number {literal : List Char} {state : Number.State} (hvalue : value = .number literal)
    (haccepts : state.accepts = true) :
    Ends value stack ⟨stack, .number literal.reverse state⟩

/-- The characters that may follow a value. -/
def isEnd (c : Char) : Bool := isSpace c || c = ',' || c = ']' || c = '\x7d'

theorem isEnd_of_isSpace {c : Char} (h : isSpace c = true) : isEnd c = true := by
  simp only [isEnd, h, Bool.true_or]

theorem step?_eq_none_of_isEnd (state : Number.State) {c : Char} (hc : isEnd c = true) :
    state.step? c = none := by
  simp only [isEnd, isSpace, Bool.or_eq_true, decide_eq_true_iff] at hc
  rcases hc with (((((rfl | rfl) | rfl) | rfl) | rfl) | rfl) | rfl <;> cases state <;> rfl

/-- What follows a value is read as after a value that is complete. -/
theorem Ends.stepChar?_eq {value : Json} {stack : List Frame} {reader : Reader}
    (h : Ends value stack reader) {c : Char} (hc : isEnd c = true) :
    reader.stepChar? c = (Reader.complete value stack).stepChar? c := by
  cases h with
  | complete => rfl
  | @number literal state hvalue haccepts =>
    -- The character does not go on with the number, so it ends it.
    subst hvalue
    rw [stepChar?]
    dsimp only
    rw [step?_eq_none_of_isEnd _ hc]
    dsimp only
    rw [if_pos haccepts, List.reverse_reverse]
    cases stack with
    | nil => rfl
    | cons frame stack => cases frame <;> rfl

/-- White space behind a value changes nothing. -/
theorem Ends.reads_blank {value : Json} {stack : List Frame} {reader : Reader}
    (h : Ends value stack reader) {blank : List Char} (hblank : ∀ c ∈ blank, c ∈ blanks) :
    ∃ later, Reads reader blank later ∧ Ends value stack later := by
  cases blank with
  | nil => exact ⟨reader, .nil reader, h⟩
  | cons c blank =>
    have hc := isSpace_of_mem (hblank c List.mem_cons_self)
    refine ⟨_, .cons _ ?_ ((idle_complete value stack).reads fun d hd =>
      hblank d (List.mem_cons_of_mem _ hd)), .complete⟩
    rw [h.stepChar?_eq (isEnd_of_isSpace hc)]
    exact idle_complete value stack c hc

/-- A mark that follows a value is found behind white space. -/
theorem Ends.reads_mark {value : Json} {stack : List Frame} {reader next : Reader}
    (h : Ends value stack reader) {c : Char} (hc : isEnd c = true)
    (hstep : (Reader.complete value stack).stepChar? c = some next) {cs : List Char}
    (hcs : (Token.mark c).Written cs) : Reads reader cs next := by
  obtain ⟨hblank, hspelled⟩ := hcs
  cases hspelled with
  | fixed =>
    obtain ⟨later, hreads, hends⟩ := h.reads_blank hblank
    exact hreads.append (.single ((hends.stepChar?_eq hc).trans hstep))

/-- A text may end where its value does. -/
theorem Ends.result?_eq {value : Json} {reader : Reader} (h : Ends value [] reader) :
    reader.result? = some value := by
  cases h with
  | complete => rfl
  | @number literal state hvalue haccepts =>
    subst hvalue
    rw [result?]
    dsimp only
    rw [if_pos haccepts, List.reverse_reverse]
    rfl

/-! ### Values -/

/-- What it means that the tokens of a value are read back, however they are written and wherever
they stand. -/
def ReadsBack (value : Json) : Prop :=
  ∀ stack orEnd cs, InSequence Token.Written value.tokens cs →
    ∃ later, Reads ⟨stack, .value orEnd⟩ cs later ∧ Ends value stack later

/-- A word that stands for a value. -/
theorem readsBack_word {value : Json} {c d : Char} {rest : List Char}
    (htokens : value.tokens = [.fixed (c :: d :: rest)])
    (hbegin : ∀ stack orEnd,
      stepChar? ⟨stack, .value orEnd⟩ c = some ⟨stack, .word (d :: rest) value⟩) :
    ReadsBack value := by
  have hrest : ∀ (stack : List Frame) (d : Char) (rest : List Char),
      Reads ⟨stack, .word (d :: rest) value⟩ (d :: rest) (complete value stack) := by
    intro stack d rest
    induction rest generalizing d with
    | nil => exact .single (if_neg fun h => h rfl)
    | cons e rest ih => exact .cons ⟨stack, .word (e :: rest) value⟩ (if_neg fun h => h rfl) (ih e)
  intro stack orEnd cs h
  rw [htokens] at h
  obtain ⟨hblank, hspelled⟩ := h.of_single
  cases hspelled with
  | fixed =>
    exact ⟨_, ((idle_value stack orEnd).reads hblank).append
      (.cons _ (hbegin stack orEnd) (hrest stack d rest)), .complete⟩

theorem readsBack_number (literal : List Char) : ReadsBack (.number literal) := by
  intro stack orEnd cs h
  obtain ⟨hblank, hspelled⟩ := InSequence.of_single h
  cases hspelled with
  | number hliteral =>
    rw [← Number.isLiteral_iff] at hliteral
    cases literal with
    | nil => exact absurd hliteral (by decide)
    | cons c cs =>
      -- The first character begins the number, and the rest of the literal goes on with it.
      obtain ⟨state, hstate, last, hrest, haccepts⟩ := Number.isLiteral_cons.1 hliteral
      refine ⟨⟨stack, .number (c :: cs).reverse last⟩, ?_, .number rfl haccepts⟩
      rw [List.reverse_cons]
      exact ((idle_value stack orEnd).reads hblank).append
        (.cons _ (stepChar?_start hstate) (reads_literal hrest))

theorem readsBack_string (text : Option String) : ReadsBack (.string text) :=
  fun stack orEnd _ h =>
    ⟨_, (idle_value stack orEnd).reads_string (by cases orEnd <;> rfl) rfl (InSequence.of_single h),
      .complete⟩

/-- The items after the first one, and the end of the array. -/
theorem reads_itemTokens {items : List Json} (hitems : ∀ item ∈ items, ReadsBack item)
    {stack : List Frame} {done : List Json} {last : Json} {reader : Reader}
    (hreader : Ends last (.array done :: stack) reader) {cs : List Char}
    (h : InSequence Token.Written (itemTokens false items ++ [.mark ']']) cs) :
    Reads reader cs (complete (.array ((last :: done).reverse ++ items)) stack) := by
  induction items generalizing done last reader cs with
  | nil =>
    -- The bracket ends the last item and the array.
    rw [List.append_nil]
    exact hreader.reads_mark (by decide) rfl h.of_single
  | cons item items ih =>
    -- The comma ends the last item, and the next one is read after it.
    rw [itemTokens, commaToken, if_neg (by decide), List.cons_append, List.append_assoc] at h
    cases h with
    | cons hcomma hrest =>
      obtain ⟨x, y, rfl, hx, hy⟩ := hrest.of_append
      obtain ⟨later, hreads, hends⟩ :=
        hitems item List.mem_cons_self (.array (last :: done) :: stack) false x hx
      have hmore := ih (fun i hi => hitems i (List.mem_cons_of_mem _ hi)) hends hy
      rw [List.reverse_cons, List.append_assoc] at hmore
      exact (hreader.reads_mark (by decide) rfl hcomma).append (hreads.append hmore)

theorem readsBack_array {items : List Json} (hitems : ∀ item ∈ items, ReadsBack item) :
    ReadsBack (.array items) := by
  intro stack orEnd cs h
  refine ⟨complete (.array items) stack, ?_, .complete⟩
  rw [tokens] at h
  cases h with
  | cons hopen hrest =>
    have hbegin : Reads ⟨stack, .value orEnd⟩ _ ⟨.array [] :: stack, .value true⟩ :=
      (idle_value stack orEnd).reads_mark (by cases orEnd <;> rfl) hopen
    refine hbegin.append ?_
    cases items with
    | nil => exact (idle_value _ true).reads_mark rfl hrest.of_single
    | cons item items =>
      rw [itemTokens, commaToken, if_pos rfl, List.append_assoc] at hrest
      obtain ⟨x, y, rfl, hx, hy⟩ := hrest.of_append
      obtain ⟨later, hreads, hends⟩ := hitems item List.mem_cons_self (.array [] :: stack) true x hx
      exact hreads.append
        (reads_itemTokens (fun i hi => hitems i (List.mem_cons_of_mem _ hi)) hends hy)

/-- A member, from the quote of its key to the end of its value, and what follows it. -/
theorem reads_member {value : Json} (hvalue : ReadsBack value) (key : Option String)
    (stack : List Frame) (done : List (Option String × Json)) (before : Option String)
    (orEnd : Bool) {more : List Token} {cs : List Char}
    (h : InSequence Token.Written (.string key :: .mark ':' :: (value.tokens ++ more)) cs) :
    ∃ x y later, cs = x ++ y ∧ Reads ⟨.object done before :: stack, .key orEnd⟩ x later ∧
      Ends value (.object done key :: stack) later ∧ InSequence Token.Written more y := by
  cases h with
  | cons hkey hrest =>
    cases hrest with
    | cons hcolon hrest =>
      obtain ⟨x, y, rfl, hx, hy⟩ := hrest.of_append
      obtain ⟨later, hreads, hends⟩ := hvalue (.object done key :: stack) false x hx
      have hopen : Reads ⟨.object done before :: stack, .key orEnd⟩ _
          ⟨.object done key :: stack, .colon⟩ :=
        (idle_key _ orEnd).reads_string (by cases orEnd <;> rfl) rfl hkey
      refine ⟨_, y, later, ?_, hopen.append
        (((idle_colon _).reads_mark rfl hcolon).append hreads), hends, hy⟩
      rw [List.append_assoc, List.append_assoc]

/-- The members after the first one, and the end of the object. -/
theorem reads_memberTokens {members : List (Option String × Json)}
    (hmembers : ∀ member ∈ members, ReadsBack member.2) {stack : List Frame}
    {done : List (Option String × Json)} {key : Option String} {last : Json} {reader : Reader}
    (hreader : Ends last (.object done key :: stack) reader) {cs : List Char}
    (h : InSequence Token.Written (memberTokens false members ++ [.mark '\x7d']) cs) :
    Reads reader cs (complete (.object (((key, last) :: done).reverse ++ members)) stack) := by
  induction members generalizing done key last reader cs with
  | nil =>
    -- The brace ends the value of the last member and the object.
    rw [List.append_nil]
    exact hreader.reads_mark (by decide) rfl h.of_single
  | cons member members ih =>
    obtain ⟨name, value⟩ := member
    rw [memberTokens, commaToken, if_neg (by decide)] at h
    simp only [List.cons_append, List.append_assoc] at h
    cases h with
    | cons hcomma hrest =>
      obtain ⟨x, y, later, rfl, hreads, hends, hy⟩ := reads_member
        (hmembers (name, value) List.mem_cons_self) name stack ((key, last) :: done) none false
        hrest
      have hmore := ih (fun m hm => hmembers m (List.mem_cons_of_mem _ hm)) hends hy
      rw [List.reverse_cons, List.append_assoc] at hmore
      exact (hreader.reads_mark (by decide) rfl hcomma).append (hreads.append hmore)

theorem readsBack_object {members : List (Option String × Json)}
    (hmembers : ∀ member ∈ members, ReadsBack member.2) : ReadsBack (.object members) := by
  intro stack orEnd cs h
  refine ⟨complete (.object members) stack, ?_, .complete⟩
  rw [tokens] at h
  cases h with
  | cons hopen hrest =>
    have hbegin : Reads ⟨stack, .value orEnd⟩ _ ⟨.object [] none :: stack, .key true⟩ :=
      (idle_value stack orEnd).reads_mark (by cases orEnd <;> rfl) hopen
    refine hbegin.append ?_
    cases members with
    | nil => exact (idle_key _ true).reads_mark rfl hrest.of_single
    | cons member members =>
      obtain ⟨name, value⟩ := member
      rw [memberTokens, commaToken, if_pos rfl] at hrest
      simp only [List.cons_append, List.append_assoc] at hrest
      obtain ⟨x, y, later, rfl, hreads, hends, hy⟩ := reads_member
        (hmembers (name, value) List.mem_cons_self) name stack [] none true hrest
      exact hreads.append
        (reads_memberTokens (fun m hm => hmembers m (List.mem_cons_of_mem _ hm)) hends hy)

mutual

/-- **The tokens of a value are read back**, however they are written and wherever they stand. -/
theorem readsBack : ∀ value : Json, ReadsBack value
  | .null => readsBack_word rfl fun _ orEnd => by cases orEnd <;> rfl
  | .bool true => readsBack_word rfl fun _ orEnd => by cases orEnd <;> rfl
  | .bool false => readsBack_word rfl fun _ orEnd => by cases orEnd <;> rfl
  | .number literal => readsBack_number literal
  | .string text => readsBack_string text
  | .array items => readsBack_array (readsBack_items items)
  | .object members => readsBack_object (readsBack_members members)

theorem readsBack_items : ∀ items : List Json, ∀ item ∈ items, ReadsBack item
  | [] => fun _ h => absurd h List.not_mem_nil
  | first :: rest => List.forall_mem_cons.2 ⟨readsBack first, readsBack_items rest⟩

theorem readsBack_members : ∀ members : List (Option String × Json),
    ∀ member ∈ members, ReadsBack member.2
  | [] => fun _ h => absurd h List.not_mem_nil
  | (_, value) :: rest => List.forall_mem_cons.2 ⟨readsBack value, readsBack_members rest⟩

end

end Reader

/-- **Every text of a value is read as that value**, as symbols. -/
theorem ofSymbols?_of_spells {value : Json} {cs : List Char} (h : value.Spells cs) :
    ofSymbols? (cs.map some) = some value := by
  obtain ⟨htokens, hblank⟩ := h
  obtain ⟨later, hreads, hends⟩ := Reader.readsBack value [] false _ htokens
  obtain ⟨last, hrest, hlast⟩ := hends.reads_blank hblank
  rw [ofSymbols?, Reader.start, hreads.append hrest]
  exact hlast.result?_eq

/-- **Every text of a value is read as that value.** -/
theorem ofText?_of_spells {value : Json} {document : String} (h : value.Spells document.toList) :
    ofText? document = some value :=
  ofSymbols?_of_spells h

end DeviceScope.Json
