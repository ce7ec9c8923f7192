import Mathlib.Logic.Basic
import DeviceScope.Proofs.Json.Ending

/-!
# What is read

The reader takes every text of a value for this value (`Json.ofText?_of_spells`), and here is the
other direction: whatever it takes for a value is one of the texts of it. So the texts that the
reader takes for a value are those that spell it (`Json.ofText?_eq_some_iff`), and no text spells
two values.

The reader holds what it has read in frames that it closes later, so the invariant goes by tokens:
`Reader.Took` says which tokens the characters so far are, and how far they have got into the next
one. One character at a time keeps this (`Reader.Took.step`).
-/

namespace DeviceScope.Json

/-! ### Tokens in the order in which they come -/

theorem commaToken_append (first : Bool) (a b : List Token) :
    commaToken first (a ++ b) = commaToken first a ++ b := by
  cases first <;> rfl

/-- One more item stands behind a comma, unless it is the first one. -/
theorem itemTokens_concat (first : Bool) (items : List Json) (item : Json) :
    itemTokens first (items ++ [item]) =
      itemTokens first items ++ commaToken (first && items.isEmpty) item.tokens := by
  induction items generalizing first with
  | nil => rw [List.nil_append, itemTokens, itemTokens, itemTokens, List.append_nil,
      List.nil_append, List.isEmpty_nil, Bool.and_true]
  | cons head items ih =>
    rw [List.cons_append, itemTokens, ih, itemTokens, ← List.append_assoc, commaToken_append]
    simp

/-- One more member stands behind a comma, unless it is the first one. -/
theorem memberTokens_concat (first : Bool) (members : List (Option String × Json))
    (key : Option String) (value : Json) :
    memberTokens first (members ++ [(key, value)]) =
      memberTokens first members ++
        commaToken (first && members.isEmpty) (.string key :: .mark ':' :: value.tokens) := by
  induction members generalizing first with
  | nil => rw [List.nil_append, memberTokens, memberTokens, memberTokens, List.append_nil,
      List.nil_append, List.isEmpty_nil, Bool.and_true]
  | cons head members ih =>
    obtain ⟨name, own⟩ := head
    rw [List.cons_append, memberTokens, ih, memberTokens, ← List.append_assoc,
      ← List.cons_append, ← List.cons_append, commaToken_append]
    simp

/-- The characters are these tokens, with white space before and after each one. -/
def Passed (tokens : List Token) (cs : List Char) : Prop :=
  ∃ front blank, cs = front ++ blank ∧ InSequence Token.Written tokens front ∧
    ∀ c ∈ blank, c ∈ blanks

namespace Passed

variable {tokens : List Token} {cs : List Char}

theorem nil : Passed [] [] := ⟨[], [], rfl, .nil, fun _ h => absurd h List.not_mem_nil⟩

theorem blank (h : Passed tokens cs) {c : Char} (hc : Reader.isSpace c = true) :
    Passed tokens (cs ++ [c]) := by
  obtain ⟨front, blank, rfl, hfront, hblank⟩ := h
  refine ⟨front, blank ++ [c], List.append_assoc .., hfront, fun d hd => ?_⟩
  rcases List.mem_append.1 hd with hd | hd
  · exact hblank d hd
  · obtain rfl := List.mem_singleton.1 hd
    exact Reader.mem_blanks_iff.2 hc

/-- The white space behind the last token is that before the next one. -/
theorem token (h : Passed tokens cs) {token : Token} {more : List Char}
    (hmore : token.Spelled more) : Passed (tokens ++ [token]) (cs ++ more) := by
  obtain ⟨front, blank, rfl, hfront, hblank⟩ := h
  refine ⟨front ++ (blank ++ more), [], ?_, hfront.append (.single (.mk hblank hmore)),
    fun _ h => absurd h List.not_mem_nil⟩
  rw [List.append_nil, List.append_assoc]

theorem mark (h : Passed tokens cs) (c : Char) : Passed (tokens ++ [.mark c]) (cs ++ [c]) :=
  h.token (.fixed [c])

theorem spells {value : Json} (h : Passed value.tokens cs) : value.Spells cs := by
  obtain ⟨front, blank, rfl, hfront, hblank⟩ := h
  exact ⟨hfront, hblank⟩

end Passed

namespace Reader

/-! ### Strings and numbers -/

theorem mem_shortEscapes {c d : Char} (h : shortEscape? c = some d) : (c, d) ∈ shortEscapes := by
  rw [shortEscape?] at h
  rcases ite_eq_iff.1 h with ⟨hself, ⟨⟩⟩ | ⟨-, h⟩
  · rcases hself with rfl | rfl | rfl <;> decide
  rcases ite_eq_iff.1 h with ⟨rfl, ⟨⟩⟩ | ⟨-, h⟩
  · decide
  rcases ite_eq_iff.1 h with ⟨rfl, ⟨⟩⟩ | ⟨-, h⟩
  · decide
  rcases ite_eq_iff.1 h with ⟨rfl, ⟨⟩⟩ | ⟨-, h⟩
  · decide
  rcases ite_eq_iff.1 h with ⟨rfl, ⟨⟩⟩ | ⟨-, h⟩
  · decide
  rcases ite_eq_iff.1 h with ⟨rfl, ⟨⟩⟩ | ⟨-, h⟩
  · decide
  · exact absurd h (by simp)

theorem toNat_lt_of_hexDigit? {c : Char} {n : Nat} (h : hexDigit? c = some n) : c.toNat < 103 := by
  rw [hexDigit?] at h
  rcases ite_eq_iff.1 h with ⟨hdigit, -⟩ | ⟨-, h⟩
  · simp only [Char.isDigit, Bool.and_eq_true, decide_eq_true_iff] at hdigit
    have hle : c.toNat ≤ '9'.toNat := hdigit.2
    have hnine : '9'.toNat = 57 := rfl
    omega
  rcases ite_eq_iff.1 h with ⟨hlower, -⟩ | ⟨-, h⟩
  · have hle : c.toNat ≤ 'f'.toNat := hlower.2
    have hlast : 'f'.toNat = 102 := rfl
    omega
  rcases ite_eq_iff.1 h with ⟨hupper, -⟩ | ⟨-, h⟩
  · have hle : c.toNat ≤ 'F'.toNat := hupper.2
    have hlast : 'F'.toNat = 70 := rfl
    omega
  · exact absurd h (by simp)

theorem mem_hexDigits {c : Char} {n : Nat} (h : hexDigit? c = some n) : (c, n) ∈ hexDigits := by
  -- There are few characters among which a digit can be.
  have hall : ∀ k < 103, ∀ n ∈ hexDigit? (Char.ofNat k), (Char.ofNat k, n) ∈ hexDigits := by
    decide
  have hmem := hall c.toNat (toNat_lt_of_hexDigit? h)
  rw [Char.ofNat_toNat] at hmem
  exact hmem n h

/-- What has been read of an escape. -/
inductive Begun : Escape → List Char → Prop where
  | closed : Begun .closed []
  | opened : Begun .opened ['\\']
  | numbered : Begun (.digits 3 0) ['\\', 'u']
  | one {a : Char} {w : Nat} (ha : (a, w) ∈ hexDigits) : Begun (.digits 2 w) ['\\', 'u', a]
  | two {a b : Char} {w x : Nat} (ha : (a, w) ∈ hexDigits) (hb : (b, x) ∈ hexDigits) :
    Begun (.digits 1 (w * 16 + x)) ['\\', 'u', a, b]
  | three {a b c : Char} {w x y : Nat} (ha : (a, w) ∈ hexDigits) (hb : (b, x) ∈ hexDigits)
    (hc : (c, y) ∈ hexDigits) :
    Begun (.digits 0 ((w * 16 + x) * 16 + y)) ['\\', 'u', a, b, c]

/-- What has been read of a string, behind its opening quote. -/
inductive Quoting (escape : Escape) : Quoted → List Char → Prop where
  | mk {pieces : List Piece} {body part : List Char} (h : InSequence Piece.Spelled pieces body)
    (hpart : Begun escape part) :
    Quoting escape (pieces.foldl Quoted.take .empty) (body ++ part)

theorem Quoting.empty : Quoting .closed .empty [] :=
  @Quoting.mk .closed [] [] [] .nil .closed

/-- A piece that is complete is one more. -/
theorem Quoting.piece {q : Quoted} {body cs : List Char} {piece : Piece}
    (h : Quoting .closed q body) (hpiece : piece.Spelled cs) :
    Quoting .closed (q.take piece) (body ++ cs) := by
  obtain ⟨hpieces, hpart⟩ := h
  cases hpart with
  | closed =>
    have hmore := Quoting.mk (hpieces.append (.single hpiece)) .closed
    rw [List.foldl_append, List.append_nil] at hmore
    rw [List.append_nil]
    exact hmore

/-- **One character inside a string** goes on with it or is its closing quote. -/
theorem Quoting.step {q : Quoted} {escape : Escape} {body : List Char} {stack : List Frame}
    {isKey : Bool} {c : Char} {later : Reader} (h : Quoting escape q body)
    (hstep : inString? stack isKey q c escape = some later) :
    (∃ more escape, later = ⟨stack, .string isKey more escape⟩ ∧
      Quoting escape more (body ++ [c])) ∨
    c = '"' ∧ completeString isKey q.text? stack = some later ∧
      (Token.string q.text?).Spelled ('"' :: (body ++ [c])) := by
  obtain @⟨pieces, body, part, hpieces, hpart⟩ := h
  -- Where the character completes an escape, the whole escape is one more piece.
  have hclosed := Quoting.mk hpieces .closed
  rw [List.append_nil] at hclosed
  cases hpart with
  | closed =>
    rw [inString?] at hstep
    rw [List.append_nil]
    rcases ite_eq_iff.1 hstep with ⟨rfl, hcomplete⟩ | ⟨hquote, hstep⟩
    · refine .inr ⟨rfl, hcomplete, ?_⟩
      rw [Quoted.empty, Quoted.text?_foldl_take]
      exact .string hpieces
    refine .inl ?_
    rcases ite_eq_iff.1 hstep with ⟨rfl, ⟨⟩⟩ | ⟨hslash, hstep⟩
    · exact ⟨_, _, rfl, .mk hpieces .opened⟩
    rcases ite_eq_iff.1 hstep with ⟨-, ⟨⟩⟩ | ⟨hcontrol, ⟨⟩⟩
    exact ⟨_, _, rfl, hclosed.piece (.plain hquote hslash (by omega))⟩
  | opened =>
    rw [inString?] at hstep
    refine .inl ?_
    rw [List.append_assoc]
    rcases ite_eq_iff.1 hstep with ⟨rfl, ⟨⟩⟩ | ⟨-, hstep⟩
    · exact ⟨_, _, rfl, .mk hpieces .numbered⟩
    · obtain ⟨d, hd, rfl⟩ := Option.map_eq_some_iff.1 hstep
      exact ⟨_, _, rfl, hclosed.piece (.short (mem_shortEscapes hd))⟩
  | numbered =>
    obtain ⟨w, hw, rfl⟩ := Option.map_eq_some_iff.1 hstep
    refine .inl ⟨_, _, rfl, ?_⟩
    rw [List.append_assoc, Nat.zero_mul, Nat.zero_add]
    exact .mk hpieces (.one (mem_hexDigits hw))
  | one ha =>
    obtain ⟨x, hx, rfl⟩ := Option.map_eq_some_iff.1 hstep
    refine .inl ⟨_, _, rfl, ?_⟩
    rw [List.append_assoc]
    exact .mk hpieces (.two ha (mem_hexDigits hx))
  | two ha hb =>
    obtain ⟨y, hy, rfl⟩ := Option.map_eq_some_iff.1 hstep
    refine .inl ⟨_, _, rfl, ?_⟩
    rw [List.append_assoc]
    exact .mk hpieces (.three ha hb (mem_hexDigits hy))
  | three ha hb hc =>
    obtain ⟨z, hz, rfl⟩ := Option.map_eq_some_iff.1 hstep
    refine .inl ⟨_, _, rfl, ?_⟩
    rw [List.append_assoc]
    exact hclosed.piece (.numbered ha hb hc (mem_hexDigits hz))

/-- The characters of a number so far lead to this state. -/
def Counting (literal : List Char) (state : Number.State) : Prop :=
  ∃ c cs first, literal = c :: cs ∧ Number.start? c = some first ∧
    cs.foldlM Number.State.step? first = some state

theorem Counting.step {literal : List Char} {state later : Number.State} {c : Char}
    (h : Counting literal state) (hstep : state.step? c = some later) :
    Counting (literal ++ [c]) later := by
  obtain ⟨d, cs, first, rfl, hfirst, hrun⟩ := h
  refine ⟨d, cs ++ [c], first, rfl, hfirst, ?_⟩
  rw [List.foldlM_append, hrun]
  show ([c].foldlM Number.State.step? state) = some later
  rw [List.foldlM_cons, hstep]
  rfl

theorem Counting.literal {literal : List Char} {state : Number.State} (h : Counting literal state)
    (haccepts : state.accepts = true) : Number.Literal literal := by
  obtain ⟨c, cs, first, rfl, hfirst, hrun⟩ := h
  exact Number.isLiteral_iff.1 (Number.isLiteral_cons.2 ⟨first, hfirst, state, hrun, haccepts⟩)

/-! ### What the reader has taken in -/

/-- The tokens in front of a value inside of what is open. -/
def frontTokens : List Frame → List Token
  | [] => []
  | .array items :: stack =>
    frontTokens stack ++ .mark '[' :: itemTokens true items.reverse ++ commaToken items.isEmpty []
  | .object members key :: stack =>
    frontTokens stack ++ .mark '\x7b' :: memberTokens true members.reverse ++
      commaToken members.isEmpty [.string key, .mark ':']

/-- The tokens of an open array up to the end of an item. -/
def arrayTokens (items : List Json) (stack : List Frame) : List Token :=
  frontTokens stack ++ .mark '[' :: itemTokens true items.reverse

/-- The tokens of an open object up to the end of a member. -/
def objectTokens (members : List (Option String × Json)) (stack : List Frame) : List Token :=
  frontTokens stack ++ .mark '\x7b' :: memberTokens true members.reverse

/-- **What the reader has taken in**, for each thing that it may expect. -/
inductive Took : Reader → List Char → Prop where
  | value {stack : List Frame} {orEnd : Bool} {cs : List Char} (h : Passed (frontTokens stack) cs)
    (hend : orEnd = true → ∃ rest, stack = .array [] :: rest) : Took ⟨stack, .value orEnd⟩ cs
  | key {stack : List Frame} {members : List (Option String × Json)} {key : Option String}
    {orEnd : Bool} {cs : List Char}
    (h : Passed (objectTokens members stack ++ commaToken members.isEmpty []) cs)
    (hend : orEnd = true → members = []) : Took ⟨.object members key :: stack, .key orEnd⟩ cs
  | colon {stack : List Frame} {members : List (Option String × Json)} {key : Option String}
    {cs : List Char}
    (h : Passed (objectTokens members stack ++ commaToken members.isEmpty [] ++ [.string key]) cs) :
    Took ⟨.object members key :: stack, .colon⟩ cs
  | item {stack : List Frame} {items : List Json} {cs : List Char}
    (h : Passed (arrayTokens items stack) cs) (hne : items.isEmpty = false) :
    Took ⟨.array items :: stack, .next⟩ cs
  | member {stack : List Frame} {members : List (Option String × Json)} {key : Option String}
    {cs : List Char} (h : Passed (objectTokens members stack) cs) (hne : members.isEmpty = false) :
    Took ⟨.object members key :: stack, .next⟩ cs
  | text {stack : List Frame} {q : Quoted} {escape : Escape} {cs body : List Char}
    (h : Passed (frontTokens stack) cs) (hbody : Quoting escape q body) :
    Took ⟨stack, .string false q escape⟩ (cs ++ '"' :: body)
  | name {stack : List Frame} {members : List (Option String × Json)} {key : Option String}
    {q : Quoted} {escape : Escape} {cs body : List Char}
    (h : Passed (objectTokens members stack ++ commaToken members.isEmpty []) cs)
    (hbody : Quoting escape q body) :
    Took ⟨.object members key :: stack, .string true q escape⟩ (cs ++ '"' :: body)
  | number {stack : List Frame} {literal : List Char} {state : Number.State} {cs : List Char}
    (h : Passed (frontTokens stack) cs) (hnumber : Counting literal.reverse state) :
    Took ⟨stack, .number literal state⟩ (cs ++ literal.reverse)
  | word {stack : List Frame} {value : Json} {front rest cs : List Char}
    (h : Passed (frontTokens stack) cs) (hword : value.tokens = [.fixed (front ++ rest)]) :
    Took ⟨stack, .word rest value⟩ (cs ++ front)
  | done {value : Json} {cs : List Char} (h : Passed value.tokens cs) : Took ⟨[], .done value⟩ cs

/-- A value that is complete is an item, a member, or all there is. -/
theorem took_complete {value : Json} {stack : List Frame} {cs : List Char}
    (h : Passed (frontTokens stack ++ value.tokens) cs) : Took (complete value stack) cs := by
  cases stack with
  | nil => exact .done h
  | cons frame stack =>
    cases frame with
    | array items =>
      refine .item ?_ rfl
      rw [arrayTokens, List.reverse_cons, itemTokens_concat, Bool.true_and, List.isEmpty_reverse,
        ← List.cons_append, ← List.append_assoc, ← List.nil_append value.tokens, commaToken_append,
        ← List.append_assoc]
      exact h
    | object members key =>
      refine .member ?_ rfl
      rw [objectTokens, List.reverse_cons, memberTokens_concat, Bool.true_and,
        List.isEmpty_reverse, ← List.cons_append, ← List.append_assoc,
        show Token.string key :: .mark ':' :: value.tokens =
          [.string key, .mark ':'] ++ value.tokens from rfl, commaToken_append,
        ← List.append_assoc]
      exact h

theorem took_endArray {items : List Json} {stack : List Frame} {later : Reader} {cs : List Char}
    (h : Passed (arrayTokens items stack) cs)
    (hstep : endArray? (.array items :: stack) = some later) : Took later (cs ++ [']']) := by
  obtain rfl := Option.some.inj hstep
  refine took_complete ?_
  rw [tokens, ← List.cons_append, ← List.append_assoc]
  exact h.mark ']'

theorem took_endObject {members : List (Option String × Json)} {key : Option String}
    {stack : List Frame} {later : Reader} {cs : List Char}
    (h : Passed (objectTokens members stack) cs)
    (hstep : endObject? (.object members key :: stack) = some later) :
    Took later (cs ++ ['\x7d']) := by
  obtain rfl := Option.some.inj hstep
  refine took_complete ?_
  rw [tokens, ← List.cons_append, ← List.append_assoc]
  exact h.mark '\x7d'

/-- The first character of a value. -/
theorem took_beginValue {stack : List Frame} {later : Reader} {cs : List Char} {c : Char}
    (h : Passed (frontTokens stack) cs) (hstep : beginValue? stack c = some later) :
    Took later (cs ++ [c]) := by
  rw [beginValue?] at hstep
  rcases ite_eq_iff.1 hstep with ⟨rfl, ⟨⟩⟩ | ⟨-, hstep⟩
  · -- An array is opened, in front of its first item.
    refine .value ?_ fun _ => ⟨stack, rfl⟩
    rw [frontTokens, List.reverse_nil, itemTokens, List.isEmpty_nil, commaToken, if_pos rfl,
      List.append_nil]
    exact h.mark '['
  rcases ite_eq_iff.1 hstep with ⟨rfl, ⟨⟩⟩ | ⟨-, hstep⟩
  · refine .key ?_ fun _ => rfl
    rw [objectTokens, List.reverse_nil, memberTokens, List.isEmpty_nil, commaToken, if_pos rfl,
      List.append_nil]
    exact h.mark '\x7b'
  rcases ite_eq_iff.1 hstep with ⟨rfl, ⟨⟩⟩ | ⟨-, hstep⟩
  · exact .text h .empty
  -- The three words.
  rcases ite_eq_iff.1 hstep with ⟨rfl, ⟨⟩⟩ | ⟨-, hstep⟩
  · exact .word h rfl
  rcases ite_eq_iff.1 hstep with ⟨rfl, ⟨⟩⟩ | ⟨-, hstep⟩
  · exact .word h rfl
  rcases ite_eq_iff.1 hstep with ⟨rfl, ⟨⟩⟩ | ⟨-, hstep⟩
  · exact .word h rfl
  · obtain ⟨state, hstate, rfl⟩ := Option.map_eq_some_iff.1 hstep
    exact .number h ⟨c, [], state, rfl, hstate, rfl⟩

/-- A character between two values, or after the last one. -/
theorem took_between {stack : List Frame} {later : Reader} {cs : List Char} {c : Char}
    (h : Took ⟨stack, .next⟩ cs) (hstep : between? stack c = some later) :
    Took later (cs ++ [c]) := by
  cases h with
  | @item stack items cs hitems hne =>
    rw [between?] at hstep
    rcases ite_eq_iff.1 hstep with ⟨hspace, ⟨⟩⟩ | ⟨-, hstep⟩
    · exact .item (hitems.blank hspace) hne
    rcases ite_eq_iff.1 hstep with ⟨rfl, ⟨⟩⟩ | ⟨-, hstep⟩
    · refine .value ?_ (by simp)
      rw [frontTokens, hne]
      exact hitems.mark ','
    rcases ite_eq_iff.1 hstep with ⟨rfl, hend⟩ | ⟨-, hstep⟩
    · exact took_endArray hitems hend
    -- What ends an object does not end an array.
    · split at hstep <;> exact absurd hstep (by simp [endObject?])
  | @member stack members key cs hmembers hne =>
    rw [between?] at hstep
    rcases ite_eq_iff.1 hstep with ⟨hspace, ⟨⟩⟩ | ⟨-, hstep⟩
    · exact .member (hmembers.blank hspace) hne
    rcases ite_eq_iff.1 hstep with ⟨rfl, ⟨⟩⟩ | ⟨-, hstep⟩
    · refine .key ?_ (by simp)
      rw [hne]
      exact hmembers.mark ','
    rcases ite_eq_iff.1 hstep with ⟨-, ⟨⟩⟩ | ⟨-, hstep⟩
    rcases ite_eq_iff.1 hstep with ⟨rfl, hend⟩ | ⟨-, ⟨⟩⟩
    exact took_endObject hmembers hend

/-- A character behind a value that is complete. -/
theorem took_after {value : Json} {stack : List Frame} {later : Reader} {cs : List Char} {c : Char}
    (h : Passed (frontTokens stack ++ value.tokens) cs)
    (hstep : after? (complete value stack) c = some later) : Took later (cs ++ [c]) := by
  have htook := took_complete h
  cases stack with
  | nil =>
    rw [complete, after?] at hstep
    rcases ite_eq_iff.1 hstep with ⟨hspace, ⟨⟩⟩ | ⟨-, ⟨⟩⟩
    exact .done (h.blank hspace)
  | cons frame stack => cases frame <;> exact took_between htook hstep

/-- A character inside a string, or its closing quote. -/
theorem took_inString {stack : List Frame} {isKey : Bool} {q : Quoted} {escape : Escape}
    {later : Reader} {cs : List Char} {c : Char} (h : Took ⟨stack, .string isKey q escape⟩ cs)
    (hstep : inString? stack isKey q c escape = some later) : Took later (cs ++ [c]) := by
  cases h with
  | @text stack q escape cs body hfront hbody =>
    rw [List.append_assoc, List.cons_append]
    rcases hbody.step hstep with ⟨more, _, rfl, hmore⟩ | ⟨-, hcomplete, hspelled⟩
    · exact .text hfront hmore
    · obtain rfl := Option.some.inj hcomplete
      exact took_complete (hfront.token hspelled)
  | @name stack members key q escape cs body hfront hbody =>
    rw [List.append_assoc, List.cons_append]
    rcases hbody.step hstep with ⟨more, _, rfl, hmore⟩ | ⟨-, hcomplete, hspelled⟩
    · exact .name hfront hmore
    · obtain rfl := Option.some.inj hcomplete
      exact .colon (hfront.token hspelled)

/-- **One character** keeps what the reader has taken in. -/
theorem Took.step {reader later : Reader} {cs : List Char} {c : Char} (h : Took reader cs)
    (hstep : reader.stepChar? c = some later) : Took later (cs ++ [c]) := by
  cases h with
  | @value stack orEnd cs hfront hend =>
    rw [stepChar?] at hstep
    dsimp only at hstep
    rcases ite_eq_iff.1 hstep with ⟨hspace, ⟨⟩⟩ | ⟨-, hstep⟩
    · exact .value (hfront.blank hspace) hend
    rcases ite_eq_iff.1 hstep with ⟨⟨rfl, horEnd⟩, hlater⟩ | ⟨-, hstep⟩
    · -- The array ends before it has an item.
      obtain ⟨rest, rfl⟩ := hend horEnd
      rw [frontTokens, List.isEmpty_nil, commaToken, if_pos rfl, List.append_nil] at hfront
      exact took_endArray hfront hlater
    · exact took_beginValue hfront hstep
  | @key stack members key orEnd cs hfront hend =>
    rw [stepChar?] at hstep
    dsimp only at hstep
    rcases ite_eq_iff.1 hstep with ⟨hspace, ⟨⟩⟩ | ⟨-, hstep⟩
    · exact .key (hfront.blank hspace) hend
    rcases ite_eq_iff.1 hstep with ⟨⟨rfl, horEnd⟩, hlater⟩ | ⟨-, hstep⟩
    · -- The object ends before it has a member.
      obtain rfl := hend horEnd
      rw [List.isEmpty_nil, commaToken, if_pos rfl, List.append_nil] at hfront
      exact took_endObject hfront hlater
    rcases ite_eq_iff.1 hstep with ⟨rfl, ⟨⟩⟩ | ⟨-, ⟨⟩⟩
    exact .name hfront .empty
  | @colon stack members key cs hfront =>
    rw [stepChar?] at hstep
    dsimp only at hstep
    rcases ite_eq_iff.1 hstep with ⟨hspace, ⟨⟩⟩ | ⟨-, hstep⟩
    · exact .colon (hfront.blank hspace)
    rcases ite_eq_iff.1 hstep with ⟨rfl, ⟨⟩⟩ | ⟨-, ⟨⟩⟩
    refine .value ?_ (by simp)
    have hmore := hfront.mark ':'
    rw [List.append_assoc, List.append_assoc, ← commaToken_append] at hmore
    exact hmore
  | item hitems hne => exact took_between (.item hitems hne) hstep
  | member hmembers hne => exact took_between (.member hmembers hne) hstep
  | text hfront hbody => exact took_inString (.text hfront hbody) hstep
  | name hfront hbody => exact took_inString (.name hfront hbody) hstep
  | @number stack literal state cs hfront hnumber =>
    rw [stepChar?] at hstep
    dsimp only at hstep
    split at hstep
    · next next hnext =>
      obtain rfl := Option.some.inj hstep
      have hmore := hnumber.step hnext
      rw [← List.reverse_cons] at hmore
      rw [List.append_assoc, ← List.reverse_cons]
      exact .number hfront hmore
    · -- The character is no digit, so it stands behind the number.
      rcases ite_eq_iff.1 hstep with ⟨haccepts, hstep⟩ | ⟨-, ⟨⟩⟩
      exact took_after (hfront.token (.number (hnumber.literal haccepts))) hstep
  | @word stack value front rest cs hfront hword =>
    rw [stepChar?] at hstep
    dsimp only at hstep
    split at hstep
    · exact absurd hstep (by simp)
    · next d rest =>
      rcases ite_eq_iff.1 hstep with ⟨-, ⟨⟩⟩ | ⟨hc, hgoes⟩
      obtain rfl : c = d := Decidable.not_not.1 hc
      rw [List.append_assoc]
      rw [List.append_cons] at hword
      rcases ite_eq_iff.1 hgoes with ⟨hend, hlater⟩ | ⟨-, hlater⟩
      · -- The word is complete.
        obtain rfl := List.isEmpty_iff.1 hend
        obtain rfl := Option.some.inj hlater
        rw [List.append_nil] at hword
        refine took_complete ?_
        rw [hword]
        exact hfront.token (.fixed _)
      · obtain rfl := Option.some.inj hlater
        exact .word hfront hword
  | @done value cs hvalue =>
    rw [stepChar?] at hstep
    rcases ite_eq_iff.1 hstep with ⟨hspace, ⟨⟩⟩ | ⟨-, ⟨⟩⟩
    exact .done (hvalue.blank hspace)

/-- **A text** keeps what the reader has taken in. -/
theorem Took.run {reader later : Reader} {front cs : List Char} (h : Took reader front)
    (hrun : reader.run? (cs.map some) = some later) : Took later (front ++ cs) := by
  induction cs generalizing reader front with
  | nil =>
    obtain rfl := Option.some.inj hrun
    rwa [List.append_nil]
  | cons c cs ih =>
    rw [List.map_cons, run?, List.foldlM_cons] at hrun
    obtain ⟨next, hstep, hrest⟩ := Option.bind_eq_some_iff.1 hrun
    rw [← List.singleton_append, ← List.append_assoc]
    exact ih (h.step hstep) hrest

/-- What has been read where a text may end is one of the texts of its value. -/
theorem Took.spells {reader : Reader} {cs : List Char} {value : Json} (h : Took reader cs)
    (hresult : reader.result? = some value) : value.Spells cs := by
  cases h with
  | done hvalue =>
    obtain rfl := Option.some.inj hresult
    exact hvalue.spells
  | @number stack literal state cs hfront hnumber =>
    rw [result?] at hresult
    dsimp only at hresult
    rcases ite_eq_iff.1 hresult with ⟨haccepts, hresult⟩ | ⟨-, ⟨⟩⟩
    cases stack with
    | nil =>
      obtain rfl := Option.some.inj hresult
      exact Passed.spells (hfront.token (.number (hnumber.literal haccepts)))
    | cons frame stack => cases frame <;> exact absurd hresult (by simp [complete])
  | _ => exact absurd hresult (by simp [result?])

end Reader

/-- **The texts that are read as a value are the texts of it.** -/
theorem ofText?_eq_some_iff {document : String} {value : Json} :
    ofText? document = some value ↔ value.Spells document.toList := by
  refine ⟨fun h => ?_, ofText?_of_spells⟩
  obtain ⟨reader, hrun, hresult⟩ := Option.bind_eq_some_iff.1 h
  have hstart : Reader.start.Took [] := .value Passed.nil (by simp)
  exact (hstart.run hrun).spells hresult

end DeviceScope.Json
