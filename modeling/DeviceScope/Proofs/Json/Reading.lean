import DeviceScope.Json.Printer
import DeviceScope.Proofs.Json.Spelling
import DeviceScope.Proofs.Text.Utf8

/-!
# Reading what was written

The compact text of a value is one of its texts (`Json.spells_compact`), so the reader takes it back
to the value (`Json.ofText?_compactText`). This holds for every value whose strings spell texts and
whose number literals are such (`Json.Plain`).
-/

namespace DeviceScope.Json

/-- A value that has a written form: its strings spell texts and its literals are literals. -/
inductive Plain : Json → Prop where
  | null : Plain .null
  | bool (value : Bool) : Plain (.bool value)
  | number {literal : List Char} (h : Number.IsLiteral literal = true) : Plain (.number literal)
  | text (text : String) : Plain (.text text)
  | array {items : List Json} (h : ∀ item ∈ items, Plain item) : Plain (.array items)
  | object {members : List (Option String × Json)}
    (hkeys : ∀ member ∈ members, member.1.isSome = true)
    (hvalues : ∀ member ∈ members, Plain member.2) : Plain (.object members)

/-- An object is plain if the values of its members are. -/
theorem Plain.fields {members : List (String × Json)} (h : ∀ member ∈ members, Plain member.2) :
    Plain (.fields members) := by
  refine .object ?_ ?_
  · intro member hmem
    obtain ⟨m, -, rfl⟩ := List.mem_map.1 hmem
    rfl
  · intro member hmem
    obtain ⟨m, hm, rfl⟩ := List.mem_map.1 hmem
    exact h m hm

/-! ### Strings -/

theorem hexDigit_mem : ∀ n < 16, (hexDigit n, n) ∈ hexDigits := by decide

/-- A unit below the surrogates is a character by itself. -/
theorem textOfPieces?_unit {c : Char} (h : c.toNat < 0xD800) (rest : List Piece) :
    textOfPieces? (.unit c.toNat :: rest) = (textOfPieces? rest).map (c :: ·) := by
  rw [textOfPieces?.eq_def]
  dsimp only
  rw [if_neg (by omega), Utf8.charOf?_toNat, Option.bind_some]

/-- A character is written as one piece of a string, which makes up the character. -/
theorem exists_piece (c : Char) : ∃ piece : Piece, piece.Spelled (writeChar c) ∧
    ∀ rest, textOfPieces? (piece :: rest) = (textOfPieces? rest).map (c :: ·) := by
  rw [writeChar]
  -- Seven characters have a short escape, the other control characters are written by number, and
  -- all that is left stands for itself.
  split
  · next h => exact ⟨.char c, .short (by rw [h]; decide), fun _ => rfl⟩
  next hquote =>
  split
  · next h => exact ⟨.char c, .short (by rw [h]; decide), fun _ => rfl⟩
  next hslash =>
  split
  · next h => exact ⟨.char c, .short (by rw [h]; decide), fun _ => rfl⟩
  split
  · next h => exact ⟨.char c, .short (by rw [h]; decide), fun _ => rfl⟩
  split
  · next h => exact ⟨.char c, .short (by rw [h]; decide), fun _ => rfl⟩
  split
  · next h => exact ⟨.char c, .short (by rw [h]; decide), fun _ => rfl⟩
  split
  · next h => exact ⟨.char c, .short (by rw [h]; decide), fun _ => rfl⟩
  split
  · next hcontrol =>
    -- Two zeros, and the two digits of the number.
    have hzero : ('0', 0) ∈ hexDigits := by decide
    have hunit := Piece.Spelled.numbered hzero hzero (hexDigit_mem (c.toNat / 16) (by omega))
      (hexDigit_mem (c.toNat % 16) (by omega))
    have hnumber : ((0 * 16 + 0) * 16 + c.toNat / 16) * 16 + c.toNat % 16 = c.toNat := by omega
    rw [hnumber] at hunit
    exact ⟨.unit c.toNat, hunit, textOfPieces?_unit (by omega)⟩
  · next hcontrol => exact ⟨.char c, .plain hquote hslash (by omega), fun _ => rfl⟩

theorem exists_pieces (cs : List Char) : ∃ pieces,
    InSequence Piece.Spelled pieces (cs.flatMap writeChar) ∧ textOfPieces? pieces = some cs := by
  induction cs with
  | nil => exact ⟨[], .nil, rfl⟩
  | cons c cs ih =>
    obtain ⟨piece, hpiece, htext⟩ := exists_piece c
    obtain ⟨pieces, hpieces, hcs⟩ := ih
    refine ⟨piece :: pieces, ?_, ?_⟩
    · rw [List.flatMap_cons]
      exact .cons hpiece hpieces
    · rw [htext, hcs]
      rfl

namespace Token

/-- A token as it stands, with no white space before it. -/
theorem Spelled.written {token : Token} {cs : List Char} (h : token.Spelled cs) :
    token.Written cs :=
  @Written.mk token [] cs (fun _ hc => absurd hc List.not_mem_nil) h

theorem written_string (text : String) :
    (Token.string (some text)).Written (writeString (some text)) := by
  obtain ⟨pieces, hpieces, htext⟩ := exists_pieces text.toList
  have hspelled := Spelled.string hpieces
  rw [htext, Option.map_some, String.ofList_toList] at hspelled
  exact hspelled.written

theorem written_mark (c : Char) : (mark c).Written [c] := (Spelled.fixed [c]).written

end Token

/-! ### Values -/

theorem inSequence_commaToken (first : Bool) {tokens : List Token} {cs : List Char}
    (h : InSequence Token.Written tokens cs) :
    InSequence Token.Written (commaToken first tokens) (commaBetween first cs) := by
  cases first with
  | true => exact h
  | false => exact .cons (Token.written_mark ',') h

theorem inSequence_itemTokens {items : List Json}
    (h : ∀ item ∈ items, InSequence Token.Written item.tokens item.compact) (first : Bool) :
    InSequence Token.Written (itemTokens first items) (compactItems first items) := by
  induction items generalizing first with
  | nil => exact .nil
  | cons item items ih =>
    rw [itemTokens, compactItems]
    exact inSequence_commaToken first ((h item List.mem_cons_self).append
      (ih (fun i hi => h i (List.mem_cons_of_mem _ hi)) false))

theorem inSequence_memberTokens {members : List (Option String × Json)}
    (hkeys : ∀ member ∈ members, member.1.isSome = true)
    (h : ∀ member ∈ members, InSequence Token.Written member.2.tokens member.2.compact)
    (first : Bool) :
    InSequence Token.Written (memberTokens first members) (compactMembers first members) := by
  induction members generalizing first with
  | nil => exact .nil
  | cons member members ih =>
    obtain ⟨key, value⟩ := member
    obtain ⟨name, rfl⟩ := Option.isSome_iff_exists.1 (hkeys (key, value) List.mem_cons_self)
    rw [memberTokens, compactMembers]
    exact inSequence_commaToken first (.cons (Token.written_string name)
      (.cons (Token.written_mark ':') ((h (some name, value) List.mem_cons_self).append
        (ih (fun m hm => hkeys m (List.mem_cons_of_mem _ hm))
          (fun m hm => h m (List.mem_cons_of_mem _ hm)) false))))

/-- What is written for a value are its tokens. -/
theorem inSequence_compact {value : Json} (h : value.Plain) :
    InSequence Token.Written value.tokens value.compact := by
  induction h with
  | null => exact .single (Token.Spelled.fixed _).written
  | bool value => cases value <;> exact .single (Token.Spelled.fixed _).written
  | number h => exact .single (Token.Spelled.number (Number.isLiteral_iff.1 h)).written
  | text text => exact .single (Token.written_string text)
  | array _ ih =>
    rw [tokens, compact]
    exact .cons (Token.written_mark '[')
      ((inSequence_itemTokens ih true).append (.single (Token.written_mark ']')))
  | object hkeys _ ih =>
    rw [tokens, compact]
    exact .cons (Token.written_mark '\x7b')
      ((inSequence_memberTokens hkeys ih true).append (.single (Token.written_mark '\x7d')))

/-- **The compact text of a value** is one of its texts. -/
theorem spells_compact {value : Json} (h : value.Plain) : value.Spells value.compact := by
  have hspells := @Spells.mk value value.compact [] (inSequence_compact h)
    (fun _ hc => absurd hc List.not_mem_nil)
  rwa [List.append_nil] at hspells

theorem spells_compactText {value : Json} (h : value.Plain) :
    value.Spells value.compactText.toList := by
  rw [compactText, String.toList_ofList]
  exact spells_compact h

/-- **Reading undoes writing**, on symbols. -/
theorem ofSymbols?_compact {value : Json} (h : value.Plain) :
    ofSymbols? (value.compact.map some) = some value :=
  ofSymbols?_of_spells (spells_compact h)

/-- Reading undoes writing, in a file. -/
theorem ofBytes?_encode_compact {value : Json} (h : value.Plain) :
    ofBytes? (Utf8.encode value.compact) = some value := by
  rw [ofBytes?, Utf8.symbols_encode]
  exact ofSymbols?_compact h

/-- **Reading undoes writing.** -/
theorem ofText?_compactText {value : Json} (h : value.Plain) :
    ofText? value.compactText = some value :=
  ofText?_of_spells (spells_compactText h)

end DeviceScope.Json
