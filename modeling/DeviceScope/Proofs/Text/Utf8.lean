import DeviceScope.Text.Utf8

/-!
# Texts survive as bytes

Every character of a text is found again in its UTF-8 form, whatever follows it
(`Utf8.symbols_encodeChar`), and so the whole text is (`Utf8.symbols_encode`). Of a text that is cut
off between two bytes the characters in front are found, and behind them nothing but bytes that
belong to no character (`Utf8.exists_symbols_of_append`). Conversely, bytes that are read as a text
are the bytes of this text (`Utf8.decode?_eq_some_iff`).

A sequence is taken for the shortest one that its bytes could be, so each case first says that the
shorter readings fail.

The bytes of texts are in the order of the texts (`Utf8.encode_lt_encode`): a longer sequence begins
with a greater byte, and in sequences of one length the greater bits come first.
-/

namespace DeviceScope.Utf8

theorem charOf?_toNat (c : Char) : charOf? c.toNat = some c := by
  have hvalid : c.toNat.isValidChar := c.valid
  rw [charOf?, dif_pos hvalid]
  rfl

theorem toNat_lt (c : Char) : c.toNat < 0x110000 := by
  rcases c.valid with h | h
  · exact Nat.lt_trans h (by decide)
  · exact h.2

theorem toNat_byte {n : Nat} (h : n < 0x100) : (UInt8.ofNat n).toNat = n :=
  UInt8.toNat_ofNat_of_lt' h

/-- A continuation byte carries the six bits that it was made of. -/
theorem continuation?_ofNat {n : Nat} (h : n < 64) :
    continuation? (UInt8.ofNat (0x80 + n)) = some n := by
  have hbyte : (UInt8.ofNat (0x80 + n)).toNat = 0x80 + n := toNat_byte (by omega)
  rw [continuation?, hbyte, if_pos (by omega), Nat.add_sub_cancel_left]

/-- A byte that begins a longer sequence begins none of two bytes. -/
theorem two?_eq_none {a b : UInt8} (h : 0xE0 ≤ a.toNat) : two? a b = none := by
  rw [two?]
  cases continuation? b with
  | none => rfl
  | some y => exact if_neg (by omega)

/-- A byte that begins a sequence of four bytes begins none of three. -/
theorem three?_eq_none {a b c : UInt8} (h : 0xF0 ≤ a.toNat) : three? a b c = none := by
  rw [three?]
  cases continuation? b with
  | none => rfl
  | some y =>
    cases continuation? c with
    | none => rfl
    | some z => exact if_neg (by omega)

variable {c : Char} (rest : Bytes)

theorem symbols_one (h : c.toNat < 0x80) :
    symbols (UInt8.ofNat c.toNat :: rest) = some c :: symbols rest := by
  have hbyte : (UInt8.ofNat c.toNat).toNat = c.toNat := toNat_byte (by omega)
  rw [symbols.eq_def]
  dsimp only
  rw [hbyte, if_pos h, charOf?_toNat]

theorem symbols_two (hlow : 0x80 ≤ c.toNat) (hhigh : c.toNat < 0x800) :
    symbols (UInt8.ofNat (0xC0 + c.toNat / 64) :: UInt8.ofNat (0x80 + c.toNat % 64) :: rest) =
      some c :: symbols rest := by
  have hfirst : (UInt8.ofNat (0xC0 + c.toNat / 64)).toNat = 0xC0 + c.toNat / 64 :=
    toNat_byte (by omega)
  have htwo : two? (UInt8.ofNat (0xC0 + c.toNat / 64)) (UInt8.ofNat (0x80 + c.toNat % 64)) =
      some c := by
    -- The six bits of the second byte and the rest in the first make up the number.
    have hvalue : (0xC0 + c.toNat / 64 - 0xC0) * 64 + c.toNat % 64 = c.toNat := by omega
    rw [two?, continuation?_ofNat (by omega), hfirst]
    show (if _ then _ else _) = _
    rw [if_pos (by omega), hvalue, charOf?_toNat]
  rw [symbols.eq_def]
  dsimp only
  rw [hfirst, if_neg (by omega), htwo]

theorem symbols_three (hlow : 0x800 ≤ c.toNat) (hhigh : c.toNat < 0x10000) :
    symbols (UInt8.ofNat (0xE0 + c.toNat / 4096) :: UInt8.ofNat (0x80 + c.toNat / 64 % 64) ::
      UInt8.ofNat (0x80 + c.toNat % 64) :: rest) = some c :: symbols rest := by
  have hfirst : (UInt8.ofNat (0xE0 + c.toNat / 4096)).toNat = 0xE0 + c.toNat / 4096 :=
    toNat_byte (by omega)
  have hthree : three? (UInt8.ofNat (0xE0 + c.toNat / 4096))
      (UInt8.ofNat (0x80 + c.toNat / 64 % 64)) (UInt8.ofNat (0x80 + c.toNat % 64)) = some c := by
    -- Six bits in each of the last two bytes, the rest in the first.
    have hvalue : (0xE0 + c.toNat / 4096 - 0xE0) * 4096 + c.toNat / 64 % 64 * 64 + c.toNat % 64 =
        c.toNat := by omega
    rw [three?, continuation?_ofNat (by omega), continuation?_ofNat (by omega), hfirst]
    show (if _ then (if _ then _ else _) else _) = _
    rw [if_pos (by omega), hvalue, if_pos hlow, charOf?_toNat]
  rw [symbols.eq_def]
  dsimp only
  rw [hfirst, if_neg (by omega), two?_eq_none (by omega), hthree]

theorem symbols_four (hlow : 0x10000 ≤ c.toNat) :
    symbols (UInt8.ofNat (0xF0 + c.toNat / 262144) :: UInt8.ofNat (0x80 + c.toNat / 4096 % 64) ::
      UInt8.ofNat (0x80 + c.toNat / 64 % 64) :: UInt8.ofNat (0x80 + c.toNat % 64) :: rest) =
      some c :: symbols rest := by
  -- There are no characters beyond this number, so the first byte is one.
  have hhigh := toNat_lt c
  have hfirst : (UInt8.ofNat (0xF0 + c.toNat / 262144)).toNat = 0xF0 + c.toNat / 262144 :=
    toNat_byte (by omega)
  have hfour : four? (UInt8.ofNat (0xF0 + c.toNat / 262144))
      (UInt8.ofNat (0x80 + c.toNat / 4096 % 64)) (UInt8.ofNat (0x80 + c.toNat / 64 % 64))
      (UInt8.ofNat (0x80 + c.toNat % 64)) = some c := by
    have hvalue : (0xF0 + c.toNat / 262144 - 0xF0) * 262144 + c.toNat / 4096 % 64 * 4096 +
        c.toNat / 64 % 64 * 64 + c.toNat % 64 = c.toNat := by omega
    rw [four?, continuation?_ofNat (by omega), continuation?_ofNat (by omega),
      continuation?_ofNat (by omega), hfirst]
    show (if _ then (if _ then _ else _) else _) = _
    rw [if_pos (by omega), hvalue, if_pos hlow, charOf?_toNat]
  rw [symbols.eq_def]
  dsimp only
  rw [hfirst, if_neg (by omega), two?_eq_none (by omega), three?_eq_none (by omega),
    hfour]

/-- A character is found again, whatever follows it. -/
theorem symbols_encodeChar (c : Char) :
    symbols (encodeChar c ++ rest) = some c :: symbols rest := by
  rw [encodeChar]
  split
  · next h => exact symbols_one rest h
  · next hone =>
    split
    · next h => exact symbols_two rest (by omega) h
    · next htwo =>
      split
      · next h => exact symbols_three rest (by omega) h
      · next h => exact symbols_four rest (by omega)

/-- A text is found again in its bytes, whatever follows it. -/
theorem symbols_encode_append (cs : List Char) :
    symbols (encode cs ++ rest) = cs.map some ++ symbols rest := by
  induction cs with
  | nil => rfl
  | cons c cs ih =>
    rw [encode, List.flatMap_cons, List.append_assoc, symbols_encodeChar, List.map_cons]
    exact congrArg _ ih

/-- **A text is found again in its bytes.** -/
theorem symbols_encode (cs : List Char) : symbols (encode cs) = cs.map some := by
  have h := symbols_encode_append [] cs
  rwa [List.append_nil, symbols.eq_def [], List.append_nil] at h

/-! ### Bytes of no character -/

theorem toNat_of_charOf? {n : Nat} (h : charOf? n = some c) : c.toNat = n := by
  rw [charOf?] at h
  split at h
  · obtain rfl := Option.some.inj h
    rfl
  · exact absurd h (by simp)

/-- Only the first byte of a sequence may begin one of two bytes. -/
theorem two?_eq_none_of_lt {a b : UInt8} (h : a.toNat < 0xC2) : two? a b = none := by
  rw [two?]
  cases continuation? b with
  | none => rfl
  | some y => exact if_neg (by omega)

theorem symbols_lone {a : UInt8} (h : 0x80 ≤ a.toNat) : symbols [a] = [none] := by
  rw [symbols.eq_def]
  dsimp only
  rw [if_neg (by omega)]

theorem symbols_pair {a b : UInt8} (ha : 0x80 ≤ a.toNat) (hb : 0x80 ≤ b.toNat)
    (hab : two? a b = none) : symbols [a, b] = [none, none] := by
  rw [symbols.eq_def]
  dsimp only
  rw [if_neg (by omega), hab]
  dsimp only
  rw [symbols_lone hb]

theorem symbols_triple {a b c : UInt8} (ha : 0x80 ≤ a.toNat) (hb : 0x80 ≤ b.toNat)
    (hc : 0x80 ≤ c.toNat) (hab : two? a b = none) (habc : three? a b c = none)
    (hbc : two? b c = none) : symbols [a, b, c] = [none, none, none] := by
  rw [symbols.eq_def]
  dsimp only
  rw [if_neg (by omega), hab]
  dsimp only
  rw [habc]
  dsimp only
  rw [symbols_pair hb hc hbc]

/-- **A character that is cut off** leaves nothing but bytes that belong to no character. -/
theorem symbols_take_encodeChar {n : Nat} (h : n < (encodeChar c).length) :
    symbols ((encodeChar c).take n) = List.replicate n none := by
  have hhigh := toNat_lt c
  have hmore : ∀ m < 64, (UInt8.ofNat (0x80 + m)).toNat = 0x80 + m := fun m hm =>
    toNat_byte (by omega)
  cases n with
  | zero => rw [List.take_zero, symbols.eq_def, List.replicate_zero]
  | succ n =>
    rw [encodeChar] at h ⊢
    -- By the length of the sequence, and by how much of it is left.
    split at h
    · exact absurd h (by simp)
    · next hone =>
      rw [if_neg hone]
      split at h
      · next htwo =>
        rw [if_pos htwo]
        have hfirst : (UInt8.ofNat (0xC0 + c.toNat / 64)).toNat = 0xC0 + c.toNat / 64 :=
          toNat_byte (by omega)
        obtain rfl : n = 0 := by simp at h; omega
        exact symbols_lone (by omega)
      · next htwo =>
        rw [if_neg htwo]
        split at h
        · next hthree =>
          rw [if_pos hthree]
          have hfirst : (UInt8.ofNat (0xE0 + c.toNat / 4096)).toNat = 0xE0 + c.toNat / 4096 :=
            toNat_byte (by omega)
          have hsecond := hmore (c.toNat / 64 % 64) (by omega)
          obtain rfl | rfl : n = 0 ∨ n = 1 := by simp at h; omega
          · exact symbols_lone (by omega)
          · exact symbols_pair (by omega) (by omega) (two?_eq_none (by omega))
        · next hthree =>
          rw [if_neg hthree]
          have hfirst : (UInt8.ofNat (0xF0 + c.toNat / 262144)).toNat = 0xF0 + c.toNat / 262144 :=
            toNat_byte (by omega)
          have hsecond := hmore (c.toNat / 4096 % 64) (by omega)
          have hthird := hmore (c.toNat / 64 % 64) (by omega)
          obtain rfl | rfl | rfl : n = 0 ∨ n = 1 ∨ n = 2 := by simp at h; omega
          · exact symbols_lone (by omega)
          · exact symbols_pair (by omega) (by omega) (two?_eq_none (by omega))
          · exact symbols_triple (by omega) (by omega) (by omega) (two?_eq_none (by omega))
              (three?_eq_none (by omega)) (two?_eq_none_of_lt (by omega))

/-- **A text that is cut off** between two bytes, as symbols: characters of which at least one is
missing at the end, and bytes that belong to no character. -/
theorem exists_symbols_of_append {front rest : Bytes} {cs : List Char}
    (h : front ++ rest = encode cs) (hrest : rest ≠ []) :
    ∃ kept more count, cs = kept ++ more ∧ more ≠ [] ∧
      symbols front = kept.map some ++ List.replicate count none := by
  induction cs generalizing front with
  | nil => exact absurd (List.append_eq_nil_iff.1 h).2 hrest
  | cons c cs ih =>
    rw [encode, List.flatMap_cons] at h
    rcases List.append_eq_append_iff.1 h with ⟨tail, hchar, hmore⟩ | ⟨tail, rfl, hmore⟩
    · cases tail with
      | nil =>
        -- The cut is behind the first character.
        obtain rfl : encodeChar c = front := hchar.trans (List.append_nil front)
        have hsymbols := symbols_encodeChar [] c
        rw [List.append_nil, symbols.eq_def []] at hsymbols
        refine ⟨[c], cs, 0, rfl, ?_, hsymbols⟩
        rintro rfl
        exact hrest hmore
      | cons b tail =>
        have hlt : front.length < (encodeChar c).length := by
          rw [hchar, List.length_append, List.length_cons]
          omega
        refine ⟨[], c :: cs, front.length, rfl, List.cons_ne_nil c cs, ?_⟩
        rw [← symbols_take_encodeChar hlt, hchar, List.take_left]
        rfl
    · obtain ⟨kept, more, count, rfl, hne, hsymbols⟩ := ih hmore.symm
      exact ⟨c :: kept, more, count, rfl, hne, by
        rw [symbols_encodeChar, hsymbols]; rfl⟩

/-! ### Bytes of a text -/

theorem ofNat_of_toNat_eq {a : UInt8} {n : Nat} (h : n = a.toNat) : UInt8.ofNat n = a := by
  rw [h, UInt8.ofNat_toNat]

/-- What a continuation byte is, by its bits. -/
theorem toNat_of_continuation? {b : UInt8} {n : Nat} (h : continuation? b = some n) :
    b.toNat = 0x80 + n ∧ n < 64 := by
  rw [continuation?] at h
  split at h
  · obtain rfl := Option.some.inj h
    omega
  · exact absurd h (by simp)

theorem encodeChar_of_two? {a b : UInt8} (h : two? a b = some c) : encodeChar c = [a, b] := by
  obtain ⟨y, hy, h⟩ := Option.bind_eq_some_iff.1 h
  obtain ⟨hb, hy⟩ := toNat_of_continuation? hy
  split at h
  · next ha =>
    have hc := toNat_of_charOf? h
    have hfirst : UInt8.ofNat (0xC0 + c.toNat / 64) = a := ofNat_of_toNat_eq (by omega)
    have hsecond : UInt8.ofNat (0x80 + c.toNat % 64) = b := ofNat_of_toNat_eq (by omega)
    rw [encodeChar, if_neg (by omega), if_pos (by omega), hfirst, hsecond]
  · exact absurd h (by simp)

theorem encodeChar_of_three? {a b d : UInt8} (h : three? a b d = some c) :
    encodeChar c = [a, b, d] := by
  obtain ⟨y, hy, h⟩ := Option.bind_eq_some_iff.1 h
  obtain ⟨z, hz, h⟩ := Option.bind_eq_some_iff.1 h
  obtain ⟨hb, hy⟩ := toNat_of_continuation? hy
  obtain ⟨hd, hz⟩ := toNat_of_continuation? hz
  split at h
  · next ha =>
    dsimp only at h
    split at h
    · have hc := toNat_of_charOf? h
      have hfirst : UInt8.ofNat (0xE0 + c.toNat / 4096) = a := ofNat_of_toNat_eq (by omega)
      have hsecond : UInt8.ofNat (0x80 + c.toNat / 64 % 64) = b := ofNat_of_toNat_eq (by omega)
      have hthird : UInt8.ofNat (0x80 + c.toNat % 64) = d := ofNat_of_toNat_eq (by omega)
      rw [encodeChar, if_neg (by omega), if_neg (by omega), if_pos (by omega), hfirst, hsecond,
        hthird]
    · exact absurd h (by simp)
  · exact absurd h (by simp)

theorem encodeChar_of_four? {a b d e : UInt8} (h : four? a b d e = some c) :
    encodeChar c = [a, b, d, e] := by
  obtain ⟨x, hx, h⟩ := Option.bind_eq_some_iff.1 h
  obtain ⟨y, hy, h⟩ := Option.bind_eq_some_iff.1 h
  obtain ⟨z, hz, h⟩ := Option.bind_eq_some_iff.1 h
  obtain ⟨hb, hx⟩ := toNat_of_continuation? hx
  obtain ⟨hd, hy⟩ := toNat_of_continuation? hy
  obtain ⟨he, hz⟩ := toNat_of_continuation? hz
  split at h
  · next ha =>
    dsimp only at h
    split at h
    · have hc := toNat_of_charOf? h
      have hfirst : UInt8.ofNat (0xF0 + c.toNat / 262144) = a := ofNat_of_toNat_eq (by omega)
      have hsecond : UInt8.ofNat (0x80 + c.toNat / 4096 % 64) = b := ofNat_of_toNat_eq (by omega)
      have hthird : UInt8.ofNat (0x80 + c.toNat / 64 % 64) = d := ofNat_of_toNat_eq (by omega)
      have hfourth : UInt8.ofNat (0x80 + c.toNat % 64) = e := ofNat_of_toNat_eq (by omega)
      rw [encodeChar, if_neg (by omega), if_neg (by omega), if_neg (by omega), hfirst, hsecond,
        hthird, hfourth]
    · exact absurd h (by simp)
  · exact absurd h (by simp)

/-- **Bytes that spell nothing but characters** are the encoding of these. -/
theorem eq_encode_of_symbols {bytes : Bytes} {cs : List Char} (h : symbols bytes = cs.map some) :
    bytes = encode cs := by
  -- The characters of each sequence in turn; a byte of no character is not among them.
  have hcons : ∀ {c : Option Char} {rest : List (Option Char)} {cs : List Char},
      c :: rest = cs.map some → ∃ d ds, cs = d :: ds ∧ c = some d ∧ rest = ds.map some := by
    intro c rest cs h
    cases cs with
    | nil => exact absurd h (by simp)
    | cons d ds =>
      obtain ⟨hc, hrest⟩ := List.cons.inj h
      exact ⟨d, ds, rfl, hc, hrest⟩
  fun_induction symbols bytes generalizing cs with
  | case1 =>
    obtain rfl := List.map_eq_nil_iff.1 h.symm
    rfl
  | case2 a rest ha ih =>
    obtain ⟨c, ds, rfl, hc, hrest⟩ := hcons h
    have hc := toNat_of_charOf? hc
    show a :: rest = encodeChar c ++ encode ds
    rw [← ih hrest, encodeChar, if_pos (by omega), ofNat_of_toNat_eq hc]
    rfl
  | case4 a ha b rest c hc ih =>
    obtain ⟨_, ds, rfl, ⟨⟩, hrest⟩ := hcons h
    show a :: b :: rest = encodeChar c ++ encode ds
    rw [← ih hrest, encodeChar_of_two? hc]
    rfl
  | case6 a ha b hab d rest c hc ih =>
    obtain ⟨_, ds, rfl, ⟨⟩, hrest⟩ := hcons h
    show a :: b :: d :: rest = encodeChar c ++ encode ds
    rw [← ih hrest, encodeChar_of_three? hc]
    rfl
  | case8 a ha b hab d habd e rest c hc ih =>
    obtain ⟨_, ds, rfl, ⟨⟩, hrest⟩ := hcons h
    show a :: b :: d :: e :: rest = encodeChar c ++ encode ds
    rw [← ih hrest, encodeChar_of_four? hc]
    rfl
  | _ =>
    obtain ⟨_, _, -, hnone, -⟩ := hcons h
    exact absurd hnone (by simp)

/-- Symbols are a text if all of them are characters. -/
theorem mapM_id_eq_some_iff {list : List (Option Char)} {cs : List Char} :
    list.mapM id = some cs ↔ list = cs.map some := by
  induction list generalizing cs with
  | nil =>
    cases cs with
    | nil => exact ⟨fun _ => rfl, fun _ => rfl⟩
    | cons => exact ⟨fun h => absurd (Option.some.inj h) (by simp), fun h => absurd h (by simp)⟩
  | cons c rest ih =>
    rw [List.mapM_cons, Option.bind_eq_bind, Option.bind_eq_some_iff]
    simp only [Option.bind_eq_bind, Option.bind_eq_some_iff, ih]
    constructor
    · rintro ⟨d, rfl, ds, rfl, hcs⟩
      rw [← Option.some.inj hcs]
      rfl
    · intro h
      obtain ⟨d, ds, rfl, hd, hds⟩ := List.map_eq_cons_iff.1 h.symm
      exact ⟨d, hd.symm, ds, hds.symm, rfl⟩

/-- **The text that bytes spell** is the one whose encoding they are. -/
theorem decode?_eq_some_iff {bytes : Bytes} {cs : List Char} :
    decode? bytes = some cs ↔ bytes = encode cs := by
  rw [decode?, mapM_id_eq_some_iff]
  refine ⟨eq_encode_of_symbols, fun h => ?_⟩
  rw [h, symbols_encode]

/-! ### Bytes of ASCII -/

theorem le_of_two? {a b : UInt8} (h : two? a b = some c) : 0x80 ≤ c.toNat := by
  obtain ⟨y, -, h⟩ := Option.bind_eq_some_iff.1 h
  split at h
  · rw [toNat_of_charOf? h]
    omega
  · exact absurd h (by simp)

theorem le_of_three? {a b d : UInt8} (h : three? a b d = some c) : 0x80 ≤ c.toNat := by
  obtain ⟨y, -, h⟩ := Option.bind_eq_some_iff.1 h
  obtain ⟨z, -, h⟩ := Option.bind_eq_some_iff.1 h
  split at h
  · dsimp only at h
    split at h
    · rw [toNat_of_charOf? h]
      omega
    · exact absurd h (by simp)
  · exact absurd h (by simp)

theorem le_of_four? {a b d e : UInt8} (h : four? a b d e = some c) : 0x80 ≤ c.toNat := by
  obtain ⟨x, -, h⟩ := Option.bind_eq_some_iff.1 h
  obtain ⟨y, -, h⟩ := Option.bind_eq_some_iff.1 h
  obtain ⟨z, -, h⟩ := Option.bind_eq_some_iff.1 h
  split at h
  · dsimp only at h
    split at h
    · rw [toNat_of_charOf? h]
      omega
    · exact absurd h (by simp)
  · exact absurd h (by simp)

theorem symbols_cons_of_lt {a : UInt8} (h : a.toNat < 0x80) :
    symbols (a :: rest) = charOf? a.toNat :: symbols rest := by
  rw [symbols.eq_def]
  exact if_pos h

/-- A byte beyond ASCII begins a character beyond ASCII, or none. -/
theorem exists_symbols_cons_of_le {a : UInt8} (h : 0x80 ≤ a.toNat) :
    ∃ symbol more, symbols (a :: rest) = symbol :: more ∧
      ∀ c, symbol = some c → 0x80 ≤ c.toNat := by
  have hnone : ∀ c : Char, none = some c → 0x80 ≤ c.toNat := fun c hc => absurd hc (by simp)
  rw [symbols.eq_def]
  dsimp only
  rw [if_neg (by omega)]
  split
  · exact ⟨none, _, rfl, hnone⟩
  · split
    · next htwo => exact ⟨_, _, rfl, fun c hc => le_of_two? (htwo.trans hc)⟩
    · split
      · exact ⟨none, _, rfl, hnone⟩
      · split
        · next hthree => exact ⟨_, _, rfl, fun c hc => le_of_three? (hthree.trans hc)⟩
        · split
          · exact ⟨none, _, rfl, hnone⟩
          · split
            · next hfour => exact ⟨_, _, rfl, fun c hc => le_of_four? (hfour.trans hc)⟩
            · exact ⟨none, _, rfl, hnone⟩

/-- **Bytes spell characters of ASCII**, all of one kind, exactly if each of them is such a
character. -/
theorem forall_mem_symbols_iff {P : Char → Prop} (hP : ∀ c, P c → c.toNat < 0x80) {bytes : Bytes} :
    (∀ symbol ∈ symbols bytes, ∃ c, symbol = some c ∧ P c) ↔
      ∀ b ∈ bytes, ∃ c, P c ∧ b.toNat = c.toNat := by
  induction bytes with
  | nil => rw [symbols.eq_def]; simp
  | cons a rest ih =>
    by_cases ha : a.toNat < 0x80
    · rw [symbols_cons_of_lt rest ha, List.forall_mem_cons, List.forall_mem_cons, ih]
      refine and_congr_left fun _ => ⟨?_, ?_⟩
      · rintro ⟨c, hc, hPc⟩
        exact ⟨c, hPc, (toNat_of_charOf? hc).symm⟩
      · rintro ⟨c, hPc, hc⟩
        exact ⟨c, by rw [hc, charOf?_toNat], hPc⟩
    · -- Neither side allows such a byte.
      obtain ⟨symbol, more, hsymbols, hsymbol⟩ :=
        exists_symbols_cons_of_le rest (Nat.le_of_not_lt ha)
      rw [hsymbols]
      constructor
      · intro h
        obtain ⟨c, hc, hPc⟩ := h symbol List.mem_cons_self
        exact absurd (hP c hPc) (Nat.not_lt.2 (hsymbol c hc))
      · intro h
        obtain ⟨c, hPc, hc⟩ := h a List.mem_cons_self
        exact absurd (hc ▸ hP c hPc) ha

/-! ### The order of bytes -/

theorem cons_lt_cons {m n : Nat} {r s : Bytes} (hlt : m < n) (hn : n < 0x100) :
    UInt8.ofNat m :: r < UInt8.ofNat n :: s := by
  refine List.cons_lt_cons_iff.2 (.inl (UInt8.lt_iff_toNat_lt.2 ?_))
  rwa [toNat_byte (by omega), toNat_byte hn]

/-- Bytes of one kind are compared by what they carry, and then by what follows. -/
theorem cons_lt_cons_of_le {base m n : Nat} {r s : Bytes} (hle : m ≤ n) (hn : base + n < 0x100)
    (hrest : m = n → r < s) : UInt8.ofNat (base + m) :: r < UInt8.ofNat (base + n) :: s := by
  rcases Nat.lt_or_eq_of_le hle with hlt | heq
  · exact cons_lt_cons (by omega) hn
  · rw [heq]
    exact List.cons_lt_cons_iff.2 (.inr ⟨rfl, hrest heq⟩)

/-- Of two different characters the lesser one has the lesser bytes, whatever follows them. -/
theorem encodeChar_append_lt {c d : Char} (h : c < d) (r s : Bytes) :
    encodeChar c ++ r < encodeChar d ++ s := by
  have hlt : c.toNat < d.toNat := UInt32.lt_iff_toNat_lt.1 h
  have hhigh := toNat_lt d
  rw [encodeChar, encodeChar]
  -- By the lengths of the two sequences; the first one is not the longer one.
  split
  · split
    · exact cons_lt_cons hlt (by omega)
    · split
      · exact cons_lt_cons (by omega) (by omega)
      · split <;> exact cons_lt_cons (by omega) (by omega)
  · rw [if_neg (show ¬ d.toNat < 0x80 by omega)]
    split
    · split
      · exact cons_lt_cons_of_le (by omega) (by omega) fun hfirst =>
          cons_lt_cons (by omega) (by omega)
      · split <;> exact cons_lt_cons (by omega) (by omega)
    · rw [if_neg (show ¬ d.toNat < 0x800 by omega)]
      split
      · split
        · exact cons_lt_cons_of_le (by omega) (by omega) fun hfirst =>
            cons_lt_cons_of_le (by omega) (by omega) fun hsecond =>
              cons_lt_cons (by omega) (by omega)
        · exact cons_lt_cons (by omega) (by omega)
      · rw [if_neg (show ¬ d.toNat < 0x10000 by omega)]
        exact cons_lt_cons_of_le (by omega) (by omega) fun hfirst =>
          cons_lt_cons_of_le (by omega) (by omega) fun hsecond =>
            cons_lt_cons_of_le (by omega) (by omega) fun hthird =>
              cons_lt_cons (by omega) (by omega)

/-- **The bytes of texts are in the order of the texts.** -/
theorem encode_lt_encode {cs ds : List Char} (h : cs < ds) : encode cs < encode ds := by
  -- Equal characters in front have the same bytes, and the first different ones decide.
  induction h with
  | nil =>
    rw [encode, encode, List.flatMap_nil, List.flatMap_cons, encodeChar]
    split
    · exact .nil
    · split
      · exact .nil
      · split <;> exact .nil
  | rel hlt => exact encodeChar_append_lt hlt _ _
  | cons _ ih => exact List.append_left_lt ih

end DeviceScope.Utf8
