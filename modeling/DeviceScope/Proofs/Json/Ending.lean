import DeviceScope.Proofs.Json.Reading

/-!
# Where a text ends

An object ends with its last brace. A text of one that is cut off anywhere before it spells nothing
(`Json.ofText?_of_cut`, `Json.ofBytes?_of_cut`), and neither does one that goes on behind it, unless
with white space (`Json.ofText?_append_iff`, `Json.ofBytes?_append_iff`).

What stands inside the object does not matter. A text may end only where the reader has the value of
the whole text, or is in a number that is not inside of anything, and from there it never takes a
brace in (`Reader.AtEnd`). So a front part of a text that spells something is followed by no brace.
-/

namespace DeviceScope.Json

namespace Reader

/-! ### Where a text may end -/

/-- **The reader has come to the end**: it has the value of the whole text, or is in a number that
is not inside of anything. -/
inductive AtEnd : Reader → Prop where
  | done (stack : List Frame) (value : Json) : AtEnd ⟨stack, .done value⟩
  | number (literal : List Char) (state : Number.State) : AtEnd ⟨[], .number literal state⟩

/-- A text ends nowhere else. -/
theorem atEnd_of_result? {reader : Reader} {value : Json} (h : reader.result? = some value) :
    reader.AtEnd := by
  obtain ⟨stack, expect⟩ := reader
  cases expect with
  | done value => exact .done stack value
  | number literal state =>
    cases stack with
    | nil => exact .number literal state
    | cons frame stack =>
      -- Inside of something the number is followed by the rest of it.
      rw [result?] at h
      dsimp only at h
      split at h
      · cases frame <;> exact absurd h (by simp [complete])
      · exact absurd h (by simp)
  | _ => exact absurd h (by simp [result?])

theorem mem_blanks_iff {c : Char} : c ∈ blanks ↔ isSpace c = true := by
  refine ⟨isSpace_of_mem, fun h => ?_⟩
  simpa only [isSpace, Bool.or_eq_true, decide_eq_true_iff, blanks, List.mem_cons,
    List.not_mem_nil, or_false, or_assoc] using h

/-- Behind the value of the whole text stands nothing but white space. -/
theorem step?_done (stack : List Frame) (value : Json) (symbol : Option Char) :
    step? ⟨stack, .done value⟩ symbol = some ⟨[], .done value⟩ ∧ (∃ c ∈ blanks, symbol = some c) ∨
      step? ⟨stack, .done value⟩ symbol = none ∧ ¬ ∃ c ∈ blanks, symbol = some c := by
  cases symbol with
  | none => exact .inr ⟨rfl, by simp⟩
  | some c =>
    by_cases hc : isSpace c = true
    · exact .inl ⟨if_pos hc, c, mem_blanks_iff.2 hc, rfl⟩
    · refine .inr ⟨if_neg hc, ?_⟩
      rintro ⟨d, hd, hcd⟩
      obtain rfl := Option.some.inj hcd
      exact hc (mem_blanks_iff.1 hd)

/-- **Once the reader has come to the end** it takes no brace in, and has come to the end still. -/
theorem AtEnd.step? {reader later : Reader} {symbol : Option Char} (h : reader.AtEnd)
    (hstep : reader.step? symbol = some later) : later.AtEnd ∧ symbol ≠ some '\x7d' := by
  cases h with
  | done stack value =>
    rcases step?_done stack value symbol with ⟨hspace, c, hc, rfl⟩ | ⟨hnone, -⟩
    · obtain rfl := Option.some.inj (hspace.symm.trans hstep)
      refine ⟨.done [] value, ?_⟩
      rintro ⟨⟩
      exact absurd hc (by decide)
    · exact absurd (hnone.symm.trans hstep) (by simp)
  | number literal state =>
    cases symbol with
    | none => exact absurd hstep (by simp [Reader.step?])
    | some c =>
      rw [Reader.step?, stepChar?] at hstep
      dsimp only at hstep
      split at hstep
      · -- The number goes on.
        next next hnext =>
        obtain rfl := Option.some.inj hstep
        refine ⟨.number _ next, ?_⟩
        rintro ⟨⟩
        rw [step?_eq_none_of_isEnd state (by decide)] at hnext
        exact absurd hnext (by simp)
      · -- The character comes behind the number.
        split at hstep
        · rw [complete, after?] at hstep
          dsimp only at hstep
          split at hstep
          · next hspace =>
            obtain rfl := Option.some.inj hstep
            refine ⟨.done [] _, ?_⟩
            rintro ⟨⟩
            exact absurd hspace (by decide)
          · exact absurd hstep (by simp)
        · exact absurd hstep (by simp)

theorem AtEnd.not_mem {reader later : Reader} {symbols : List (Option Char)} (h : reader.AtEnd)
    (hrun : reader.run? symbols = some later) : some '\x7d' ∉ symbols := by
  induction symbols generalizing reader with
  | nil => exact List.not_mem_nil
  | cons symbol symbols ih =>
    rw [run?, List.foldlM_cons] at hrun
    obtain ⟨next, hstep, hrest⟩ := Option.bind_eq_some_iff.1 hrun
    obtain ⟨hnext, hne⟩ := h.step? hstep
    intro hmem
    rcases List.mem_cons.1 hmem with hsymbol | hmem
    · exact hne hsymbol.symm
    · exact ih hnext hrest hmem

theorem run?_done_of_blank (value : Json) {symbols : List (Option Char)}
    (h : ∀ symbol ∈ symbols, ∃ c ∈ blanks, symbol = some c) :
    run? ⟨[], .done value⟩ symbols = some ⟨[], .done value⟩ := by
  induction symbols with
  | nil => rfl
  | cons symbol symbols ih =>
    obtain ⟨hsymbol, hsymbols⟩ := List.forall_mem_cons.1 h
    rcases step?_done [] value symbol with ⟨hstep, -⟩ | ⟨-, hnot⟩
    · rw [run?, List.foldlM_cons, hstep]
      exact ih hsymbols
    · exact absurd hsymbol hnot

theorem run?_done_of_not_blank (value : Json) {symbols : List (Option Char)}
    (h : ¬ ∀ symbol ∈ symbols, ∃ c ∈ blanks, symbol = some c) :
    run? ⟨[], .done value⟩ symbols = none := by
  induction symbols with
  | nil => exact absurd (fun _ hmem => absurd hmem List.not_mem_nil) h
  | cons symbol symbols ih =>
    rw [run?, List.foldlM_cons]
    rcases step?_done [] value symbol with ⟨hstep, hblank⟩ | ⟨hstep, -⟩
    · rw [hstep]
      exact ih fun hsymbols => h (List.forall_mem_cons.2 ⟨hblank, hsymbols⟩)
    · rw [hstep]
      rfl

end Reader

/-! ### Symbols -/

/-- What stands in front of a brace spells nothing by itself. -/
theorem ofSymbols?_of_front {front more : List (Option Char)} {value : Json}
    (h : ofSymbols? (front ++ more) = some value) (hmark : some '\x7d' ∈ more) :
    ofSymbols? front = none := by
  rw [ofSymbols?, Reader.run?_append] at h
  rw [ofSymbols?]
  cases hfront : Reader.start.run? front with
  | none => rfl
  | some reader =>
    rw [hfront, Option.bind_some] at h
    obtain ⟨later, hmore, -⟩ := Option.bind_eq_some_iff.1 h
    cases hresult : reader.result? with
    | none => exact hresult
    | some other => exact absurd hmark ((Reader.atEnd_of_result? hresult).not_mem hmore)

/-- A byte that belongs to no character stands inside a string, where no text ends. -/
theorem ofSymbols?_append_none (symbols : List (Option Char)) :
    ofSymbols? (symbols ++ [none]) = none := by
  rw [ofSymbols?, Reader.run?_append]
  cases Reader.start.run? symbols with
  | none => rfl
  | some reader =>
    obtain ⟨stack, expect⟩ := reader
    cases expect with
    | string isKey quoted escape => cases escape <;> rfl
    | _ => rfl

/-! ### Objects -/

section

variable {members : List (Option String × Json)}

/-- What an object is followed by begins behind its last brace. -/
theorem mem_of_append_eq_compact {front more : List Char}
    (h : front ++ more = (Json.object members).compact) (hmore : more ≠ []) : '\x7d' ∈ more := by
  rcases List.eq_nil_or_concat more with rfl | ⟨init, last, rfl⟩
  · exact absurd rfl hmore
  · rw [compact, ← List.cons_append, List.concat_eq_append, ← List.append_assoc] at h
    rw [List.concat_eq_append, List.append_inj_right' h rfl]
    exact List.mem_append_right _ List.mem_cons_self

variable (hplain : (Json.object members).Plain)
include hplain

/-- An object that is cut off spells nothing, also if bytes follow that belong to no character. -/
theorem ofSymbols?_of_cut {front more : List Char}
    (h : front ++ more = (Json.object members).compact) (hmore : more ≠ []) (count : Nat) :
    ofSymbols? (front.map some ++ List.replicate count none) = none := by
  cases count with
  | zero =>
    have hwhole := ofSymbols?_compact hplain
    rw [← h, List.map_append] at hwhole
    rw [List.replicate_zero, List.append_nil]
    exact ofSymbols?_of_front hwhole (List.mem_map_of_mem (mem_of_append_eq_compact h hmore))
  | succ count =>
    rw [List.replicate_succ', ← List.append_assoc]
    exact ofSymbols?_append_none _

/-- An object is complete with its last brace. -/
theorem reads_object : Reader.start.Reads (Json.object members).compact
    ⟨[], .done (.object members)⟩ := by
  obtain ⟨later, hreads, hends⟩ :=
    Reader.readsBack (.object members) [] false _ (inSequence_compact hplain)
  cases hends with
  | complete => exact hreads
  | number hvalue => exact absurd hvalue (by simp)

/-- **Behind an object stands nothing but white space.** -/
theorem ofSymbols?_append_iff {extra : List (Option Char)} {value : Json} :
    ofSymbols? ((Json.object members).compact.map some ++ extra) = some value ↔
      value = .object members ∧ ∀ symbol ∈ extra, ∃ c ∈ blanks, symbol = some c := by
  rw [ofSymbols?, Reader.run?_append, reads_object hplain, Option.bind_some]
  by_cases hblank : ∀ symbol ∈ extra, ∃ c ∈ blanks, symbol = some c
  · rw [Reader.run?_done_of_blank _ hblank]
    exact ⟨fun h => ⟨(Option.some.inj h).symm, hblank⟩, fun h => congrArg some h.1.symm⟩
  · rw [Reader.run?_done_of_not_blank _ hblank]
    exact ⟨fun h => absurd h (by simp), fun h => absurd h.2 hblank⟩

/-! ### Texts and files -/

/-- **The text of an object that is cut off spells nothing.** -/
theorem ofText?_of_cut {front rest : String} (h : front ++ rest = (Json.object members).compactText)
    (hrest : rest ≠ "") : ofText? front = none := by
  have hchars : front.toList ++ rest.toList = (Json.object members).compact := by
    rw [← String.toList_append, h, compactText, String.toList_ofList]
  have hne : rest.toList ≠ [] := fun hnil => hrest (String.toList_inj.1 hnil)
  have hcut := ofSymbols?_of_cut hplain hchars hne 0
  rwa [List.replicate_zero, List.append_nil] at hcut

/-- **The file of an object that is cut off spells nothing**, wherever the cut is. -/
theorem ofBytes?_of_cut {front rest : Bytes}
    (h : front ++ rest = Utf8.encode (Json.object members).compact) (hrest : rest ≠ []) :
    ofBytes? front = none := by
  obtain ⟨kept, more, count, hchars, hmore, hsymbols⟩ := Utf8.exists_symbols_of_append h hrest
  rw [ofBytes?, hsymbols]
  exact ofSymbols?_of_cut hplain hchars.symm hmore count

theorem ofText?_append_iff {extra : String} {value : Json} :
    ofText? ((Json.object members).compactText ++ extra) = some value ↔
      value = .object members ∧ ∀ c ∈ extra.toList, c ∈ blanks := by
  rw [ofText?, String.toList_append, compactText, String.toList_ofList, List.map_append,
    ofSymbols?_append_iff hplain, List.forall_mem_map]
  refine and_congr_right fun _ => forall₂_congr fun c _ => ?_
  simp

theorem ofBytes?_append_iff {extra : Bytes} {value : Json} :
    ofBytes? (Utf8.encode (Json.object members).compact ++ extra) = some value ↔
      value = .object members ∧ ∀ b ∈ extra, ∃ c ∈ blanks, b.toNat = c.toNat := by
  have hascii : ∀ c ∈ blanks, c.toNat < 0x80 := by simp [blanks]
  rw [ofBytes?, Utf8.symbols_encode_append, ofSymbols?_append_iff hplain,
    ← Utf8.forall_mem_symbols_iff (P := (· ∈ blanks)) hascii]
  simp only [and_comm]

end

end DeviceScope.Json
