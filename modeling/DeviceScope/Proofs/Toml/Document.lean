import DeviceScope.Proofs.Toml.Value

/-!
# Documents of settings

A document that sets one key on each line, with no tables and no comments (`Setting`). If no key is
set twice, such a document is read as the keys with their values, in the order of the lines
(`ofChars?_settings`).
-/

namespace DeviceScope.Toml

/-- A key that is written without quotation marks. -/
structure IsBareKey (key : String) : Prop where
  ne_nil : key.toList ≠ []
  bare : ∀ c ∈ key.toList, isBare c = true

/-- **A line that sets a key**, with the value that it sets. -/
structure Setting where
  key : String
  /-- How the value is written. -/
  text : List Char
  value : Value
  isBareKey : IsBareKey key
  spells : Spells text value

namespace Setting

variable (setting : Setting)

/-- The characters of the line. -/
def chars : List Char := setting.key.toList ++ [' ', '=', ' '] ++ setting.text ++ ['\n']

/-- What the line defines. -/
def member : String × Value := (setting.key, setting.value)

theorem exists_key_eq_cons :
    ∃ c cs, setting.key.toList = c :: cs ∧ ∀ d, isBare d = false → c ≠ d := by
  obtain ⟨c, cs, hkey⟩ := List.exists_cons_of_ne_nil setting.isBareKey.ne_nil
  refine ⟨c, cs, hkey, ?_⟩
  rintro d hd rfl
  have hbare := setting.isBareKey.bare c (hkey ▸ List.mem_cons_self)
  exact absurd (hd.symm.trans hbare) (by decide)

theorem chars_append (rest : List Char) : setting.chars ++ rest =
    setting.key.toList ++ ' ' :: '=' :: ' ' :: (setting.text ++ '\n' :: rest) := by
  simp only [chars, List.append_assoc, List.cons_append, List.nil_append]

theorem chars_ne_nil : setting.chars ≠ [] :=
  List.append_ne_nil_of_right_ne_nil _ (List.cons_ne_nil _ _)

/-- A line begins with its key. -/
theorem chars_append_ne_cons {d : Char} (hd : isBare d = false) (rest ds : List Char) :
    setting.chars ++ rest ≠ d :: ds := by
  obtain ⟨c, cs, hkey, hfirst⟩ := setting.exists_key_eq_cons
  rw [chars_append, hkey, List.cons_append]
  exact fun heq => hfirst d hd (List.cons.inj heq).1

theorem dropBlanks_chars (rest : List Char) :
    dropBlanks (setting.chars ++ rest) = setting.chars ++ rest := by
  obtain ⟨c, cs, hkey, hfirst⟩ := setting.exists_key_eq_cons
  rw [chars_append, hkey, List.cons_append]
  exact dropBlanks_cons (hfirst ' ' rfl) (hfirst '\t' rfl) _

/-! ### Reading a line -/

theorem takeKey?_chars (rest : List Char) : takeKey? (setting.chars ++ rest) =
    some (setting.key, ' ' :: '=' :: ' ' :: (setting.text ++ '\n' :: rest)) := by
  have hend : Run.EndsAt isBare (' ' :: '=' :: ' ' :: (setting.text ++ '\n' :: rest)) :=
    Run.endsAt_cons rfl
  rw [takeKey?.eq_def]
  split
  case h_1 heq | h_2 heq => exact absurd heq (setting.chars_append_ne_cons rfl rest _)
  case h_3 =>
    have hsome : setting.key.toList.isEmpty = false :=
      List.isEmpty_eq_false_iff.2 setting.isBareKey.ne_nil
    rw [chars_append, Run.takeWhile_append setting.isBareKey.bare hend,
      Run.dropWhile_append setting.isBareKey.bare hend]
    dsimp only
    rw [hsome, String.ofList_toList]
    rfl

theorem takePath?_chars (fuel : Nat) (rest : List Char) :
    takePath? (fuel + 1) (setting.chars ++ rest) =
      some ([setting.key], '=' :: ' ' :: (setting.text ++ '\n' :: rest)) := by
  rw [takePath?, dropBlanks_chars, takeKey?_chars]
  rfl

theorem takePair?_chars (rest : List Char) :
    takePair? (takeValue? maxNesting) (setting.chars ++ rest) =
      some ([setting.key], setting.value, '\n' :: rest) := by
  have htake : takeValue? maxNesting (dropBlanks (' ' :: (setting.text ++ '\n' :: rest))) =
      some (setting.value, '\n' :: rest) :=
    (congrArg _ (setting.spells.front rest)).trans (setting.spells.taken rest)
  rw [takePair?, takePath?_chars, Option.bind_eq_bind, Option.bind_some]
  exact congrArg (Option.bind · _) htake

/-- A new key is defined in the document itself. -/
theorem assignUnder?_new {members : Members} {key : String} (hnew : key ∉ members.map (·.1))
    (value : Value) : members.assignUnder? [] [key] value = some (members ++ [(key, value)]) := by
  have hnone : members.lookup key = none := by
    refine List.lookup_eq_none_iff.2 fun member hmem => bne_iff_ne.2 ?_
    rintro rfl
    exact hnew (List.mem_map_of_mem hmem)
  have hdefine : Members.define? false key value .header members =
      some (.header, members ++ [(key, value)]) := by
    rw [Members.define?, hnone]
    rfl
  show (Members.define? false key value .header members).map (·.2) = _
  rw [hdefine]
  rfl

/-- **A line is read**: its key is set, and what follows the line is left. -/
theorem line?_chars {members : Members} (hnew : setting.key ∉ members.map (·.1))
    (rest : List Char) : line? ⟨members, []⟩ (setting.chars ++ rest) =
      some (⟨members ++ [setting.member], []⟩, rest) := by
  rw [line?, dropBlanks_chars]
  -- What a key begins with opens no table and no comment, and ends no line.
  split
  case h_3 heq => exact absurd (List.append_eq_nil_iff.1 heq).1 setting.chars_ne_nil
  case h_7 =>
    rw [takePair?_chars, Option.bind_eq_bind, Option.bind_some]
    dsimp only
    rw [assignUnder?_new hnew]
    rfl
  all_goals
    next heq => exact absurd heq (setting.chars_append_ne_cons rfl rest _)

end Setting

/-! ### Reading a document -/

/-- **Lines are read one after another.** -/
theorem lines?_settings {settings : List Setting} {members : Members}
    (hdistinct : (members.map (·.1) ++ settings.map Setting.key).Nodup) {fuel : Nat}
    (hfuel : settings.length < fuel) :
    lines? fuel ⟨members, []⟩ (settings.flatMap Setting.chars) =
      some (members ++ settings.map Setting.member) := by
  obtain ⟨fuel, rfl⟩ : ∃ less, fuel = less + 1 := ⟨fuel - 1, by omega⟩
  induction settings generalizing members fuel with
  | nil =>
    rw [List.map_nil, List.append_nil]
    rfl
  | cons setting rest ih =>
    rw [List.length_cons] at hfuel
    obtain ⟨fuel, rfl⟩ : ∃ less, fuel = less + 1 := ⟨fuel - 1, by omega⟩
    have hnew : setting.key ∉ members.map (·.1) := fun hmem =>
      (List.nodup_append.1 hdistinct).2.2 _ hmem _ List.mem_cons_self rfl
    -- The key that is set now joins those that the later lines have to differ from.
    have hrest : ((members ++ [setting.member]).map (·.1) ++ rest.map Setting.key).Nodup := by
      rw [List.map_append, List.append_assoc]
      exact hdistinct
    rw [List.flatMap_cons, lines?, setting.line?_chars hnew, Option.bind_eq_bind,
      Option.bind_some]
    · dsimp only
      rw [ih hrest fuel (by omega), List.append_assoc]
      rfl
    · exact fun hnone => setting.chars_ne_nil (List.append_eq_nil_iff.1 hnone).1

theorem length_le_length_chars (settings : List Setting) :
    settings.length ≤ (settings.flatMap Setting.chars).length := by
  induction settings with
  | nil => exact Nat.le_refl 0
  | cons setting rest ih =>
    have hsome := List.length_pos_iff.2 setting.chars_ne_nil
    rw [List.flatMap_cons, List.length_append, List.length_cons]
    omega

/-- **A document of settings is read back.** -/
theorem ofChars?_settings {settings : List Setting}
    (hdistinct : (settings.map Setting.key).Nodup) :
    ofChars? (settings.flatMap Setting.chars) = some (settings.map Setting.member) := by
  have hmark : (settings.flatMap Setting.chars).head? ≠ some '\uFEFF' := by
    cases settings with
    | nil => exact Option.some_ne_none _ |>.symm
    | cons setting rest =>
      intro hhead
      obtain ⟨cs, hchars⟩ := List.head?_eq_some_iff.1 hhead
      exact setting.chars_append_ne_cons rfl _ cs hchars
  rw [ofChars?, if_neg hmark]
  exact @lines?_settings settings [] hdistinct _ (Nat.lt_succ_of_le (length_le_length_chars _))

end DeviceScope.Toml
