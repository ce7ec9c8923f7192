import DeviceScope.Json.Order
import DeviceScope.Proofs.Json.Layout
import DeviceScope.Proofs.Json.Reading

/-!
# Values for a reader

A value that is shown to a reader has its members in order and each item and member on a line of its
own. This is one of the texts of the ordered value (`Json.spells_indentedText`), and putting members
in order changes nothing but the layout (`Json.rearranges_ordered`).
-/

namespace DeviceScope.Json

/-! ### Over several lines -/

theorem mem_blanks_of_mem_newLine (level : Nat) : ∀ c ∈ newLine level, c ∈ blanks := by
  intro c h
  rcases List.mem_cons.1 h with rfl | hspace
  · decide
  · obtain rfl := List.eq_of_mem_replicate hspace
    decide

theorem tokens_ne_nil (value : Json) : value.tokens ≠ [] := by
  cases value with
  | bool value => cases value <;> exact List.cons_ne_nil _ _
  | _ => exact List.cons_ne_nil _ _

/-- White space may stand in front of tokens. -/
theorem inSequence_blank {tokens : List Token} {blank cs : List Char} (hne : tokens ≠ [])
    (hblank : ∀ c ∈ blank, c ∈ blanks) (h : InSequence Token.Written tokens cs) :
    InSequence Token.Written tokens (blank ++ cs) := by
  cases h with
  | nil => exact absurd rfl hne
  | cons hfirst hrest =>
    obtain ⟨hown, hspelled⟩ := hfirst
    rw [← List.append_assoc, ← List.append_assoc]
    refine .cons (.mk (fun c hc => ?_) hspelled) hrest
    rcases List.mem_append.1 hc with hc | hc
    · exact hblank c hc
    · exact hown c hc

/-- A mark on a line of its own. -/
theorem written_newLine (level : Nat) (c : Char) :
    (Token.mark c).Written (newLine level ++ [c]) :=
  .mk (mem_blanks_of_mem_newLine level) (.fixed [c])

theorem inSequence_indentedItems {items : List Json}
    (h : ∀ item ∈ items, ∀ level, InSequence Token.Written item.tokens (item.indented level))
    (level : Nat) :
    InSequence Token.Written (itemTokens false items) (indentedItems level items) := by
  induction items with
  | nil => exact .nil
  | cons item items ih =>
    have hitem := inSequence_blank item.tokens_ne_nil (mem_blanks_of_mem_newLine level)
      (h item List.mem_cons_self level)
    rw [itemTokens, indentedItems]
    exact .cons (Token.written_mark ',')
      (hitem.append (ih fun i hi => h i (List.mem_cons_of_mem _ hi)))

/-- A member on a line of its own, and what follows it. -/
theorem inSequence_indentedMember {value : Json} (name : String) {level : Nat}
    (h : InSequence Token.Written value.tokens (value.indented level)) {more : List Token}
    {cs : List Char} (hmore : InSequence Token.Written more cs) :
    InSequence Token.Written (.string (some name) :: .mark ':' :: (value.tokens ++ more))
      (newLine level ++ writeString (some name) ++ [':', ' '] ++ value.indented level ++ cs) := by
  have hblank : ∀ c ∈ [' '], c ∈ blanks := List.forall_mem_singleton.2 (by decide)
  have hvalue := (inSequence_blank value.tokens_ne_nil hblank h).append hmore
  have hmember := inSequence_blank (List.cons_ne_nil _ _) (mem_blanks_of_mem_newLine level)
    (.cons (Token.written_string name) (.cons (Token.written_mark ':') hvalue))
  simpa only [List.append_assoc, List.cons_append, List.nil_append] using hmember

theorem inSequence_indentedMembers {members : List (Option String × Json)}
    (hkeys : ∀ member ∈ members, member.1.isSome = true)
    (h : ∀ member ∈ members, ∀ level,
      InSequence Token.Written member.2.tokens (member.2.indented level)) (level : Nat) :
    InSequence Token.Written (memberTokens false members) (indentedMembers level members) := by
  induction members with
  | nil => exact .nil
  | cons member members ih =>
    obtain ⟨key, value⟩ := member
    obtain ⟨name, rfl⟩ := Option.isSome_iff_exists.1 (hkeys (key, value) List.mem_cons_self)
    rw [memberTokens, indentedMembers]
    exact .cons (Token.written_mark ',') (inSequence_indentedMember name
      (h (some name, value) List.mem_cons_self level)
      (ih (fun m hm => hkeys m (List.mem_cons_of_mem _ hm))
        (fun m hm => h m (List.mem_cons_of_mem _ hm))))

/-- What is written over several lines are the tokens of the value. -/
theorem inSequence_indented {value : Json} (h : value.Plain) :
    ∀ level, InSequence Token.Written value.tokens (value.indented level) := by
  -- The level is general in the induction, since the items stand one level further in.
  induction h with
  | null => exact fun _ => .single (Token.Spelled.fixed _).written
  | bool value => intro; cases value <;> exact .single (Token.Spelled.fixed _).written
  | number h => exact fun _ => .single (Token.Spelled.number (Number.isLiteral_iff.1 h)).written
  | text text => exact fun _ => .single (Token.written_string text)
  | @array items _ ih =>
    intro level
    cases items with
    | nil => exact .cons (Token.written_mark '[') (.single (Token.written_mark ']'))
    | cons item items =>
      have hitem := inSequence_blank item.tokens_ne_nil (mem_blanks_of_mem_newLine (level + 1))
        (ih item List.mem_cons_self (level + 1))
      have hitems := inSequence_indentedItems
        (fun i hi => ih i (List.mem_cons_of_mem _ hi)) (level + 1)
      have hall := InSequence.cons (Token.written_mark '[')
        ((hitem.append hitems).append (.single (written_newLine level ']')))
      rw [tokens, itemTokens, indented]
      simpa only [commaToken, if_true, List.append_assoc, List.cons_append, List.nil_append]
        using hall
  | @object members hkeys _ ih =>
    intro level
    cases members with
    | nil => exact .cons (Token.written_mark '\x7b') (.single (Token.written_mark '\x7d'))
    | cons member members =>
      obtain ⟨key, value⟩ := member
      obtain ⟨name, rfl⟩ := Option.isSome_iff_exists.1 (hkeys (key, value) List.mem_cons_self)
      have hmembers := inSequence_indentedMembers
        (fun m hm => hkeys m (List.mem_cons_of_mem _ hm))
        (fun m hm => ih m (List.mem_cons_of_mem _ hm)) (level + 1)
      have hall := InSequence.cons (Token.written_mark '\x7b')
        ((inSequence_indentedMember name (ih (some name, value) List.mem_cons_self (level + 1))
          hmembers).append (.single (written_newLine level '\x7d')))
      rw [tokens, memberTokens, indented]
      simpa only [commaToken, if_true, List.append_assoc, List.cons_append, List.nil_append]
        using hall

/-- White space may stand behind a text. -/
theorem Spells.append {value : Json} {cs blank : List Char} (h : value.Spells cs)
    (hblank : ∀ c ∈ blank, c ∈ blanks) : value.Spells (cs ++ blank) := by
  obtain ⟨htokens, hown⟩ := h
  rw [List.append_assoc]
  refine .mk htokens fun c hc => ?_
  rcases List.mem_append.1 hc with hc | hc
  · exact hown c hc
  · exact hblank c hc

/-- **A value over several lines** is one of its texts. -/
theorem spells_indentedText {value : Json} (h : value.Plain) :
    value.Spells value.indentedText.toList := by
  have hspells := @Spells.mk value (value.indented 0) [] (inSequence_indented h 0)
    (fun _ hc => absurd hc List.not_mem_nil)
  rw [List.append_nil] at hspells
  rwa [indentedText, String.toList_ofList]

/-! ### Members in order -/

theorem orderedItems_eq (items : List Json) : orderedItems items = items.map ordered := by
  induction items with
  | nil => rfl
  | cons item items ih => rw [orderedItems, ih, List.map_cons]

theorem orderedMembers_eq (members : List (Option String × Json)) :
    orderedMembers members = members.map fun member => (member.1, member.2.ordered) := by
  induction members with
  | nil => rfl
  | cons member members ih =>
    obtain ⟨key, value⟩ := member
    rw [orderedMembers, ih, List.map_cons]

/-- **Putting members in order** changes nothing but their order. -/
theorem rearranges_ordered : Rearranges ordered := by
  refine ⟨fun _ => rfl, fun ss => ?_, fun members => ⟨_, rfl, ?_⟩⟩
  · rw [ordered, orderedItems_eq, List.map_map]
    exact congrArg Json.array (List.map_congr_left fun _ _ => rfl)
  · refine (List.mergeSort_perm _ _).trans ?_
    rw [orderedMembers_eq, List.map_map]
    exact .refl _

theorem Plain.ordered {value : Json} (h : value.Plain) : value.ordered.Plain := by
  induction h with
  | null => exact .null
  | bool value => exact .bool value
  | number h => exact .number h
  | text text => exact .text text
  | array _ ih =>
    rw [Json.ordered, orderedItems_eq]
    refine .array fun item hitem => ?_
    obtain ⟨own, hown, rfl⟩ := List.mem_map.1 hitem
    exact ih own hown
  | object hkeys _ ih =>
    rw [Json.ordered, orderedMembers_eq]
    refine .object (fun member hmember => ?_) fun member hmember => ?_
    · obtain ⟨own, hown, rfl⟩ := List.mem_map.1 (List.mem_mergeSort.1 hmember)
      exact hkeys own hown
    · obtain ⟨own, hown, rfl⟩ := List.mem_map.1 (List.mem_mergeSort.1 hmember)
      exact ih own hown

end DeviceScope.Json
