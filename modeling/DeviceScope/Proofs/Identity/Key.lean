import DeviceScope.Identity.Basic
import DeviceScope.Proofs.Text.Run
import Mathlib.Data.List.TakeWhile

/-!
# Which keys their ids give back

An id is read by its slashes. A key is plain (`Key.IsPlain`) if the slashes of its id are those of
its kind: not exactly one in the name of a device, and none in the two names of a module. Every id
has exactly one plain key, and this is the one that it is read as (`Key.parse_eq_iff`). So plain
keys are told apart by their ids, and of two keys that meet in one id at most one is plain
(`ids_and_keys_correspond`).
-/

namespace DeviceScope.Identity

namespace Key

/-- **The key is the one that its id is read as**: the name of a device does not hold exactly one
slash, the names of a module hold none. -/
def IsPlain : Key → Prop
  | .device name => name.toList.count slash ≠ 1
  | .module host name => slash ∉ host.toList ∧ slash ∉ name.toList

instance : DecidablePred IsPlain := fun key =>
  match key with
  | .device name => inferInstanceAs (Decidable (name.toList.count slash ≠ 1))
  | .module host name => inferInstanceAs (Decidable (slash ∉ host.toList ∧ slash ∉ name.toList))

/-! ### Reading by slashes -/

theorem ne_slash_of_not_mem {cs : List Char} (h : slash ∉ cs) :
    ∀ c ∈ cs, decide (c ≠ slash) = true := by
  intro c hc
  have hne : c ≠ slash := fun heq => h (heq ▸ hc)
  exact decide_eq_true hne

theorem parseChars_of_not_mem {cs : List Char} (h : slash ∉ cs) :
    parseChars cs = .device (String.ofList cs) := by
  rw [parseChars, List.dropWhile_eq_nil_iff.2 (ne_slash_of_not_mem h)]

/-- What stands before the first slash is cut off, unless another slash follows. -/
theorem parseChars_append_slash {host : List Char} (h : slash ∉ host) (rest : List Char) :
    parseChars (host ++ slash :: rest) =
      if slash ∈ rest then .device (String.ofList (host ++ slash :: rest))
      else .module (String.ofList host) (String.ofList rest) := by
  have hslash : Run.EndsAt (fun c => decide (c ≠ slash)) (slash :: rest) :=
    Run.endsAt_cons (decide_eq_false fun hne => hne rfl)
  rw [parseChars, Run.dropWhile_append (ne_slash_of_not_mem h) hslash,
    Run.takeWhile_append (ne_slash_of_not_mem h) hslash]

theorem count_append_slash {host : List Char} (h : slash ∉ host) (rest : List Char) :
    (host ++ slash :: rest).count slash = rest.count slash + 1 := by
  rw [List.count_append, List.count_eq_zero_of_not_mem h, List.count_cons_self, Nat.zero_add]

/-! ### Plain keys -/

/-- An id is read as a plain key. -/
theorem isPlain_parse (id : String) : (parse id).IsPlain := by
  unfold parse
  by_cases hslash : slash ∈ id.toList
  · obtain ⟨host, rest, hid, hhost⟩ := List.eq_append_cons_of_mem hslash
    rw [hid, parseChars_append_slash hhost]
    split
    · -- A second slash: the id is that of a device.
      next hrest =>
      have hcount := List.count_pos_iff.2 hrest
      rw [IsPlain, String.toList_ofList, count_append_slash hhost]
      omega
    · next hrest =>
      rw [IsPlain, String.toList_ofList, String.toList_ofList]
      exact ⟨hhost, hrest⟩
  · rw [parseChars_of_not_mem hslash, IsPlain, String.toList_ofList,
      List.count_eq_zero_of_not_mem hslash]
    decide

/-- The id of a plain key is read as that key. -/
theorem IsPlain.parse_text {key : Key} (h : key.IsPlain) : parse key.text = key := by
  cases key with
  | device name =>
    rw [text, parse]
    by_cases hslash : slash ∈ name.toList
    · obtain ⟨host, rest, hname, hhost⟩ := List.eq_append_cons_of_mem hslash
      have hrest : slash ∈ rest := by
        rw [IsPlain, hname, count_append_slash hhost] at h
        exact List.count_pos_iff.1 (by omega)
      rw [hname, parseChars_append_slash hhost, if_pos hrest, ← hname, String.ofList_toList]
    · rw [parseChars_of_not_mem hslash, String.ofList_toList]
  | module host name =>
    have htext : (text (.module host name)).toList = host.toList ++ slash :: name.toList := by
      rw [text, String.toList_append, String.toList_append, List.append_assoc]
      rfl
    rw [parse, htext, parseChars_append_slash h.1, if_neg h.2, String.ofList_toList,
      String.ofList_toList]

/-- **An id is read as the one plain key whose id it is.** -/
theorem parse_eq_iff {id : String} {key : Key} :
    parse id = key ↔ key.IsPlain ∧ key.text = id := by
  constructor
  · rintro rfl
    exact ⟨isPlain_parse id, text_parse id⟩
  · rintro ⟨hplain, rfl⟩
    exact hplain.parse_text

/-- Exactly the plain keys are given back by their ids. -/
theorem parse_text_eq_iff {key : Key} : parse key.text = key ↔ key.IsPlain := by
  rw [parse_eq_iff]
  exact and_iff_left rfl

/-- Plain keys are told apart by their ids. -/
theorem IsPlain.text_eq_text_iff {key other : Key} (h : key.IsPlain) (hother : other.IsPlain) :
    key.text = other.text ↔ key = other := by
  constructor
  · intro htext
    rw [← h.parse_text, htext, hother.parse_text]
  · exact congrArg text

end Key

/-- **Ids and keys correspond.** What an id names is written as that id again, and a key is given
back by its id exactly if it is plain. So identities with plain keys have one id exactly if they
have one key, and if two identities share an id without sharing the key, one of the keys is not
plain. -/
theorem ids_and_keys_correspond :
    (∀ id, (Key.parse id).text = id) ∧
    (∀ key : Key, Key.parse key.text = key ↔ key.IsPlain) ∧
    (∀ a b : Identity, a.key.IsPlain → b.key.IsPlain → (a.id = b.id ↔ a.key = b.key)) ∧
    ∀ a b : Identity, a.key ≠ b.key → a.id = b.id → ¬ a.key.IsPlain ∨ ¬ b.key.IsPlain := by
  have hplain : ∀ a b : Identity, a.key.IsPlain → b.key.IsPlain →
      (a.id = b.id ↔ a.key = b.key) := fun a b ha hb => ha.text_eq_text_iff hb
  refine ⟨Key.text_parse, fun key => Key.parse_text_eq_iff, hplain, fun a b hkey hid => ?_⟩
  by_cases ha : a.key.IsPlain
  · exact .inr fun hb => hkey ((hplain a b ha hb).1 hid)
  · exact .inl ha

/-- The keys of a gateway and of a module on it are plain, and so their ids differ. A device with a
slash in its name shares its id with a module, but its own key is not plain. -/
theorem ids_and_keys_correspond_shared :
    let gateway := ofDevice "gate" "1" .none .enabled
    let module := ofModule "gate" "m1" "1" .none .enabled
    let slashed := ofDevice "gate/m1" "1" .none .enabled
    gateway.key.IsPlain ∧ module.key.IsPlain ∧ ¬ slashed.key.IsPlain ∧ gateway.id ≠ module.id ∧
      Key.parse module.id = module.key ∧ slashed.id = module.id ∧ slashed.key ≠ module.key ∧
      (¬ slashed.key.IsPlain ∨ ¬ module.key.IsPlain) := by
  intro gateway module slashed
  obtain ⟨-, hback, hplain, hshared⟩ := ids_and_keys_correspond
  have hgateway : gateway.key.IsPlain := by decide
  have hmodule : module.key.IsPlain := by decide
  have hid : slashed.id = module.id := by decide
  have hkey : slashed.key ≠ module.key := by decide
  have hdiffer : gateway.id ≠ module.id := by
    intro hsame
    exact absurd ((hplain gateway module hgateway hmodule).1 hsame) (by decide)
  exact ⟨hgateway, hmodule, by decide, hdiffer, (hback module.key).2 hmodule, hid, hkey,
    hshared slashed module hkey hid⟩

end DeviceScope.Identity
