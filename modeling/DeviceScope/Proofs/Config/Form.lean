import DeviceScope.Config.Form
import DeviceScope.Proofs.Time.SpanText
import DeviceScope.Proofs.Toml.Document

/-!
# Written configurations are read back

The document of a configuration has a line for each setting (`Config.settings`). Read back, each
line gives its setting again: the spans to the nanosecond, since written spans are, and the capacity
because every number of 64 bits is an integer that documents can hold. A timeout that is absent has
no line, and absent is also what it is where no line says otherwise.

What has been read must still be valid. `Config.ofToml_toToml` says that this check is all that
stands between writing and reading.
-/

namespace DeviceScope.Config

open Toml (IsBareKey Setting Spells)

/-! ### The lines of a document -/

theorem spells_span (span : Span) :
    Spells ('"' :: (span.chars ++ ['"'])) (.string span.toText) := by
  refine Spells.quoted (fun c hc => ?_) span.chars_ne_nil
  rcases Span.mem_chars hc with hletter | rfl
  · exact Toml.Quoted.isDirect_of_isAlphanum hletter
  · exact Toml.Quoted.isDirect_space

theorem spells_count (count : UInt64) :
    Spells (Decimal.digits count.toNat) (.integer count.toNat) :=
  Spells.decimal (Nat.lt_trans count.toNat_lt (by decide))

/-- The names of the settings. -/
def keys : List String :=
  ["refresh_rate", "refresh_delay", "cycle_timeout", "notification_capacity"]

theorem isBareKey_of_mem {key : String} (h : key ∈ keys) : IsBareKey key := by
  simp only [keys, List.mem_cons, List.not_mem_nil, or_false] at h
  rcases h with rfl | rfl | rfl | rfl <;> exact ⟨by decide, List.all_eq_true.1 (by decide)⟩

/-- The line of a span. -/
def spanSetting (key : String) (hkey : key ∈ keys) (span : Span) : Setting :=
  ⟨key, '"' :: (span.chars ++ ['"']), .string span.toText, isBareKey_of_mem hkey,
    spells_span span⟩

/-- The line of a number. -/
def countSetting (key : String) (hkey : key ∈ keys) (count : UInt64) : Setting :=
  ⟨key, Decimal.digits count.toNat, .integer count.toNat, isBareKey_of_mem hkey,
    spells_count count⟩

/-- **The lines of the document of a configuration.** -/
def settings (config : Config) : List Setting :=
  spanSetting "refresh_rate" (by decide) config.refreshRate ::
  spanSetting "refresh_delay" (by decide) config.refreshDelay ::
  ((config.cycleTimeout.map (spanSetting "cycle_timeout" (by decide))).toList ++
    [countSetting "notification_capacity" (by decide) config.capacity])

theorem spanLine_toList {key : String} (hkey : key ∈ keys) (span : Span) :
    (spanLine key span).toList = (spanSetting key hkey span).chars := by
  simp [spanLine, spanSetting, Setting.chars, Span.toText]

theorem toToml_toList (config : Config) :
    config.toToml.toList = config.settings.flatMap Setting.chars := by
  have hrate := @spanLine_toList "refresh_rate" (by decide) config.refreshRate
  have hdelay := @spanLine_toList "refresh_delay" (by decide) config.refreshDelay
  have htimeout := @spanLine_toList "cycle_timeout" (by decide)
  cases htime : config.cycleTimeout <;>
    simp [toToml, settings, htime, hrate, hdelay, htimeout, countSetting, Setting.chars,
      Decimal.text]

theorem settings_nodup (config : Config) : (config.settings.map Setting.key).Nodup := by
  -- The keys come in the order of their list, with or without the one of the timeout.
  have hkeys : (config.settings.map Setting.key).Sublist keys := by
    cases htime : config.cycleTimeout <;>
      simp [settings, htime, keys, spanSetting, countSetting]
  exact hkeys.nodup (by decide)

/-- **The members of the document of a configuration**: the spans as texts, the capacity as a
number, and no member for an absent timeout. -/
def members (config : Config) : Toml.Members :=
  ("refresh_rate", .string config.refreshRate.toText) ::
  ("refresh_delay", .string config.refreshDelay.toText) ::
  ((config.cycleTimeout.map fun span => ("cycle_timeout", .string span.toText)).toList ++
    [("notification_capacity", .integer config.capacity.toNat)])

theorem settings_map_member (config : Config) :
    config.settings.map Setting.member = config.members := by
  cases htime : config.cycleTimeout <;>
    simp [settings, members, htime, Setting.member, spanSetting, countSetting]

/-! ### Reading the lines -/

/-- The document holds its members. -/
theorem ofText?_toToml (config : Config) : Toml.ofText? config.toToml = some config.members := by
  rw [Toml.ofText?, toToml_toList, ← settings_map_member]
  exact Toml.ofChars?_settings config.settings_nodup

theorem spanOf?_toText (span : Span) : spanOf? (.string span.toText) = some span :=
  Span.ofText?_toText span

theorem countOf?_toNat (count : UInt64) : countOf? (.integer count.toNat) = some count := by
  have hbounds : (0 : Int) ≤ count.toNat ∧ (count.toNat : Int) < UInt64.size :=
    ⟨Int.natCast_nonneg _, Int.ofNat_lt.2 count.toNat_lt⟩
  rw [countOf?, if_pos hbounds, Int.toNat_natCast, UInt64.ofNat_toNat]

theorem ofMembers?_members (config : Config) : ofMembers? config.members = some config := by
  cases config with
  | mk rate delay timeout capacity =>
    cases timeout <;>
      simp [ofMembers?, setting?, members, List.lookup_cons, spanOf?_toText, countOf?_toNat,
        standard]

/-- **Only the check stands between writing and reading.** -/
theorem ofToml_toToml (config : Config) :
    ofToml config.toToml = config.validate.map fun _ => config := by
  have hread : (Toml.ofText? config.toToml >>= ofMembers?) = some config := by
    rw [ofText?_toToml]
    exact config.ofMembers?_members
  rw [ofToml, hread]

/-! ### Valid configurations -/

/-- **A valid configuration.** How often records are reconciled, a timeout if there is one, and the
number of notifications kept are not zero; nothing is asked of the age of the records. -/
structure IsValid (config : Config) : Prop where
  refreshes : 0 < config.refreshRate.nanos
  waits : ∀ span ∈ config.cycleTimeout, 0 < span.nanos
  notifies : 0 < config.capacity

theorem not_isZero_iff (span : Span) : ¬ span.isZero = true ↔ 0 < span.nanos := by
  rw [Span.isZero, decide_eq_true_eq, Nat.pos_iff_ne_zero]

theorem validate_eq_ok_iff (config : Config) : config.validate = .ok () ↔ config.IsValid := by
  have htimeout : ¬ config.cycleTimeout.any Span.isZero = true ↔
      ∀ span ∈ config.cycleTimeout, 0 < span.nanos := by
    simp only [Option.any_eq_true, not_exists, not_and, not_isZero_iff, Option.mem_def]
  have hcapacity : ¬ config.capacity = 0 ↔ 0 < config.capacity := UInt64.pos_iff_ne_zero.symm
  constructor
  · intro h
    unfold validate at h
    split at h
    · cases h
    next hrate =>
    split at h
    · cases h
    next hwait =>
    split at h
    · cases h
    next hkept =>
    exact ⟨(not_isZero_iff _).1 hrate, htimeout.1 hwait, hcapacity.1 hkept⟩
  · intro h
    rw [validate, if_neg ((not_isZero_iff _).2 h.refreshes), if_neg (htimeout.2 h.waits),
      if_neg (hcapacity.2 h.notifies)]

/-- **Configuration round trip.** Those configurations are accepted that are valid. Each is written
as a document that holds its settings, the spans as texts, and an accepted one is read back from its
document as it was. -/
theorem accepted_are_read_back (config : Config) :
    (config.validate = .ok () ↔ config.IsValid) ∧
      Toml.ofText? config.toToml = some config.members ∧
      (config.validate = .ok () → ofToml config.toToml = .ok config) := by
  refine ⟨config.validate_eq_ok_iff, config.ofText?_toToml, fun hvalid => ?_⟩
  rw [ofToml_toToml, hvalid]
  rfl

/-- The greatest and the least values: the longest span between reconciliations, records that age at
once, a timeout of a nanosecond, and as many notifications as 64 bits can count. -/
theorem accepted_are_read_back_at_limits :
    let config : Config :=
      ⟨⟨Span.limit - 1, by decide⟩, .zero, some ⟨1, by decide⟩, 18446744073709551615⟩
    config.validate = .ok () ∧ ofToml config.toToml = .ok config :=
  ⟨rfl, (accepted_are_read_back _).2.2 rfl⟩

end DeviceScope.Config
