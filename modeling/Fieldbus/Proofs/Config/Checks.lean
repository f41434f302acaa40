import Mathlib.Data.List.Nodup
import Fieldbus.Config.Basic
import Fieldbus.Proofs.Text.Spelling

/-!
# Checks of the settings

The settings of a session are checked one condition after the other, and the first that does not
hold is the one refused.  The checks bound every number that is to become a smaller one, so what
passes them comes to the link and to the local device as it was set.

## Main definitions

* `Segmentation.IsNamed`: what a text has to be to name a segmentation.
* `Config.Check`: the conditions that are checked, and what refuses settings that violate them.
* `Config.fault?`: the first condition that settings violate.
* `Config.Carries`: link parameters and an identity that have what is set.

## Main results

* `Segmentation.ofName?_eq_some_iff`: the names of segmentations are read as what they name.
* `Config.resolve_eq`: settings are refused for their first fault.
* `Config.carries`: settings without a fault are carried over as they are.
-/

namespace Fieldbus

open Fieldbus.Text

/-! ### Names of segmentations -/

namespace Segmentation

/-- All capabilities. -/
def all : List Segmentation := [.both, .transmit, .receive, .none]

/-- The short name. -/
def word : Segmentation → String
  | .both => "both"
  | .transmit => "transmit"
  | .receive => "receive"
  | .none => "none"

/-- Whether a text, in whatever spelling, is the canonical name or the short one. -/
def IsNamed (segmentation : Segmentation) (name : String) : Prop :=
  Name.fold name = Name.fold segmentation.text ∨ Name.fold name = segmentation.word.toList

instance (segmentation : Segmentation) (name : String) : Decidable (segmentation.IsNamed name) :=
  inferInstanceAs (Decidable (_ ∨ _))

theorem mem_all (segmentation : Segmentation) : segmentation ∈ all := by
  cases segmentation <;> decide

theorem nodup_foldedNames : (foldedNames.map fun entry => entry.1.toList).Nodup := by decide

theorem isNamed_of_mem_foldedNames : ∀ entry ∈ foldedNames,
    entry.1.toList = Name.fold entry.2.text ∨ entry.1.toList = entry.2.word.toList := by decide

theorem mem_foldedNames (segmentation : Segmentation) :
    (String.ofList (Name.fold segmentation.text), segmentation) ∈ foldedNames ∧
      (segmentation.word, segmentation) ∈ foldedNames := by
  cases segmentation <;> decide

/-- **A text is read as the segmentation that it names**, and no other text is read. -/
theorem ofName?_eq_some_iff {name : String} {segmentation : Segmentation} :
    ofName? name = some segmentation ↔ segmentation.IsNamed name := by
  constructor
  · intro h
    obtain ⟨entry, hfound, rfl⟩ := Option.map_eq_some_iff.mp h
    have hkey : entry.1.toList = Name.fold name := by simpa using List.find?_some hfound
    rw [IsNamed, ← hkey]
    exact isNamed_of_mem_foldedNames entry (List.mem_of_find?_eq_some hfound)
  · intro h
    obtain ⟨key, hkey, hentry⟩ : ∃ key : String, key.toList = Name.fold name ∧
        (key, segmentation) ∈ foldedNames := by
      obtain ⟨hcanonical, hshort⟩ := mem_foldedNames segmentation
      rcases h with h | h
      · exact ⟨_, String.toList_ofList.trans h.symm, hcanonical⟩
      · exact ⟨_, h.symm, hshort⟩
    cases hfound : foldedNames.find? fun entry => entry.1.toList = Name.fold name with
    | none => exact absurd (decide_eq_true hkey) (List.find?_eq_none.mp hfound _ hentry)
    | some other =>
      have hother : other.1.toList = Name.fold name := by simpa using List.find?_some hfound
      have hsame := List.inj_on_of_nodup_map nodup_foldedNames
        (List.mem_of_find?_eq_some hfound) hentry (hother.trans hkey.symm)
      rw [ofName?, hfound, hsame, Option.map_some]

end Segmentation

namespace Config

/-! ### The checks -/

/-- The conditions that settings are checked for, named for the setting. -/
inductive Check where
  /-- There is an address. -/
  | address
  | interface
  /-- The address is that of a single station. -/
  | station
  | maxMasters
  | maxInfoFrames
  | baudrate
  | instanceNumber
  | apduTimeout
  | pollInterval
  | segmentation
  deriving DecidableEq, Repr

namespace Check

/-- The order in which the conditions are checked. -/
def inOrder : List Check :=
  [.address, .interface, .station, .maxMasters, .maxInfoFrames, .baudrate, .instanceNumber,
   .apduTimeout, .pollInterval, .segmentation]

/-- Whether settings meet a condition. -/
def Holds (config : Config) : Check → Prop
  | .address => config.link.address.isSome = true
  | .interface =>
    ∃ interface ∈ config.link.interface, (interface.toList.any fun c => !isBlank c) = true
  | .station => ∀ address ∈ config.link.address, address.toNat ≤ 254
  | .maxMasters => config.link.maxMasters.toNat ≤ 127
  | .maxInfoFrames => 1 ≤ config.link.maxInfoFrames.toNat ∧ config.link.maxInfoFrames.toNat ≤ 255
  | .baudrate => config.link.baudrate.toNat ≠ 0
  | .instanceNumber => config.device.instanceNumber.toNat ≤ 4194303
  | .apduTimeout => config.timing.apduTimeout.toNat ≠ 0
  | .pollInterval => config.timing.pollInterval.toNat ≠ 0
  | .segmentation =>
    ∃ segmentation ∈ Segmentation.all, segmentation.IsNamed config.device.segmentation

instance (config : Config) : DecidablePred (Holds config)
  | .address => inferInstanceAs (Decidable (_ = true))
  -- by name, since a search may as well come to go through all texts and numbers
  | .interface => Option.decidableExistsMem config.link.interface
  | .station => Option.decidableForallMem config.link.address
  | .maxMasters => inferInstanceAs (Decidable (_ ≤ _))
  | .maxInfoFrames => inferInstanceAs (Decidable (_ ∧ _))
  | .baudrate => inferInstanceAs (Decidable (_ ≠ _))
  | .instanceNumber => inferInstanceAs (Decidable (_ ≤ _))
  | .apduTimeout => inferInstanceAs (Decidable (_ ≠ _))
  | .pollInterval => inferInstanceAs (Decidable (_ ≠ _))
  | .segmentation => inferInstanceAs (Decidable (∃ _ ∈ Segmentation.all, _))

/-- Why settings that violate a condition are refused. -/
def error (config : Config) : Check → ConfigError
  | .address => .missingAddress
  | .interface => .missingInterface
  -- an address that is not set does not violate the condition
  | .station => .address (config.link.address.getD 0)
  | .maxMasters => .maxMasters config.link.maxMasters
  | .maxInfoFrames => .maxInfoFrames config.link.maxInfoFrames
  | .baudrate => .zeroBaudrate
  | .instanceNumber => .instanceNumber config.device.instanceNumber
  | .apduTimeout => .zeroApduTimeout
  | .pollInterval => .zeroPollInterval
  | .segmentation => .segmentation config.device.segmentation

/-- Refuses settings that violate a condition. -/
def run (check : Check) (config : Config) : Except ConfigError Unit :=
  require (check.Holds config) (check.error config)

theorem mem_inOrder (check : Check) : check ∈ inOrder := by cases check <;> decide

end Check

/-- The first condition that settings violate. -/
def fault? (config : Config) : Option Check :=
  Check.inOrder.find? fun check => ¬ check.Holds config

theorem fault?_eq_none_iff {config : Config} :
    config.fault? = none ↔ ∀ check : Check, check.Holds config := by
  rw [fault?, List.find?_eq_none]
  simp [Check.mem_inOrder]

/-- Checks one after the other come to what the first of them says that does not hold. -/
theorem forM_run (config : Config) (checks : List Check) :
    forM checks (Check.run · config) =
      match checks.find? fun check => ¬ check.Holds config with
      | none => .ok ()
      | some check => .error (check.error config) := by
  induction checks with
  | nil => rfl
  | cons check rest ih =>
    rw [List.forM_cons, Check.run, require]
    by_cases h : check.Holds config
    · rw [List.find?_cons_of_neg (by simpa using h), if_pos (decide_eq_true h), ← ih]
      rfl
    · rw [List.find?_cons_of_pos (by simpa using h), if_neg (by simpa using h)]
      rfl

/-! ### What is resolved -/

/-- The link parameters that are set. -/
def parameters (config : Config) : LinkParameters where
  mac := (config.link.address.getD 0).toUInt8
  interface := config.link.interface.getD ""
  baudrate := config.link.baudrate
  maxMasters := config.link.maxMasters.toUInt8
  maxInfoFrames := config.link.maxInfoFrames.toUInt8

/-- The identity that is set. -/
def identity (config : Config) : LocalDevice where
  id := ⟨.device, config.device.instanceNumber⟩
  name := config.device.name
  maxApdu := config.device.maxApdu
  segmentation := (Segmentation.ofName? config.device.segmentation).getD .none
  vendor := config.device.vendor

variable {config : Config}

/-- A requirement that means a condition is the check of the condition. -/
theorem require_eq_run {condition : Bool} (check : Check)
    (h : condition = true ↔ check.Holds config) :
    require condition (check.error config) = check.run config := by
  rw [Check.run, Bool.eq_iff_iff.mpr (h.trans decide_eq_true_iff.symm)]

theorem isFilled_iff {text : String} :
    isFilled text = true ↔ (text.toList.any fun c => !isBlank c) = true := by
  rw [isFilled, Bool.not_eq_true', List.isEmpty_eq_false_iff, ne_eq, trim_eq_nil_iff]
  simp

/-- A setting that is read where it meets a condition is one that is checked. -/
theorem eq_run_of_elim {α : Type} {read : Except ConfigError α} {check : Check} {set : α}
    (found? : Option α) (hread : read = found?.elim (.error (check.error config)) .ok)
    (hholds : check.Holds config ↔ found?.isSome = true) (hset : ∀ found ∈ found?, found = set) :
    read = do
      check.run config
      return set := by
  subst hread
  cases found? with
  | none => simp [Check.run, require, hholds, Bind.bind, Except.bind]
  | some found =>
    obtain rfl := hset found rfl
    simp [Check.run, require, hholds]

theorem address_eq (config : Config) :
    config.address = do
      Check.address.run config
      return config.link.address.getD 0 := by
  refine eq_run_of_elim config.link.address ?_ Iff.rfl fun address haddress => ?_
  · rw [address]
    cases config.link.address <;> rfl
  · rw [Option.mem_def.mp haddress, Option.getD_some]

theorem interface_eq (config : Config) :
    config.interface = do
      Check.interface.run config
      return config.link.interface.getD "" := by
  refine eq_run_of_elim (config.link.interface.filter isFilled) ?_ ?_
    fun interface hinterface => ?_
  · rw [interface]
    cases config.link.interface.filter isFilled <;> rfl
  · simp only [Check.Holds, ← isFilled_iff, Option.isSome_filter, Option.any_eq_true,
      Option.mem_def]
  · rw [(Option.filter_eq_some_iff.mp hinterface).1, Option.getD_some]

theorem segmentation_eq (config : Config) :
    config.segmentation = do
      Check.segmentation.run config
      return (Segmentation.ofName? config.device.segmentation).getD .none := by
  refine eq_run_of_elim (Segmentation.ofName? config.device.segmentation) ?_ ?_
    fun segmentation hsegmentation => ?_
  · rw [segmentation]
    cases Segmentation.ofName? config.device.segmentation <;> rfl
  · simp only [Check.Holds, ← Segmentation.ofName?_eq_some_iff, Segmentation.mem_all, true_and,
      Option.isSome_iff_exists]
  · rw [Option.mem_def.mp hsegmentation, Option.getD_some]

/-- The settings are resolved once all conditions have been checked. -/
theorem resolve_eq_forM_run (config : Config) :
    config.resolve = do
      forM Check.inOrder (Check.run · config)
      return (config.parameters, config.identity) := by
  have hbelow : config.link.address.getD 0 < 255 ↔ Check.station.Holds config := by
    rw [UInt32.lt_iff_toNat_lt, Check.Holds]
    cases config.link.address with
    | none => simp
    | some address => simp [Nat.lt_succ_iff]
  have hstation : require (config.link.address.getD 0 < 255)
      (.address (config.link.address.getD 0)) = Check.station.run config :=
    require_eq_run .station (decide_eq_true_iff.trans hbelow)
  have hmaxMasters : require (config.link.maxMasters ≤ 127)
      (.maxMasters config.link.maxMasters) = Check.maxMasters.run config :=
    require_eq_run .maxMasters (decide_eq_true_iff.trans UInt32.le_iff_toNat_le)
  have hmaxInfoFrames : require (1 ≤ config.link.maxInfoFrames && config.link.maxInfoFrames ≤ 255)
      (.maxInfoFrames config.link.maxInfoFrames) = Check.maxInfoFrames.run config :=
    require_eq_run .maxInfoFrames ((Bool.and_eq_true _ _).to_iff.trans (and_congr
      (decide_eq_true_iff.trans UInt32.le_iff_toNat_le)
      (decide_eq_true_iff.trans UInt32.le_iff_toNat_le)))
  have hbaudrate : require (config.link.baudrate != 0) .zeroBaudrate = Check.baudrate.run config :=
    require_eq_run .baudrate (bne_iff_ne.trans (not_congr UInt32.toNat_inj.symm))
  have hinstance : require (config.device.instanceNumber ≤ maxInstance)
      (.instanceNumber config.device.instanceNumber) = Check.instanceNumber.run config :=
    require_eq_run .instanceNumber (decide_eq_true_iff.trans UInt32.le_iff_toNat_le)
  have hapduTimeout : require (config.timing.apduTimeout != 0) .zeroApduTimeout =
      Check.apduTimeout.run config :=
    require_eq_run .apduTimeout (bne_iff_ne.trans (not_congr UInt64.toNat_inj.symm))
  have hpollInterval : require (config.timing.pollInterval != 0) .zeroPollInterval =
      Check.pollInterval.run config :=
    require_eq_run .pollInterval (bne_iff_ne.trans (not_congr UInt64.toNat_inj.symm))
  rw [resolve, address_eq, interface_eq, segmentation_eq]
  simp only [Check.inOrder, List.forM_cons, List.forM_nil, bind_assoc, pure_bind, hstation,
    hmaxMasters, hmaxInfoFrames, hbaudrate, hinstance, hapduTimeout, hpollInterval]
  rfl

/-- **Settings are refused for their first fault**, and without one they are resolved. -/
theorem resolve_eq (config : Config) :
    config.resolve =
      match config.fault? with
      | none => .ok (config.parameters, config.identity)
      | some check => .error (check.error config) := by
  rw [resolve_eq_forM_run, forM_run, fault?]
  split <;> rfl

theorem resolve_eq_ok_iff {resolved : LinkParameters × LocalDevice} :
    config.resolve = .ok resolved ↔
      (∀ check : Check, check.Holds config) ∧ resolved = (config.parameters, config.identity) := by
  rw [resolve_eq, ← fault?_eq_none_iff]
  cases config.fault? with
  | none => simp [eq_comm]
  | some check => simp

theorem resolve_eq_error_iff {error : ConfigError} :
    config.resolve = .error error ↔
      ∃ check, config.fault? = some check ∧ error = check.error config := by
  rw [resolve_eq]
  cases config.fault? with
  | none => simp
  | some check => simp [eq_comm]

/-! ### Nothing is lost -/

/-- Whether link parameters and an identity have the numbers and the texts that are set, and the
segmentation that is named. -/
structure Carries (config : Config) (parameters : LinkParameters) (identity : LocalDevice) :
    Prop where
  mac : ∃ address, config.link.address = some address ∧ parameters.mac.toNat = address.toNat
  interface : config.link.interface = some parameters.interface
  baudrate : parameters.baudrate = config.link.baudrate
  maxMasters : parameters.maxMasters.toNat = config.link.maxMasters.toNat
  maxInfoFrames : parameters.maxInfoFrames.toNat = config.link.maxInfoFrames.toNat
  id : identity.id = ⟨.device, config.device.instanceNumber⟩
  name : identity.name = config.device.name
  maxApdu : identity.maxApdu = config.device.maxApdu
  vendor : identity.vendor = config.device.vendor
  segmentation : ∀ segmentation : Segmentation,
    segmentation.IsNamed config.device.segmentation ↔ segmentation = identity.segmentation

theorem toNat_toUInt8 {number : UInt32} (h : number.toNat ≤ 255) :
    number.toUInt8.toNat = number.toNat := by
  rw [UInt32.toNat_toUInt8]
  exact Nat.mod_eq_of_lt (by omega)

/-- **Settings without a fault are carried over as they are.** -/
theorem carries (h : ∀ check : Check, check.Holds config) :
    config.Carries config.parameters config.identity := by
  obtain ⟨address, haddress⟩ := Option.isSome_iff_exists.mp (h .address)
  obtain ⟨interface, hinterface, -⟩ := h .interface
  obtain ⟨segmentation, -, hsegmentation⟩ := h .segmentation
  have hstation : address.toNat ≤ 254 := h .station address haddress
  have hmasters : config.link.maxMasters.toNat ≤ 127 := h .maxMasters
  refine ⟨⟨address, haddress, ?_⟩, ?_, rfl, toNat_toUInt8 (by omega), toNat_toUInt8
    (h .maxInfoFrames).2, rfl, rfl, rfl, rfl, fun other => ?_⟩
  · rw [parameters, haddress]
    exact toNat_toUInt8 (Nat.le_succ_of_le hstation)
  · rw [parameters, Option.mem_def.mp hinterface, Option.getD_some]
  · have hnamed := Segmentation.ofName?_eq_some_iff.mpr hsegmentation
    rw [← Segmentation.ofName?_eq_some_iff, identity, hnamed, Option.getD_some, Option.some.injEq,
      eq_comm]

end Config

end Fieldbus
