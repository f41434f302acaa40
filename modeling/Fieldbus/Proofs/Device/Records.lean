import Mathlib.Data.Finset.Card
import Mathlib.Data.List.Induction
import Mathlib.Order.Defs.LinearOrder
import Fieldbus.Session.Discovery

/-!
# The last record of each device

Records that are put one after the other into an ascending list stay in ascending order, and of each
device the list has the record that was put in last.

## Main definitions

* `DeviceCache.Ascending`: records in strictly ascending order of their devices.
* `LatestOf`: the last record of each device, in ascending order, and nothing else.

## Main results

* `latestOf_latestRecords`: what is made of the records that were heard.
-/

namespace Fieldbus

namespace DeviceCache

/-- Records in strictly ascending order of their devices. -/
def Ascending (records : List DeviceRecord) : Prop :=
  records.Pairwise fun first second => first.device < second.device

variable {record other : DeviceRecord} {records : List DeviceRecord}

theorem mem_or_eq_of_mem_insertRecord (h : other ∈ insertRecord record records) :
    other = record ∨ other ∈ records := by
  induction records with
  | nil => exact .inl (List.mem_singleton.mp h)
  | cons first rest ih =>
    unfold insertRecord at h
    split at h
    · rcases List.mem_cons.mp h with heq | hrest
      · exact .inl heq
      · exact .inr (List.mem_cons_of_mem _ hrest)
    · split at h
      · exact List.mem_cons.mp h
      · rcases List.mem_cons.mp h with rfl | hrest
        · exact .inr List.mem_cons_self
        · exact (ih hrest).imp_right (List.mem_cons_of_mem _)

theorem Ascending.insertRecord (h : Ascending records) (record : DeviceRecord) :
    Ascending (insertRecord record records) := by
  induction records with
  | nil => exact List.pairwise_singleton _ record
  | cons first rest ih =>
    obtain ⟨hfirst, hrest⟩ := List.pairwise_cons.mp h
    unfold DeviceCache.insertRecord
    split
    · rename_i hsame
      exact List.pairwise_cons.mpr ⟨fun next hnext => hsame ▸ hfirst next hnext, hrest⟩
    · rename_i hdiffer
      split
      · rename_i hless
        refine List.pairwise_cons.mpr ⟨fun next hnext => ?_, h⟩
        rcases List.mem_cons.mp hnext with rfl | hnext
        · exact hless
        · exact UInt32.lt_trans hless (hfirst next hnext)
      · rename_i hnotLess
        have hgreater : first.device < record.device :=
          UInt32.lt_of_le_of_ne (UInt32.not_lt.mp hnotLess) (Ne.symm hdiffer)
        refine List.pairwise_cons.mpr ⟨fun next hnext => ?_, ih hrest⟩
        rcases mem_or_eq_of_mem_insertRecord hnext with rfl | hnext
        · exact hgreater
        · exact hfirst next hnext

theorem Ascending.mem_iff_find? (h : Ascending records) :
    record ∈ records ↔ records.find? (fun other => other.device = record.device) = some record := by
  refine ⟨fun hmem => ?_, List.mem_of_find?_eq_some⟩
  induction records with
  | nil => cases hmem
  | cons first rest ih =>
    obtain ⟨hfirst, hrest⟩ := List.pairwise_cons.mp h
    rcases List.mem_cons.mp hmem with rfl | hmem
    · exact List.find?_cons_of_pos (by simp)
    · have hne : first.device ≠ record.device := UInt32.ne_of_lt (hfirst record hmem)
      rw [List.find?_cons_of_neg (by simpa using hne)]
      exact ih hrest hmem

theorem accepts_of_lt (h : maxInstance < record.device) : accepts record = false :=
  decide_eq_false (UInt32.not_le.mpr h)

/-- A record is found in place of the last one of its device, if the device is one there can be. -/
theorem get?_put (cache : DeviceCache) (record : DeviceRecord) (device : UInt32) :
    (cache.put record).get? device =
      if record.device = device ∧ device ≤ maxInstance then some record else cache.get? device := by
  rw [put, accepts]
  by_cases haccepts : record.device ≤ maxInstance
  · rw [if_pos (decide_eq_true haccepts), get?, find?_insertRecord]
    by_cases hdevice : record.device = device
    · rw [if_pos hdevice, if_pos ⟨hdevice, hdevice ▸ haccepts⟩]
    · rw [if_neg hdevice, if_neg fun hboth => hdevice hboth.1]
      rfl
  · rw [if_neg (by simpa using haccepts), if_neg]
    rintro ⟨rfl, hdevice⟩
    exact haccepts hdevice

theorem put_of_lt (h : maxInstance < record.device) (cache : DeviceCache) :
    cache.put record = cache :=
  if_neg (by rw [accepts_of_lt h]; nofun)

end DeviceCache

/-- The last record of each device among those that were heard, in strictly ascending order of the
devices, and nothing else. -/
structure LatestOf (records heard : List DeviceRecord) : Prop where
  ascending : DeviceCache.Ascending records
  mem_iff : ∀ record, record ∈ records ↔
    (heard.filter fun other => other.device = record.device).getLast? = some record

theorem LatestOf.mem {records heard : List DeviceRecord} {record : DeviceRecord}
    (h : LatestOf records heard) (hrecord : record ∈ records) : record ∈ heard :=
  (List.mem_filter.mp (List.mem_of_getLast? ((h.mem_iff record).mp hrecord))).1

/-- There is one record for each device that was heard. -/
theorem LatestOf.length_eq_card {records heard : List DeviceRecord} (h : LatestOf records heard) :
    records.length = (heard.map DeviceRecord.device).toFinset.card := by
  have hnodup : (records.map DeviceRecord.device).Nodup :=
    List.pairwise_map.mpr (h.ascending.imp UInt32.ne_of_lt)
  have hdevices : (records.map DeviceRecord.device).toFinset =
      (heard.map DeviceRecord.device).toFinset := by
    ext device
    simp only [List.mem_toFinset, List.mem_map]
    constructor
    · rintro ⟨record, hrecord, rfl⟩
      exact ⟨record, h.mem hrecord, rfl⟩
    · rintro ⟨record, hrecord, rfl⟩
      have hne : (heard.filter fun other => other.device = record.device) ≠ [] :=
        List.ne_nil_of_mem (List.mem_filter.mpr ⟨hrecord, by simp⟩)
      obtain ⟨last, hlast⟩ : ∃ last,
          (heard.filter fun other => other.device = record.device).getLast? = some last :=
        ⟨_, List.getLast?_eq_some_getLast hne⟩
      have hdevice : last.device = record.device := by
        simpa using (List.mem_filter.mp (List.mem_of_getLast? hlast)).2
      exact ⟨last, (h.mem_iff last).mpr (hdevice ▸ hlast), hdevice⟩
  rw [← hdevices, List.toFinset_card_of_nodup hnodup, List.length_map]

variable (heard : List DeviceRecord)

theorem latestRecords_concat (record : DeviceRecord) :
    latestRecords (heard ++ [record]) = DeviceCache.insertRecord record (latestRecords heard) := by
  rw [latestRecords, List.foldl_append]
  rfl

theorem ascending_latestRecords : DeviceCache.Ascending (latestRecords heard) := by
  induction heard using List.reverseRecOn with
  | nil => exact .nil
  | append_singleton earlier record ih =>
    rw [latestRecords_concat]
    exact ih.insertRecord record

theorem find?_latestRecords (device : UInt32) :
    (latestRecords heard).find? (fun other => other.device = device) =
      (heard.filter fun other => other.device = device).getLast? := by
  induction heard using List.reverseRecOn with
  | nil => rfl
  | append_singleton earlier record ih =>
    rw [latestRecords_concat, DeviceCache.find?_insertRecord, ih, List.filter_append]
    by_cases hdevice : record.device = device
    · rw [if_pos hdevice, List.filter_cons_of_pos (by simpa using hdevice), List.filter_nil,
        List.getLast?_concat]
    · rw [if_neg hdevice, List.filter_cons_of_neg (by simpa using hdevice), List.filter_nil,
        List.append_nil]

/-- What is made of the records that were heard is the last one of each device. -/
theorem latestOf_latestRecords : LatestOf (latestRecords heard) heard where
  ascending := ascending_latestRecords heard
  mem_iff record := by
    rw [(ascending_latestRecords heard).mem_iff_find?, find?_latestRecords]

end Fieldbus
