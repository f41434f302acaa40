import Fieldbus.Device.Record
import Fieldbus.Object.Identifier

/-!
# The device cache

The last record of each device, in ascending order of the instance numbers.
-/

namespace Fieldbus

/-- Records of devices, in strictly ascending order of their instance numbers. -/
structure DeviceCache where
  records : List DeviceRecord
  deriving DecidableEq, Repr

namespace DeviceCache

/-- The cache without records. -/
def empty : DeviceCache := ⟨[]⟩

/-- Records with one more, in place of the one of the same device. -/
def insertRecord (record : DeviceRecord) : List DeviceRecord → List DeviceRecord
  | [] => [record]
  | other :: rest =>
    if record.device = other.device then record :: rest
    else if record.device < other.device then record :: other :: rest
    else other :: insertRecord record rest

/-- Of one device the inserted record is found, of any other what was found before. -/
theorem find?_insertRecord (record : DeviceRecord) (device : UInt32) (records : List DeviceRecord) :
    (insertRecord record records).find? (fun other => other.device = device) =
      if record.device = device then some record
      else records.find? fun other => other.device = device := by
  induction records with
  | nil => by_cases h : record.device = device <;> simp [insertRecord, h]
  | cons other rest ih =>
    unfold insertRecord
    split
    next same =>
      by_cases h : record.device = device
      · simp [h]
      · simp [h, show ¬ other.device = device from same ▸ h]
    next differ =>
      split
      next => by_cases h : record.device = device <;> simp [h]
      next =>
        by_cases found : other.device = device
        · simp [found, show ¬ record.device = device from found ▸ differ]
        · simp [found, ih]

/-- Whether a record's number is one that a device can have. -/
def accepts (record : DeviceRecord) : Bool := record.device ≤ maxInstance

/-- The cache with a record put in; a record that no device can have changes nothing. -/
def put (cache : DeviceCache) (record : DeviceRecord) : DeviceCache :=
  if accepts record then ⟨insertRecord record cache.records⟩ else cache

/-- The record of a device. -/
def get? (cache : DeviceCache) (device : UInt32) : Option DeviceRecord :=
  cache.records.find? fun record => record.device = device

/-- The station that a device last announced itself from. -/
def mac? (cache : DeviceCache) (device : UInt32) : Option Mac :=
  (cache.get? device).bind DeviceRecord.mac

/-- The number of records. -/
def size (cache : DeviceCache) : Nat := cache.records.length

end DeviceCache

end Fieldbus
