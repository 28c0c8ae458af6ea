import AziotOta.Machine

/-!
# The in-storage upgrade state

`OTA_NonVolatileImageUpgradeState_t` is stored under one key as its `sizeof` bytes, laid out
under the ARM EABI (`bool` and `char` one byte, `struct image_version` and `uint32_t` aligned
to four). A record is held as those bytes and each field is read at its offset; a `bool`
field reads as true when its byte is not zero.
-/

namespace AziotOta

/-- `INSTALLEDCRITERIA_MAXCHAR`. -/
def installedCriteriaMaxchar : Nat := 64

/-- `sizeof(OTA_NonVolatileImageUpgradeState_t)`. -/
def nvRecordSize : Nat := 152

/-- `offsetof(OTA_NonVolatileImageUpgradeState_t, reserved)`. -/
def offsetofReserved : Nat := 80

def offsetofStageVersion : Nat := 4
def offsetofInstallRebootedValid : Nat := 12
def offsetofInstallRebooted : Nat := 13
def offsetofStageInstalledCriteriaValid : Nat := 14
def offsetofStageInstalledCriteria : Nat := 15
def offsetofPersistentInstalledCriteriaValid : Nat := 84
def offsetofPersistentInstalledCriteria : Nat := 85

/-- `OTA_NonVolatileImageUpgradeState_t`, as the bytes `kv_set` stores:

| bytes      | field                                    |
|------------|------------------------------------------|
| 0          | `stageVersion_valid`                     |
| 4 .. 12    | `stageVersion`                           |
| 12, 13     | `installRebooted_valid`, `installRebooted` |
| 14         | `stageInstalledCriteria_valid`           |
| 15 .. 80   | `stageInstalledCriteria[65]`             |
| 80 .. 84   | `reserved`                               |
| 84         | `persistentInstalledCriteria_valid`      |
| 85 .. 150  | `persistentInstalledCriteria[65]`        |

with padding at 1 .. 4 and 150 .. 152. -/
structure NvRecord where
  bytes : List UInt8
  length_eq : bytes.length = nvRecordSize
  deriving DecidableEq

namespace NvRecord

/-- A blob of the right size, as `nvImgUpgSt_getAll` accepts it. -/
def ofBytes? (b : List UInt8) : Option NvRecord :=
  if h : b.length = nvRecordSize then some ⟨b, h⟩ else none

/-- The all-zero record: `memset(&state, 0, sizeof(state))`. -/
def zero : NvRecord := ⟨zeros nvRecordSize, length_zeros _⟩

/-- A `memcpy` into the record. The code only writes inside the record; `write` leaves the
record alone for a write that would not fit. -/
def write (r : NvRecord) (pos : Nat) (src : List UInt8) : NvRecord :=
  if h : pos + src.length ≤ nvRecordSize then
    ⟨writeAt r.bytes pos src, by rw [length_writeAt (by rw [r.length_eq]; exact h), r.length_eq]⟩
  else r

/-- A `bool` field: true when its byte is not zero. -/
def flag (r : NvRecord) (off : Nat) : Bool := r.bytes.getD off 0 != 0

def stageVersionValid (r : NvRecord) : Bool := r.flag 0

def stageVersion (r : NvRecord) : ImageVersion :=
  ⟨readAt r.bytes offsetofStageVersion 8, length_readAt_of_le (by
    rw [r.length_eq]; decide)⟩

def installRebootedValid (r : NvRecord) : Bool := r.flag offsetofInstallRebootedValid

def installRebooted (r : NvRecord) : Bool := r.flag offsetofInstallRebooted

def stageInstalledCriteriaValid (r : NvRecord) : Bool := r.flag offsetofStageInstalledCriteriaValid

/-- The array `stageInstalledCriteria[INSTALLEDCRITERIA_MAXCHAR + 1]`. -/
def stageInstalledCriteria (r : NvRecord) : List UInt8 :=
  readAt r.bytes offsetofStageInstalledCriteria (installedCriteriaMaxchar + 1)

def persistentInstalledCriteriaValid (r : NvRecord) : Bool :=
  r.flag offsetofPersistentInstalledCriteriaValid

/-- The array `persistentInstalledCriteria[INSTALLEDCRITERIA_MAXCHAR + 1]`. -/
def persistentInstalledCriteria (r : NvRecord) : List UInt8 :=
  readAt r.bytes offsetofPersistentInstalledCriteria (installedCriteriaMaxchar + 1)

/-- `memset(&state, 0, offsetof(OTA_NonVolatileImageUpgradeState_t, reserved))`. -/
def zeroPrefix (r : NvRecord) : NvRecord := r.write 0 (zeros offsetofReserved)

theorem write_bytes {r : NvRecord} {pos : Nat} {src : List UInt8}
    (h : pos + src.length ≤ nvRecordSize) : (r.write pos src).bytes = writeAt r.bytes pos src := by
  simp [write, h]

theorem ofBytes?_bytes (r : NvRecord) : ofBytes? r.bytes = some r := by
  simp [ofBytes?, r.length_eq]

theorem ofBytes?_eq_some {b : List UInt8} {r : NvRecord} : ofBytes? b = some r ↔ r.bytes = b := by
  unfold ofBytes?
  split
  · constructor
    · rintro ⟨⟩; rfl
    · intro h; cases r; subst h; rfl
  · constructor
    · rintro ⟨⟩
    · intro h; rename_i hl; exact absurd (h ▸ r.length_eq) hl

/-- A `memcpy` leaves the flags outside the range it writes. -/
theorem flag_write_of_disjoint {r : NvRecord} {pos off : Nat} {src : List UInt8}
    (h : off < pos ∨ pos + src.length ≤ off) : (r.write pos src).flag off = r.flag off := by
  unfold write
  split
  · rename_i hfit
    have hfit' : pos + src.length ≤ r.bytes.length := by rw [r.length_eq]; exact hfit
    simp only [flag, List.getD_eq_getElem?_getD, getElem?_writeAt hfit', if_neg (show
      ¬(pos ≤ off ∧ off < pos + src.length) by omega)]
  · rfl

/-- Setting a `bool` field. -/
theorem flag_write_single {r : NvRecord} {pos : Nat} (b : UInt8) (h : pos < nvRecordSize) :
    (r.write pos [b]).flag pos = (b != 0) := by
  have hfit : pos + [b].length ≤ r.bytes.length := by simp [r.length_eq]; omega
  simp [flag, write, show pos + 1 ≤ nvRecordSize by omega, List.getD_eq_getElem?_getD,
    getElem?_writeAt hfit]

/-- A flag inside a `memset` to zero reads false. -/
theorem flag_write_zeros {r : NvRecord} {pos off n : Nat} (hp : pos ≤ off) (ho : off < pos + n)
    (hn : pos + n ≤ nvRecordSize) : (r.write pos (zeros n)).flag off = false := by
  have hfit : pos + (zeros n).length ≤ r.bytes.length := by simp [r.length_eq]; omega
  rw [flag, write_bytes (by simpa using hn), List.getD_eq_getElem?_getD, getElem?_writeAt hfit,
    if_pos (by simp; omega)]
  simp [zeros, List.getElem?_replicate, show off - pos < n by omega]

theorem readAt_write_of_inside {r : NvRecord} {pos q n : Nat} {src : List UInt8} (hp : pos ≤ q)
    (hn : q + n ≤ pos + src.length) (hl : pos + src.length ≤ nvRecordSize) :
    readAt (r.write pos src).bytes q n = readAt src (q - pos) n := by
  rw [write_bytes hl]
  exact readAt_writeAt_of_inside hp hn (by rw [r.length_eq]; exact hl)

theorem readAt_write_of_disjoint {r : NvRecord} {pos q n : Nat} {src : List UInt8}
    (hd : pos + src.length ≤ q ∨ q + n ≤ pos) :
    readAt (r.write pos src).bytes q n = readAt r.bytes q n := by
  unfold write
  split
  · rename_i hfit
    exact readAt_writeAt_of_disjoint (by rw [r.length_eq]; exact hfit) hd
  · rfl

theorem readAt_write_of_within {r : NvRecord} {pos q n : Nat} {src : List UInt8} (hq : q ≤ pos)
    (hn : pos + src.length ≤ q + n) (hl : q + n ≤ nvRecordSize) :
    readAt (r.write pos src).bytes q n = writeAt (readAt r.bytes q n) (pos - q) src := by
  rw [write_bytes (by omega)]
  exact readAt_writeAt_of_within hq hn (by rw [r.length_eq]; exact hl)

theorem drop_write_of_le {r : NvRecord} {pos k : Nat} {src : List UInt8}
    (h : pos + src.length ≤ k) : (r.write pos src).bytes.drop k = r.bytes.drop k := by
  unfold write
  split
  · rename_i hfit
    exact drop_writeAt_of_le (by rw [r.length_eq]; exact hfit) h
  · rfl

theorem drop_write_of_ge {r : NvRecord} {pos k : Nat} {src : List UInt8}
    (hfit : pos + src.length ≤ nvRecordSize) (h : k ≤ pos) :
    (r.write pos src).bytes.drop k = writeAt (r.bytes.drop k) (pos - k) src := by
  rw [write_bytes hfit]
  exact drop_writeAt_of_ge (by rw [r.length_eq]; exact hfit) h

@[simp] theorem zeroPrefix_bytes (r : NvRecord) :
    r.zeroPrefix.bytes = zeros offsetofReserved ++ r.bytes.drop offsetofReserved := by
  rw [zeroPrefix, write_bytes (by decide), writeAt_zero, length_zeros]

end NvRecord

end AziotOta
