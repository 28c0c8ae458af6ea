import AziotOta.NvImgUpgSt

/-!
# The record's fields

`NvRecord.fields` decodes the fields of `OTA_NonVolatileImageUpgradeState_t` that the
routines read. Each record update the routines write is described once, by what it does to
the fields, so that the proofs about runs never look at bytes again.
-/

namespace AziotOta

/-- The fields of the record the routines read: the `bool` fields as C reads them and the
two criteria arrays as their bytes. `reserved` and the padding are read by nothing. -/
structure NvFields where
  stageVersionValid : Bool
  stageVersion : ImageVersion
  installRebootedValid : Bool
  installRebooted : Bool
  stageInstalledCriteriaValid : Bool
  stageInstalledCriteria : List UInt8
  persistentInstalledCriteriaValid : Bool
  persistentInstalledCriteria : List UInt8
  deriving DecidableEq

/-- `struct image_version` after `memset(.., 0, ..)`. -/
def ImageVersion.zero : ImageVersion := ⟨zeros 8, length_zeros 8⟩

namespace NvRecord

/-- The fields of a record. -/
def fields (r : NvRecord) : NvFields :=
  ⟨r.stageVersionValid, r.stageVersion, r.installRebootedValid, r.installRebooted,
    r.stageInstalledCriteriaValid, r.stageInstalledCriteria, r.persistentInstalledCriteriaValid,
    r.persistentInstalledCriteria⟩

variable (r : NvRecord)

theorem fields_setStageVersion (v : ImageVersion) :
    (r.setStageVersion v).fields = { r.fields with stageVersionValid := true, stageVersion := v } := by
  simp only [fields, setStageVersion, NvFields.mk.injEq, stageVersionValid, installRebootedValid,
    installRebooted, stageInstalledCriteriaValid, persistentInstalledCriteriaValid,
    stageInstalledCriteria, persistentInstalledCriteria]
  refine ⟨flag_write_single _ (by decide), ?_, ?_, ?_, ?_, ?_, ?_, ?_⟩
  · ext1
    simp only [stageVersion]
    rw [readAt_write_of_disjoint (by decide), readAt_write_of_within (by decide)
      (by rw [v.length_eq]) (by decide), Nat.sub_self, writeAt_zero_of_length_eq
      (by rw [v.length_eq, length_readAt_of_le (by rw [r.length_eq]; decide)])]
  all_goals first
    | rw [flag_write_of_disjoint (by decide), flag_write_of_disjoint (by simp [v.length_eq]; decide)]
    | rw [readAt_write_of_disjoint (by decide), readAt_write_of_disjoint
        (by simp [v.length_eq]; decide)]

theorem fields_setInstallRebooted (b : Bool) :
    (r.setInstallRebooted b).fields =
      { r.fields with installRebootedValid := true, installRebooted := b } := by
  simp only [fields, setInstallRebooted, NvFields.mk.injEq, stageVersionValid, installRebootedValid,
    installRebooted, stageInstalledCriteriaValid, persistentInstalledCriteriaValid,
    stageInstalledCriteria, persistentInstalledCriteria, stageVersion]
  refine ⟨?_, ?_, flag_write_single _ (by decide), ?_, ?_, ?_, ?_, ?_⟩
  · rw [flag_write_of_disjoint (by decide), flag_write_of_disjoint (.inl (by decide))]
  · ext1; dsimp only
    rw [readAt_write_of_disjoint (by decide), readAt_write_of_disjoint (.inr (by decide))]
  · rw [flag_write_of_disjoint (by decide), flag_write_single _ (by decide)]
    cases b <;> decide
  all_goals first
    | rw [flag_write_of_disjoint (by decide), flag_write_of_disjoint (by simp; decide)]
    | rw [readAt_write_of_disjoint (by decide), readAt_write_of_disjoint (by simp; decide)]

theorem fields_setStageInstalledCriteria {c : List UInt8} (hc : cStrlen c ≤ installedCriteriaMaxchar) :
    (r.setStageInstalledCriteria c).fields = { r.fields with
      stageInstalledCriteriaValid := true,
      stageInstalledCriteria := writeAt r.stageInstalledCriteria 0 (cStr c) } := by
  unfold installedCriteriaMaxchar at hc
  simp only [fields, setStageInstalledCriteria, NvFields.mk.injEq, stageVersionValid,
    installRebootedValid, installRebooted, stageInstalledCriteriaValid,
    persistentInstalledCriteriaValid, stageInstalledCriteria, persistentInstalledCriteria, stageVersion]
  refine ⟨?_, ?_, ?_, ?_, flag_write_single _ (by decide), ?_, ?_, ?_⟩
  · rw [flag_write_of_disjoint (by decide), flag_write_of_disjoint (.inl (by decide))]
  · ext1; dsimp only
    rw [readAt_write_of_disjoint (by decide), readAt_write_of_disjoint (.inr (by decide))]
  · rw [flag_write_of_disjoint (by decide), flag_write_of_disjoint (.inl (by decide))]
  · rw [flag_write_of_disjoint (by decide), flag_write_of_disjoint (.inl (by decide))]
  · rw [readAt_write_of_disjoint (by decide), readAt_write_of_within le_rfl
      (by simp [offsetofStageInstalledCriteria, installedCriteriaMaxchar]; omega) (by decide), Nat.sub_self]
  · rw [flag_write_of_disjoint (by decide), flag_write_of_disjoint
      (.inr (by simp [offsetofStageInstalledCriteria, offsetofPersistentInstalledCriteriaValid]; omega))]
  · rw [readAt_write_of_disjoint (by decide), readAt_write_of_disjoint
      (.inl (by simp [offsetofStageInstalledCriteria, offsetofPersistentInstalledCriteria]; omega))]

theorem fields_settled {len : Nat} (hlen : len ≤ installedCriteriaMaxchar) :
    (r.settled len).fields = { r.fields with
      stageInstalledCriteriaValid := false,
      stageInstalledCriteria := zeros (installedCriteriaMaxchar + 1),
      persistentInstalledCriteriaValid := true,
      persistentInstalledCriteria :=
        writeAt r.persistentInstalledCriteria 0 (readAt r.stageInstalledCriteria 0 (len + 1)) } := by
  unfold installedCriteriaMaxchar at hlen
  have hcopy : (readAt r.bytes offsetofStageInstalledCriteria (len + 1)).length = len + 1 :=
    length_readAt_of_le (by rw [r.length_eq]; simp [offsetofStageInstalledCriteria, nvRecordSize]; omega)
  simp only [fields, settled, NvFields.mk.injEq, stageVersionValid, installRebootedValid,
    installRebooted, stageInstalledCriteriaValid, persistentInstalledCriteriaValid,
    stageInstalledCriteria, persistentInstalledCriteria, stageVersion]
  refine ⟨?_, ?_, ?_, ?_, ?_, ?_, ?_, ?_⟩
  · rw [flag_write_of_disjoint (.inl (by decide)), flag_write_of_disjoint (by decide),
      flag_write_of_disjoint (by decide), flag_write_of_disjoint (.inl (by decide))]
  · ext1; dsimp only
    rw [readAt_write_of_disjoint (.inr (by decide)), readAt_write_of_disjoint (by decide),
      readAt_write_of_disjoint (by decide), readAt_write_of_disjoint (.inr (by decide))]
  · rw [flag_write_of_disjoint (.inl (by decide)), flag_write_of_disjoint (by decide),
      flag_write_of_disjoint (by decide), flag_write_of_disjoint (.inl (by decide))]
  · rw [flag_write_of_disjoint (.inl (by decide)), flag_write_of_disjoint (by decide),
      flag_write_of_disjoint (by decide), flag_write_of_disjoint (.inl (by decide))]
  · rw [flag_write_of_disjoint (.inl (by decide)), flag_write_single _ (by decide)]
    rfl
  · rw [readAt_write_of_within le_rfl (by simp) (by decide), Nat.sub_self,
      writeAt_zero_of_length_eq (by rw [length_zeros, length_readAt_of_le
        (by rw [NvRecord.length_eq]; decide)])]
  · rw [flag_write_of_disjoint (.inr (by decide)), flag_write_of_disjoint (.inr (by decide)),
      flag_write_single _ (by decide)]
    rfl
  · rw [readAt_write_of_disjoint (.inl (by decide)), readAt_write_of_disjoint (.inl (by decide)),
      readAt_write_of_disjoint (.inl (by decide)), readAt_write_of_within le_rfl
      (by rw [hcopy]; simp [offsetofPersistentInstalledCriteria, installedCriteriaMaxchar]; omega)
      (by decide), Nat.sub_self, readAt_readAt (by unfold installedCriteriaMaxchar; omega)]
    rfl

theorem fields_zeroPrefix :
    r.zeroPrefix.fields = { r.fields with
      stageVersionValid := false, stageVersion := .zero,
      installRebootedValid := false, installRebooted := false,
      stageInstalledCriteriaValid := false,
      stageInstalledCriteria := zeros (installedCriteriaMaxchar + 1) } := by
  simp only [fields, zeroPrefix, NvFields.mk.injEq, stageVersionValid, installRebootedValid,
    installRebooted, stageInstalledCriteriaValid, persistentInstalledCriteriaValid,
    stageInstalledCriteria, persistentInstalledCriteria, stageVersion]
  refine ⟨flag_write_zeros (by decide) (by decide) (by decide), ?_,
    flag_write_zeros (by decide) (by decide) (by decide),
    flag_write_zeros (by decide) (by decide) (by decide),
    flag_write_zeros (by decide) (by decide) (by decide), ?_,
    flag_write_of_disjoint (.inr (by decide)), readAt_write_of_disjoint (.inl (by decide))⟩
  · ext1; dsimp only
    rw [readAt_write_of_inside (by decide) (by decide) (by decide), readAt_zeros]
    rfl
  · rw [readAt_write_of_inside (by decide) (by decide) (by decide), readAt_zeros]
    rfl

@[simp] theorem zeroPrefix_installRebootedValid : r.zeroPrefix.installRebootedValid = false :=
  congrArg NvFields.installRebootedValid r.fields_zeroPrefix

theorem fields_zero :
    zero.fields = ⟨false, .zero, false, false, false, zeros (installedCriteriaMaxchar + 1), false,
      zeros (installedCriteriaMaxchar + 1)⟩ := by
  decide

end NvRecord

end AziotOta
