import AziotOta.NvRecord

/-!
# The `nvImgUpgSt_*` routines

Each routine reads the whole record with `nvImgUpgSt_getAll`, and a routine that changes
it writes the whole record back with `nvImgUpgSt_setAll`. The four setters share one
shape, `nvImgUpgStUpdate`; each is that shape applied to its own change.
-/

namespace AziotOta

/-- The record the store holds, when it holds a blob of the record's size. -/
def World.record (w : World) : Option NvRecord := w.kv.bind NvRecord.ofBytes?

theorem World.record_of_kv {w : World} {r : NvRecord} (h : w.kv = some r.bytes) :
    w.record = some r := by
  simp [World.record, h, NvRecord.ofBytes?_bytes]

@[simp] theorem World.record_setKv (w : World) (r : NvRecord) :
    ({ w with kv := some r.bytes } : World).record = some r :=
  World.record_of_kv rfl

/-- `nvImgUpgSt_getAll`: `kv_get` must succeed and return exactly `sizeof` bytes. -/
def nvImgUpgStGetAll : OtaM (Option NvRecord) := do
  let b ← kvGet
  return b.bind NvRecord.ofBytes?

/-- `nvImgUpgSt_setAll`, called from the routine `site`. -/
def nvImgUpgStSetAll (site : Site) (r : NvRecord) : OtaM Bool := kvSet site r.bytes

/-- `nvImgUpgSt_reset`. With `includeReserved` the record is not read at all. -/
def nvImgUpgStReset (includeReserved : Bool) : OtaM Bool := do
  let st ← if includeReserved then pure NvRecord.zero else do
    let r ← nvImgUpgStGetAll
    pure ((r.map NvRecord.zeroPrefix).getD NvRecord.zero)
  nvImgUpgStSetAll .reset st

/-- The shape of the four setters: read the record, return false if that fails or if
`update` refuses the record, otherwise write back what `update` made of it. -/
def nvImgUpgStUpdate (site : Site) (update : NvRecord → Option NvRecord) : OtaM Bool := do
  match ← nvImgUpgStGetAll with
  | none => return false
  | some r =>
    match update r with
    | none => return false
    | some r' => nvImgUpgStSetAll site r'

/-- The record `nvImgUpgSt_setStageVersion` writes: the version and its valid flag. -/
def NvRecord.setStageVersion (r : NvRecord) (stageVersion : ImageVersion) : NvRecord :=
  (r.write offsetofStageVersion stageVersion.bytes).write 0 [1]

/-- `nvImgUpgSt_setStageVersion`. -/
def nvImgUpgStSetStageVersion (stageVersion : ImageVersion) : OtaM Bool :=
  nvImgUpgStUpdate .setStageVersion fun r => some (r.setStageVersion stageVersion)

/-- The record `nvImgUpgSt_setInstallRebooted` writes: the flag and its valid flag. -/
def NvRecord.setInstallRebooted (r : NvRecord) (installRebooted : Bool) : NvRecord :=
  (r.write offsetofInstallRebooted [if installRebooted then 1 else 0]).write
    offsetofInstallRebootedValid [1]

/-- `nvImgUpgSt_setInstallRebooted`. -/
def nvImgUpgStSetInstallRebooted (installRebooted : Bool) : OtaM Bool :=
  nvImgUpgStUpdate .setInstallRebooted fun r => some (r.setInstallRebooted installRebooted)

/-- The record `nvImgUpgSt_setStageInstalledCriteria` writes: the string with its NUL
(`memcpy(..., len + 1)`) and the valid flag. -/
def NvRecord.setStageInstalledCriteria (r : NvRecord) (installedCriteria : List UInt8) :
    NvRecord :=
  (r.write offsetofStageInstalledCriteria (cStr installedCriteria)).write
    offsetofStageInstalledCriteriaValid [1]

/-- What `nvImgUpgSt_setStageInstalledCriteria` makes of the record it read: nothing when
the string is longer than `INSTALLEDCRITERIA_MAXCHAR`. -/
def NvRecord.updateStageInstalledCriteria (installedCriteria : List UInt8) (r : NvRecord) :
    Option NvRecord :=
  if cStrlen installedCriteria > installedCriteriaMaxchar then none
  else some (r.setStageInstalledCriteria installedCriteria)

/-- `nvImgUpgSt_setStageInstalledCriteria`. The argument is the memory the C string
points to. -/
def nvImgUpgStSetStageInstalledCriteria (installedCriteria : List UInt8) : OtaM Bool :=
  nvImgUpgStUpdate .setStageInstalledCriteria (NvRecord.updateStageInstalledCriteria installedCriteria)

/-- The record `nvImgUpgSt_settleInstalledCriteria` writes after its checks: the stage
string (`len + 1` bytes) copied to the persistent one, which becomes valid, and the stage
criteria cleared. -/
def NvRecord.settled (r : NvRecord) (len : Nat) : NvRecord :=
  (((r.write offsetofPersistentInstalledCriteria
      (readAt r.bytes offsetofStageInstalledCriteria (len + 1))).write
    offsetofPersistentInstalledCriteriaValid [1]).write
    offsetofStageInstalledCriteriaValid [0]).write
    offsetofStageInstalledCriteria (zeros (installedCriteriaMaxchar + 1))

/-- What `nvImgUpgSt_settleInstalledCriteria` makes of the record it read: nothing when the
stage criteria are not valid or too long. `strlen` of the stage array runs on through the
record to its first NUL. -/
def NvRecord.settleInstalledCriteria (r : NvRecord) : Option NvRecord :=
  if !r.stageInstalledCriteriaValid then none
  else
    let len := cStrlen (r.bytes.drop offsetofStageInstalledCriteria)
    if len > installedCriteriaMaxchar then none else some (r.settled len)

/-- `nvImgUpgSt_settleInstalledCriteria`. -/
def nvImgUpgStSettleInstalledCriteria : OtaM Bool :=
  nvImgUpgStUpdate .settleInstalledCriteria NvRecord.settleInstalledCriteria

/-- `nvImgUpgSt_installed`: `some confirmed` when it returns true and sets `*confirmed`,
`none` when it returns false. `image_ok` starts as `BOOT_FLAG_UNSET`, so a failed read of
the flag reports the image as not confirmed. -/
def nvImgUpgStInstalled : OtaM (Option Bool) := do
  match ← nvImgUpgStGetAll with
  | none => return none
  | some r =>
    if !r.installRebootedValid || !r.installRebooted then return none
    else if !r.stageVersionValid then return none
    else do
      let w ← getWorld
      if r.stageVersion != w.primaryHeader.ihVer then
        return none
      else do
        let opened ← callOk .flashAreaOpen
        if !opened then return none
        else do
          let imageOk ← bootReadImageOk
          return some (imageOk == some true)

/-- `nvImgUpgSt_installRebooted`. -/
def nvImgUpgStInstallRebooted : OtaM (Option Bool) := do
  let r ← nvImgUpgStGetAll
  return r.bind fun r => if r.installRebootedValid then some r.installRebooted else none

/-- `nvImgUpgSt_persistentInstalledCriteria`: the bytes copied to the caller's buffer of
`installedCriteria_maxlen` bytes (the string and its NUL), or `none` when it returns false. -/
def nvImgUpgStPersistentInstalledCriteria (installedCriteriaMaxlen : Nat) :
    OtaM (Option (List UInt8)) := do
  let r ← nvImgUpgStGetAll
  return r.bind fun r =>
    if !r.persistentInstalledCriteriaValid then none
    else
      let len := cStrlen (r.bytes.drop offsetofPersistentInstalledCriteria)
      if len + 1 > installedCriteriaMaxlen then none
      else some (readAt r.bytes offsetofPersistentInstalledCriteria (len + 1))

namespace NvRecord

variable (r : NvRecord)

theorem updateStageInstalledCriteria_eq_some {c : List UInt8} {r' : NvRecord}
    (h : r.updateStageInstalledCriteria c = some r') :
    cStrlen c ≤ installedCriteriaMaxchar ∧ r' = r.setStageInstalledCriteria c := by
  unfold updateStageInstalledCriteria at h
  split at h
  · cases h
  · exact ⟨by omega, (Option.some.inj h).symm⟩

theorem settleInstalledCriteria_eq_some {r' : NvRecord} (h : r.settleInstalledCriteria = some r') :
    r.stageInstalledCriteriaValid = true ∧
      cStrlen (r.bytes.drop offsetofStageInstalledCriteria) ≤ installedCriteriaMaxchar ∧
      r' = r.settled (cStrlen (r.bytes.drop offsetofStageInstalledCriteria)) := by
  unfold settleInstalledCriteria at h
  by_cases hv : r.stageInstalledCriteriaValid = true
  · by_cases hl : cStrlen (r.bytes.drop offsetofStageInstalledCriteria) > installedCriteriaMaxchar
    · simp [hv, hl] at h
    · simp only [hv, hl, Bool.not_true, Bool.false_eq_true, if_false, Option.some.injEq] at h
      exact ⟨hv, by omega, h.symm⟩
  · simp [hv] at h

@[simp] theorem setStageInstalledCriteria_installRebootedValid (c : List UInt8) :
    (r.setStageInstalledCriteria c).installRebootedValid = r.installRebootedValid := by
  simp only [setStageInstalledCriteria, installRebootedValid]
  rw [flag_write_of_disjoint (by decide), flag_write_of_disjoint (.inl (by decide))]

@[simp] theorem setStageInstalledCriteria_stageInstalledCriteriaValid (c : List UInt8) :
    (r.setStageInstalledCriteria c).stageInstalledCriteriaValid = true :=
  flag_write_single _ (by decide)

@[simp] theorem setInstallRebooted_installRebootedValid (b : Bool) :
    (r.setInstallRebooted b).installRebootedValid = true :=
  flag_write_single _ (by decide)

@[simp] theorem setInstallRebooted_installRebooted (b : Bool) :
    (r.setInstallRebooted b).installRebooted = b := by
  simp only [setInstallRebooted, installRebooted]
  rw [flag_write_of_disjoint (by decide), flag_write_single _ (by decide)]
  cases b <;> decide

@[simp] theorem setInstallRebooted_stageInstalledCriteriaValid (b : Bool) :
    (r.setInstallRebooted b).stageInstalledCriteriaValid = r.stageInstalledCriteriaValid := by
  simp only [setInstallRebooted, stageInstalledCriteriaValid]
  rw [flag_write_of_disjoint (by decide), flag_write_of_disjoint (.inr (by simp; decide))]

end NvRecord

/-- The record says that an install of the image running in `w` has rebooted: the guards
of `nvImgUpgSt_installed` before it opens the flash area. -/
def NvRecord.installedFor (r : NvRecord) (w : World) : Bool :=
  r.installRebootedValid && r.installRebooted && r.stageVersionValid &&
    r.stageVersion == w.primaryHeader.ihVer

section Spec

variable (m : Machine)

/-- What `nvImgUpgSt_getAll` returns at the machine's next `kv_get`. -/
def Machine.readRecord : Option NvRecord :=
  if m.oracle .kvGet m.clock then m.world.record else none

@[simp] theorem nvImgUpgStGetAll_apply :
    nvImgUpgStGetAll m = (.ok m.readRecord, { m with clock := m.clock + 1 }) := by
  simp only [nvImgUpgStGetAll, OtaM.bind_apply, kvGet_apply, OtaM.pure_apply,
    Machine.readRecord, World.record]
  split <;> rfl

theorem nvImgUpgStUpdate_apply (site : Site) (update : NvRecord → Option NvRecord) :
    nvImgUpgStUpdate site update m =
      match m.readRecord.bind update with
      | none => (.ok false, { m with clock := m.clock + 1 })
      | some r' => kvSet site r'.bytes { m with clock := m.clock + 1 } := by
  simp only [nvImgUpgStUpdate, OtaM.bind_apply, nvImgUpgStGetAll_apply]
  rcases m.readRecord with _ | r
  · rfl
  · simp only [Option.some_bind]
    cases update r <;> rfl

theorem nvImgUpgStUpdate_of_some {site : Site} {update : NvRecord → Option NvRecord}
    {r r' : NvRecord} (hr : m.readRecord = some r) (hu : update r = some r') :
    nvImgUpgStUpdate site update m = kvSet site r'.bytes { m with clock := m.clock + 1 } := by
  rw [nvImgUpgStUpdate_apply, hr, Option.some_bind, hu]

theorem Machine.record_of_readRecord {r : NvRecord} (h : m.readRecord = some r) :
    m.world.record = some r := by
  unfold Machine.readRecord at h
  split at h
  · exact h
  · cases h

theorem Machine.readRecord_of_kv {m : Machine} {r r' : NvRecord}
    (hkv : m.world.kv = some r.bytes) (h : m.readRecord = some r') : r' = r := by
  have := Machine.record_of_readRecord m h
  simp only [World.record, hkv, Option.some_bind, NvRecord.ofBytes?_bytes, Option.some.injEq] at this
  exact this.symm

/-- What a setter can do: write back what `update` made of the record it read, or leave
the persistent state as it was, logging a `kv_set` that fails with the old state. -/
theorem nvImgUpgStUpdate_outcome (site : Site) (update : NvRecord → Option NvRecord) :
    ∃ ok m', nvImgUpgStUpdate site update m = (.ok ok, m') ∧
      ((∃ r r', ok = true ∧ m.readRecord = some r ∧ update r = some r' ∧
        m.Extends m' { m.world with kv := some r'.bytes }
          [(.kvSet site true, { m.world with kv := some r'.bytes })]) ∨
       (ok = false ∧ ∃ entries, m.Extends m' m.world entries ∧
          ∀ e ∈ entries, e = (.kvSet site false, m.world))) := by
  rw [nvImgUpgStUpdate_apply]
  rcases hb : m.readRecord.bind update with _ | r'
  · exact ⟨_, _, rfl, .inr ⟨rfl, [], Machine.Extends.refl m, by simp⟩⟩
  · obtain ⟨r, hr, hu⟩ := Option.bind_eq_some.mp hb
    simp only [kvSet_apply]
    refine ⟨_, _, rfl, ?_⟩
    cases hk : m.oracle .kvSet (m.clock + 1)
    · exact .inr ⟨by simp [hk], [(.kvSet site false, m.world)], ⟨by simp [hk], rfl, rfl, by simp [hk]⟩,
        by simp⟩
    · exact .inl ⟨r, r', by simp [hk], hr, hu, ⟨by simp [hk], rfl, rfl, by simp [hk]⟩⟩

theorem nvImgUpgStReset_apply (includeReserved : Bool) :
    nvImgUpgStReset includeReserved m =
      if includeReserved then kvSet .reset NvRecord.zero.bytes m
      else kvSet .reset ((m.readRecord.map NvRecord.zeroPrefix).getD NvRecord.zero).bytes
        { m with clock := m.clock + 1 } := by
  cases includeReserved <;> simp [nvImgUpgStReset, nvImgUpgStSetAll]

@[simp] theorem nvImgUpgStInstallRebooted_apply :
    nvImgUpgStInstallRebooted m =
      (.ok (m.readRecord.bind fun r => if r.installRebootedValid then some r.installRebooted
        else none), { m with clock := m.clock + 1 }) := by
  simp [nvImgUpgStInstallRebooted]

@[simp] theorem nvImgUpgStPersistentInstalledCriteria_apply (installedCriteriaMaxlen : Nat) :
    nvImgUpgStPersistentInstalledCriteria installedCriteriaMaxlen m =
      (.ok (m.readRecord.bind fun r =>
        if !r.persistentInstalledCriteriaValid then none
        else
          let len := cStrlen (r.bytes.drop offsetofPersistentInstalledCriteria)
          if len + 1 > installedCriteriaMaxlen then none
          else some (readAt r.bytes offsetofPersistentInstalledCriteria (len + 1))),
        { m with clock := m.clock + 1 }) := by
  simp [nvImgUpgStPersistentInstalledCriteria]

theorem nvImgUpgStInstalled_apply :
    nvImgUpgStInstalled m =
      match m.readRecord with
      | some r =>
        if r.installedFor m.world then
          if m.oracle .flashAreaOpen (m.clock + 1) then
            (.ok (some (m.oracle .bootReadImageOk (m.clock + 2) && m.world.imageOk)),
              { m with clock := m.clock + 3 })
          else (.ok none, { m with clock := m.clock + 2 })
        else (.ok none, { m with clock := m.clock + 1 })
      | none => (.ok none, { m with clock := m.clock + 1 }) := by
  simp only [nvImgUpgStInstalled, OtaM.bind_apply, nvImgUpgStGetAll_apply]
  rcases m.readRecord with _ | r
  · rfl
  · simp only [NvRecord.installedFor, OtaM.ite_apply, OtaM.bind_apply, getWorld_apply,
      callOk_apply, bootReadImageOk_apply, OtaM.pure_apply]
    by_cases h1 : r.installRebootedValid = true <;> by_cases h2 : r.installRebooted = true <;>
      by_cases h3 : r.stageVersionValid = true <;>
      by_cases h4 : r.stageVersion = m.world.primaryHeader.ihVer <;>
      simp [h1, h2, h3, h4]
    cases m.oracle .flashAreaOpen (m.clock + 1) <;> cases m.oracle .bootReadImageOk (m.clock + 2) <;>
      cases m.world.imageOk <;> simp [Nat.add_assoc]

/-- `nvImgUpgSt_installed` reports a confirmed install only from a record that describes a
rebooted install of the running image, with the image-ok flag set. -/
theorem nvImgUpgStInstalled_some_true {m' : Machine}
    (h : nvImgUpgStInstalled m = (.ok (some true), m')) :
    ∃ r, m.world.record = some r ∧ r.installedFor m.world = true ∧ m.world.imageOk = true := by
  rw [nvImgUpgStInstalled_apply] at h
  rcases hr : m.readRecord with _ | r <;> rw [hr] at h
  · cases h
  · refine ⟨r, Machine.record_of_readRecord m hr, ?_⟩
    by_cases hi : r.installedFor m.world = true
    · by_cases hf : m.oracle .flashAreaOpen (m.clock + 1) = true
      · simp only [hi, hf, if_true, Prod.mk.injEq, Except.ok.injEq, Option.some.injEq,
          Bool.and_eq_true] at h
        exact ⟨hi, h.1.2⟩
      · simp [hi, hf] at h
    · simp [hi] at h

/-- `nvImgUpgSt_installed` only reads. -/
theorem nvImgUpgStInstalled_frame :
    ∃ confirmed n, nvImgUpgStInstalled m = (.ok confirmed, { m with clock := n }) := by
  rw [nvImgUpgStInstalled_apply]
  rcases m.readRecord with _ | r
  · exact ⟨_, _, rfl⟩
  · dsimp only
    split
    · split <;> exact ⟨_, _, rfl⟩
    · exact ⟨_, _, rfl⟩

/-- `nvImgUpgSt_installed` fails without a call to the flash when the record does not
describe a rebooted install of the running image. -/
theorem nvImgUpgStInstalled_of_not_installedFor
    (h : ∀ r, m.readRecord = some r → r.installedFor m.world = false) :
    nvImgUpgStInstalled m = (.ok none, { m with clock := m.clock + 1 }) := by
  rw [nvImgUpgStInstalled_apply]
  rcases hr : m.readRecord with _ | r
  · rfl
  · simp [h r hr]

end Spec

end AziotOta
