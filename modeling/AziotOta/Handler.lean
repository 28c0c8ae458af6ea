import AziotOta.NvImgUpgSt

/-!
# The handler's workflow steps and the boot-recovery routine

`MCUbUpdateHandlerImpl::Apply`, `Cancel` and `IsInstalled`, and the constructor of the
global object `update_nvImgUpgSt_postReboot`, which runs at every boot before `main`. The
workflow handle is represented by the answers the handler gets from it.
-/

namespace AziotOta

/-- What the handler reads from its workflow handle: the memory the string returned by
`workflow_get_installed_criteria` points to (`none` for `NULL`), whether a cancel was
requested, and whether `workflow_request_cancel` succeeds. -/
structure Workflow where
  installedCriteria : Option (List UInt8)
  cancelRequested : Bool
  requestCancelOk : Bool

/-- `IsNullOrEmpty`. -/
def isNullOrEmpty : Option (List UInt8) → Bool
  | none => true
  | some s => cStrlen s == 0

/-- `MCUbUpdateHandlerImpl::Cancel`. -/
def cancel (wf : Workflow) : AducResultCode :=
  if wf.requestCancelOk then .cancelSuccess else .cancelUnableToCancel

/-- `MCUbUpdateHandlerImpl::Apply`. `workflow_request_reboot` changes no persistent state
and is left out. -/
def apply (wf : Workflow) : OtaM AducResultCode := do
  match wf.installedCriteria with
  | none => return .failure
  | some installedCriteria =>
    if cStrlen installedCriteria = 0 then return .failure
    if wf.cancelRequested then return cancel wf
    if !(← nvImgUpgStSetStageInstalledCriteria installedCriteria) then return .failure
    if !(← bootSetPending) then return .failure
    if !(← nvImgUpgStSetInstallRebooted false) then return .failure
    return .applyRequiredReboot

/-- `strcmp(a, b) == 0`: the two C strings agree up to their NULs. -/
def strcmpEq (a b : List UInt8) : Bool := cStr a == cStr b

/-- `MCUbUpdateHandlerImpl::IsInstalled`, with the buffer of `INSTALLEDCRITERIA_MAXCHAR + 1`
bytes it passes to `nvImgUpgSt_persistentInstalledCriteria`. -/
def isInstalled (wf : Workflow) : OtaM AducResultCode := do
  match wf.installedCriteria with
  | none => return .failure
  | some installedCriteria =>
    if cStrlen installedCriteria = 0 then return .failure
    match ← nvImgUpgStPersistentInstalledCriteria (installedCriteriaMaxchar + 1) with
    | none => return .isInstalledNotInstalled
    | some persistent =>
      if !strcmpEq installedCriteria persistent then return .isInstalledNotInstalled
      else return .isInstalledInstalled

/-- The first block of `Update_NVImgUpgSt_PostReboot`: indicate install rebooted. -/
def markInstallRebooted : OtaM Unit := do
  match ← nvImgUpgStInstallRebooted with
  | some false => let _ ← nvImgUpgStSetInstallRebooted true
  | _ => pure ()

/-- The second block: confirm the running image for the "test" swap type when the record
says it is the staged one and it is not confirmed yet. -/
def confirmInstall : OtaM Unit := do
  match ← nvImgUpgStInstalled with
  | some false => let _ ← bootSetConfirmed
  | _ => pure ()

/-- The third block: settle the installed criteria only once the image is confirmed, or
clear the record and reset for a revert. -/
def settleOrRevert : OtaM Unit := do
  match ← nvImgUpgStInstalled with
  | some true =>
    let _ ← nvImgUpgStSettleInstalledCriteria
    let _ ← nvImgUpgStReset false
  | some false =>
    let _ ← nvImgUpgStReset false
    nvicSystemReset
  | none => pure ()

/-- `Update_NVImgUpgSt_PostReboot::Update_NVImgUpgSt_PostReboot`, its three blocks in
order. -/
def updateNVImgUpgStPostReboot : OtaM Unit := do
  markInstallRebooted
  confirmInstall
  settleOrRevert

section Spec

variable (m : Machine)

section Idle

variable (h : ∀ r, m.world.record = some r → r.installRebootedValid = false)
include h

theorem nvImgUpgStInstallRebooted_of_not_valid :
    nvImgUpgStInstallRebooted m = (.ok none, { m with clock := m.clock + 1 }) := by
  rw [nvImgUpgStInstallRebooted_apply]
  rcases hr : m.readRecord with _ | r
  · rfl
  · simp [h r (Machine.record_of_readRecord m hr)]

theorem nvImgUpgStInstalled_of_not_valid :
    nvImgUpgStInstalled m = (.ok none, { m with clock := m.clock + 1 }) :=
  nvImgUpgStInstalled_of_not_installedFor m fun r hr => by
    simp [NvRecord.installedFor, h r (Machine.record_of_readRecord m hr)]

/-- While `installRebooted_valid` is clear the recovery routine writes nothing. -/
theorem updateNVImgUpgStPostReboot_idle :
    (updateNVImgUpgStPostReboot m).2.world = m.world ∧
      (updateNVImgUpgStPostReboot m).2.log = m.log := by
  simp only [updateNVImgUpgStPostReboot, markInstallRebooted, confirmInstall, settleOrRevert,
    OtaM.bind_apply, nvImgUpgStInstallRebooted_of_not_valid m h,
    OtaM.pure_apply, nvImgUpgStInstalled_of_not_valid { m with clock := m.clock + 1 } h,
    nvImgUpgStInstalled_of_not_valid { m with clock := m.clock + 1 + 1 } h, and_self]

end Idle

end Spec

end AziotOta
