import AziotOta.Handler
import AziotOta.NvFields

/-!
# The boot-recovery routine is crash-idempotent

When every call of a service has one fixed outcome and the store's calls succeed, each block
of `Update_NVImgUpgSt_PostReboot` leaves a state that is a function of the state it starts
from, so a reset after any prefix of its persistent writes, followed by a new run of the whole
routine, ends where one uninterrupted run ends. A single failed call can instead lose an
install's criteria: the image ends confirmed while the unsettled stage fields are cleared.
-/

namespace AziotOta

namespace World

variable (f : Service → Bool) (w : World)

/-- What `nvImgUpgSt_installed` reports in `w` when every call of a service `s` has the
outcome `f s`. -/
def installed : Option Bool :=
  match w.record with
  | some r =>
    if r.installedFor w = true ∧ f .flashAreaOpen = true then
      some (f .bootReadImageOk && w.imageOk)
    else none
  | none => none

/-- The state the first block leaves. -/
def marked : World :=
  match w.record with
  | some r =>
    if r.installRebootedValid = true ∧ r.installRebooted = false then
      { w with kv := some (r.setInstallRebooted true).bytes }
    else w
  | none => w

/-- The state the second block leaves. -/
def confirmed : World :=
  if w.installed f = some false ∧ f .bootSetConfirmed = true then { w with imageOk := true } else w

/-- The state the third block leaves. -/
def settledOrReverted : World :=
  match w.record, w.installed f with
  | some r, some true =>
    { w with kv := some (r.settleInstalledCriteria.getD r).zeroPrefix.bytes }
  | some r, some false => { w with kv := some r.zeroPrefix.bytes }
  | _, _ => w

/-- The state the routine leaves. -/
def postReboot : World := (w.marked.confirmed f).settledOrReverted f

/-- The first block has nothing to do: no record says the install has not rebooted. -/
def MarkStable : Prop :=
  ∀ r, w.record = some r → r.installRebootedValid = true → r.installRebooted = true

end World

/-! ## Each block under fixed outcomes -/

section Blocks

variable {f : Service → Bool} (hget : f .kvGet = true) (hset : f .kvSet = true)
  {m : Machine} (ho : m.oracle = .fixed f)
include hget ho

theorem readRecord_fixed : m.readRecord = m.world.record := by
  simp [Machine.readRecord, ho, Oracle.fixed, hget]

theorem nvImgUpgStInstalled_fixed :
    ∃ n, nvImgUpgStInstalled m = (.ok (m.world.installed f), { m with clock := n }) := by
  rw [nvImgUpgStInstalled_apply, readRecord_fixed hget ho, World.installed]
  rcases m.world.record with _ | r
  · exact ⟨_, rfl⟩
  · by_cases hi : r.installedFor m.world = true <;> by_cases hf : f .flashAreaOpen = true <;>
      simp [hi, hf, ho, Oracle.fixed]

theorem confirmInstall_fixed :
    ∃ n es, confirmInstall m =
        (.ok (), { m with clock := n, world := m.world.confirmed f, log := m.log ++ es }) ∧
      ∀ e ∈ es, e.2 = m.world.confirmed f := by
  obtain ⟨n, hn⟩ := nvImgUpgStInstalled_fixed hget ho
  simp only [confirmInstall, OtaM.bind_apply, hn, World.confirmed]
  rcases m.world.installed f with _ | _ | _
  · exact ⟨n, [], by simp, by simp⟩
  · cases hb : f .bootSetConfirmed
    · exact ⟨n + 1, [(.bootSetConfirmed false, m.world)], by simp [ho, Oracle.fixed, hb],
        by simp [hb]⟩
    · exact ⟨n + 1, [(.bootSetConfirmed true, { m.world with imageOk := true })],
        by simp [ho, Oracle.fixed, hb], by simp [hb]⟩
  · exact ⟨n, [], by simp, by simp⟩

include hset

/-- A store write under fixed outcomes: it succeeds and logs the state it leaves. -/
theorem nvImgUpgStUpdate_fixed (site : Site) (update : NvRecord → Option NvRecord) :
    nvImgUpgStUpdate site update m =
      match m.world.record.bind update with
      | none => (.ok false, { m with clock := m.clock + 1 })
      | some r' => (.ok true, { m with
          clock := m.clock + 2,
          world := { m.world with kv := some r'.bytes },
          log := m.log ++ [(.kvSet site true, { m.world with kv := some r'.bytes })] }) := by
  rw [nvImgUpgStUpdate_apply, readRecord_fixed hget ho]
  cases m.world.record.bind update
  · rfl
  · simp [ho, Oracle.fixed, hset]

theorem nvImgUpgStReset_fixed {r : NvRecord} (hr : m.world.record = some r) :
    nvImgUpgStReset false m = (.ok true, { m with
      clock := m.clock + 2,
      world := { m.world with kv := some r.zeroPrefix.bytes },
      log := m.log ++ [(.kvSet .reset true, { m.world with kv := some r.zeroPrefix.bytes })] }) := by
  rw [nvImgUpgStReset_apply, readRecord_fixed hget ho, hr]
  simp [ho, Oracle.fixed, hset]

theorem markInstallRebooted_fixed :
    ∃ n es, markInstallRebooted m =
        (.ok (), { m with clock := n, world := m.world.marked, log := m.log ++ es }) ∧
      ∀ e ∈ es, e.2 = m.world.marked := by
  simp only [markInstallRebooted, OtaM.bind_apply, nvImgUpgStInstallRebooted_apply,
    readRecord_fixed hget ho, World.marked]
  rcases hr : m.world.record with _ | r
  · exact ⟨m.clock + 1, [], by simp, by simp⟩
  by_cases hc : r.installRebootedValid = true ∧ r.installRebooted = false
  · have hu := nvImgUpgStUpdate_fixed hget hset (m := { m with clock := m.clock + 1 }) ho
      .setInstallRebooted (fun r => some (r.setInstallRebooted true))
    rw [hr, Option.some_bind] at hu
    exact ⟨m.clock + 1 + 2, [(.kvSet .setInstallRebooted true,
      { m.world with kv := some (r.setInstallRebooted true).bytes })],
      by simp [hc, nvImgUpgStSetInstallRebooted, hu], by simp [hc]⟩
  · refine ⟨m.clock + 1, [], ?_, by simp⟩
    by_cases hv : r.installRebootedValid = true
    · have hi : r.installRebooted = true := by simpa [hv] using hc
      simp [hv, hi]
    · simp [hv]

/-- The third block: every call it logs sees the state it leaves, or the state the settle
wrote before the reset. -/
theorem settleOrRevert_fixed :
    ∃ n es, settleOrRevert m =
        (.ok (), { m with clock := n, world := m.world.settledOrReverted f, log := m.log ++ es }) ∧
      ∀ e ∈ es, e.2 = m.world.settledOrReverted f ∨
        ∃ r r', m.world.record = some r ∧ m.world.installed f = some true ∧
          r.settleInstalledCriteria = some r' ∧ e.2 = { m.world with kv := some r'.bytes } := by
  obtain ⟨n, hn⟩ := nvImgUpgStInstalled_fixed hget ho
  simp only [settleOrRevert, OtaM.bind_apply, hn, World.settledOrReverted]
  rcases hr : m.world.record with _ | r
  · have : m.world.installed f = none := by simp [World.installed, hr]
    exact ⟨n, [], by simp [this], by simp⟩
  rcases hq : m.world.installed f with _ | _ | _
  · exact ⟨n, [], by simp, by simp⟩
  · -- a revert
    have hz := nvImgUpgStReset_fixed hget hset (m := { m with clock := n }) ho hr
    exact ⟨n + 2, [(.kvSet .reset true, { m.world with kv := some r.zeroPrefix.bytes }),
      (.systemReset, { m.world with kv := some r.zeroPrefix.bytes })], by simp [hz], by simp⟩
  · -- a settle
    have hs := nvImgUpgStUpdate_fixed hget hset (m := { m with clock := n }) ho
      .settleInstalledCriteria NvRecord.settleInstalledCriteria
    rw [hr, Option.some_bind] at hs
    rcases hr' : r.settleInstalledCriteria with _ | r'
    · have hz := nvImgUpgStReset_fixed hget hset (m := { m with clock := n + 1 }) ho hr
      rw [hr'] at hs
      exact ⟨n + 1 + 2, [(.kvSet .reset true, { m.world with kv := some r.zeroPrefix.bytes })],
        by simp [nvImgUpgStSettleInstalledCriteria, hs, hz, hr'], by simp [hr']⟩
    · have hz := nvImgUpgStReset_fixed hget hset (m := { m with
        clock := n + 2,
        world := { m.world with kv := some r'.bytes },
        log := m.log ++ [(.kvSet .settleInstalledCriteria true, { m.world with kv := some r'.bytes })] })
        ho (World.record_of_kv rfl)
      rw [hr'] at hs
      refine ⟨n + 2 + 2, [(.kvSet .settleInstalledCriteria true, { m.world with kv := some r'.bytes }),
        (.kvSet .reset true, { m.world with kv := some r'.zeroPrefix.bytes })],
        by simp [nvImgUpgStSettleInstalledCriteria, hs, hz, hr'], fun e he => ?_⟩
      simp only [List.mem_cons, List.mem_singleton, List.not_mem_nil, or_false] at he
      rcases he with rfl | rfl
      · exact .inr ⟨r, r', rfl, rfl, hr', rfl⟩
      · exact .inl (by simp [hr'])

/-- The whole routine: it leaves `postReboot`, and every call it logs sees the state one of
its blocks leaves, or the state between the settle and the reset. -/
theorem updateNVImgUpgStPostReboot_fixed :
    ∃ n es, updateNVImgUpgStPostReboot m =
        (.ok (), { m with clock := n, world := m.world.postReboot f, log := m.log ++ es }) ∧
      ∀ e ∈ es, e.2 = m.world.marked ∨ e.2 = m.world.marked.confirmed f ∨
        e.2 = m.world.postReboot f ∨
        ∃ r r', (m.world.marked.confirmed f).record = some r ∧
          (m.world.marked.confirmed f).installed f = some true ∧
          r.settleInstalledCriteria = some r' ∧
          e.2 = { m.world.marked.confirmed f with kv := some r'.bytes } := by
  obtain ⟨n1, es1, h1, he1⟩ := markInstallRebooted_fixed hget hset ho
  obtain ⟨n2, es2, h2, he2⟩ := confirmInstall_fixed hget
    (m := { m with clock := n1, world := m.world.marked, log := m.log ++ es1 }) ho
  obtain ⟨n3, es3, h3, he3⟩ := settleOrRevert_fixed hget hset (m := { m with
    clock := n2, world := m.world.marked.confirmed f, log := m.log ++ es1 ++ es2 }) ho
  refine ⟨n3, es1 ++ es2 ++ es3, ?_, ?_⟩
  · simp only [updateNVImgUpgStPostReboot, OtaM.bind_apply, h1, h2, h3]
    simp only [List.append_assoc]
    rfl
  · simp only [List.mem_append]
    rintro e ((he | he) | he)
    · exact .inl (he1 e he)
    · exact .inr (.inl (he2 e he))
    · exact .inr (.inr (he3 e he))

end Blocks

/-! ## The states a run passes through -/

namespace World

variable {f : Service → Bool} {w : World}

theorem marked_of_markStable (h : w.MarkStable) : w.marked = w := by
  unfold marked
  rcases hr : w.record with _ | r
  · rfl
  · by_cases hv : r.installRebootedValid = true
    · simp [hv, h r hr hv]
    · simp [hv]

theorem markStable_marked : w.marked.MarkStable := by
  unfold marked
  rcases hr : w.record with _ | r
  · intro r' hr'; rw [hr] at hr'; cases hr'
  · dsimp only
    by_cases hc : r.installRebootedValid = true ∧ r.installRebooted = false
    · rw [if_pos hc]
      intro r' hr' _
      rw [record_of_kv rfl] at hr'
      cases hr'
      simp
    · rw [if_neg hc]
      intro r' hr' hv
      rw [hr] at hr'
      cases hr'
      simpa [hv] using hc

@[simp] theorem record_confirmed : (w.confirmed f).record = w.record := by
  unfold confirmed; split <;> rfl

@[simp] theorem installed_setImageOk :
    ({ w with imageOk := true }).installed f = (w.installed f).map fun _ => f .bootReadImageOk := by
  unfold installed
  have : ({ w with imageOk := true }).record = w.record := rfl
  rw [this]
  rcases w.record with _ | r
  · rfl
  · dsimp only
    have : r.installedFor { w with imageOk := true } = r.installedFor w := rfl
    rw [this]
    split <;> simp

theorem confirmed_confirmed : (w.confirmed f).confirmed f = w.confirmed f := by
  unfold confirmed
  by_cases hc : w.installed f = some false ∧ f .bootSetConfirmed = true
  · rw [if_pos hc, installed_setImageOk, hc.1]
    split <;> rfl
  · rw [if_neg hc, if_neg hc]

theorem markStable_confirmed (h : w.MarkStable) : (w.confirmed f).MarkStable := by
  intro r hr; rw [record_confirmed] at hr; exact h r hr

theorem installed_congr {w' : World} {r r' : NvRecord} (hr : w.record = some r)
    (hr' : w'.record = some r') (hfor : r'.installedFor w' = r.installedFor w)
    (hok : w'.imageOk = w.imageOk) : w'.installed f = w.installed f := by
  simp only [installed, hr, hr', hfor, hok]

/-- The routine leaves alone a state whose record does not hold `installRebooted` valid. -/
theorem postReboot_of_not_valid (h : ∀ r, w.record = some r → r.installRebootedValid = false) :
    w.postReboot f = w := by
  have hm : w.marked = w :=
    marked_of_markStable fun r hr hv => by rw [h r hr] at hv; cases hv
  have hi : w.installed f = none := by
    unfold installed
    rcases hr : w.record with _ | r
    · rfl
    · simp [NvRecord.installedFor, h r hr]
  have hc : w.confirmed f = w := by simp [confirmed, hi]
  unfold postReboot settledOrReverted
  rw [hm, hc, hi]
  split <;> simp_all

/-- A third block that writes leaves a record whose `installRebooted` is not valid. -/
theorem settledOrReverted_cleared (h : w.settledOrReverted f ≠ w) :
    ∀ r, (w.settledOrReverted f).record = some r → r.installRebootedValid = false := by
  revert h
  unfold settledOrReverted
  split
  all_goals intro h r hr
  all_goals first
    | exact absurd rfl h
    | rw [record_setKv] at hr
      cases hr
      exact NvRecord.zeroPrefix_installRebootedValid _

/-- The state the settle leaves before the reset: the routine run again from it skips its
first two blocks, its settle finds no valid stage criteria, and its reset clears what the
uninterrupted reset clears. -/
theorem postReboot_settled {r r' : NvRecord} (hs : w.MarkStable) (hr : w.record = some r)
    (hq : w.installed f = some true) (hr' : r.settleInstalledCriteria = some r') :
    ({ w with kv := some r'.bytes }).postReboot f = w.settledOrReverted f := by
  obtain ⟨-, hlen, rfl⟩ := r.settleInstalledCriteria_eq_some hr'
  have hf := r.fields_settled hlen
  generalize r.settled (cStrlen (r.bytes.drop offsetofStageInstalledCriteria)) = r' at hf hr' ⊢
  have hiv : r'.installRebootedValid = r.installRebootedValid :=
    congrArg NvFields.installRebootedValid hf
  have hir : r'.installRebooted = r.installRebooted := congrArg NvFields.installRebooted hf
  have hsv : r'.stageVersionValid = r.stageVersionValid := congrArg NvFields.stageVersionValid hf
  have hver : r'.stageVersion = r.stageVersion := congrArg NvFields.stageVersion hf
  have hsc : r'.stageInstalledCriteriaValid = false :=
    congrArg NvFields.stageInstalledCriteriaValid hf
  have hrec : ({ w with kv := some r'.bytes } : World).record = some r' := record_of_kv rfl
  have hq' : ({ w with kv := some r'.bytes } : World).installed f = some true := by
    rw [← hq]
    exact installed_congr hr hrec (by simp only [NvRecord.installedFor, hiv, hir, hsv, hver]) rfl
  have hm : ({ w with kv := some r'.bytes } : World).marked = { w with kv := some r'.bytes } :=
    marked_of_markStable fun r'' hr'' hv => by
      rw [hrec] at hr''
      cases hr''
      rw [hir]
      exact hs r hr (hiv ▸ hv)
  have hnone : r'.settleInstalledCriteria = none := by
    simp [NvRecord.settleInstalledCriteria, hsc]
  unfold postReboot confirmed
  rw [hm, hq', if_neg (by simp)]
  unfold settledOrReverted
  simp only [hrec, hq', hr, hq, hnone, hr', Option.getD_some, Option.getD_none]

/-- Running the routine again from the state it leaves changes nothing. -/
theorem postReboot_postReboot : (w.postReboot f).postReboot f = w.postReboot f := by
  have hs : (w.marked.confirmed f).MarkStable := markStable_confirmed markStable_marked
  have hc : (w.marked.confirmed f).confirmed f = w.marked.confirmed f := confirmed_confirmed
  unfold postReboot
  generalize w.marked.confirmed f = w2 at hs hc
  by_cases hfix : w2.settledOrReverted f = w2
  · rw [hfix, marked_of_markStable hs, hc, hfix]
  · exact postReboot_of_not_valid (settledOrReverted_cleared hfix)

end World

/-- The persistent state left by the first `k` persistent writes of a run from `w` that
logged `entries`. -/
def cutAfterWrites (w : World) (entries : List (Call × World)) (k : Nat) : World :=
  (((entries.filter fun e => e.1.writesPersistent).take k).map Prod.snd).getLastD w

theorem cutAfterWrites_cases (w : World) (entries : List (Call × World)) (k : Nat) :
    cutAfterWrites w entries k = w ∨ ∃ e ∈ entries, cutAfterWrites w entries k = e.2 := by
  unfold cutAfterWrites
  generalize hl : ((entries.filter fun e => e.1.writesPersistent).take k) = l
  rcases List.eq_nil_or_concat l with rfl | ⟨L, b, rfl⟩
  · exact .inl rfl
  · refine .inr ⟨b, ?_, by simp⟩
    have hb : b ∈ (entries.filter fun e => e.1.writesPersistent).take k := by rw [hl]; simp
    exact (List.mem_filter.mp (List.mem_of_mem_take hb)).1

/-- Crash-idempotence of the boot-recovery routine: when the store's calls succeed and every
other call of a service has one fixed outcome, a reset after the first `k` persistent writes
of the routine, followed by a new run of the whole routine, leaves the persistent state one
uninterrupted run leaves; for `k` past the last write, running it twice is running it
once. -/
theorem updateNVImgUpgStPostReboot_crash_idempotent (f : Service → Bool)
    (hget : f .kvGet = true) (hset : f .kvSet = true) (m : Machine) (ho : m.oracle = .fixed f)
    (k : Nat) :
    let run := updateNVImgUpgStPostReboot m
    let cut := cutAfterWrites m.world (run.2.log.drop m.log.length) k
    (updateNVImgUpgStPostReboot { m with world := cut }).2.world = run.2.world := by
  intro run cut
  obtain ⟨n, es, h, hes⟩ := updateNVImgUpgStPostReboot_fixed hget hset ho
  have hdrop : run.2.log.drop m.log.length = es := by
    simp only [run, h]; simp
  simp only [cut, hdrop]
  generalize hc : cutAfterWrites m.world es k = c
  obtain ⟨n', es', h', -⟩ := updateNVImgUpgStPostReboot_fixed hget hset (m := { m with world := c }) ho
  simp only [h', run, h]
  show c.postReboot f = m.world.postReboot f
  rcases cutAfterWrites_cases m.world es k with hw | ⟨e, he, hw⟩ <;> rw [hc] at hw
  · rw [hw]
  rw [hw]
  rcases hes e he with h1 | h2 | h3 | ⟨r, r', hr, hq, hr', h4⟩
  · rw [h1, World.postReboot, World.postReboot,
      World.marked_of_markStable World.markStable_marked]
  · rw [h2, World.postReboot, World.postReboot,
      World.marked_of_markStable (World.markStable_confirmed World.markStable_marked),
      World.confirmed_confirmed]
  · rw [h3, World.postReboot_postReboot]
  · rw [h4, World.postReboot_settled (World.markStable_confirmed World.markStable_marked) hr hq hr']
    rfl

/-- A crash right after the first block's write on a record that staged an install of the
running image: the new run ends where the uninterrupted one ends. -/
theorem crash_after_mark_idempotent :
    let r := (NvRecord.zero.setStageVersion ImageHeader.zero.ihVer).setInstallRebooted false
    let m : Machine := ⟨⟨some r.bytes, [], 0, 0, .zero, false, false⟩, none,
      .fixed fun _ => true, 0, []⟩
    let run := updateNVImgUpgStPostReboot m
    let cut := cutAfterWrites m.world (run.2.log.drop m.log.length) 1
    (updateNVImgUpgStPostReboot { m with world := cut }).2.world = run.2.world :=
  updateNVImgUpgStPostReboot_crash_idempotent (fun _ => true) rfl rfl _ rfl 1

/-! ## A failed promotion -/

/-- From a record of a rebooted install of the running image that is not yet confirmed, a
failure of the settle's `kv_set`, or of the second `boot_read_image_ok`, leaves the image
confirmed and the record as `nvImgUpgSt_reset(false)` makes it: the stage fields cleared and
the persistent criteria as they were. -/
theorem postReboot_clears_unsettled_criteria {m : Machine} {r : NvRecord}
    (hr : m.world.record = some r) (hfor : r.installedFor m.world = true)
    (hok : m.world.imageOk = false) :
    ∀ o ∈ [Oracle.failAt .kvSet (m.clock + 9), Oracle.failAt .bootReadImageOk (m.clock + 7)],
      (updateNVImgUpgStPostReboot { m with oracle := o }).2.world =
        { m.world with imageOk := true, kv := some r.zeroPrefix.bytes } := by
  simp only [NvRecord.installedFor, Bool.and_eq_true, beq_iff_eq] at hfor
  simp only [World.record] at hr
  intro o ho
  simp only [List.mem_cons, List.mem_singleton, List.not_mem_nil, or_false] at ho
  rcases ho with rfl | rfl <;> rcases hs : r.settleInstalledCriteria with _ | r' <;>
    simp [hs, Oracle.failAt, updateNVImgUpgStPostReboot, markInstallRebooted, confirmInstall,
      settleOrRevert, nvImgUpgStInstalled_apply, Machine.readRecord, World.record, hr, hfor, hok,
      NvRecord.installedFor, nvImgUpgStSettleInstalledCriteria, nvImgUpgStUpdate_apply,
      nvImgUpgStReset_apply]

/-- An install of the running image staged with the criteria `"c"` and rebooted: under either
failure the stage criteria are gone and the persistent ones are still empty. -/
theorem postReboot_clears_unsettled_criteria_staged :
    let r := ((NvRecord.zero.setStageVersion ImageHeader.zero.ihVer).setInstallRebooted
      true).setStageInstalledCriteria [99]
    let m : Machine := ⟨⟨some r.bytes, [], 0, 0, .zero, false, false⟩, none, .reliable, 0, []⟩
    (m.world.record = some r ∧ r.installedFor m.world = true ∧ m.world.imageOk = false) ∧
      r.stageInstalledCriteriaValid = true ∧ r.zeroPrefix.stageInstalledCriteriaValid = false ∧
      r.zeroPrefix.persistentInstalledCriteriaValid = false ∧
      ∀ o ∈ [Oracle.failAt .kvSet (m.clock + 9), Oracle.failAt .bootReadImageOk (m.clock + 7)],
        (updateNVImgUpgStPostReboot { m with oracle := o }).2.world =
          { m.world with imageOk := true, kv := some r.zeroPrefix.bytes } :=
  ⟨⟨World.record_of_kv rfl, by decide, rfl⟩, by decide, by decide, by decide,
    postReboot_clears_unsettled_criteria (World.record_of_kv rfl) (by decide) rfl⟩

end AziotOta
