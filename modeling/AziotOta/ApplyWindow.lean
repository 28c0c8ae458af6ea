import AziotOta.Handler

/-!
# The window between `boot_set_pending` and the reboot

`Apply` makes three persistent writes: the stage installed criteria, MCUboot's pending
request, and `installRebooted = false`. Any of them may fail and a reset may follow any of
them. Started after a Download, which leaves `installRebooted_valid` clear and no request,
every state `Apply` can leave with the request set has the stage criteria stored; only the
state of an `Apply_RequiredReboot` result also has `installRebooted_valid`. In the others
(a reset right after `boot_set_pending`, or a failure of the last `kv_set`, which `Apply`
reports as a failure) the recovery routine of the next boot writes nothing.
-/

namespace AziotOta

/-- What a state `w` left by a run of `Apply` that ended in `wEnd` with `res` satisfies when
MCUboot's pending request is set in it: the stage criteria are stored, and either
`installRebooted_valid` is set with `installRebooted` false, which happens only in the state
an `Apply_RequiredReboot` result ends in, or it is clear and the recovery routine writes
nothing at any boot that finds this store, before MCUboot's swap or after it. -/
def PendingSafe (res : Except Fault AducResultCode) (wEnd w : World) : Prop :=
  w.pending = true → ∃ r, w.record = some r ∧ r.stageInstalledCriteriaValid = true ∧
    ((r.installRebootedValid = true ∧ r.installRebooted = false ∧ w = wEnd ∧
        res = .ok .applyRequiredReboot) ∨
      (r.installRebootedValid = false ∧ ∀ m : Machine, m.world.kv = w.kv →
        (updateNVImgUpgStPostReboot m).2.world = m.world ∧
          (updateNVImgUpgStPostReboot m).2.log = m.log))

section PendingSafe

variable {res : Except Fault AducResultCode} {wEnd w : World}

theorem pendingSafe_of_not_pending (h : w.pending = false) : PendingSafe res wEnd w := by
  intro hp; rw [h] at hp; cases hp

/-- A state with the stage criteria stored and `installRebooted_valid` clear. -/
theorem pendingSafe_of_stage {r : NvRecord} (hr : w.record = some r)
    (hsc : r.stageInstalledCriteriaValid = true) (hir : r.installRebootedValid = false) :
    PendingSafe res wEnd w := fun _ =>
  ⟨r, hr, hsc, .inr ⟨hir, fun m hm => updateNVImgUpgStPostReboot_idle m fun r' hr' => by
    have hw : w.record = some r' := by rw [World.record, ← hm]; exact hr'
    rw [hr] at hw; cases hw; exact hir⟩⟩

end PendingSafe

/-- Every state a run of `Apply` from `m` leaves, at each logged call and at its end, is
`PendingSafe`, and an `Apply_RequiredReboot` result ends with the request set and a record
that says the install has not rebooted yet. -/
def ApplyWindowSafe (wf : Workflow) (m : Machine) : Prop :=
  ∃ entries, (apply wf m).2.log = m.log ++ entries ∧
    (∀ w ∈ entries.map Prod.snd ++ [(apply wf m).2.world],
      PendingSafe (apply wf m).1 (apply wf m).2.world w) ∧
    ((apply wf m).1 = .ok .applyRequiredReboot → ∃ r, (apply wf m).2.world.pending = true ∧
      (apply wf m).2.world.record = some r ∧ r.installRebootedValid = true ∧
      r.installRebooted = false ∧ r.stageInstalledCriteriaValid = true)

/-- Apply is crash-consistent with the recovery routine in the weaker sense the code gives:
started without a pending request and with `installRebooted_valid` clear, as a Download
leaves them, every state it can leave with the request set has the stage criteria stored,
only the end of an `Apply_RequiredReboot` result has `installRebooted_valid`, and in the
other pending states the recovery routine writes nothing. -/
theorem apply_pending_safe (wf : Workflow) (m : Machine) (hpend : m.world.pending = false)
    (hir : ∀ r, m.world.record = some r → r.installRebootedValid = false) :
    ApplyWindowSafe wf m := by
  unfold ApplyWindowSafe
  obtain ⟨_ | c, cr, rc⟩ := wf
  · exact ⟨[], by simp [apply], by simp [apply, pendingSafe_of_not_pending hpend], by simp [apply]⟩
  by_cases h0 : cStrlen c = 0
  · exact ⟨[], by simp [apply, h0], by simp [apply, h0, pendingSafe_of_not_pending hpend],
      by simp [apply, h0]⟩
  by_cases hc : cr = true
  · exact ⟨[], by simp [apply, h0, hc], by simp [apply, h0, hc, pendingSafe_of_not_pending hpend],
      by simp [apply, h0, hc, cancel]; split <;> simp⟩
  obtain rfl : cr = false := by simpa using hc
  have hstage :=
    nvImgUpgStUpdate_outcome m .setStageInstalledCriteria (NvRecord.updateStageInstalledCriteria c)
  rw [← nvImgUpgStSetStageInstalledCriteria] at hstage
  obtain ⟨ok1, m1, h1, ⟨r, r1, rfl, hr, hu, e1⟩ | ⟨rfl, es, e1, hes⟩⟩ := hstage
  · obtain ⟨-, rfl⟩ := r.updateStageInstalledCriteria_eq_some hu
    have hirr : r.installRebootedValid = false := hir r (Machine.record_of_readRecord m hr)
    obtain ⟨ok2, m2, h2, e2⟩ := bootSetPending_outcome m1
    cases ok2
    · -- the request fails: nothing pending
      have happ : apply ⟨some c, false, rc⟩ m = (.ok .failure, m2) := by simp [apply, h0, h1, h2, -bootSetPending_apply]
      refine ⟨_, by rw [happ, (e1.trans e2).log], fun w hw => ?_, by rw [happ]; simp⟩
      rw [happ] at hw ⊢
      simp only [e2.world, e1.world, List.map_append, List.map_cons, List.map_nil, if_false,
        Bool.false_eq_true, List.mem_append, List.mem_cons, List.mem_singleton, List.not_mem_nil,
        or_false, or_self] at hw
      exact pendingSafe_of_not_pending (by rw [hw]; exact hpend)
    · have hins := nvImgUpgStUpdate_outcome m2 .setInstallRebooted
        (fun r => some (r.setInstallRebooted false))
      rw [← nvImgUpgStSetInstallRebooted] at hins
      have hw2 : m2.world.record = some (r.setStageInstalledCriteria c) :=
        World.record_of_kv (by rw [e2.world, if_pos rfl, e1.world])
      have hsafe2 : ∀ res wEnd w, m2.world = w → PendingSafe res wEnd w := by
        rintro _ _ _ rfl; exact pendingSafe_of_stage hw2 (by simp) (by simp [hirr])
      obtain ⟨ok3, m3, h3, ⟨r1', r2, rfl, hr1', hu2, e3⟩ | ⟨rfl, es', e3, hes'⟩⟩ := hins
      · -- every write succeeds
        obtain rfl : r1' = r.setStageInstalledCriteria c :=
          Option.some.inj ((Machine.record_of_readRecord m2 hr1').symm.trans hw2)
        obtain rfl := Option.some.inj hu2.symm
        have happ : apply ⟨some c, false, rc⟩ m = (.ok .applyRequiredReboot, m3) := by
          simp [apply, h0, h1, h2, h3, -bootSetPending_apply]
        have hw3 : m3.world.record = some ((r.setStageInstalledCriteria c).setInstallRebooted false) :=
          World.record_of_kv (by rw [e3.world])
        have hp3 : m3.world.pending = true := by rw [e3.world, e2.world, if_pos rfl]
        refine ⟨_, by rw [happ, ((e1.trans e2).trans e3).log], fun w hw => ?_,
          fun _ => ⟨_, by rw [happ]; exact hp3, by rw [happ]; exact hw3, by simp, by simp, by simp⟩⟩
        rw [happ] at hw ⊢
        simp only [List.map_append, List.map_cons, List.map_nil, if_true, List.mem_append,
          List.mem_cons, List.mem_singleton, List.not_mem_nil, or_false] at hw
        rcases hw with ((rfl | rfl) | rfl) | rfl
        · exact pendingSafe_of_not_pending hpend
        · exact hsafe2 _ _ _ (by rw [e2.world]; rfl)
        · rw [← e3.world]
          exact fun _ => ⟨_, hw3, by simp, .inl ⟨by simp, by simp, rfl, rfl⟩⟩
        · exact fun _ => ⟨_, hw3, by simp, .inl ⟨by simp, by simp, rfl, rfl⟩⟩
      · -- the last write fails with the request set
        have happ : apply ⟨some c, false, rc⟩ m = (.ok .failure, m3) := by
          simp [apply, h0, h1, h2, h3, -bootSetPending_apply]
        refine ⟨_, by rw [happ, ((e1.trans e2).trans e3).log], fun w hw => ?_, by rw [happ]; simp⟩
        rw [happ] at hw ⊢
        simp only [List.map_append, List.map_cons, List.map_nil, if_true, List.mem_append,
          List.mem_cons, List.mem_singleton, List.not_mem_nil, or_false, List.mem_map] at hw
        rcases hw with ((rfl | rfl) | ⟨e, he, rfl⟩) | rfl
        · exact pendingSafe_of_not_pending hpend
        · exact hsafe2 _ _ _ (by rw [e2.world]; rfl)
        · exact hsafe2 _ _ _ (by rw [hes' e he])
        · exact hsafe2 _ _ _ e3.world.symm
  · have happ : apply ⟨some c, false, rc⟩ m = (.ok .failure, m1) := by
      simp [apply, h0, h1]
    refine ⟨es, by rw [happ, e1.log], fun w hw => ?_, by rw [happ]; simp⟩
    rw [happ, e1.world] at hw ⊢
    simp only [List.mem_append, List.mem_map, List.mem_singleton] at hw
    apply pendingSafe_of_not_pending
    rcases hw with ⟨e, he, rfl⟩ | rfl
    · rw [hes e he]; exact hpend
    · exact hpend

theorem apply_pending_safe_after_download :
    ApplyWindowSafe ⟨some [99, 0], false, true⟩
      ⟨⟨some NvRecord.zero.bytes, [], 0, 0, .zero, false, false⟩, none, .reliable, 0, []⟩ :=
  apply_pending_safe _ _ rfl fun r hr => by
    rw [World.record_of_kv rfl] at hr
    cases hr
    decide

set_option maxRecDepth 10000 in
/-- After a Download, an `Apply` whose last `kv_set` (the fifth fallible call) fails returns
a failure and leaves the pending request set, with `installRebooted_valid` clear. -/
theorem apply_fails_with_pending_request :
    let m : Machine := ⟨⟨some NvRecord.zero.bytes, [], 0, 0, .zero, false, false⟩, none,
      Oracle.failKvSetAt 4, 0, []⟩
    (apply ⟨some [99, 0], false, true⟩ m).1.toOption = some .failure ∧
      (apply ⟨some [99, 0], false, true⟩ m).2.world.pending = true ∧
      (apply ⟨some [99, 0], false, true⟩ m).2.world.record.map NvRecord.installRebootedValid =
        some false := by
  intro m
  decide

end AziotOta
