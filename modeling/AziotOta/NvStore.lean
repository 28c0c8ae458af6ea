import AziotOta.NvFields

/-!
# The store's operations

The eight `nvImgUpgSt_*` routines as data: five that write (`NvWrite`) and three that only
read (`NvQuery`). A write is described once, by the record it stores from the record
`nvImgUpgSt_getAll` returned, and one lemma says all a call can do; the frame of every routine
and the terminated criteria strings of every reachable blob are derived from it.
-/

namespace AziotOta

/-- A call of one of the `nvImgUpgSt_*` routines that write, with its arguments. -/
inductive NvWrite where
  | reset (includeReserved : Bool)
  | setStageVersion (stageVersion : ImageVersion)
  | setInstallRebooted (installRebooted : Bool)
  | setStageInstalledCriteria (installedCriteria : List UInt8)
  | settleInstalledCriteria

/-- A call of one of the `nvImgUpgSt_*` routines that only read. -/
inductive NvQuery where
  | installed
  | installRebooted
  | persistentInstalledCriteria (installedCriteriaMaxlen : Nat)

/-- A call of any `nvImgUpgSt_*` routine. -/
inductive NvOp where
  | write (w : NvWrite)
  | query (q : NvQuery)

namespace NvWrite

/-- The routine's call and its `bool` result. -/
def run : NvWrite → OtaM Bool
  | .reset includeReserved => nvImgUpgStReset includeReserved
  | .setStageVersion stageVersion => nvImgUpgStSetStageVersion stageVersion
  | .setInstallRebooted installRebooted => nvImgUpgStSetInstallRebooted installRebooted
  | .setStageInstalledCriteria installedCriteria =>
    nvImgUpgStSetStageInstalledCriteria installedCriteria
  | .settleInstalledCriteria => nvImgUpgStSettleInstalledCriteria

/-- The routine whose `nvImgUpgSt_setAll` issues the `kv_set`. -/
def site : NvWrite → Site
  | .reset _ => .reset
  | .setStageVersion _ => .setStageVersion
  | .setInstallRebooted _ => .setInstallRebooted
  | .setStageInstalledCriteria _ => .setStageInstalledCriteria
  | .settleInstalledCriteria => .settleInstalledCriteria

/-- The record the routine stores when its `kv_set` succeeds, from what its
`nvImgUpgSt_getAll` returned; `none` when it returns false without writing. -/
def stored : NvWrite → Option NvRecord → Option NvRecord
  | .reset includeReserved, r =>
    some (if includeReserved then .zero else (r.map NvRecord.zeroPrefix).getD .zero)
  | .setStageVersion stageVersion, r => r.map (·.setStageVersion stageVersion)
  | .setInstallRebooted installRebooted, r => r.map (·.setInstallRebooted installRebooted)
  | .setStageInstalledCriteria installedCriteria, r =>
    r.bind (NvRecord.updateStageInstalledCriteria installedCriteria)
  | .settleInstalledCriteria, r => r.bind NvRecord.settleInstalledCriteria

/-- What a write keeps of the bytes from `offsetof(reserved)` on, against the record
`prev` its `nvImgUpgSt_getAll` returned: all of them, except that the settle sets
`persistentInstalledCriteria_valid` and copies the stage string with its NUL into
`persistentInstalledCriteria`, and that a reset which includes the reserved region, or
whose read fails, zeroes the whole record. -/
def Frame : NvWrite → Option NvRecord → NvRecord → Prop
  | .reset true, _, r' => r' = .zero
  | .reset false, prev, r' =>
    (prev = none ∧ r' = .zero) ∨
      ∃ r, prev = some r ∧ r'.bytes = zeros offsetofReserved ++ r.bytes.drop offsetofReserved
  | .settleInstalledCriteria, prev, r' => ∃ r, prev = some r ∧
    r'.bytes.drop offsetofReserved =
      writeAt (writeAt (r.bytes.drop offsetofReserved)
          (offsetofPersistentInstalledCriteria - offsetofReserved)
          (readAt r.bytes offsetofStageInstalledCriteria
            (cStrlen (r.bytes.drop offsetofStageInstalledCriteria) + 1)))
        (offsetofPersistentInstalledCriteriaValid - offsetofReserved) [1]
  | _, prev, r' =>
    ∃ r, prev = some r ∧ r'.bytes.drop offsetofReserved = r.bytes.drop offsetofReserved

section Outcome

variable (m : Machine)

/-- A setter's outcome in terms of `stored`. -/
theorem outcome_of_update {site : Site} {update : NvRecord → Option NvRecord}
    {stored : Option NvRecord → Option NvRecord} (hs : ∀ r, stored (some r) = update r) :
    ∃ ok m', nvImgUpgStUpdate site update m = (.ok ok, m') ∧
      ((∃ r', ok = true ∧ stored m.readRecord = some r' ∧
          m.Extends m' { m.world with kv := some r'.bytes }
            [(.kvSet site true, { m.world with kv := some r'.bytes })]) ∨
        (ok = false ∧ ∃ es, m.Extends m' m.world es ∧ ∀ e ∈ es, e = (.kvSet site false, m.world))) := by
  obtain ⟨ok, m', h, ⟨r, r', rfl, hr, hu, e⟩ | hf⟩ := nvImgUpgStUpdate_outcome m site update
  · exact ⟨_, _, h, .inl ⟨r', rfl, by rw [hr, hs, hu], e⟩⟩
  · exact ⟨_, _, h, .inr hf⟩

/-- `nvImgUpgSt_setAll` of `r'` from a machine that only advanced the clock of `m`. -/
theorem setAll_outcome {m1 : Machine} (e1 : m.Extends m1 m.world []) (site : Site)
    (r' : NvRecord) :
    ∃ ok m', kvSet site r'.bytes m1 = (.ok ok, m') ∧
      ((ok = true ∧ m.Extends m' { m.world with kv := some r'.bytes }
          [(.kvSet site true, { m.world with kv := some r'.bytes })]) ∨
        (ok = false ∧ ∃ es, m.Extends m' m.world es ∧ ∀ e ∈ es, e = (.kvSet site false, m.world))) := by
  obtain ⟨ok, m', h, e⟩ := kvSet_outcome m1 site r'.bytes
  rw [e1.world] at e
  cases ok
  · exact ⟨_, _, h, .inr ⟨rfl, _, e1.trans e, by simp⟩⟩
  · exact ⟨_, _, h, .inl ⟨rfl, e1.trans e⟩⟩

/-- All a write can do: store the record `stored` makes of what it read, in one logged
`kv_set`, or leave the persistent state as it was, with every call it logs seeing it. -/
theorem run_outcome (w : NvWrite) :
    ∃ ok m', w.run m = (.ok ok, m') ∧
      ((∃ r', ok = true ∧ w.stored m.readRecord = some r' ∧
          m.Extends m' { m.world with kv := some r'.bytes }
            [(.kvSet w.site true, { m.world with kv := some r'.bytes })]) ∨
        (ok = false ∧ ∃ es, m.Extends m' m.world es ∧
          ∀ e ∈ es, e = (.kvSet w.site false, m.world))) := by
  cases w with
  | reset b =>
    cases b
    · obtain ⟨ok, m', h, hs | hf⟩ := setAll_outcome m (Machine.Extends.refl m) .reset
        ((m.readRecord.map NvRecord.zeroPrefix).getD .zero)
      · exact ⟨ok, m', by rw [run, nvImgUpgStReset_apply, if_neg Bool.false_ne_true]; exact h,
          .inl ⟨_, hs.1, rfl, hs.2⟩⟩
      · exact ⟨ok, m', by rw [run, nvImgUpgStReset_apply, if_neg Bool.false_ne_true]; exact h,
          .inr hf⟩
    · obtain ⟨ok, m', h, hs | hf⟩ :=
        setAll_outcome m ⟨rfl, rfl, rfl, (List.append_nil _).symm⟩ .reset .zero
      · exact ⟨ok, m', by rw [run, nvImgUpgStReset_apply, if_pos rfl]; exact h,
          .inl ⟨_, hs.1, rfl, hs.2⟩⟩
      · exact ⟨ok, m', by rw [run, nvImgUpgStReset_apply, if_pos rfl]; exact h, .inr hf⟩
  | setStageVersion v =>
    exact @outcome_of_update m .setStageVersion (fun r => some (r.setStageVersion v)) _ fun _ => rfl
  | setInstallRebooted b =>
    exact @outcome_of_update m .setInstallRebooted (fun r => some (r.setInstallRebooted b)) _
      fun _ => rfl
  | setStageInstalledCriteria c => exact outcome_of_update m (by intro; rfl)
  | settleInstalledCriteria => exact outcome_of_update m (by intro; rfl)

end Outcome

/-- The record a write stores keeps the bytes from `offsetof(reserved)` on as `Frame`
says. -/
theorem frame_stored {w : NvWrite} {prev : Option NvRecord} {r' : NvRecord}
    (h : w.stored prev = some r') : w.Frame prev r' := by
  cases w with
  | reset b =>
    obtain rfl := Option.some.inj h
    cases b
    · rcases prev with _ | r
      · exact .inl ⟨rfl, rfl⟩
      · exact .inr ⟨r, rfl, NvRecord.zeroPrefix_bytes r⟩
    · rfl
  | setStageVersion v =>
    obtain ⟨r, rfl, rfl⟩ := Option.map_eq_some'.mp h
    refine ⟨r, rfl, ?_⟩
    rw [NvRecord.setStageVersion, NvRecord.drop_write_of_le (by decide),
      NvRecord.drop_write_of_le (by rw [v.length_eq]; decide)]
  | setInstallRebooted b =>
    obtain ⟨r, rfl, rfl⟩ := Option.map_eq_some'.mp h
    exact ⟨r, rfl, by rw [NvRecord.setInstallRebooted, NvRecord.drop_write_of_le (by decide),
      NvRecord.drop_write_of_le (by cases b <;> decide)]⟩
  | setStageInstalledCriteria c =>
    obtain ⟨r, rfl, hu⟩ := Option.bind_eq_some.mp h
    obtain ⟨hc, rfl⟩ := r.updateStageInstalledCriteria_eq_some hu
    refine ⟨r, rfl, ?_⟩
    rw [NvRecord.setStageInstalledCriteria, NvRecord.drop_write_of_le (by decide),
      NvRecord.drop_write_of_le (by simp [offsetofStageInstalledCriteria, offsetofReserved,
        installedCriteriaMaxchar] at *; omega)]
  | settleInstalledCriteria =>
    obtain ⟨r, rfl, hu⟩ := Option.bind_eq_some.mp h
    obtain ⟨-, hlen, rfl⟩ := r.settleInstalledCriteria_eq_some hu
    refine ⟨r, rfl, ?_⟩
    generalize cStrlen (r.bytes.drop offsetofStageInstalledCriteria) = len at hlen ⊢
    have hcopy : (readAt r.bytes offsetofStageInstalledCriteria (len + 1)).length = len + 1 :=
      length_readAt_of_le (by rw [r.length_eq]; simp [offsetofStageInstalledCriteria,
        nvRecordSize, installedCriteriaMaxchar] at *; omega)
    rw [NvRecord.settled, NvRecord.drop_write_of_le (by decide),
      NvRecord.drop_write_of_le (by decide), NvRecord.drop_write_of_ge (by decide) (by decide),
      NvRecord.drop_write_of_ge (by rw [hcopy]; simp [offsetofPersistentInstalledCriteria,
        nvRecordSize, installedCriteriaMaxchar] at *; omega) (by decide)]

end NvWrite

namespace NvQuery

/-- The routine's call and its `bool` result; what it copies out is read through the
routine itself. -/
def run : NvQuery → OtaM Bool
  | .installed => return (← nvImgUpgStInstalled).isSome
  | .installRebooted => return (← nvImgUpgStInstallRebooted).isSome
  | .persistentInstalledCriteria installedCriteriaMaxlen =>
    return (← nvImgUpgStPersistentInstalledCriteria installedCriteriaMaxlen).isSome

/-- A query only advances the oracle's clock. -/
theorem run_frame (q : NvQuery) (m : Machine) :
    ∃ ok n, q.run m = (.ok ok, { m with clock := n }) := by
  cases q with
  | installed =>
    obtain ⟨_, n, h⟩ := nvImgUpgStInstalled_frame m
    exact ⟨_, n, by simp only [run, OtaM.bind_apply, h]; rfl⟩
  | installRebooted => exact ⟨_, _, by rw [run, OtaM.bind_apply, nvImgUpgStInstallRebooted_apply]; rfl⟩
  | persistentInstalledCriteria n =>
    exact ⟨_, _, by rw [run, OtaM.bind_apply, nvImgUpgStPersistentInstalledCriteria_apply]; rfl⟩

end NvQuery

/-- The routine's call and its `bool` result. -/
def NvOp.run : NvOp → OtaM Bool
  | .write w => w.run
  | .query q => q.run

/-- Frame and atomicity of the store. A query changes neither the persistent state nor the
log. A write that returns false leaves the persistent state as it was, and every call it
logs sees that state. A write that returns true has stored one whole record `r'` with its
one logged call, changed nothing else, and `r'` keeps the bytes from `offsetof(reserved)`
on as `NvWrite.Frame` says. -/
theorem nvImgUpgSt_frame (m : Machine) :
    (∀ q : NvQuery, ∃ ok m', q.run m = (.ok ok, m') ∧ m'.world = m.world ∧ m'.log = m.log) ∧
    ∀ w : NvWrite, ∃ ok m', w.run m = (.ok ok, m') ∧
      (ok = false → m'.world = m.world ∧ ∃ es, m'.log = m.log ++ es ∧ ∀ e ∈ es, e.2 = m.world) ∧
      (ok = true → ∃ r', m'.world = { m.world with kv := some r'.bytes } ∧
        m'.log = m.log ++ [(.kvSet w.site true, m'.world)] ∧ w.Frame m.readRecord r') := by
  refine ⟨fun q => ?_, fun w => ?_⟩
  · obtain ⟨ok, n, h⟩ := q.run_frame m
    exact ⟨ok, _, h, rfl, rfl⟩
  · obtain ⟨ok, m', h, ⟨r', rfl, hs, e⟩ | ⟨rfl, es, e, hes⟩⟩ := w.run_outcome m
    · refine ⟨_, _, h, (fun h => by cases h), fun _ => ⟨r', e.world, ?_, NvWrite.frame_stored hs⟩⟩
      rw [e.log, e.world]
    · exact ⟨_, _, h, fun _ => ⟨e.world, es, e.log, fun x hx => by rw [hes x hx]⟩,
        (fun h => by cases h)⟩

set_option maxRecDepth 10000 in
/-- A `reset(false)` whose `kv_get` fails zeroes the whole record it overwrites, the valid
persistent criteria beyond `offsetof(reserved)` included. -/
theorem reset_zeroes_reserved_on_failed_read :
    let r := NvRecord.zero.write offsetofPersistentInstalledCriteriaValid [1]
    let m : Machine := ⟨⟨some r.bytes, [], 0, 0, .zero, false, false⟩, none,
      Oracle.failKvGetAt 0, 0, []⟩
    r.persistentInstalledCriteriaValid = true ∧
      ((NvWrite.reset false).run m).1.toOption = some true ∧
      ((NvWrite.reset false).run m).2.world.kv = some NvRecord.zero.bytes := by
  intro r m
  decide

/-! ## The criteria strings stay terminated -/

/-- Both criteria arrays hold a NUL within their `INSTALLEDCRITERIA_MAXCHAR + 1` bytes. -/
def NvFields.CriteriaTerminated (f : NvFields) : Prop :=
  0 ∈ f.stageInstalledCriteria ∧ 0 ∈ f.persistentInstalledCriteria

namespace NvRecord

variable {r : NvRecord}

theorem criteriaTerminated_zero : zero.fields.CriteriaTerminated := by
  rw [fields_zero]
  exact ⟨List.mem_replicate.mpr ⟨by decide, rfl⟩, List.mem_replicate.mpr ⟨by decide, rfl⟩⟩

/-- A NUL in the stage array bounds the `strlen` the settle takes of it. -/
theorem cStrlen_stage_lt (h : 0 ∈ r.stageInstalledCriteria) :
    cStrlen (r.bytes.drop offsetofStageInstalledCriteria) < installedCriteriaMaxchar + 1 :=
  cStrlen_lt_of_zero_mem_take h

theorem cStrlen_persistent_lt (h : 0 ∈ r.persistentInstalledCriteria) :
    cStrlen (r.bytes.drop offsetofPersistentInstalledCriteria) < installedCriteriaMaxchar + 1 :=
  cStrlen_lt_of_zero_mem_take h

end NvRecord

/-- Every record a write stores has both strings terminated when the record it read has. -/
theorem NvWrite.criteriaTerminated_stored {w : NvWrite} {prev : Option NvRecord} {r' : NvRecord}
    (hprev : ∀ r, prev = some r → r.fields.CriteriaTerminated) (h : w.stored prev = some r') :
    r'.fields.CriteriaTerminated := by
  have hzeros : (0 : UInt8) ∈ zeros (installedCriteriaMaxchar + 1) :=
    List.mem_replicate.mpr ⟨by decide, rfl⟩
  cases w with
  | reset b =>
    obtain rfl := Option.some.inj h
    cases b
    · rcases prev with _ | r
      · exact NvRecord.criteriaTerminated_zero
      · show r.zeroPrefix.fields.CriteriaTerminated
        rw [NvRecord.fields_zeroPrefix]
        exact ⟨hzeros, (hprev r rfl).2⟩
    · exact NvRecord.criteriaTerminated_zero
  | setStageVersion v =>
    obtain ⟨r, rfl, rfl⟩ := Option.map_eq_some'.mp h
    rw [NvRecord.fields_setStageVersion]
    exact hprev r rfl
  | setInstallRebooted b =>
    obtain ⟨r, rfl, rfl⟩ := Option.map_eq_some'.mp h
    rw [NvRecord.fields_setInstallRebooted]
    exact hprev r rfl
  | setStageInstalledCriteria c =>
    obtain ⟨r, rfl, hu⟩ := Option.bind_eq_some.mp h
    obtain ⟨hc, rfl⟩ := r.updateStageInstalledCriteria_eq_some hu
    rw [r.fields_setStageInstalledCriteria hc]
    exact ⟨by simp [cStr], (hprev r rfl).2⟩
  | settleInstalledCriteria =>
    obtain ⟨r, rfl, hu⟩ := Option.bind_eq_some.mp h
    obtain ⟨-, hlen, rfl⟩ := r.settleInstalledCriteria_eq_some hu
    rw [r.fields_settled hlen]
    refine ⟨hzeros, ?_⟩
    rw [writeAt_zero]
    exact List.mem_append_left _ (zero_mem_take_cStrlen_succ (hprev r rfl).1)

/-- The blobs a sequence of `nvImgUpgSt_*` calls can leave in the store, from an absent or a
zeroed record, whatever their arguments and whichever platform calls fail. -/
inductive NvReachable : Option (List UInt8) → Prop
  | absent : NvReachable none
  | zeroed : NvReachable (some NvRecord.zero.bytes)
  | step (op : NvOp) (m : Machine) : NvReachable m.world.kv → NvReachable (op.run m).2.world.kv

/-- The invariant of the reachable blobs: a record in the store has both strings
terminated. -/
theorem nvReachable_terminated {kv : Option (List UInt8)} (h : NvReachable kv) :
    ∀ r, kv.bind NvRecord.ofBytes? = some r → r.fields.CriteriaTerminated := by
  induction h with
  | absent => intro r h; cases h
  | zeroed =>
    intro r h
    rw [Option.some_bind, NvRecord.ofBytes?_bytes] at h
    obtain rfl := Option.some.inj h
    exact NvRecord.criteriaTerminated_zero
  | step op m _ ih =>
    cases op with
    | query q =>
      obtain ⟨ok, n, hq⟩ := q.run_frame m
      simpa only [NvOp.run, hq] using ih
    | write w =>
      obtain ⟨ok, m', hw, ⟨r', rfl, hs, e⟩ | ⟨rfl, es, e, -⟩⟩ := w.run_outcome m
      · intro r hr
        rw [NvOp.run, hw, e.world, Option.some_bind, NvRecord.ofBytes?_bytes] at hr
        obtain rfl := Option.some.inj hr
        exact NvWrite.criteriaTerminated_stored (fun r hr =>
          ih r (Machine.record_of_readRecord m hr)) hs
      · simpa only [NvOp.run, hw, e.world] using ih

/-- The installed-criteria strings stay NUL-terminated: in every record a sequence of
`nvImgUpgSt_*` calls can leave, both arrays hold a NUL within their
`INSTALLEDCRITERIA_MAXCHAR + 1` bytes, so the `strlen` guards of the settle never fire, every
copy into either array moves at most `INSTALLEDCRITERIA_MAXCHAR + 1` bytes, and with
`persistentInstalledCriteria_valid` set a read of the persistent criteria into a buffer of
that size, as `IsInstalled` makes, succeeds whenever its `kv_get` does. -/
theorem nvReachable_criteria_terminated {kv : Option (List UInt8)} (h : NvReachable kv)
    {r : NvRecord} (hr : kv.bind NvRecord.ofBytes? = some r) :
    0 ∈ r.stageInstalledCriteria ∧ 0 ∈ r.persistentInstalledCriteria ∧
      cStrlen (r.bytes.drop offsetofStageInstalledCriteria) ≤ installedCriteriaMaxchar ∧
      cStrlen (r.bytes.drop offsetofPersistentInstalledCriteria) ≤ installedCriteriaMaxchar ∧
      ∀ m : Machine, m.world.kv = kv → m.oracle .kvGet m.clock = true →
        r.persistentInstalledCriteriaValid = true →
        ∃ c, (nvImgUpgStPersistentInstalledCriteria (installedCriteriaMaxchar + 1) m).1 =
          .ok (some c) ∧ c.length ≤ installedCriteriaMaxchar + 1 := by
  obtain ⟨hs, hp⟩ := nvReachable_terminated h r hr
  have hsl := NvRecord.cStrlen_stage_lt hs
  have hpl := NvRecord.cStrlen_persistent_lt hp
  refine ⟨hs, hp, by omega, by omega, fun m hkv hget hvalid => ?_⟩
  have hread : m.readRecord = some r := by
    rw [Machine.readRecord, if_pos hget, World.record, hkv, hr]
  refine ⟨_, by rw [nvImgUpgStPersistentInstalledCriteria_apply, hread, Option.some_bind,
    hvalid, Bool.not_true, if_neg Bool.false_ne_true, if_neg (by omega)], ?_⟩
  rw [length_readAt_of_le (by rw [r.length_eq]; simp [offsetofPersistentInstalledCriteria,
    nvRecordSize, installedCriteriaMaxchar] at *; omega)]
  omega

set_option maxRecDepth 10000 in
/-- From a zeroed record, the stage criteria "v2" set and then settled: a store whose
persistent criteria are valid, with both strings terminated and the persistent one read
back within the caller's buffer. -/
theorem settled_criteria_terminated :
    let m0 : Machine :=
      ⟨⟨some NvRecord.zero.bytes, [], 0, 0, .zero, false, false⟩, none, .reliable, 0, []⟩
    let m1 := ((NvOp.write (.setStageInstalledCriteria [118, 50, 0])).run m0).2
    let kv := ((NvOp.write .settleInstalledCriteria).run m1).2.world.kv
    let r := (NvRecord.zero.setStageInstalledCriteria [118, 50, 0]).settled 2
    NvReachable kv ∧ kv.bind NvRecord.ofBytes? = some r ∧ r.persistentInstalledCriteriaValid = true ∧
      0 ∈ r.stageInstalledCriteria ∧ 0 ∈ r.persistentInstalledCriteria ∧
      cStrlen (r.bytes.drop offsetofStageInstalledCriteria) ≤ installedCriteriaMaxchar ∧
      cStrlen (r.bytes.drop offsetofPersistentInstalledCriteria) ≤ installedCriteriaMaxchar ∧
      ∀ m : Machine, m.world.kv = kv → m.oracle .kvGet m.clock = true →
        r.persistentInstalledCriteriaValid = true →
        ∃ c, (nvImgUpgStPersistentInstalledCriteria (installedCriteriaMaxchar + 1) m).1 =
          .ok (some c) ∧ c.length ≤ installedCriteriaMaxchar + 1 := by
  intro m0 m1 kv r
  have hreach : NvReachable kv := .step _ m1 (.step _ m0 .zeroed)
  have hr : kv.bind NvRecord.ofBytes? = some r := rfl
  exact ⟨hreach, hr, rfl, nvReachable_criteria_terminated hreach hr⟩

end AziotOta
