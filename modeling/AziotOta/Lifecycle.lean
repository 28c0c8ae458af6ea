import AziotOta.NvStore
import AziotOta.Handler

/-!
# Settle only after a confirmed boot, over whole lifecycles

A lifecycle is any sequence of a Download's store writes, Applies, reboots that change the
running image as MCUboot may, the boot-recovery routine at every boot, and resets after any
logged call (`LifeReachable`). A history (`Ghost`) records each store write and every settle
with the state it happened in; the invariant `NvInv` ties the record to it, and every write
keeps it. Hence every settle is confirmed, and `IsInstalled` reports `Installed` only for the
criteria of the last settle.
-/

namespace AziotOta

/-- A settle as the history records it: the criteria it made persistent, the running
image's version and image-ok flag when it wrote, whether it ran in the boot-recovery
routine, whether a reboot came after the last Apply stored its criteria, and what that Apply
stored with the version the Download before it had recorded. -/
structure SettleEvent where
  criteria : List UInt8
  activeVersion : ImageVersion
  imageOk : Bool
  atBoot : Bool
  rebooted : Bool
  applied : Option (List UInt8 × Option ImageVersion)

/-- A settle as the design intends it: in the boot-recovery routine, after a reboot that
followed the Apply that stored these criteria, with the running image the one the Download
before that Apply recorded, and its image-ok flag set. -/
def SettleEvent.Confirmed (ev : SettleEvent) : Prop :=
  ev.atBoot = true ∧ ev.rebooted = true ∧ ev.applied = some (ev.criteria, some ev.activeVersion) ∧
    ev.imageOk = true

/-- The history of the store's writes: the stage version the last Download stored, the
criteria (with their NUL) the last Apply stored together with that version, whether a reboot
came since, and the settles, latest first. -/
structure Ghost where
  downloaded : Option ImageVersion
  applied : Option (List UInt8 × Option ImageVersion)
  rebooted : Bool
  settles : List SettleEvent

/-- The history of a device that has just booted for the first time. -/
def Ghost.init : Ghost := ⟨none, none, true, []⟩

/-- The history after one logged call, made in the boot-recovery routine or not. -/
def Ghost.step (atBoot : Bool) (g : Ghost) (e : Call × World) : Ghost :=
  match e.1, e.2.record with
  | .kvSet .setStageVersion true, some r => { g with downloaded := some r.stageVersion }
  | .kvSet .setStageInstalledCriteria true, some r =>
    { g with applied := some (cStr r.stageInstalledCriteria, g.downloaded), rebooted := false }
  | .kvSet .settleInstalledCriteria true, some r =>
    { g with settles := ⟨cStr r.persistentInstalledCriteria, e.2.primaryHeader.ihVer, e.2.imageOk,
      atBoot, g.rebooted, g.applied⟩ :: g.settles }
  | _, _ => g

/-- The history after the logged calls `es`. -/
def Ghost.run (atBoot : Bool) (g : Ghost) (es : List (Call × World)) : Ghost :=
  es.foldl (Ghost.step atBoot) g

theorem Ghost.step_of_not_kvSet {atBoot : Bool} {g : Ghost} {e : Call × World}
    (h : ∀ s, e.1 ≠ .kvSet s true) : Ghost.step atBoot g e = g := by
  unfold Ghost.step
  split
  all_goals first | rfl | exact absurd ‹_› (h _)

/-- The persistent state after the logged calls `es` from `w`. -/
def lastWorld : World → List (Call × World) → World
  | w, [] => w
  | _, e :: es => lastWorld e.2 es

/-! ## The invariant -/

/-- What the record's fields say about the history: a valid stage version is the one the
last Download stored, valid stage criteria are those the last Apply stored, with the version
of a valid stage version, and valid persistent criteria are those of the last settle. -/
structure FieldsInv (f : NvFields) (g : Ghost) : Prop where
  downloaded : f.stageVersionValid = true → g.downloaded = some f.stageVersion
  applied : f.stageInstalledCriteriaValid = true → ∃ ver,
    g.applied = some (cStr f.stageInstalledCriteria, ver) ∧
      (f.stageVersionValid = true → ver = some f.stageVersion)
  settled : f.persistentInstalledCriteriaValid = true →
    ∃ ev, g.settles.head? = some ev ∧ ev.criteria = cStr f.persistentInstalledCriteria

/-- The invariant of a persistent state `w` with history `g`, in the boot-recovery routine or
not: the record agrees with the history, every settle so far was confirmed, and a reboot came
since the last Apply stored its criteria when the routine runs. -/
structure NvInv (atBoot : Bool) (w : World) (g : Ghost) : Prop where
  terminated : ∀ r, w.record = some r → r.fields.CriteriaTerminated
  fields : ∀ r, w.record = some r → FieldsInv r.fields g
  confirmed : ∀ ev ∈ g.settles, ev.Confirmed
  rebooted : atBoot = true → g.rebooted = true

theorem NvInv.of_kv {atBoot : Bool} {w w' : World} {g : Ghost} (h : NvInv atBoot w g)
    (hkv : w'.kv = w.kv) : NvInv atBoot w' g :=
  ⟨fun r hr => h.terminated r (by rwa [World.record, hkv] at hr),
    fun r hr => h.fields r (by rwa [World.record, hkv] at hr), h.confirmed, h.rebooted⟩

/-! ## Each write keeps the invariant -/

/-- What a write needs of the state it starts from: the stage version is written only with
no valid stage criteria (a Download writes it right after its reset), the stage criteria
only outside the boot-recovery routine (by an Apply), and the settle only in the routine,
after `nvImgUpgSt_installed` found a rebooted install of the running image confirmed. -/
def NvWrite.Pre (atBoot : Bool) (w : World) : NvWrite → Prop
  | .setStageVersion _ => ∀ r, w.record = some r → r.stageInstalledCriteriaValid = false
  | .setStageInstalledCriteria _ => atBoot = false
  | .settleInstalledCriteria =>
    atBoot = true ∧ ∀ r, w.record = some r → r.installedFor w = true ∧ w.imageOk = true
  | _ => True

namespace NvRecord

variable {r : NvRecord} {g : Ghost}

theorem fieldsInv_zero : FieldsInv zero.fields g := by
  rw [fields_zero]
  exact ⟨(fun h => by cases h), (fun h => by cases h), (fun h => by cases h)⟩

theorem fieldsInv_zeroPrefix (h : FieldsInv r.fields g) : FieldsInv r.zeroPrefix.fields g := by
  rw [fields_zeroPrefix]
  exact ⟨(fun h => by cases h), (fun h => by cases h), h.settled⟩

theorem fieldsInv_setStageVersion (h : FieldsInv r.fields g)
    (hsc : r.stageInstalledCriteriaValid = false) (v : ImageVersion) :
    FieldsInv (r.setStageVersion v).fields
      { g with downloaded := some (r.setStageVersion v).stageVersion } := by
  have hv : (r.setStageVersion v).stageVersion = v :=
    congrArg NvFields.stageVersion (r.fields_setStageVersion v)
  rw [fields_setStageVersion, hv]
  refine ⟨fun _ => rfl, fun h' => ?_, h.settled⟩
  rw [show r.fields.stageInstalledCriteriaValid = false from hsc] at h'
  cases h'

theorem fieldsInv_setInstallRebooted (h : FieldsInv r.fields g) (b : Bool) :
    FieldsInv (r.setInstallRebooted b).fields g := by
  rw [fields_setInstallRebooted]
  exact ⟨h.downloaded, h.applied, h.settled⟩

theorem fieldsInv_setStageInstalledCriteria (h : FieldsInv r.fields g) {c : List UInt8}
    (hc : cStrlen c ≤ installedCriteriaMaxchar) :
    FieldsInv (r.setStageInstalledCriteria c).fields
      { g with applied := some (cStr (r.setStageInstalledCriteria c).stageInstalledCriteria,
        g.downloaded), rebooted := false } := by
  have hs : (r.setStageInstalledCriteria c).stageInstalledCriteria =
      writeAt r.stageInstalledCriteria 0 (cStr c) :=
    congrArg NvFields.stageInstalledCriteria (r.fields_setStageInstalledCriteria hc)
  rw [fields_setStageInstalledCriteria _ hc, hs]
  exact ⟨h.downloaded, fun _ => ⟨_, rfl, h.downloaded⟩, h.settled⟩

theorem fieldsInv_settled (h : FieldsInv r.fields g) {len : Nat}
    (hlen : len ≤ installedCriteriaMaxchar) {ev : SettleEvent}
    (hev : ev.criteria = cStr (r.settled len).persistentInstalledCriteria) :
    FieldsInv (r.settled len).fields { g with settles := ev :: g.settles } := by
  have hf := r.fields_settled hlen
  generalize r.settled len = r' at hf hev
  have hev' : ev.criteria = cStr r'.fields.persistentInstalledCriteria := hev
  rw [hf] at hev' ⊢
  exact ⟨h.downloaded, (fun h => by cases h), fun _ => ⟨ev, rfl, hev'⟩⟩

/-- What the settle copies, read as a C string, is the stage string. -/
theorem cStr_persistent_settled (ht : 0 ∈ r.stageInstalledCriteria)
    (hlen : cStrlen (r.bytes.drop offsetofStageInstalledCriteria) ≤ installedCriteriaMaxchar) :
    cStr (r.settled (cStrlen (r.bytes.drop offsetofStageInstalledCriteria))).persistentInstalledCriteria =
      cStr r.stageInstalledCriteria := by
  have hp := congrArg NvFields.persistentInstalledCriteria (r.fields_settled hlen)
  have hl : cStrlen (r.bytes.drop offsetofStageInstalledCriteria) =
      cStrlen r.stageInstalledCriteria := (cStrlen_take ht).symm
  simp only [fields] at hp
  rw [hp, hl, readAt, List.drop_zero, take_cStrlen_succ ht, cStr_writeAt_zero_cStr]

/-- A settle in the boot-recovery routine, after `nvImgUpgSt_installed` found a rebooted
install of the running image confirmed, is a confirmed settle. -/
theorem settleEvent_confirmed {atBoot : Bool} {w : World} (hf : FieldsInv r.fields g)
    (ht : 0 ∈ r.stageInstalledCriteria) (hsc : r.stageInstalledCriteriaValid = true)
    (hlen : cStrlen (r.bytes.drop offsetofStageInstalledCriteria) ≤ installedCriteriaMaxchar)
    (hfor : r.installedFor w = true) (hok : w.imageOk = true) (hb : atBoot = true)
    (hreb : g.rebooted = true) :
    SettleEvent.Confirmed ⟨cStr (r.settled (cStrlen (r.bytes.drop
      offsetofStageInstalledCriteria))).persistentInstalledCriteria, w.primaryHeader.ihVer,
      w.imageOk, atBoot, g.rebooted, g.applied⟩ := by
  obtain ⟨ver, happ, hver⟩ := hf.applied hsc
  simp only [installedFor, Bool.and_eq_true, beq_iff_eq] at hfor
  refine ⟨hb, hreb, ?_, hok⟩
  show g.applied = _
  rw [happ, hver hfor.1.2, r.cStr_persistent_settled ht hlen, ← hfor.2]
  rfl

end NvRecord

/-- Every write keeps the invariant, when it starts from a state that meets its `Pre` and
stores the record it makes of what it read there. -/
theorem nvInv_stored {atBoot : Bool} {w : World} {g : Ghost} {wr : NvWrite}
    {read : Option NvRecord} {r' : NvRecord} (hread : ∀ r, read = some r → w.record = some r)
    (hs : wr.stored read = some r') (hinv : NvInv atBoot w g) (hpre : wr.Pre atBoot w) :
    NvInv atBoot { w with kv := some r'.bytes }
      (Ghost.step atBoot g (.kvSet wr.site true, { w with kv := some r'.bytes })) := by
  have ht : r'.fields.CriteriaTerminated := NvWrite.criteriaTerminated_stored
    (fun r hr => hinv.terminated r (hread r hr)) hs
  have hterm : ∀ r, ({ w with kv := some r'.bytes } : World).record = some r →
      r.fields.CriteriaTerminated := by
    intro r hr; rw [World.record_setKv] at hr; obtain rfl := Option.some.inj hr; exact ht
  cases wr with
  | reset b =>
    refine ⟨hterm, fun r hr => ?_, hinv.confirmed, hinv.rebooted⟩
    rw [World.record_setKv] at hr
    obtain rfl := Option.some.inj hr
    obtain rfl := Option.some.inj hs
    cases b
    · rcases hrd : read with _ | r
      · exact NvRecord.fieldsInv_zero
      · exact NvRecord.fieldsInv_zeroPrefix (hinv.fields r (hread r hrd))
    · exact NvRecord.fieldsInv_zero
  | setStageVersion v =>
    obtain ⟨r, rfl, rfl⟩ := Option.map_eq_some'.mp hs
    have hr := hread r rfl
    simp only [NvWrite.site, Ghost.step, World.record_setKv]
    refine ⟨hterm, fun r'' hr'' => ?_, hinv.confirmed, hinv.rebooted⟩
    rw [World.record_setKv] at hr''
    obtain rfl := Option.some.inj hr''
    exact NvRecord.fieldsInv_setStageVersion (hinv.fields r hr) (hpre r hr) v
  | setInstallRebooted b =>
    obtain ⟨r, rfl, rfl⟩ := Option.map_eq_some'.mp hs
    refine ⟨hterm, fun r'' hr'' => ?_, hinv.confirmed, hinv.rebooted⟩
    rw [World.record_setKv] at hr''
    obtain rfl := Option.some.inj hr''
    exact NvRecord.fieldsInv_setInstallRebooted (hinv.fields r (hread r rfl)) b
  | setStageInstalledCriteria c =>
    obtain ⟨r, rfl, hu⟩ := Option.bind_eq_some.mp hs
    obtain ⟨hc, rfl⟩ := r.updateStageInstalledCriteria_eq_some hu
    simp only [NvWrite.site, Ghost.step, World.record_setKv]
    refine ⟨hterm, fun r'' hr'' => ?_, hinv.confirmed, fun hb => ?_⟩
    swap
    · rw [show atBoot = false from hpre] at hb
      cases hb
    rw [World.record_setKv] at hr''
    obtain rfl := Option.some.inj hr''
    exact NvRecord.fieldsInv_setStageInstalledCriteria (hinv.fields r (hread r rfl)) hc
  | settleInstalledCriteria =>
    obtain ⟨r, rfl, hu⟩ := Option.bind_eq_some.mp hs
    obtain ⟨hsc, hlen, rfl⟩ := r.settleInstalledCriteria_eq_some hu
    have hr := hread r rfl
    obtain ⟨hb, hpre⟩ := hpre
    obtain ⟨hfor, hok⟩ := hpre r hr
    simp only [NvWrite.site, Ghost.step, World.record_setKv]
    refine ⟨hterm, fun r'' hr'' => ?_, ?_, hinv.rebooted⟩
    · rw [World.record_setKv] at hr''
      obtain rfl := Option.some.inj hr''
      exact NvRecord.fieldsInv_settled (hinv.fields r hr) hlen rfl
    · intro ev hev
      rcases List.mem_cons.mp hev with rfl | hev
      · exact NvRecord.settleEvent_confirmed (hinv.fields r hr) (hinv.terminated r hr).1 hsc hlen
          hfor hok hb (hinv.rebooted hb)
      · exact hinv.confirmed ev hev

/-! ## Runs keep the invariant -/

theorem lastWorld_append (w : World) (es es' : List (Call × World)) :
    lastWorld w (es ++ es') = lastWorld (lastWorld w es) es' := by
  induction es generalizing w with
  | nil => rfl
  | cons e es ih => exact ih e.2

theorem Ghost.run_append (atBoot : Bool) (g : Ghost) (es es' : List (Call × World)) :
    g.run atBoot (es ++ es') = (g.run atBoot es).run atBoot es' :=
  List.foldl_append _ _ _ _

/-- Every state a run from `w` logs in `es`, with the history at that point, keeps the
invariant, and so does the state it ends in. -/
inductive Kept (atBoot : Bool) : World → Ghost → List (Call × World) → Prop
  | nil {w : World} {g : Ghost} : NvInv atBoot w g → Kept atBoot w g []
  | cons {w : World} {g : Ghost} {e : Call × World} {es : List (Call × World)} :
      NvInv atBoot w g → Kept atBoot e.2 (Ghost.step atBoot g e) es → Kept atBoot w g (e :: es)

namespace Kept

variable {atBoot : Bool} {w : World} {g : Ghost} {es es' : List (Call × World)}

theorem inv (k : Kept atBoot w g es) : NvInv atBoot w g := by
  cases k with
  | nil h => exact h
  | cons h _ => exact h

theorem last (k : Kept atBoot w g es) : NvInv atBoot (lastWorld w es) (g.run atBoot es) := by
  induction k with
  | nil h => exact h
  | cons _ _ ih => exact ih

theorem append (k : Kept atBoot w g es)
    (k' : Kept atBoot (lastWorld w es) (g.run atBoot es) es') : Kept atBoot w g (es ++ es') := by
  induction k with
  | nil _ => exact k'
  | cons h _ ih => exact cons h (ih k')

/-- A run cut after its first `n` logged calls. -/
theorem take (k : Kept atBoot w g es) (n : Nat) : Kept atBoot w g (es.take n) := by
  induction k generalizing n with
  | nil h => rw [List.take_nil]; exact nil h
  | cons h _ ih =>
    cases n with
    | zero => exact nil h
    | succ n => exact cons h (ih n)

/-- Calls that fail to write leave the state and the history as they were. -/
theorem of_failed {s : Site} (hinv : NvInv atBoot w g)
    (hes : ∀ e ∈ es, e = (.kvSet s false, w)) :
    Kept atBoot w g es ∧ g.run atBoot es = g ∧ lastWorld w es = w := by
  induction es with
  | nil => exact ⟨nil hinv, rfl, rfl⟩
  | cons e es ih =>
    obtain rfl := hes e (List.mem_cons_self _ _)
    have hstep : Ghost.step atBoot g (.kvSet s false, w) = g :=
      Ghost.step_of_not_kvSet fun _ h => by cases h
    obtain ⟨k, hg, hw⟩ := ih fun e' he' => hes e' (List.mem_cons_of_mem _ he')
    refine ⟨cons hinv (by rw [hstep]; exact k), ?_, hw⟩
    show Ghost.run atBoot (Ghost.step atBoot g _) es = g
    rw [hstep, hg]

end Kept

/-- `m'` follows `m` by logged calls that keep the invariant, the history going from `g` to
`g'`. -/
structure Machine.Keeps (atBoot : Bool) (m : Machine) (g : Ghost) (m' : Machine) (g' : Ghost) :
    Prop where
  oracle : m'.oracle = m.oracle
  trace : ∃ es, m'.log = m.log ++ es ∧ m'.world = lastWorld m.world es ∧
    g' = g.run atBoot es ∧ Kept atBoot m.world g es

namespace Machine.Keeps

variable {atBoot : Bool} {m m' m'' : Machine} {g g' g'' : Ghost}

theorem inv (h : m.Keeps atBoot g m' g') : NvInv atBoot m'.world g' := by
  obtain ⟨es, -, hw, hg, k⟩ := h.trace
  rw [hw, hg]
  exact k.last

theorem trans (h : m.Keeps atBoot g m' g') (h' : m'.Keeps atBoot g' m'' g'') :
    m.Keeps atBoot g m'' g'' := by
  obtain ⟨es, hl, hw, hg, k⟩ := h.trace
  obtain ⟨es', hl', hw', hg', k'⟩ := h'.trace
  refine ⟨h'.oracle.trans h.oracle, es ++ es', by rw [hl', hl, List.append_assoc], ?_, ?_, ?_⟩
  · rw [hw', hw, lastWorld_append]
  · rw [hg', hg, Ghost.run_append]
  · exact k.append (by rw [← hw, ← hg]; exact k')

/-- A run that logs nothing and keeps the persistent state. -/
theorem frame (hinv : NvInv atBoot m.world g) (ho : m'.oracle = m.oracle)
    (hw : m'.world = m.world) (hl : m'.log = m.log) : m.Keeps atBoot g m' g :=
  ⟨ho, [], by rw [hl, List.append_nil], hw, rfl, .nil hinv⟩

/-- One logged call that is not a store write and keeps the store. -/
theorem single_of_kv (hinv : NvInv atBoot m.world g) {e : Call × World}
    (hc : ∀ s, e.1 ≠ .kvSet s true) (hkv : e.2.kv = m.world.kv) (ho : m'.oracle = m.oracle)
    (hl : m'.log = m.log ++ [e]) (hw : m'.world = e.2) : m.Keeps atBoot g m' g := by
  have hstep : Ghost.step atBoot g e = g := Ghost.step_of_not_kvSet hc
  exact ⟨ho, [e], hl, hw, hstep.symm, .cons hinv (by rw [hstep]; exact .nil (hinv.of_kv hkv))⟩

end Machine.Keeps

section Calls

variable {atBoot : Bool} {g : Ghost} {m : Machine}

/-- A write keeps the invariant from a state that meets its `Pre`. -/
theorem NvWrite.run_keeps (wr : NvWrite) (hinv : NvInv atBoot m.world g)
    (hpre : wr.Pre atBoot m.world) :
    ∃ ok m' g', wr.run m = (.ok ok, m') ∧ m.Keeps atBoot g m' g' ∧
      (ok = true → ∃ r', wr.stored m.readRecord = some r' ∧ m'.world.record = some r') := by
  obtain ⟨ok, m', h, ⟨r', rfl, hs, e⟩ | ⟨rfl, es, e, hes⟩⟩ := wr.run_outcome m
  · refine ⟨true, m', _, h, ⟨e.oracle, _, e.log, e.world, rfl, .cons hinv (.nil ?_)⟩,
      fun _ => ⟨r', hs, by rw [e.world, World.record_setKv]⟩⟩
    exact nvInv_stored (fun _ => Machine.record_of_readRecord m) hs hinv hpre
  · obtain ⟨k, hg, hw⟩ := Kept.of_failed hinv hes
    exact ⟨false, m', g, h, ⟨e.oracle, es, e.log, by rw [e.world, hw], hg.symm, k⟩,
      fun h => by cases h⟩

theorem bootSetPending_keeps (hinv : NvInv atBoot m.world g) :
    ∃ ok m', bootSetPending m = (.ok ok, m') ∧ m.Keeps atBoot g m' g := by
  obtain ⟨ok, m', h, e⟩ := bootSetPending_outcome m
  exact ⟨ok, m', h, .single_of_kv hinv (fun _ h => by cases h) (by split <;> rfl) e.oracle
    e.log e.world⟩

theorem bootSetConfirmed_keeps (hinv : NvInv atBoot m.world g) :
    ∃ ok m', bootSetConfirmed m = (.ok ok, m') ∧ m.Keeps atBoot g m' g :=
  ⟨_, _, bootSetConfirmed_apply m, .single_of_kv hinv (fun _ h => by cases h)
    (by split <;> rfl) rfl rfl rfl⟩

theorem nvicSystemReset_keeps (hinv : NvInv atBoot m.world g) :
    m.Keeps atBoot g (nvicSystemReset m).2 g :=
  .single_of_kv hinv (fun _ h => by cases h) rfl rfl rfl rfl

end Calls

/-- A reset leaves the stage criteria invalid, whatever it read. -/
theorem NvWrite.stored_reset_stageInstalledCriteriaValid {b : Bool} {prev : Option NvRecord}
    {r' : NvRecord} (h : (NvWrite.reset b).stored prev = some r') :
    r'.stageInstalledCriteriaValid = false := by
  obtain rfl := Option.some.inj h
  have hz : NvRecord.zero.stageInstalledCriteriaValid = false :=
    congrArg NvFields.stageInstalledCriteriaValid NvRecord.fields_zero
  cases b
  · rcases prev with _ | r
    · exact hz
    · exact congrArg NvFields.stageInstalledCriteriaValid r.fields_zeroPrefix
  · exact hz

/-! ## The routines keep the invariant -/

/-- From `m` with history `g`, `x` returns and keeps the invariant. -/
def KeepsRun {α : Type} (atBoot : Bool) (g : Ghost) (m : Machine) (x : OtaM α) : Prop :=
  ∃ a m' g', x m = (.ok a, m') ∧ m.Keeps atBoot g m' g'

/-- The store writes of `Download`: `OTACtx_Reinit`'s `nvImgUpgSt_reset(false)`, which ends
the Download when it fails, then `nvImgUpgSt_setStageVersion` of the version of the header
`CombinedDownloadInstall` caught. -/
def downloadStoreWrites (stageVersion : ImageVersion) : OtaM Bool := do
  if !(← nvImgUpgStReset false) then return false
  nvImgUpgStSetStageVersion stageVersion

section Routines

variable {atBoot : Bool} {g : Ghost} {m : Machine}

theorem keepsRun_bind {α β : Type} {x : OtaM α} {f : α → OtaM β} {a : α} {m1 : Machine}
    {g1 : Ghost} (hx : x m = (.ok a, m1)) (h1 : m.Keeps atBoot g m1 g1)
    (hf : KeepsRun atBoot g1 m1 (f a)) : KeepsRun atBoot g m (x >>= f) := by
  obtain ⟨b, m2, g2, h2, k2⟩ := hf
  exact ⟨b, m2, g2, by rw [OtaM.bind_apply, hx]; exact h2, h1.trans k2⟩

theorem keepsRun_pure {α : Type} (a : α) (hinv : NvInv atBoot m.world g) :
    KeepsRun atBoot g m (pure a) :=
  ⟨a, m, g, rfl, .frame hinv rfl rfl rfl⟩

theorem markInstallRebooted_keeps (hinv : NvInv atBoot m.world g) :
    KeepsRun atBoot g m markInstallRebooted := by
  refine keepsRun_bind (nvImgUpgStInstallRebooted_apply m) (.frame hinv rfl rfl rfl) ?_
  split
  · obtain ⟨_, _, _, h, k, -⟩ := (NvWrite.setInstallRebooted true).run_keeps
      (m := { m with clock := m.clock + 1 }) hinv trivial
    exact keepsRun_bind h k (keepsRun_pure () k.inv)
  · exact keepsRun_pure () hinv

theorem confirmInstall_keeps (hinv : NvInv atBoot m.world g) :
    KeepsRun atBoot g m confirmInstall := by
  obtain ⟨_, n, hq⟩ := nvImgUpgStInstalled_frame m
  refine keepsRun_bind hq (.frame hinv rfl rfl rfl) ?_
  split
  · obtain ⟨_, _, h, k⟩ := bootSetConfirmed_keeps (m := { m with clock := n }) hinv
    exact keepsRun_bind h k (keepsRun_pure () k.inv)
  · exact keepsRun_pure () hinv

/-- The third block settles only what `nvImgUpgSt_installed` has just confirmed, so it needs
the boot-recovery routine's history. -/
theorem settleOrRevert_keeps (hb : atBoot = true) (hinv : NvInv atBoot m.world g) :
    KeepsRun atBoot g m settleOrRevert := by
  obtain ⟨c, n, hq⟩ := nvImgUpgStInstalled_frame m
  refine keepsRun_bind hq (.frame hinv rfl rfl rfl) ?_
  rcases c with _ | _ | _
  · exact keepsRun_pure () hinv
  · -- a revert
    obtain ⟨_, _, _, h1, k1, -⟩ := (NvWrite.reset false).run_keeps
      (m := { m with clock := n }) hinv trivial
    exact keepsRun_bind h1 k1 ⟨(), _, _, rfl, nvicSystemReset_keeps k1.inv⟩
  · -- a settle
    obtain ⟨r, hr, hfor, hok⟩ := nvImgUpgStInstalled_some_true m hq
    have hpre : NvWrite.settleInstalledCriteria.Pre atBoot m.world :=
      ⟨hb, fun r' hr' => by rw [hr] at hr'; cases hr'; exact ⟨hfor, hok⟩⟩
    obtain ⟨_, _, _, h1, k1, -⟩ := NvWrite.settleInstalledCriteria.run_keeps
      (m := { m with clock := n }) hinv hpre
    obtain ⟨_, _, _, h2, k2, -⟩ := (NvWrite.reset false).run_keeps k1.inv trivial
    exact keepsRun_bind h1 k1 (keepsRun_bind h2 k2 (keepsRun_pure () k2.inv))

theorem updateNVImgUpgStPostReboot_keeps (hb : atBoot = true) (hinv : NvInv atBoot m.world g) :
    KeepsRun atBoot g m updateNVImgUpgStPostReboot := by
  obtain ⟨_, m1, g1, h1, k1⟩ := markInstallRebooted_keeps hinv
  obtain ⟨_, m2, g2, h2, k2⟩ := confirmInstall_keeps k1.inv
  exact keepsRun_bind h1 k1 (keepsRun_bind h2 k2 (settleOrRevert_keeps hb k2.inv))

/-- Apply stores its criteria outside the boot-recovery routine. -/
theorem apply_keeps (wf : Workflow) (hinv : NvInv false m.world g) :
    KeepsRun false g m (apply wf) := by
  obtain ⟨_ | c, cr, rc⟩ := wf
  · exact ⟨.failure, m, g, by simp [apply], .frame hinv rfl rfl rfl⟩
  by_cases h0 : cStrlen c = 0
  · exact ⟨.failure, m, g, by simp [apply, h0], .frame hinv rfl rfl rfl⟩
  cases cr; rotate_left
  · exact ⟨cancel ⟨some c, true, rc⟩, m, g, by simp [apply, h0], .frame hinv rfl rfl rfl⟩
  obtain ⟨ok1, m1, g1, h1, k1, -⟩ := (NvWrite.setStageInstalledCriteria c).run_keeps hinv rfl
  have h1' : nvImgUpgStSetStageInstalledCriteria c m = (.ok ok1, m1) := h1
  cases ok1
  · exact ⟨.failure, m1, g1, by simp [apply, h0, h1'], k1⟩
  obtain ⟨ok2, m2, h2, k2⟩ := bootSetPending_keeps k1.inv
  cases ok2
  · exact ⟨.failure, m2, g1, by simp [apply, h0, h1', h2, -bootSetPending_apply], k1.trans k2⟩
  obtain ⟨ok3, m3, g3, h3, k3, -⟩ := (NvWrite.setInstallRebooted false).run_keeps k2.inv trivial
  have h3' : nvImgUpgStSetInstallRebooted false m2 = (.ok ok3, m3) := h3
  refine ⟨if ok3 then .applyRequiredReboot else .failure, m3, g3, ?_, (k1.trans k2).trans k3⟩
  cases ok3 <;> simp [apply, h0, h1', h2, h3', -bootSetPending_apply]

/-- The reset clears the stage criteria, so the write of the stage version that follows
meets its `Pre`. -/
theorem downloadStoreWrites_keeps (stageVersion : ImageVersion) (hinv : NvInv atBoot m.world g) :
    KeepsRun atBoot g m (downloadStoreWrites stageVersion) := by
  obtain ⟨ok1, m1, g1, h1, k1, hs1⟩ := (NvWrite.reset false).run_keeps hinv trivial
  have h1' : nvImgUpgStReset false m = (.ok ok1, m1) := h1
  cases ok1
  · exact ⟨false, m1, g1, by simp [downloadStoreWrites, h1'], k1⟩
  obtain ⟨r1, hs, hr1⟩ := hs1 rfl
  have hpre : (NvWrite.setStageVersion stageVersion).Pre atBoot m1.world := by
    intro r hr
    rw [hr1] at hr
    cases hr
    exact NvWrite.stored_reset_stageInstalledCriteriaValid hs
  obtain ⟨ok2, m2, g2, h2, k2, -⟩ := (NvWrite.setStageVersion stageVersion).run_keeps k1.inv hpre
  exact ⟨ok2, m2, g2, by simpa [downloadStoreWrites, h1'] using h2, k1.trans k2⟩

end Routines

/-! ## Lifecycles -/

/-- A step of a lifecycle between two boots: the store writes of a Download, an Apply, or
the boot-recovery routine. -/
inductive Op where
  | download (stageVersion : ImageVersion)
  | apply (wf : Workflow)
  | recover

/-- What a step runs. -/
def Op.run : Op → OtaM Unit
  | .download stageVersion => do let _ ← downloadStoreWrites stageVersion
  | .apply wf => do let _ ← AziotOta.apply wf
  | .recover => updateNVImgUpgStPostReboot

/-- The boot-recovery routine runs once at every boot, before anything else. -/
def Op.Allowed (booting : Bool) : Op → Prop
  | .recover => booting = true
  | _ => booting = false

/-- The calls a run of `x` from `m` logs. -/
def newCalls {α : Type} (x : OtaM α) (m : Machine) : List (Call × World) :=
  (x m).2.log.drop m.log.length

/-- A lifecycle's state: the persistent state, the history, and whether the device has
booted and not yet run the boot-recovery routine. -/
structure Life where
  world : World
  ghost : Ghost
  booting : Bool

/-- The states of a lifecycle. It starts at the first boot with the key absent or a zeroed
record. A step runs on a machine in the current state, with any context and any outcomes of
the fallible calls. A reset cuts a step after any number of the calls it logs (all of them
for a reboot after it), and the boot that follows may run another image with another
image-ok flag: anything but the store may change. -/
inductive LifeReachable : Life → Prop
  | init (w : World) (hkv : w.kv = none ∨ w.kv = some NvRecord.zero.bytes) :
      LifeReachable ⟨w, .init, true⟩
  | step {L : Life} (op : Op) (m : Machine) (hL : LifeReachable L) (hop : op.Allowed L.booting)
      (hm : m.world = L.world) :
      LifeReachable ⟨(op.run m).2.world, L.ghost.run L.booting (newCalls op.run m), false⟩
  | reset {L : Life} (op : Op) (m : Machine) (k : Nat) (w : World) (hL : LifeReachable L)
      (hop : op.Allowed L.booting) (hm : m.world = L.world)
      (hkv : w.kv = (lastWorld L.world ((newCalls op.run m).take k)).kv) :
      LifeReachable ⟨w, { L.ghost.run L.booting ((newCalls op.run m).take k) with
        rebooted := true }, true⟩

section Lifecycle

variable {atBoot : Bool} {w : World} {g : Ghost} {m : Machine}

theorem NvInv.leaveBoot (h : NvInv atBoot w g) : NvInv false w g :=
  ⟨h.terminated, h.fields, h.confirmed, fun h => by cases h⟩

theorem NvInv.reboot (h : NvInv atBoot w g) : NvInv true w { g with rebooted := true } :=
  ⟨h.terminated, fun r hr => ⟨(h.fields r hr).downloaded, (h.fields r hr).applied,
    (h.fields r hr).settled⟩, h.confirmed, fun _ => rfl⟩

theorem nvInv_init (hkv : w.kv = none ∨ w.kv = some NvRecord.zero.bytes) : NvInv true w .init := by
  have hr : ∀ r, w.record = some r → r = NvRecord.zero := by
    intro r hr
    rcases hkv with h | h
    · simp [World.record, h] at hr
    · rw [World.record_of_kv h] at hr
      exact (Option.some.inj hr).symm
  refine ⟨fun r h => ?_, fun r h => ?_, fun _ h => (by cases h), fun _ => rfl⟩
  · rw [hr r h]; exact NvRecord.criteriaTerminated_zero
  · rw [hr r h]; exact NvRecord.fieldsInv_zero

theorem Op.run_keeps (op : Op) (hinv : NvInv atBoot m.world g) (hop : op.Allowed atBoot) :
    ∃ g', m.Keeps atBoot g (op.run m).2 g' := by
  cases op with
  | download v =>
    obtain ⟨_, m', g', h, k⟩ := downloadStoreWrites_keeps v hinv
    exact ⟨g', by simpa [Op.run, h] using k⟩
  | apply wf =>
    obtain rfl : atBoot = false := hop
    obtain ⟨_, m', g', h, k⟩ := apply_keeps wf hinv
    exact ⟨g', by simpa [Op.run, h] using k⟩
  | recover =>
    obtain ⟨_, m', g', h, k⟩ := updateNVImgUpgStPostReboot_keeps hop hinv
    exact ⟨g', by rw [Op.run, h]; exact k⟩

/-- Every state a step logs keeps the invariant, and it ends in the state of its last call. -/
theorem Op.run_kept (op : Op) (hinv : NvInv atBoot m.world g) (hop : op.Allowed atBoot) :
    Kept atBoot m.world g (newCalls op.run m) ∧
      (op.run m).2.world = lastWorld m.world (newCalls op.run m) := by
  obtain ⟨_, k⟩ := op.run_keeps hinv hop
  obtain ⟨es, hl, hw, -, hk⟩ := k.trace
  have hes : newCalls op.run m = es := by rw [newCalls, hl, List.drop_left]
  rw [hes]
  exact ⟨hk, hw⟩

/-- The invariant holds in every state of every lifecycle. -/
theorem LifeReachable.nvInv {L : Life} (h : LifeReachable L) : NvInv L.booting L.world L.ghost := by
  induction h with
  | init w hkv => exact nvInv_init hkv
  | step op m _ hop hm ih =>
    rw [← hm] at ih
    obtain ⟨hk, hw⟩ := op.run_kept ih hop
    rw [hw]
    exact hk.last.leaveBoot
  | reset op m k w _ hop hm hkv ih =>
    rw [← hm] at ih
    have hcut := ((op.run_kept ih hop).1.take k).last
    rw [hm] at hcut
    exact (hcut.of_kv hkv).reboot

end Lifecycle

/-- The string `nvImgUpgSt_persistentInstalledCriteria` copies out of a record whose
persistent criteria are terminated is the stored string. -/
theorem NvRecord.cStr_persistentRead {r : NvRecord} (h : 0 ∈ r.persistentInstalledCriteria) :
    cStr (readAt r.bytes offsetofPersistentInstalledCriteria
        (cStrlen (r.bytes.drop offsetofPersistentInstalledCriteria) + 1)) =
      cStr r.persistentInstalledCriteria := by
  unfold NvRecord.persistentInstalledCriteria readAt at h ⊢
  rw [take_cStrlen_succ (List.mem_of_mem_take h), cStr_take h]
  simpa using cStr_cStr_append (r.bytes.drop offsetofPersistentInstalledCriteria) []

/-- `IsInstalled` reports `Installed` only when the persistent criteria are valid and the
string `nvImgUpgSt_persistentInstalledCriteria` copies out is the workflow's. -/
theorem isInstalled_installed {wf : Workflow} {c : List UInt8} {m : Machine}
    (hc : wf.installedCriteria = some c) (h : (isInstalled wf m).1 = .ok .isInstalledInstalled) :
    ∃ r, m.world.record = some r ∧ r.persistentInstalledCriteriaValid = true ∧
      cStr c = cStr (readAt r.bytes offsetofPersistentInstalledCriteria
        (cStrlen (r.bytes.drop offsetofPersistentInstalledCriteria) + 1)) := by
  obtain ⟨c', cr, rc⟩ := wf
  obtain rfl : c' = some c := hc
  by_cases h0 : cStrlen c = 0
  · simp [isInstalled, h0] at h
  rcases hr : m.readRecord with _ | r
  · simp [isInstalled, h0, hr] at h
  refine ⟨r, Machine.record_of_readRecord m hr, ?_⟩
  by_cases hp : r.persistentInstalledCriteriaValid = true
  swap
  · simp [isInstalled, h0, hr, hp] at h
  by_cases hl : installedCriteriaMaxchar < cStrlen (r.bytes.drop offsetofPersistentInstalledCriteria)
  · simp [isInstalled, h0, hr, hp, hl] at h
  by_cases hs : cStr c = cStr (readAt r.bytes offsetofPersistentInstalledCriteria
      (cStrlen (r.bytes.drop offsetofPersistentInstalledCriteria) + 1))
  · exact ⟨hp, hs⟩
  · simp [isInstalled, h0, hr, hp, hl, strcmpEq, hs] at h

/-- Settle only after a confirmed boot: in every lifecycle, every settle happened in the
boot-recovery routine, after a reboot that followed the Apply that stored its criteria,
with the running image the one the Download before that Apply recorded and its image-ok
flag set; and `IsInstalled` reports `Installed` only for the criteria of the last settle. -/
theorem lifeReachable_settles_confirmed {L : Life} (h : LifeReachable L) :
    (∀ ev ∈ L.ghost.settles, ev.Confirmed) ∧
      ∀ (m : Machine) (wf : Workflow) (c : List UInt8), m.world = L.world →
        wf.installedCriteria = some c → (isInstalled wf m).1 = .ok .isInstalledInstalled →
        ∃ ev, L.ghost.settles.head? = some ev ∧ ev.criteria = cStr c := by
  have hinv := h.nvInv
  refine ⟨hinv.confirmed, fun m wf c hm hc hi => ?_⟩
  obtain ⟨r, hr, hp, hcs⟩ := isInstalled_installed hc hi
  rw [hm] at hr
  obtain ⟨ev, hev, hcrit⟩ := (hinv.fields r hr).settled hp
  exact ⟨ev, hev, by rw [hcrit, hcs, NvRecord.cStr_persistentRead (hinv.terminated r hr).2]; rfl⟩

set_option maxRecDepth 10000 in
/-- A first boot on a zeroed record; a Download of version 1.0.0.0 and an Apply of "v2"; a
reset after the Apply into that image, its image-ok flag clear; and the boot-recovery
routine, which confirms the image and settles. The one settle is confirmed, and
`IsInstalled` reports "v2" installed. -/
theorem confirmedBoot_settles_confirmed :
    let v : ImageVersion := ⟨[1, 0, 0, 0, 0, 0, 0, 0], rfl⟩
    let wf : Workflow := ⟨some [118, 50, 0], false, true⟩
    let boot (w : World) : Machine := ⟨w, none, .reliable, 0, []⟩
    let w0 : World := ⟨some NvRecord.zero.bytes, [], 0, 0, .zero, false, false⟩
    let L1 : Life := ⟨(Op.recover.run (boot w0)).2.world,
      Ghost.init.run true (newCalls Op.recover.run (boot w0)), false⟩
    let L2 : Life := ⟨((Op.download v).run (boot L1.world)).2.world,
      L1.ghost.run false (newCalls (Op.download v).run (boot L1.world)), false⟩
    let es := newCalls (Op.apply wf).run (boot L2.world)
    let w3 : World := { lastWorld L2.world es with
      primaryHeader := ImageHeader.zero.write imageHeaderVersionOffset v.bytes, imageOk := false,
      pending := false }
    let L3 : Life := ⟨w3, { L2.ghost.run false es with rebooted := true }, true⟩
    let L : Life := ⟨(Op.recover.run (boot w3)).2.world,
      L3.ghost.run true (newCalls Op.recover.run (boot w3)), false⟩
    LifeReachable L ∧ L.ghost.settles.map SettleEvent.criteria = [[118, 50, 0]] ∧
      (isInstalled wf (boot L.world)).1 = .ok .isInstalledInstalled ∧
      (∀ ev ∈ L.ghost.settles, ev.Confirmed) ∧
      ∀ (m : Machine) (wf : Workflow) (c : List UInt8), m.world = L.world →
        wf.installedCriteria = some c → (isInstalled wf m).1 = .ok .isInstalledInstalled →
        ∃ ev, L.ghost.settles.head? = some ev ∧ ev.criteria = cStr c := by
  intro v wf boot w0 L1 L2 es w3 L3 L
  have h1 : LifeReachable L1 := .step .recover (boot w0) (.init w0 (.inr rfl)) rfl rfl
  have h2 : LifeReachable L2 := .step (.download v) (boot L1.world) h1 rfl rfl
  have h3 : LifeReachable L3 := by
    have h := LifeReachable.reset (.apply wf) (boot L2.world) es.length w3 h2 rfl rfl
      (by rw [List.take_length])
    rwa [List.take_length] at h
  have h : LifeReachable L := LifeReachable.step (L := L3) .recover (boot w3) h3 rfl rfl
  have hi : (isInstalled wf (boot L.world)).1 = .ok .isInstalledInstalled := by
    have : (isInstalled wf (boot L.world)).1.toOption = some .isInstalledInstalled := by decide
    revert this; cases (isInstalled wf (boot L.world)).1 <;> simp [Except.toOption]
  exact ⟨h, by decide, hi, lifeReachable_settles_confirmed h⟩

end AziotOta
