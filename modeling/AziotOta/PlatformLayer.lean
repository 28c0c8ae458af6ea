import AziotOta.ExtensionManager

/-!
# The platform layer and its worker threads

`MbedPlatformLayer`'s callbacks for Download, Backup, Install, Apply and Restore each restart
the worker thread of their kind, which looks up the update-manifest handler, runs its method
and reports through `WorkCompletionCallback`; `Cancel` and `Idle` set and clear the cancel flag
the workers check. A worker is a program counter, and the system any interleaving of the main
thread's calls and the workers' steps. Over every interleaving a worker reports at most once, a
cancel reaches a task not yet past its check, and no handler a lookup creates is ever deleted.
-/

namespace AziotOta

/-! ## The model -/

/-- The actions the layer runs on a worker thread, one thread for each (`downloadWorker`,
`backupWorker`, `installWorker`, `applyWorker`, `restoreWorker`). -/
inductive UpdateAction where
  | download
  | backup
  | install
  | apply
  | restore
  deriving DecidableEq, Repr

/-- Whether the action checks `_IsCancellationRequested` once the handler returns: all but
Restore. -/
def UpdateAction.checksCancel : UpdateAction → Bool
  | .restore => false
  | _ => true

/-- An `ADUC_Result` of the layer: one of the lookup or of the handler, or one the layer makes
itself. -/
inductive LayerResult where
  | result (r : AducResult)
  /-- The result `ADUC_Result_Failure_Cancelled`. -/
  | failureCancelled
  /-- The result `ADUC_Result_<Action>_InProgress` of the callback of `a`. -/
  | inProgress (a : UpdateAction)
  /-- The failure with `ADUC_ERC_UPDATE_CONTENT_HANDLER_ISINSTALLED_FAILURE_NULL_WORKFLOW`. -/
  | isInstalledFailureNullWorkflow
  /-- The failure with `ADUC_ERC_UPDATE_CONTENT_HANDLER_ISINSTALLED_FAILURE_BAD_UPDATETYPE`. -/
  | isInstalledFailureBadUpdatetype
  deriving DecidableEq, Repr

/-- Where a worker thread is: constructed but never started (`start` failed), started, back
from the handler's method with its result, past reading `_IsCancellationRequested` as set,
holding its final result, or done reporting. -/
inductive WorkerPhase where
  | created
  | started
  | returned (r : AducResult)
  | cancelSeen
  | done (r : LayerResult)
  | finished
  deriving DecidableEq, Repr

/-- A worker that has started and not yet reported. -/
def WorkerPhase.unreported : WorkerPhase → Bool
  | .started | .returned _ | .cancelSeen | .done _ => true
  | .created | .finished => false

/-- What the agent sees of the workers: the callback of `a` returning `InProgress`, a worker
of `a` destroyed before it reported, and a `WorkCompletionCallback` of the worker of `a`. -/
inductive PlatformEvent where
  | started (a : UpdateAction)
  | terminated (a : UpdateAction)
  | completed (a : UpdateAction) (r : LayerResult)
  deriving DecidableEq, Repr

/-- `_IsCancellationRequested`, the extension manager the lookups go through, the worker
slots (`none` for `nullptr`), and what the agent has seen. -/
structure PlatformState where
  isCancellationRequested : Bool
  ext : ExtManager
  workers : UpdateAction → Option WorkerPhase
  log : List PlatformEvent

namespace PlatformState

/-- Before the first call: no request, an empty cache and no worker. -/
def init : PlatformState := ⟨false, .init, fun _ => none, []⟩

/-- The slot of `a` holding a worker in `phase`. -/
def setWorker (s : PlatformState) (a : UpdateAction) (phase : WorkerPhase) : PlatformState :=
  { s with workers := Function.update s.workers a (some phase) }

variable (s : PlatformState) (a b : UpdateAction) (p : WorkerPhase)

@[simp] theorem setWorker_workers_self : (s.setWorker a p).workers a = some p :=
  Function.update_same ..
@[simp] theorem setWorker_workers_of_ne (h : b ≠ a) : (s.setWorker a p).workers b = s.workers b :=
  Function.update_noteq h ..
@[simp] theorem setWorker_log : (s.setWorker a p).log = s.log := rfl
@[simp] theorem setWorker_ext : (s.setWorker a p).ext = s.ext := rfl
@[simp] theorem setWorker_isCancellationRequested :
    (s.setWorker a p).isCancellationRequested = s.isCancellationRequested := rfl

end PlatformState

namespace MbedPlatformLayer

/-- `MbedPlatformLayer::Idle`. -/
def idle (s : PlatformState) : PlatformState := { s with isCancellationRequested := false }

/-- The body Download, Backup, Install and Apply share: look up the handler and run its
method, which returns `handlerResult`; a cancel request turns the result into
`ADUC_Result_Failure_Cancelled` and is cleared. A failed lookup returns what the lookup
wrote. -/
def cancellableAction (updateManifestVersion : Int) (handlerResult : AducResult)
    (s : PlatformState) : LayerResult × PlatformState :=
  let ((loadResult, contentHandler), ext) := getUpdateManifestHandler updateManifestVersion s.ext
  let s := { s with ext }
  match contentHandler with
  | none => (.result loadResult, s)
  | some _ =>
    if s.isCancellationRequested then (.failureCancelled, { s with isCancellationRequested := false })
    else (.result handlerResult, s)

/-- `MbedPlatformLayer::Download`. -/
def download (updateManifestVersion : Int) (handlerResult : AducResult) (s : PlatformState) :
    LayerResult × PlatformState :=
  cancellableAction updateManifestVersion handlerResult s

/-- `MbedPlatformLayer::Backup`. -/
def backup (updateManifestVersion : Int) (handlerResult : AducResult) (s : PlatformState) :
    LayerResult × PlatformState :=
  cancellableAction updateManifestVersion handlerResult s

/-- `MbedPlatformLayer::Install`. -/
def install (updateManifestVersion : Int) (handlerResult : AducResult) (s : PlatformState) :
    LayerResult × PlatformState :=
  cancellableAction updateManifestVersion handlerResult s

/-- `MbedPlatformLayer::Apply`. -/
def apply (updateManifestVersion : Int) (handlerResult : AducResult) (s : PlatformState) :
    LayerResult × PlatformState :=
  cancellableAction updateManifestVersion handlerResult s

/-- `MbedPlatformLayer::Restore`, which has no cancel check: a cancel during a restore lets it
finish. -/
def restore (updateManifestVersion : Int) (handlerResult : AducResult) (s : PlatformState) :
    LayerResult × PlatformState :=
  let ((loadResult, contentHandler), ext) := getUpdateManifestHandler updateManifestVersion s.ext
  let s := { s with ext }
  match contentHandler with
  | none => (.result loadResult, s)
  | some _ => (.result handlerResult, s)

/-- `MbedPlatformLayer::Cancel`: set the request, then look up the handler, whose `Cancel` is
asked to interrupt the running operation. -/
def cancel (updateManifestVersion : Int) (s : PlatformState) : PlatformState :=
  let s := { s with isCancellationRequested := true }
  { s with ext := (getUpdateManifestHandler updateManifestVersion s.ext).2 }

/-- `MbedPlatformLayer::IsInstalled`: `workflowData` is `none` for `nullptr`, else the
workflow's manifest version, and the handler's `IsInstalled` returns `handlerResult`. -/
def isInstalled (workflowData : Option Int) (handlerResult : AducResult) (s : PlatformState) :
    LayerResult × PlatformState :=
  match workflowData with
  | none => (.isInstalledFailureNullWorkflow, s)
  | some updateManifestVersion =>
    let ((_, contentHandler), ext) := getUpdateManifestHandler updateManifestVersion s.ext
    match contentHandler with
    | none => (.isInstalledFailureBadUpdatetype, { s with ext })
    | some _ => (.result handlerResult, { s with ext })

/-- `AsyncTaskCallback` for the worker of `a`: the previous thread, if any, is destroyed (a
worker that has not reported is stopped), and a new one is created and started; `startOk` is
whether `Thread::start` returns `osOK`. -/
def asyncTaskCallback (a : UpdateAction) (startOk : Bool) (s : PlatformState) :
    LayerResult × PlatformState :=
  let s := if (s.workers a).any WorkerPhase.unreported then { s with log := s.log ++ [.terminated a] }
    else s
  if startOk then (.inProgress a, { s.setWorker a .started with log := s.log ++ [.started a] })
  else (.result ⟨.failure, .none⟩, s.setWorker a .created)

end MbedPlatformLayer

/-- The layer's method the worker of `a` runs (`downloadTask` … `restoreTask`). -/
def UpdateAction.perform : UpdateAction → Int → AducResult → PlatformState →
    LayerResult × PlatformState
  | .download => MbedPlatformLayer.download
  | .backup => MbedPlatformLayer.backup
  | .install => MbedPlatformLayer.install
  | .apply => MbedPlatformLayer.apply
  | .restore => MbedPlatformLayer.restore

/-! ## The worker's steps -/

namespace Worker

/-- The worker's task up to its cancel check: the lookup and the handler's method, which
returns `handlerResult`. A failed lookup ends the task with what the lookup wrote, and Restore
ends it with the handler's result. -/
def task (a : UpdateAction) (updateManifestVersion : Int) (handlerResult : AducResult)
    (s : PlatformState) : PlatformState :=
  match s.workers a with
  | some .started =>
    let ((loadResult, contentHandler), ext) := getUpdateManifestHandler updateManifestVersion s.ext
    let phase : WorkerPhase := match contentHandler with
      | none => .done (.result loadResult)
      | some _ => if a.checksCancel then .returned handlerResult else .done (.result handlerResult)
    { s with ext }.setWorker a phase
  | _ => s

/-- The check's read, `if (_IsCancellationRequested)`. -/
def check (a : UpdateAction) (s : PlatformState) : PlatformState :=
  match s.workers a with
  | some (.returned r) =>
    if s.isCancellationRequested then s.setWorker a .cancelSeen else s.setWorker a (.done (.result r))
  | _ => s

/-- The check's body: the result becomes `ADUC_Result_Failure_Cancelled`, then the request is
cleared. -/
def clear (a : UpdateAction) (s : PlatformState) : PlatformState :=
  match s.workers a with
  | some .cancelSeen => { s.setWorker a (.done .failureCancelled) with isCancellationRequested := false }
  | _ => s

/-- `WorkCompletionCallback(WorkCompletionToken, result, true)`. -/
def report (a : UpdateAction) (s : PlatformState) : PlatformState :=
  match s.workers a with
  | some (.done r) => { s.setWorker a .finished with log := s.log ++ [.completed a r] }
  | _ => s

end Worker

/-- One step of the system: a call of the agent on the main thread (`IdleCallback`,
`CancelCallback`, `IsInstalledCallback`, or the callback of an action), or a step of the
worker of an action. The manifest version and what the handler returns come with the step. -/
inductive PlatformStep where
  | idle
  | cancel (updateManifestVersion : Int)
  | isInstalled (workflowData : Option Int) (handlerResult : AducResult)
  | asyncTask (a : UpdateAction) (startOk : Bool)
  | task (a : UpdateAction) (updateManifestVersion : Int) (handlerResult : AducResult)
  | check (a : UpdateAction)
  | clear (a : UpdateAction)
  | report (a : UpdateAction)

/-- A step's effect; a worker's step in a phase it is not in does nothing. -/
def PlatformStep.run : PlatformStep → PlatformState → PlatformState
  | .idle, s => MbedPlatformLayer.idle s
  | .cancel v, s => MbedPlatformLayer.cancel v s
  | .isInstalled wd r, s => (MbedPlatformLayer.isInstalled wd r s).2
  | .asyncTask a ok, s => (MbedPlatformLayer.asyncTaskCallback a ok s).2
  | .task a v r, s => Worker.task a v r s
  | .check a, s => Worker.check a s
  | .clear a, s => Worker.clear a s
  | .report a, s => Worker.report a s

/-- The state after a sequence of steps. -/
def platformRun (steps : List PlatformStep) (s : PlatformState) : PlatformState :=
  steps.foldl (fun s st => st.run s) s

@[simp] theorem platformRun_nil (s : PlatformState) : platformRun [] s = s := rfl

@[simp] theorem platformRun_cons (st : PlatformStep) (steps : List PlatformStep)
    (s : PlatformState) : platformRun (st :: steps) s = platformRun steps (st.run s) := rfl

theorem platformRun_induction {P : PlatformState → Prop}
    (hstep : ∀ (st : PlatformStep) (s : PlatformState), P s → P (st.run s))
    (steps : List PlatformStep) {s : PlatformState} (h : P s) : P (platformRun steps s) := by
  induction steps generalizing s with
  | nil => exact h
  | cons st steps ih => exact ih (hstep st s h)

/-! ## One lemma per step -/

/-- One for a worker of `a` that has started and not yet reported. -/
def PlatformState.pending (s : PlatformState) (a : UpdateAction) : Nat :=
  if (s.workers a).any WorkerPhase.unreported then 1 else 0

theorem PlatformState.pending_setWorker {s : PlatformState} {b : UpdateAction} {p : WorkerPhase}
    (h : (s.workers b).any WorkerPhase.unreported = p.unreported) (a : UpdateAction) :
    (s.setWorker b p).pending a = s.pending a := by
  by_cases hab : a = b
  · subst hab; simp [PlatformState.pending, ← h]
  · simp [PlatformState.pending, hab]

theorem MbedPlatformLayer.asyncTaskCallback_snd (b : UpdateAction) (ok : Bool)
    (s : PlatformState) :
    (asyncTaskCallback b ok s).2 =
      { s.setWorker b (if ok then .started else .created) with
        log := s.log ++ ((if (s.workers b).any WorkerPhase.unreported then [.terminated b] else []) ++
          if ok then [.started b] else []) } := by
  unfold asyncTaskCallback
  split_ifs <;> cases ok <;> simp [PlatformState.setWorker]

section Quiet

variable (a : UpdateAction) (s : PlatformState)

theorem Worker.task_quiet (v : Int) (r : AducResult) :
    (task a v r s).log = s.log ∧ ∀ b, (task a v r s).pending b = s.pending b := by
  unfold task
  split
  · rename_i hw
    refine ⟨rfl, PlatformState.pending_setWorker (s := { s with ext := _ }) ?_⟩
    simp only [hw, Option.any_some]
    split <;> [rfl; split <;> rfl]
  · exact ⟨rfl, fun _ => rfl⟩

theorem Worker.check_quiet :
    (check a s).log = s.log ∧ ∀ b, (check a s).pending b = s.pending b := by
  unfold check
  split
  · rename_i hw
    split <;> exact ⟨rfl, PlatformState.pending_setWorker (by simp [hw, WorkerPhase.unreported])⟩
  · exact ⟨rfl, fun _ => rfl⟩

theorem Worker.clear_quiet :
    (clear a s).log = s.log ∧ ∀ b, (clear a s).pending b = s.pending b := by
  unfold clear
  split
  · rename_i hw
    exact ⟨rfl, PlatformState.pending_setWorker (s := s) (by simp [hw, WorkerPhase.unreported])⟩
  · exact ⟨rfl, fun _ => rfl⟩

end Quiet

section Frame

variable {a b : UpdateAction} (hab : b ≠ a) (s : PlatformState)
include hab

theorem Worker.task_frame (v : Int) (r : AducResult) :
    (task b v r s).workers a = s.workers a ∧
      (task b v r s).isCancellationRequested = s.isCancellationRequested := by
  unfold task; split <;> simp [Ne.symm hab]

theorem Worker.check_frame :
    (check b s).workers a = s.workers a ∧
      (check b s).isCancellationRequested = s.isCancellationRequested := by
  unfold check; split <;> [split <;> simp [Ne.symm hab]; simp]

theorem Worker.report_frame :
    (report b s).workers a = s.workers a ∧
      (report b s).isCancellationRequested = s.isCancellationRequested := by
  unfold report; split <;> simp [Ne.symm hab]

theorem Worker.clear_workers_of_ne : (clear b s).workers a = s.workers a := by
  unfold clear; split <;> simp [Ne.symm hab]

end Frame

@[simp] theorem handlerClassFor_updateManifestDefaultHandler :
    handlerClassFor updateManifestDefaultHandler = some .stepsHandler := by decide

theorem getUpdateManifestHandler_isSome {v : Int} (hv : 4 ≤ v) (e : ExtManager) :
    (getUpdateManifestHandler v e).1.2.isSome := by
  rw [getUpdateManifestHandler, if_pos hv, loadUpdateContentHandlerExtension_eq]
  rcases handlerClassFor _ with _ | c
  · rcases HandlerMap.find? _ _ with _ | h
    · simp [loadUpdateContentHandlerExtension_eq, isAducResultCodeFailure]
    · simp [isAducResultCodeFailure]
  · simp [isAducResultCodeFailure]

/-! ## A worker run alone computes the layer's method -/

@[simp] theorem PlatformState.setWorker_setWorker (s : PlatformState) (a : UpdateAction)
    (p q : WorkerPhase) : (s.setWorker a p).setWorker a q = s.setWorker a q := by
  simp [PlatformState.setWorker]

/-- A worker that runs its task, its check and its report with no other step between them
reports what the layer's method returns, and leaves the request and the cache as the method
does. -/
theorem worker_runs_action (a : UpdateAction) (v : Int) (r : AducResult) {s : PlatformState}
    (hs : s.workers a = some .started) :
    platformRun [.task a v r, .check a, .clear a, .report a] s =
      { (a.perform v r s).2.setWorker a .finished with
        log := s.log ++ [.completed a (a.perform v r s).1] } := by
  simp only [platformRun_cons, platformRun_nil, PlatformStep.run, Worker.task, hs]
  rcases hl : getUpdateManifestHandler v s.ext with ⟨⟨lr, _ | h⟩, ext⟩
  all_goals cases hf : s.isCancellationRequested <;> cases a <;>
    simp [Worker.check, Worker.clear, Worker.report, UpdateAction.perform,
      MbedPlatformLayer.download, MbedPlatformLayer.backup, MbedPlatformLayer.install,
      MbedPlatformLayer.apply, MbedPlatformLayer.restore, MbedPlatformLayer.cancellableAction,
      UpdateAction.checksCancel, PlatformState.setWorker, hl, hf]

/-- A restore run alone after its callback reports the layer's `Restore`. -/
theorem worker_runs_action_restore :
    let s := platformRun [.asyncTask .restore true] .init
    s.workers .restore = some .started ∧
      platformRun [.task .restore 5 ⟨.restoreSuccessUnsupported, .none⟩, .check .restore,
          .clear .restore, .report .restore] s =
        { (UpdateAction.restore.perform 5 ⟨.restoreSuccessUnsupported, .none⟩ s).2.setWorker
            .restore .finished with
          log := s.log ++
            [.completed .restore (UpdateAction.restore.perform 5 ⟨.restoreSuccessUnsupported, .none⟩ s).1] } :=
  ⟨rfl, worker_runs_action _ _ _ rfl⟩

/-! ## Every worker started reports once -/

/-- Whether an event is a completion of the worker of `a`. -/
def PlatformEvent.isCompletionOf (a : UpdateAction) : PlatformEvent → Bool
  | .completed b _ => b == a
  | _ => false

theorem PlatformEvent.isCompletionOf_callback {b a : UpdateAction} {u ok : Bool} {e : PlatformEvent}
    (he : e ∈ (if u then [PlatformEvent.terminated b] else []) ++ if ok then [.started b] else []) :
    e.isCompletionOf a = false := by
  rcases List.mem_append.mp he with he | he <;> split_ifs at he <;>
    simp_all [PlatformEvent.isCompletionOf]

/-- Every `InProgress` the callback of `a` returned is matched by a completion, a worker
destroyed before it reported, or the worker still running. -/
def PlatformState.Balanced (s : PlatformState) (a : UpdateAction) : Prop :=
  s.log.countP (·.isCompletionOf a) + s.log.count (.terminated a) + s.pending a =
    s.log.count (.started a)

theorem PlatformState.Balanced.of_step {s s' : PlatformState} {a : UpdateAction}
    (h : s.Balanced a) (evs : List PlatformEvent) (hl : s'.log = s.log ++ evs)
    (hp : s'.pending a + evs.countP (·.isCompletionOf a) + evs.count (.terminated a) =
      s.pending a + evs.count (.started a)) : s'.Balanced a := by
  unfold PlatformState.Balanced at *
  rw [hl, List.countP_append, List.count_append, List.count_append]
  omega

theorem PlatformStep.run_balanced (st : PlatformStep) {s : PlatformState} {a : UpdateAction}
    (h : s.Balanced a) : (st.run s).Balanced a := by
  have quiet : ∀ s' : PlatformState, s'.log = s.log ∧ (∀ b, s'.pending b = s.pending b) →
      s'.Balanced a := fun _ ⟨hl, hp⟩ => h.of_step [] (by simp [hl]) (by simp [hp])
  cases st with
  | idle => exact h
  | cancel v => exact h
  | isInstalled wd r =>
    simp only [PlatformStep.run, MbedPlatformLayer.isInstalled]
    split
    · exact h
    · split <;> exact h
  | asyncTask b ok =>
    rw [PlatformStep.run, MbedPlatformLayer.asyncTaskCallback_snd]
    refine h.of_step _ rfl ?_
    by_cases hab : a = b
    · subst hab
      cases ok <;> cases hu : (s.workers a).any WorkerPhase.unreported <;>
        simp [PlatformState.pending, hu, WorkerPhase.unreported, PlatformEvent.isCompletionOf]
    · cases ok <;> cases (s.workers b).any WorkerPhase.unreported <;>
        simp [PlatformState.pending, hab, Ne.symm hab, PlatformEvent.isCompletionOf]
  | task b v r => exact quiet _ (Worker.task_quiet b s v r)
  | check b => exact quiet _ (Worker.check_quiet b s)
  | clear b => exact quiet _ (Worker.clear_quiet b s)
  | report b =>
    simp only [PlatformStep.run, Worker.report]
    split
    · rename_i r hw
      refine h.of_step _ rfl ?_
      by_cases hab : a = b
      · subst hab
        simp [PlatformState.pending, hw, WorkerPhase.unreported, PlatformEvent.isCompletionOf]
      · simp [PlatformState.pending, PlatformEvent.isCompletionOf, hab, Ne.symm hab]
    · exact h

/-- Over every interleaving of the main thread's calls and the workers' steps, each worker
the callback of `a` started completes exactly once, unless the next callback of `a` destroys
it first or it is still running: nothing completes twice, and nothing completes that did not
start. -/
theorem platformRun_completions (steps : List PlatformStep) (a : UpdateAction) :
    let s := platformRun steps .init
    s.log.countP (·.isCompletionOf a) + s.log.count (.terminated a) + s.pending a =
      s.log.count (.started a) := by
  exact platformRun_induction (P := (·.Balanced a)) (fun st _ h => st.run_balanced h) steps
    (by simp [PlatformState.Balanced, PlatformState.init, PlatformState.pending])

/-! ## A pending cancel request reaches the running task -/

/-- The steps after which a pending request still reaches the worker of `a`: no `Idle`, no new
callback of `a`, no other worker clearing the request, and a lookup of `a` on a manifest of
version 4 or later. -/
def PlatformStep.KeepsCancelFor (a : UpdateAction) : PlatformStep → Prop
  | .idle => False
  | .asyncTask b _ => b ≠ a
  | .clear b => b = a
  | .task b v _ => b = a → 4 ≤ v
  | _ => True

/-- The worker of `a` completes with `ADUC_Result_Failure_Cancelled` if it completes: it is
before its check with the request set, past reading it set, or has reported. -/
def PlatformState.CancelOwed (s : PlatformState) (a : UpdateAction) : Prop :=
  ((s.workers a = some .started ∨ ∃ r, s.workers a = some (.returned r)) ∧
      s.isCancellationRequested = true) ∨
    s.workers a = some .cancelSeen ∨ s.workers a = some (.done .failureCancelled) ∨
    s.workers a = some .finished

theorem PlatformState.CancelOwed.of_eq {s s' : PlatformState} {a : UpdateAction}
    (h : s.CancelOwed a) (hw : s'.workers a = s.workers a)
    (hf : s.isCancellationRequested = true → s'.isCancellationRequested = true) :
    s'.CancelOwed a := by
  unfold PlatformState.CancelOwed at h ⊢
  rw [hw]
  rcases h with ⟨hp, hr⟩ | h
  · exact .inl ⟨hp, hf hr⟩
  · exact .inr h

theorem PlatformStep.run_cancelOwed {a : UpdateAction} (ha : a.checksCancel = true)
    {st : PlatformStep} (hst : st.KeepsCancelFor a) {s : PlatformState} (h : s.CancelOwed a) :
    (st.run s).CancelOwed a ∧ ∃ evs, (st.run s).log = s.log ++ evs ∧
      ∀ e ∈ evs, e.isCompletionOf a = true → e = .completed a .failureCancelled := by
  have nolog : ∀ s' : PlatformState, s'.log = s.log → ∃ evs, s'.log = s.log ++ evs ∧
      ∀ e ∈ evs, e.isCompletionOf a = true → e = .completed a .failureCancelled :=
    fun _ hl => ⟨[], by simp [hl], by simp⟩
  cases st with
  | idle => exact hst.elim
  | cancel v => exact ⟨h.of_eq rfl fun _ => rfl, nolog _ rfl⟩
  | isInstalled wd r =>
    simp only [PlatformStep.run, MbedPlatformLayer.isInstalled]
    split
    · exact ⟨h, nolog _ rfl⟩
    · split <;> exact ⟨h, nolog _ rfl⟩
  | asyncTask b ok =>
    rw [PlatformStep.run, MbedPlatformLayer.asyncTaskCallback_snd]
    refine ⟨h.of_eq (by simp [PlatformState.setWorker, Ne.symm hst]) id, _, rfl, fun e he hc => ?_⟩
    exact absurd hc (by simp [PlatformEvent.isCompletionOf_callback he])
  | task b v r =>
    by_cases hab : b = a
    · subst hab
      simp only [PlatformStep.run, Worker.task]
      split
      · rename_i hw
        have hreq : s.isCancellationRequested = true := by
          unfold PlatformState.CancelOwed at h; rw [hw] at h; simpa using h
        have hsome := getUpdateManifestHandler_isSome (hst rfl) s.ext
        rcases hl : getUpdateManifestHandler v s.ext with ⟨⟨lr, _ | p⟩, ext⟩
        · simp [hl] at hsome
        · exact ⟨.inl ⟨.inr ⟨r, by simp [ha]⟩, hreq⟩, nolog _ rfl⟩
      · exact ⟨h, nolog _ rfl⟩
    · obtain ⟨hw, hf⟩ := Worker.task_frame hab s v r
      exact ⟨h.of_eq hw fun hr => hf.trans hr, nolog _ (Worker.task_quiet b s v r).1⟩
  | check b =>
    by_cases hab : b = a
    · subst hab
      simp only [PlatformStep.run, Worker.check]
      split
      · rename_i r hw
        have hreq : s.isCancellationRequested = true := by
          unfold PlatformState.CancelOwed at h; rw [hw] at h; simpa using h
        exact ⟨by simp [PlatformState.CancelOwed, hreq], nolog _ (by simp [hreq])⟩
      · exact ⟨h, nolog _ rfl⟩
    · obtain ⟨hw, hf⟩ := Worker.check_frame hab s
      exact ⟨h.of_eq hw fun hr => hf.trans hr, nolog _ (Worker.check_quiet b s).1⟩
  | clear b =>
    cases hst
    simp only [PlatformStep.run, Worker.clear]
    split
    · exact ⟨by simp [PlatformState.CancelOwed, PlatformState.setWorker], nolog _ rfl⟩
    · exact ⟨h, nolog _ rfl⟩
  | report b =>
    by_cases hab : b = a
    · subst hab
      simp only [PlatformStep.run, Worker.report]
      split
      · rename_i r hw
        have hr : r = .failureCancelled := by
          unfold PlatformState.CancelOwed at h; rw [hw] at h; simpa using h
        subst hr
        exact ⟨by simp [PlatformState.CancelOwed, PlatformState.setWorker], _, rfl,
          by simp [PlatformEvent.isCompletionOf]⟩
      · exact ⟨h, nolog _ rfl⟩
    · obtain ⟨hw, hf⟩ := Worker.report_frame hab s
      refine ⟨h.of_eq hw fun hr => hf.trans hr, ?_⟩
      simp only [PlatformStep.run, Worker.report]
      split
      · exact ⟨_, rfl, by simp [PlatformEvent.isCompletionOf, hab]⟩
      · exact nolog _ rfl

/-- When a cancel request is pending while a Download, Backup, Install or Apply task is
running and has not yet passed its check, that task completes with
`ADUC_Result_Failure_Cancelled`, whatever its handler returns, provided its manifest has
version 4 or later and, until it completes, no `Idle`, no new callback of its kind and no
other worker's clearing of the request come between. -/
theorem cancel_reaches_running_task {a : UpdateAction} (ha : a.checksCancel = true)
    {s : PlatformState} (hreq : s.isCancellationRequested = true)
    (hrun : s.workers a = some .started ∨ ∃ r, s.workers a = some (.returned r))
    (steps : List PlatformStep) (hsteps : ∀ st ∈ steps, st.KeepsCancelFor a) :
    ∃ evs, (platformRun steps s).log = s.log ++ evs ∧
      ∀ e ∈ evs, e.isCompletionOf a = true → e = .completed a .failureCancelled := by
  suffices ∀ s : PlatformState, s.CancelOwed a → ∃ evs, (platformRun steps s).log = s.log ++ evs ∧
      ∀ e ∈ evs, e.isCompletionOf a = true → e = .completed a .failureCancelled from
    this s (.inl ⟨hrun, hreq⟩)
  induction steps with
  | nil => exact fun s _ => ⟨[], by simp, by simp⟩
  | cons st steps ih =>
    intro s hs
    obtain ⟨hs', evs, hl, he⟩ := PlatformStep.run_cancelOwed ha
      (hsteps st (List.mem_cons_self _ _)) hs
    obtain ⟨evs', hl', he'⟩ := ih (fun st' h' => hsteps st' (List.mem_cons_of_mem _ h')) _ hs'
    refine ⟨evs ++ evs', by rw [platformRun_cons, hl', hl, List.append_assoc], fun e hm hc => ?_⟩
    rcases List.mem_append.mp hm with hm | hm
    · exact he e hm hc
    · exact he' e hm hc

theorem cancel_reaches_running_task_download :
    let s := platformRun [.asyncTask .download true, .cancel 4] .init
    s.isCancellationRequested = true ∧ s.workers .download = some .started ∧
      ∃ evs, (platformRun [.task .download 4 ⟨.downloadSuccess, .none⟩, .check .download,
          .clear .download, .report .download] s).log = s.log ++ evs ∧
        ∀ e ∈ evs, e.isCompletionOf .download = true → e = .completed .download .failureCancelled :=
  ⟨rfl, rfl, cancel_reaches_running_task (a := .download) rfl rfl (.inl rfl) _
    (by simp [PlatformStep.KeepsCancelFor])⟩

/-! ## A cancel never cancels a restore -/

/-- A phase from which a worker can still complete with `ADUC_Result_Failure_Cancelled`. -/
def WorkerPhase.cancellable : WorkerPhase → Bool
  | .returned _ | .cancelSeen | .done .failureCancelled => true
  | _ => false

/-- The worker of Restore is in no phase that can end cancelled, and has never completed
cancelled. -/
def PlatformState.RestoreUncancelled (s : PlatformState) : Prop :=
  (∀ p, s.workers .restore = some p → p.cancellable = false) ∧
    PlatformEvent.completed .restore .failureCancelled ∉ s.log

theorem PlatformStep.run_restoreUncancelled (st : PlatformStep) {s : PlatformState}
    (h : s.RestoreUncancelled) : (st.run s).RestoreUncancelled := by
  obtain ⟨hw, hl⟩ := h
  have keep : ∀ s' : PlatformState, s'.workers .restore = s.workers .restore → s'.log = s.log →
      s'.RestoreUncancelled := fun _ h1 h2 => ⟨h1 ▸ hw, h2 ▸ hl⟩
  cases st with
  | idle => exact keep _ rfl rfl
  | cancel v => exact keep _ rfl rfl
  | isInstalled wd r =>
    simp only [PlatformStep.run, MbedPlatformLayer.isInstalled]
    split
    · exact keep _ rfl rfl
    · split <;> exact keep _ rfl rfl
  | asyncTask b ok =>
    rw [PlatformStep.run, MbedPlatformLayer.asyncTaskCallback_snd]
    refine ⟨fun p hp => ?_, fun hm => (List.mem_append.mp hm).elim hl fun he =>
      absurd (PlatformEvent.isCompletionOf_callback (a := .restore) he)
        (by simp [PlatformEvent.isCompletionOf])⟩
    by_cases hb : b = .restore
    · subst hb
      simp only [PlatformState.setWorker_workers_self, Option.some.injEq] at hp
      subst hp; cases ok <;> rfl
    · exact hw p (by simpa [Ne.symm hb] using hp)
  | task b v r =>
    refine ⟨?_, (Worker.task_quiet b s v r).1 ▸ hl⟩
    by_cases hb : b = .restore
    · subst hb
      simp only [PlatformStep.run, Worker.task]
      split
      · intro p hp
        simp only [PlatformState.setWorker_workers_self, Option.some.injEq] at hp
        subst hp; split <;> rfl
      · exact hw
    · rw [PlatformStep.run, (Worker.task_frame hb s v r).1]; exact hw
  | check b =>
    refine ⟨?_, (Worker.check_quiet b s).1 ▸ hl⟩
    by_cases hb : b = .restore
    · subst hb
      simp only [PlatformStep.run, Worker.check]
      split
      · rename_i r hr; exact absurd (hw _ hr) (by simp [WorkerPhase.cancellable])
      · exact hw
    · rw [PlatformStep.run, (Worker.check_frame hb s).1]; exact hw
  | clear b =>
    refine ⟨?_, (Worker.clear_quiet b s).1 ▸ hl⟩
    by_cases hb : b = .restore
    · subst hb
      simp only [PlatformStep.run, Worker.clear]
      split
      · rename_i hr; exact absurd (hw _ hr) (by simp [WorkerPhase.cancellable])
      · exact hw
    · rw [PlatformStep.run, Worker.clear_workers_of_ne hb]; exact hw
  | report b =>
    simp only [PlatformStep.run, Worker.report]
    split
    · rename_i r hr
      by_cases hb : b = .restore
      · subst hb
        have hr' : r ≠ .failureCancelled := by
          rintro rfl; exact absurd (hw _ hr) (by simp [WorkerPhase.cancellable])
        exact ⟨by simp [WorkerPhase.cancellable], by simp [hl, Ne.symm hr']⟩
      · exact ⟨fun p hp => hw p (by simpa [Ne.symm hb] using hp), by simp [hl, Ne.symm hb]⟩
    · exact ⟨hw, hl⟩

/-- Over every interleaving of the main thread's calls and the workers' steps from the start,
no Restore completes with `ADUC_Result_Failure_Cancelled`: a cancel request during a restore
lets it finish, and nothing of the restore clears it. -/
theorem platformRun_restore_uncancelled (steps : List PlatformStep) :
    PlatformEvent.completed .restore .failureCancelled ∉ (platformRun steps .init).log :=
  (platformRun_induction (P := PlatformState.RestoreUncancelled)
    (fun st _ h => st.run_restoreUncancelled h) steps
    ⟨fun _ h => by simp [PlatformState.init] at h, by simp [PlatformState.init]⟩).2

/-! ## The handlers the lookups leak -/

/-- The update types a lookup of the layer caches a handler under. -/
def manifestHandlerTypes : List String :=
  ["microsoft/update-manifest:4", "microsoft/update-manifest:5", updateManifestDefaultHandler]

/-- What the layer's lookups keep of the extension manager: the heap and the map are well
formed, every handler created is live, and the map's keys are manifest handler types. -/
structure ExtManager.OnlyLookups (e : ExtManager) : Prop where
  wf : e.Wf
  allLive : e.liveAddrs = List.range e.next
  keys : ∀ k ∈ e.contentHandlers.entries.map Prod.fst, k ∈ manifestHandlerTypes

theorem mem_manifestHandlerTypes (v : Int) {c : HandlerClass}
    (h : handlerClassFor ("microsoft/update-manifest:" ++ toString v) = some c) :
    "microsoft/update-manifest:" ++ toString v ∈ manifestHandlerTypes := by
  unfold handlerClassFor at h
  split_ifs at h with h1 h2
  · rcases h1 with h1 | h1 | h1 | h1
    · have := congrArg (fun s => s.data.take 11) h1
      simp only [String.data_append] at this
      rw [List.take_append_of_le_length (by decide)] at this
      exact absurd this (by decide)
    · have := congrArg (fun s => s.data.length) h1
      simp at this
    · simp [manifestHandlerTypes, h1]
    · simp [manifestHandlerTypes, h1]
  · have := congrArg (fun s => s.data.take 1) h2
    simp only [String.data_append] at this
    rw [List.take_append_of_le_length (by decide)] at this
    exact absurd this (by decide)

theorem HandlerMap.mem_keys_emplace {hm : HandlerMap} {key k : String} {p : HandlerPtr}
    (h : k ∈ (hm.emplace key p).entries.map Prod.fst) :
    k ∈ hm.entries.map Prod.fst ∨ k = key := by
  unfold HandlerMap.emplace at h
  split at h
  · exact .inl h
  · simpa using h

theorem ExtManager.OnlyLookups.load {e : ExtManager} (he : e.OnlyLookups) {key : String}
    (hkey : ∀ c, handlerClassFor key = some c → key ∈ manifestHandlerTypes) :
    (loadUpdateContentHandlerExtension key e).2.OnlyLookups := by
  refine ⟨he.wf.load key, ?_, ?_⟩ <;> rw [loadUpdateContentHandlerExtension_eq]
  · rcases handlerClassFor key with _ | c
    · rcases HandlerMap.find? _ _ with _ | h
      · exact he.allLive
      · exact he.allLive
    · simp [ExtManager.new, ExtManager.liveAddrs, List.range_succ, ← he.allLive]
  · rcases hc : handlerClassFor key with _ | c
    · rcases hf : HandlerMap.find? _ _ with _ | h
      · exact he.keys
      · intro k hk
        rcases HandlerMap.mem_keys_emplace hk with hk | rfl
        · exact he.keys k hk
        · exact he.keys k (e.contentHandlers.mem_keys_of_find? _ hf).1
    · intro k hk
      rcases HandlerMap.mem_keys_emplace hk with hk | rfl
      · exact he.keys k hk
      · exact hkey c hc

theorem ExtManager.OnlyLookups.getUpdateManifestHandler {e : ExtManager} (he : e.OnlyLookups)
    (v : Int) : (AziotOta.getUpdateManifestHandler v e).2.OnlyLookups := by
  have hdef : ∀ c, handlerClassFor updateManifestDefaultHandler = some c →
      updateManifestDefaultHandler ∈ manifestHandlerTypes := fun _ _ => by
    simp [manifestHandlerTypes]
  have h1 := he.load fun _ hc => mem_manifestHandlerTypes v hc
  unfold AziotOta.getUpdateManifestHandler
  split_ifs
  · rcases hl : loadUpdateContentHandlerExtension _ e with ⟨⟨lr, hd⟩, e1⟩
    rw [hl] at h1
    by_cases hf : isAducResultCodeFailure lr.resultCode
    · rcases hl2 : loadUpdateContentHandlerExtension updateManifestDefaultHandler e1 with
        ⟨⟨lr2, hd2⟩, e2⟩
      have h2 := h1.load hdef
      rw [hl2] at h2
      simp only [hf, if_true, hl2]
      split_ifs <;> exact h2
    · simp only [Bool.not_eq_true] at hf
      simp only [hf, Bool.false_eq_true, if_false]
      exact h1
  · exact he

end AziotOta
