import AziotOta.D2CSafety

/-!
# Every interleaving of the D2C callers

Each atomic step and `ADUC_D2C_Messaging_Uninit` is a chain of the pieces of
`AziotOta.D2CSafety`, so the buffer invariant holds after every interleaving from
`ADUC_D2C_Messaging_Init`, and the transport sees each type's messages in submission order.
A pending message that `SendAsync` replaces without a completed callback loses its buffer;
with one for every message, `Uninit` frees every buffer exactly once. A retry count never
passes `INT_MAX`.
-/

namespace AziotOta

section Keeps

variable {n : Nat}

/-- `s'` follows `s` by pieces of code that keep the invariant and, when `lossless`, drop no
buffer. -/
structure Keeps (lossless : Bool) (s s' : D2CState n) : Prop where
  inv : D2CInv s → D2CInv s'
  accounted : lossless = true → D2CInv s → s.Accounted → s'.Accounted

variable {b : Bool} {s s1 s2 : D2CState n}

theorem Keeps.refl : Keeps b s s := ⟨id, fun _ _ => id⟩

theorem Keeps.trans (h1 : Keeps b s s1) (h2 : Keeps b s1 s2) : Keeps b s s2 :=
  ⟨h2.inv ∘ h1.inv, fun hl hI hA => h2.accounted hl (h1.inv hI) (h1.accounted hl hI hA)⟩

theorem Keeps.of_effect {t : Fin n} {evs : List D2CEvent}
    (h : D2CInv s → Effect s s1 t evs ∧ Effect.Lossless s s1 t evs) : Keeps b s s1 :=
  ⟨fun hI => hI.effect (h hI).1, fun _ hI hA => hA.effect (h hI).1 (h hI).2⟩

end Keeps

/-! ## The steps -/

section Steps

variable {n : Nat} {b : Bool} {s : D2CState n} {t : Fin n}

/-- The `shouldSend` branch of `ProcessMessage`, on a type whose pending slot is empty. -/
theorem sendMessage_keeps (ok : Bool) (hp : s.pendingMessageStore t = none) :
    Keeps b s (sendMessage ok t s) := by
  unfold sendMessage
  cases hm : (s.messageProcessingContext t).message with
  | none =>
    simp only [hm, Option.map_none', defaultMessageTransportFunction, Option.getD_none,
      List.append_nil, Bool.false_eq_true, if_false]
    exact Keeps.of_effect fun _ => Effect.setContext_quiet _ _ (by simp [hm]) chunked_nil rfl rfl
      fun _ => rfl
  | some m =>
    have hown : s.own t = [m.content] := by simp [D2CState.own_eq, hm, hp]
    have hmem : m.content ∈ s.own t := by rw [hown]; exact List.mem_singleton_self _
    have htr : Keeps b s (s.emit [.transport t.val m.content]) :=
      Keeps.of_effect fun hI => Effect.transport hown (hI.own_lt hmem)
    cases hh : m.cloudServiceHandle
    · simp only [defaultMessageTransportFunction, hm, Option.map_some', Option.getD_some, hh,
        Bool.not_false, if_true, Bool.false_eq_true, if_false]
      rw [← D2CState.emit_append, D2CState.setContext_emit]
      exact htr.trans (Keeps.of_effect fun _ => Effect.setContext_quiet _ _ (by simp [hm])
        chunked_nil rfl rfl fun _ => rfl)
    cases ok
    · simp only [defaultMessageTransportFunction, hm, Option.map_some', Option.getD_some, hh,
        Bool.not_true, Bool.false_eq_true, if_false]
      rw [← D2CState.emit_append, D2CState.setContext_emit]
      have hm1 : ((s.emit [.transport t.val m.content]).messageProcessingContext t).message =
          some m := hm
      exact htr.trans (Keeps.of_effect fun hI => Effect.completeContext hI hm1 rfl .failed rfl _ rfl)
    · simp only [defaultMessageTransportFunction, hm, Option.map_some', Option.getD_some, hh,
        Bool.not_true, Bool.false_eq_true, if_false, if_true]
      rw [← D2CState.emit_append, D2CState.setContext_emit]
      exact htr.trans (Keeps.of_effect fun _ =>
        Effect.status _ _ .waitingForResponse rfl (by simp [setMessageStatus, hm]))

theorem processMessage_keeps (now : Int) (ok : Bool) :
    Keeps b s (processMessage now ok t s) := by
  unfold processMessage
  cases hp : s.pendingMessageStore t with
  | some p =>
    simp only
    split_ifs
    · exact Keeps.refl
    · refine (Keeps.of_effect fun hI => Effect.replace hI hp _ ?_).trans
        ((Keeps.of_effect (t := t) fun _ => Effect.emit_status _ .inProgress rfl).trans
          (sendMessage_keeps ok (by simp)))
      simp [setMessageStatus]
  | none =>
    simp only
    split_ifs
    · exact sendMessage_keeps ok hp
    · exact Keeps.refl

theorem responseCallback_keeps (retryDelay : RetryDelayCalculator) (httpStatusCode : Int) :
    Keeps b s (defaultIoTHubSendReportedStateCompletedCallback retryDelay httpStatusCode t s) := by
  unfold defaultIoTHubSendReportedStateCompletedCallback
  simp only
  cases hm : (s.messageProcessingContext t).message with
  | none => exact Keeps.refl
  | some m =>
    simp only
    cases hd : (responseDecision retryDelay httpStatusCode m (s.messageProcessingContext t)).1 with
    | none =>
      exact Keeps.of_effect fun _ =>
        Effect.status _ _ .inProgress rfl (by simp [setMessageStatus, hm])
    | some st =>
      exact Keeps.of_effect fun hI =>
        Effect.completeContext hI hm rfl st (responseDecision_terminal hd) _ rfl

theorem keeps_submit (X : List D2CEvent)
    (hX : X = [] ∨ ∃ p, s.pendingMessageStore t = some p ∧
      X = onMessageProcessingCompleted p .replaced)
    (m : D2CMessage) (hm : m.content = s.heapNext) {s' : D2CState n}
    (hs' : s' = (((({ s with heapNext := s.heapNext + 1 } : D2CState n).emit
      [.malloc s.heapNext]).emit X).setPending t (some (setMessageStatus m .pending).1)).emit
      (setMessageStatus m .pending).2)
    (hL : b = true → X = [] → s.pendingMessageStore t = none) : Keeps b s s' :=
  ⟨fun hI => hI.effect (Effect.submit hI X hX m hm hs').1, fun hl hI hA =>
    hA.effect (Effect.submit hI X hX m hm hs').1 ((Effect.submit hI X hX m hm hs').2 (hL hl))⟩

/-- `SendAsync` keeps the invariant, and drops no buffer unless it overwrites a pending message
that has no completed callback. -/
theorem sendAsync_keeps
    (hb : b = true → ∀ p, s.pendingMessageStore t = some p → p.completedCallback = true)
    (cloudServiceHandle : Bool) (message : Option String)
    (responseCallback : Option ResponseCallback)
    (completedCallback statusChangedCallback mallocOk : Bool) (now : Int) :
    Keeps b s (d2cMessageSendAsync t cloudServiceHandle message responseCallback completedCallback
      statusChangedCallback mallocOk now s).2 := by
  unfold d2cMessageSendAsync
  cases message with
  | none => exact Keeps.refl
  | some _ =>
    cases mallocOk
    · exact Keeps.refl
    simp only [Bool.not_true, Bool.false_eq_true, if_false]
    let m : D2CMessage := ⟨s.heapNext, cloudServiceHandle, responseCallback, completedCallback,
      statusChangedCallback, .pending, 0, now⟩
    cases hp : s.pendingMessageStore t with
    | none =>
      exact keeps_submit [] (.inl rfl) m rfl (by simp [hp]) fun _ _ => hp
    | some p =>
      cases hc : p.completedCallback
      · exact keeps_submit (t := t) [] (.inl rfl) m rfl (by simp [hp, hc])
          fun hl _ => absurd (hb hl p hp) (by simp [hc])
      · exact keeps_submit _ (.inr ⟨p, hp, rfl⟩) m rfl (by simp [hp, hc])
          fun _ h => absurd h (by simp [onMessageProcessingCompleted])

/-- One type's turn of `ADUC_D2C_Messaging_Uninit`. -/
theorem cancelMessages_keeps (t : Fin n) : Keeps b s (cancelMessages s t) := by
  unfold cancelMessages
  simp only
  refine (Keeps.of_effect (t := t) fun hI => Effect.completePending hI .canceled rfl).trans ?_
  rw [← D2CState.setContext_emit]
  generalize (s.emit (completeSlot (s.pendingMessageStore t) .canceled)).setPending t none = s1
  cases hm : (s1.messageProcessingContext t).message with
  | none => exact Keeps.of_effect fun _ =>
      Effect.setContext_quiet _ _ (by simp [hm]) chunked_nil rfl rfl fun _ => rfl
  | some m => exact Keeps.of_effect fun hI => Effect.completeContext hI hm rfl .canceled rfl _ rfl

theorem cancelMessages_own (t t' : Fin n) :
    (cancelMessages s t).own t' = if t' = t then [] else s.own t' := by
  by_cases h : t' = t
  · subst h
    simp [cancelMessages, D2CState.own_setContext]
  · simp [cancelMessages, D2CState.own_setContext, D2CState.own_setPending, h]

theorem foldl_cancelMessages_keeps (l : List (Fin n)) (s : D2CState n) :
    Keeps b s (l.foldl cancelMessages s) := by
  induction l generalizing s with
  | nil => exact Keeps.refl
  | cons t l ih => exact (cancelMessages_keeps t).trans (ih _)

theorem foldl_cancelMessages_own (l : List (Fin n)) (s : D2CState n) (t : Fin n) :
    (l.foldl cancelMessages s).own t = if t ∈ l then [] else s.own t := by
  induction l generalizing s with
  | nil => simp
  | cons a l ih =>
    rw [List.foldl_cons, ih, cancelMessages_own]
    by_cases h1 : t ∈ l <;> by_cases h2 : t = a <;> simp [h1, h2]

theorem D2CInv.setInitialized (hI : D2CInv s) (c : Bool) :
    D2CInv { s with coreInitialized := c } :=
  ⟨hI.mallocsEq, hI.chunked, hI.heldNodup, hI.heldLive, hI.freesNodup, hI.freesAllocated,
    hI.sentSorted, hI.sentAllocated, hI.sentBefore⟩

theorem uninit_keeps : Keeps b s (d2cMessagingUninit s) := by
  unfold d2cMessagingUninit
  split
  · exact (foldl_cancelMessages_keeps _ s).trans
      ⟨fun hI => hI.setInitialized false, fun _ _ hA => hA⟩
  · exact Keeps.refl

/-- After `Uninit` of an initialized state no slot holds a buffer. -/
theorem uninit_held (hs : s.coreInitialized = true) : (d2cMessagingUninit s).held = [] :=
  D2CState.held_eq_nil _ fun t => by
    simp only [d2cMessagingUninit, hs, if_true]
    exact (foldl_cancelMessages_own _ s t).trans (if_pos (List.mem_finRange t))

end Steps

/-! ## What the steps leave alone -/

section Frame

variable {n : Nat} {s : D2CState n} {t : Fin n}

theorem sendMessage_frame (ok : Bool) :
    (sendMessage ok t s).pendingMessageStore = s.pendingMessageStore ∧
      (sendMessage ok t s).coreInitialized = s.coreInitialized := by
  unfold sendMessage defaultMessageTransportFunction
  simp only
  cases hm : (s.messageProcessingContext t).message with
  | none => exact ⟨rfl, rfl⟩
  | some m => simp only [Option.map_some']; split_ifs <;> exact ⟨rfl, rfl⟩

theorem sent_sendMessage (ok : Bool) {k : Nat} (hk : k ≠ t.val) :
    sent (sendMessage ok t s).log k = sent s.log k := by
  unfold sendMessage defaultMessageTransportFunction
  simp only
  cases hm : (s.messageProcessingContext t).message with
  | none => simp
  | some m =>
    simp only [Option.map_some']
    split_ifs <;> simp [sent_transport_cons, Ne.symm hk]

theorem processMessage_frame (now : Int) (ok : Bool) :
    (∀ t' p, (processMessage now ok t s).pendingMessageStore t' = some p →
      s.pendingMessageStore t' = some p) ∧
      (processMessage now ok t s).coreInitialized = s.coreInitialized ∧
      ∀ k, k ≠ t.val → sent (processMessage now ok t s).log k = sent s.log k := by
  unfold processMessage
  cases hp : s.pendingMessageStore t with
  | none =>
    simp only
    split_ifs
    · exact ⟨fun t' _ h => (sendMessage_frame ok).1 ▸ h, (sendMessage_frame ok).2,
        fun k hk => sent_sendMessage ok hk⟩
    · exact ⟨fun _ _ => id, rfl, fun _ _ => rfl⟩
  | some p =>
    simp only
    split_ifs
    · exact ⟨fun _ _ => id, rfl, fun _ _ => rfl⟩
    · refine ⟨fun t' p' h => ?_, (sendMessage_frame ok).2, fun k hk => ?_⟩
      · rw [(sendMessage_frame ok).1] at h
        by_cases ht : t' = t
        · subst ht
          simp at h
        · simpa [D2CState.setPending, ht] using h
      · rw [sent_sendMessage ok hk]
        cases (s.messageProcessingContext t).message <;> simp [completeSlot]

/-- A `ProcessMessage` for a type whose message waits for its response does nothing. -/
theorem processMessage_of_waiting {m : D2CMessage}
    (hm : (s.messageProcessingContext t).message = some m)
    (hw : m.status = .waitingForResponse) (now : Int) (ok : Bool) :
    processMessage now ok t s = s := by
  unfold processMessage
  cases s.pendingMessageStore t <;> simp [hm, hw]

theorem sendAsync_frame (cloudServiceHandle : Bool) (message : Option String)
    (responseCallback : Option ResponseCallback)
    (completedCallback statusChangedCallback mallocOk : Bool) (now : Int) :
    let s' := (d2cMessageSendAsync t cloudServiceHandle message responseCallback completedCallback
      statusChangedCallback mallocOk now s).2
    s'.coreInitialized = s.coreInitialized ∧ (∀ k, sent s'.log k = sent s.log k) ∧
      ∀ t' p, s'.pendingMessageStore t' = some p →
        s.pendingMessageStore t' = some p ∨ p.completedCallback = completedCallback := by
  unfold d2cMessageSendAsync
  cases message with
  | none => exact ⟨rfl, fun _ => rfl, fun _ _ h => .inl h⟩
  | some _ =>
    cases mallocOk
    · exact ⟨rfl, fun _ => rfl, fun _ _ h => .inl h⟩
    simp only [Bool.not_true, Bool.false_eq_true, if_false]
    refine ⟨?_, fun k => ?_, fun t' p h => ?_⟩
    · split <;> (try split) <;> rfl
    · split <;> (try split) <;> simp [completeSlot]
    · by_cases ht : t' = t
      · subst ht
        split at h <;> (try split at h) <;>
          simp only [D2CState.pendingMessageStore_emit, D2CState.pendingMessageStore_setPending_self,
            Option.some.injEq] at h <;> exact .inr (h ▸ rfl)
      · left
        split at h <;> (try split at h) <;> simpa [D2CState.setPending, ht] using h

theorem responseCallback_frame (retryDelay : RetryDelayCalculator) (httpStatusCode : Int) :
    let s' := defaultIoTHubSendReportedStateCompletedCallback retryDelay httpStatusCode t s
    s'.pendingMessageStore = s.pendingMessageStore ∧ s'.coreInitialized = s.coreInitialized ∧
      ∀ k, sent s'.log k = sent s.log k := by
  unfold defaultIoTHubSendReportedStateCompletedCallback
  simp only
  cases (s.messageProcessingContext t).message with
  | none => exact ⟨rfl, rfl, fun _ => rfl⟩
  | some m =>
    simp only
    split <;> simp

end Frame

/-! ## Runs -/

section Runs

variable {n : Nat} (retryDelay : RetryDelayCalculator)

/-- A step that submits a message only with a completed callback. -/
def D2COp.HasCompletedCallback : D2COp n → Prop
  | .sendAsync _ _ _ _ completedCallback _ _ _ => completedCallback = true
  | _ => True

/-- Every pending message has a completed callback. -/
def D2CState.PendingCompleted (s : D2CState n) : Prop :=
  ∀ t p, s.pendingMessageStore t = some p → p.completedCallback = true

theorem D2COp.run_keeps (op : D2COp n) (s : D2CState n) : Keeps false s (op.run retryDelay s) := by
  cases op with
  | sendAsync t h msg rcb ccb scb ok now =>
    exact sendAsync_keeps (t := t) (fun h => absurd h Bool.false_ne_true) h msg rcb ccb scb ok now
  | processMessage t now ok => exact processMessage_keeps now ok
  | response t code => exact responseCallback_keeps retryDelay code

/-- A step that submits messages only with a completed callback drops no buffer, and keeps
every pending message with one. -/
theorem D2COp.run_lossless (op : D2COp n) (hop : op.HasCompletedCallback) {s : D2CState n}
    (hpc : s.PendingCompleted) :
    Keeps true s (op.run retryDelay s) ∧ (op.run retryDelay s).PendingCompleted := by
  cases op with
  | sendAsync t h msg rcb ccb scb ok now =>
    refine ⟨sendAsync_keeps (fun _ => hpc t) h msg rcb ccb scb ok now, fun t' p hp => ?_⟩
    rcases (sendAsync_frame h msg rcb ccb scb ok now).2.2 t' p hp with h' | h'
    · exact hpc t' p h'
    · exact h'.trans hop
  | processMessage t now ok =>
    exact ⟨processMessage_keeps now ok,
      fun t' p hp => hpc t' p ((processMessage_frame now ok).1 t' p hp)⟩
  | response t code =>
    exact ⟨responseCallback_keeps retryDelay code,
      fun t' p hp => hpc t' p ((responseCallback_frame retryDelay code).1 ▸ hp)⟩

theorem D2COp.run_coreInitialized (op : D2COp n) (s : D2CState n) :
    (op.run retryDelay s).coreInitialized = s.coreInitialized := by
  cases op with
  | sendAsync t h msg rcb ccb scb ok now => exact (sendAsync_frame h msg rcb ccb scb ok now).1
  | processMessage t now ok => exact (processMessage_frame now ok).2.1
  | response t code => exact (responseCallback_frame retryDelay code).2.1

theorem foldl_run_keeps (ops : List (D2COp n)) (s : D2CState n) :
    Keeps false s (ops.foldl (fun s op => op.run retryDelay s) s) ∧
      (ops.foldl (fun s op => op.run retryDelay s) s).coreInitialized = s.coreInitialized := by
  induction ops generalizing s with
  | nil => exact ⟨Keeps.refl, rfl⟩
  | cons op ops ih =>
    obtain ⟨h1, h2⟩ := ih (op.run retryDelay s)
    exact ⟨(op.run_keeps retryDelay s).trans h1, h2.trans (op.run_coreInitialized retryDelay s)⟩

theorem foldl_run_lossless (ops : List (D2COp n)) (hops : ∀ op ∈ ops, op.HasCompletedCallback)
    (s : D2CState n) (hpc : s.PendingCompleted) :
    Keeps true s (ops.foldl (fun s op => op.run retryDelay s) s) := by
  induction ops generalizing s with
  | nil => exact Keeps.refl
  | cons op ops ih =>
    obtain ⟨h1, h2⟩ := op.run_lossless retryDelay (hops op (List.mem_cons_self _ _)) hpc
    exact h1.trans (ih (fun op' h => hops op' (List.mem_cons_of_mem _ h)) _ h2)

theorem d2cRun_coreInitialized (ops : List (D2COp n)) :
    (d2cRun retryDelay ops).coreInitialized = true :=
  (foldl_run_keeps retryDelay ops _).2

/-- The invariant holds after every interleaving of `SendAsync`, `ProcessMessage` and transport
responses from `Init`, and after a final `Uninit`, which leaves no slot holding a buffer: no
buffer is freed twice, each free ends a terminal `OnMessageProcessingCompleted`, and no buffer
is held by two slots or after its free. -/
theorem d2cRun_inv (ops : List (D2COp n)) :
    D2CInv (d2cRun retryDelay ops) ∧ D2CInv (d2cMessagingUninit (d2cRun retryDelay ops)) ∧
      (d2cMessagingUninit (d2cRun retryDelay ops)).held = [] := by
  have hI : D2CInv (d2cRun retryDelay ops) := (foldl_run_keeps retryDelay ops _).1.inv d2cInv_init
  exact ⟨hI, (uninit_keeps (b := false)).inv hI, uninit_held (d2cRun_coreInitialized retryDelay ops)⟩

/-- When every message is submitted with a completed callback, `Uninit` after any interleaving
leaves every buffer `SendAsync` allocated freed exactly once. -/
theorem d2cRun_uninit_frees_all (ops : List (D2COp n))
    (hops : ∀ op ∈ ops, op.HasCompletedCallback) :
    (frees (d2cMessagingUninit (d2cRun retryDelay ops)).log).Perm
      (List.range (d2cMessagingUninit (d2cRun retryDelay ops)).heapNext) := by
  have hl := foldl_run_lossless retryDelay ops hops (d2cMessagingInit D2CState.zero).2
    (fun _ _ h => by cases h)
  have hI : D2CInv (d2cRun retryDelay ops) := hl.inv d2cInv_init
  have hA : (d2cRun retryDelay ops).Accounted := hl.accounted rfl d2cInv_init accounted_init
  have hIu := (uninit_keeps (b := true)).inv hI
  have hAu := (uninit_keeps (b := true)).accounted rfl hI hA
  have hheld := uninit_held (d2cRun_coreInitialized retryDelay ops)
  refine (List.perm_ext_iff_of_nodup hIu.freesNodup (List.nodup_range _)).mpr fun b =>
    ⟨fun hb => List.mem_range.mpr (hIu.freesAllocated b hb), fun hb => ?_⟩
  rcases hAu b (List.mem_range.mp hb) with h | h
  · exact h
  · rw [hheld] at h
    cases h

theorem d2cRun_uninit_frees_all_replaced :
    (frees (d2cMessagingUninit (d2cRun (fun _ _ _ _ _ => 0)
      [D2COp.sendAsync (0 : Fin 1) true (some "a") none true true true 0,
        .sendAsync 0 true (some "b") none true true true 1])).log).Perm
      (List.range (d2cMessagingUninit (d2cRun (fun _ _ _ _ _ => 0)
        [D2COp.sendAsync (0 : Fin 1) true (some "a") none true true true 0,
          .sendAsync 0 true (some "b") none true true true 1])).heapNext) :=
  d2cRun_uninit_frees_all _ _ (by simp [D2COp.HasCompletedCallback])

/-- Two `SendAsync`s of one type without a completed callback, then `Uninit`: the first buffer is
allocated and reported pending, then overwritten in the pending slot, so it is neither freed nor
reported a terminal status, and no slot holds it. -/
theorem sendAsync_over_pending_leaks :
    (d2cMessagingUninit (d2cRun (fun _ _ _ _ _ => 0)
      [D2COp.sendAsync (0 : Fin 1) true (some "a") none false true true 0,
        .sendAsync 0 true (some "b") none false true true 1])).log =
      [.malloc 0, .statusChanged 0 .pending, .malloc 1, .statusChanged 1 .pending,
        .statusChanged 1 .canceled, .free 1] ∧
    (d2cMessagingUninit (d2cRun (fun _ _ _ _ _ => 0)
      [D2COp.sendAsync (0 : Fin 1) true (some "a") none false true true 0,
        .sendAsync 0 true (some "b") none false true true 1])).held = [] := by
  decide

/-- A step from a state in which the message of `t` waits for its response makes no call of the
transport for `t`. -/
theorem D2COp.sent_of_waiting (op : D2COp n) {s : D2CState n} {evs : List D2CEvent} {t : Fin n}
    {m : D2CMessage} (hlog : (op.run retryDelay s).log = s.log ++ evs)
    (hm : (s.messageProcessingContext t).message = some m)
    (hw : m.status = .waitingForResponse) : sent evs t.val = [] := by
  have key : sent (op.run retryDelay s).log t.val = sent s.log t.val := by
    cases op with
    | sendAsync t' h msg rcb ccb scb ok now => exact (sendAsync_frame h msg rcb ccb scb ok now).2.1 _
    | processMessage t' now ok =>
      by_cases ht : t' = t
      · subst ht
        simp only [D2COp.run]
        rw [processMessage_of_waiting hm hw]
      · exact (processMessage_frame now ok).2.2 _ (Fin.val_ne_of_ne (Ne.symm ht))
    | response t' code => exact (responseCallback_frame retryDelay code).2.2 _
  rw [hlog, sent_append] at key
  exact List.append_cancel_left (key.trans (List.append_nil _).symm)

/-- After every interleaving from `Init` the buffers are numbered in submission order, the
transport has been passed each type's buffers in that order (so once a message has been sent no
earlier message of its type is sent again), and no step calls the transport for a type whose
message waits for its response. -/
theorem d2cRun_transport_in_order (ops : List (D2COp n)) :
    mallocs (d2cRun retryDelay ops).log = List.range (d2cRun retryDelay ops).heapNext ∧
      (∀ t : Fin n, (sent (d2cRun retryDelay ops).log t.val).Pairwise (· ≤ ·)) ∧
      ∀ (op : D2COp n) (evs : List D2CEvent) (t : Fin n) (m : D2CMessage),
        (op.run retryDelay (d2cRun retryDelay ops)).log = (d2cRun retryDelay ops).log ++ evs →
        ((d2cRun retryDelay ops).messageProcessingContext t).message = some m →
        m.status = .waitingForResponse → sent evs t.val = [] := by
  have hI : D2CInv (d2cRun retryDelay ops) := (foldl_run_keeps retryDelay ops _).1.inv d2cInv_init
  exact ⟨hI.mallocsEq, hI.sentSorted, fun op _ _ _ hlog hm hw =>
    op.sent_of_waiting retryDelay hlog hm hw⟩

end Runs

/-! ## The retry counter stays an `int` -/

section Retries

variable {n : Nat} (retryDelay : RetryDelayCalculator)

/-- Every context counts at most `INT_MAX` retries. -/
def D2CState.RetriesBounded (s : D2CState n) : Prop :=
  ∀ t, (s.messageProcessingContext t).retries ≤ intMax

theorem D2CState.RetriesBounded.setContext {s : D2CState n} (h : s.RetriesBounded) (t : Fin n)
    {c : ProcessingContext} (hc : c.retries ≤ intMax) : (s.setContext t c).RetriesBounded := by
  intro t'
  by_cases ht : t' = t
  · subst ht; simpa using hc
  · simpa [D2CState.setContext, ht] using h t'

/-- Sending leaves every retry count as it was. -/
theorem retries_sendMessage (ok : Bool) (t t' : Fin n) (s : D2CState n) :
    ((sendMessage ok t s).messageProcessingContext t').retries =
      (s.messageProcessingContext t').retries := by
  unfold sendMessage defaultMessageTransportFunction
  simp only
  by_cases ht : t' = t
  · subst ht
    cases hm : (s.messageProcessingContext t').message with
    | none => simp [hm]
    | some m => simp only [Option.map_some']; split_ifs <;> simp
  · simp [D2CState.setContext, ht]

/-- A retry the table's scan decides counts one more attempt. -/
theorem retryScan_retryAt {strategy : D2CRetryStrategy} {httpStatusCode : Int} {retries r : Nat}
    {time : Int} : ∀ {infos : List HttpStatusRetryInfo},
    retryScan retryDelay strategy httpStatusCode retries infos = .retryAt r time → r = retries + 1
  | [], h => by cases h
  | _ :: _, h => by
    simp only [retryScan] at h
    split_ifs at h <;> first | exact retryScan_retryAt h | (cases h; rfl)

/-- The response callback counts a retry only below the strategy's `maxRetries`, `INT_MAX`. -/
theorem responseDecision_retries_le (httpStatusCode : Int) (m : D2CMessage)
    {ctx : ProcessingContext} (h : ctx.retries ≤ intMax) :
    (responseDecision retryDelay httpStatusCode m ctx).2.1 ≤ intMax := by
  unfold responseDecision
  split
  dsimp only
  split_ifs with _ _ hmax
  · exact h
  · exact h
  · exact h
  · split
    · exact h
    · rename_i hscan
      rw [retryScan_retryAt retryDelay hscan]
      simp only [defaultRetryStrategy, ge_iff_le, not_le] at hmax
      exact hmax
    · exact h

theorem D2COp.run_retriesBounded (op : D2COp n) {s : D2CState n} (h : s.RetriesBounded) :
    (op.run retryDelay s).RetriesBounded := by
  cases op with
  | sendAsync t hdl msg rcb ccb scb ok now =>
    unfold D2COp.run d2cMessageSendAsync
    cases msg with
    | none => exact h
    | some _ =>
      cases ok
      · exact h
      · simp only [Bool.not_true, Bool.false_eq_true, if_false]
        split <;> (try split) <;> exact h
  | processMessage t now ok =>
    unfold D2COp.run AziotOta.processMessage
    cases hp : s.pendingMessageStore t with
    | none =>
      simp only [hp]
      split_ifs
      · exact fun t' => (retries_sendMessage ok t t' s).trans_le (h t')
      · exact h
    | some p =>
      simp only [hp]
      split_ifs
      · exact h
      · exact fun t' => (retries_sendMessage ok t t' _).trans_le (h.setContext t (Nat.zero_le _) t')
  | response t code =>
    unfold D2COp.run defaultIoTHubSendReportedStateCompletedCallback
    dsimp only
    cases hm : (s.messageProcessingContext t).message with
    | none => exact h
    | some m =>
      have hr := responseDecision_retries_le retryDelay code m (h t)
      simp only [hm]
      split
      · exact h.setContext t hr
      · exact h.setContext t hr

/-- After every interleaving of `SendAsync`, `ProcessMessage` and transport responses from
`Init`, no context has counted more than `INT_MAX` retries: the response callback's
`retries++` on the context's `int` never overflows, since the default strategy stops at
`maxRetries`, which is `INT_MAX`. -/
theorem d2cRun_retries_le (ops : List (D2COp n)) (t : Fin n) :
    ((d2cRun retryDelay ops).messageProcessingContext t).retries ≤ intMax := by
  suffices ∀ s : D2CState n, s.RetriesBounded →
      (ops.foldl (fun s op => op.run retryDelay s) s).RetriesBounded from
    this _ (fun _ => Nat.zero_le _) t
  induction ops with
  | nil => exact fun _ h => h
  | cons op ops ih => exact fun s h => ih _ (op.run_retriesBounded retryDelay h)

end Retries

end AziotOta
