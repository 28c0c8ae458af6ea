import Mathlib.Data.List.FinRange
import Mathlib.Logic.Function.Basic

/-!
# Device-to-cloud messaging

`d2c_messaging.cpp` keeps, for each message type, a pending slot that `ADUC_D2C_Message_SendAsync`
fills and a processing context whose message `ProcessMessage` sends and whose transport response
callback retries or completes it. Each entry point runs under the store mutex or the context's
mutex, so each is one atomic step here, and any interleaving of the producers, the `DoWork` loop
and the response thread is a sequence of these steps (`D2COp`). A content buffer is named by the
allocation that made it. The log records each allocation and free, each status reported to a
message's callbacks, and each call of the transport function.
-/

namespace AziotOta

/-- `ADUC_D2C_Message_Status`, declared in a header this repository does not carry: the values
this file names. -/
inductive D2CMessageStatus where
  | pending
  | inProgress
  | waitingForResponse
  | success
  | failed
  | replaced
  | maxRetriesReached
  | canceled
  deriving DecidableEq, Repr

/-- The statuses after which the message is destroyed. -/
def D2CMessageStatus.Terminal : D2CMessageStatus → Bool
  | .success | .failed | .replaced | .maxRetriesReached | .canceled => true
  | _ => false

/-- An `ADUC_D2C_MESSAGE_HTTP_RESPONSE_CALLBACK`, as what it does: from the HTTP status and the
context's `nextRetryTimeStampEpoch`, whether it asks for a retry and the timestamp it leaves. -/
abbrev ResponseCallback := Int → Int → Bool × Int

/-- `ADUC_D2C_Message` with a non-NULL `content`; a slot whose content is NULL is `none`. A
content buffer is named by the allocation that made it, and `cloudServiceHandle` says that the
handle and the client it points to are non-NULL. -/
structure D2CMessage where
  content : Nat
  cloudServiceHandle : Bool
  responseCallback : Option ResponseCallback
  completedCallback : Bool
  statusChangedCallback : Bool
  status : D2CMessageStatus
  attempts : Nat
  contentSubmitTime : Int

/-- `ADUC_D2C_HttpStatus_Retry_Info`; `retryTimestampCalcFunc` is NULL or
`ADUC_Retry_Delay_Calculator`. -/
structure HttpStatusRetryInfo where
  httpStatusMin : Int
  httpStatusMax : Int
  additionalDelaySecs : Nat
  retryTimestampCalcFunc : Bool
  maxRetry : Nat

/-- `ADUC_D2C_RetryStrategy`. -/
structure D2CRetryStrategy where
  httpStatusRetryInfo : List HttpStatusRetryInfo
  maxRetries : Nat
  maxDelaySecs : Nat
  fallbackWaitTimeSec : Nat
  initialDelayUnitMilliSecs : Nat
  maxJitterPercent : Nat

/-- `INT_MAX`. -/
def intMax : Nat := 2147483647

def fatalErrorWaitTimeSec : Nat := 10

def oneDayInSeconds : Nat := 24 * 60 * 60

/-- `g_defaultHttpStatusRetryInfo`. -/
def defaultHttpStatusRetryInfo : List HttpStatusRetryInfo :=
  [⟨200, 299, 0, false, 0⟩, ⟨400, 400, 0, false, 0⟩, ⟨429, 429, 30, true, intMax⟩,
    ⟨413, 413, 30, true, 0⟩, ⟨400, 499, 5, true, intMax⟩, ⟨503, 503, 30, true, intMax⟩,
    ⟨500, 599, 30, true, intMax⟩, ⟨0, intMax, 0, true, intMax⟩]

/-- `g_defaultRetryStrategy`, the strategy of every context: nothing in this repository calls
`ADUC_D2C_Messaging_Set_Retry_Strategy`. -/
def defaultRetryStrategy : D2CRetryStrategy :=
  ⟨defaultHttpStatusRetryInfo, intMax, oneDayInSeconds, 30, 1000, 5⟩

/-- `ADUC_Retry_Delay_Calculator`, which is not in this repository: from the additional delay,
the retry count, the delay unit, the maximum delay and the jitter, the next retry time. -/
abbrev RetryDelayCalculator := Nat → Nat → Nat → Nat → Nat → Int

/-- What the log records. -/
inductive D2CEvent where
  | malloc (content : Nat)
  | free (content : Nat)
  | statusChanged (content : Nat) (status : D2CMessageStatus)
  | completed (content : Nat) (status : D2CMessageStatus)
  | transport (type : Nat) (content : Nat)
  deriving DecidableEq, Repr

/-- `ADUC_D2C_Message_Processing_Context`; its transport function is the default one, which
`ADUC_D2C_Messaging_Init` installs and nothing in this repository replaces. -/
structure ProcessingContext where
  message : Option D2CMessage
  retries : Nat
  nextRetryTimeStampEpoch : Int

/-- The module's statics for `n = ADUC_D2C_Message_Type_Max` types, the allocations made so far
and the log. -/
structure D2CState (n : Nat) where
  coreInitialized : Bool
  pendingMessageStore : Fin n → Option D2CMessage
  messageProcessingContext : Fin n → ProcessingContext
  heapNext : Nat
  log : List D2CEvent

namespace D2CState

variable {n : Nat}

/-- Before `ADUC_D2C_Messaging_Init`: zeroed statics. -/
def zero : D2CState n := ⟨false, fun _ => none, fun _ => ⟨none, 0, 0⟩, 0, []⟩

def setPending (s : D2CState n) (t : Fin n) (m : Option D2CMessage) : D2CState n :=
  { s with pendingMessageStore := Function.update s.pendingMessageStore t m }

def setContext (s : D2CState n) (t : Fin n) (c : ProcessingContext) : D2CState n :=
  { s with messageProcessingContext := Function.update s.messageProcessingContext t c }

def emit (s : D2CState n) (evs : List D2CEvent) : D2CState n := { s with log := s.log ++ evs }

variable (s : D2CState n) (t : Fin n) (m : Option D2CMessage) (c : ProcessingContext)
  (evs : List D2CEvent)

@[simp] theorem log_emit : (s.emit evs).log = s.log ++ evs := rfl
@[simp] theorem heapNext_emit : (s.emit evs).heapNext = s.heapNext := rfl
@[simp] theorem pendingMessageStore_emit : (s.emit evs).pendingMessageStore = s.pendingMessageStore :=
  rfl
@[simp] theorem messageProcessingContext_emit :
    (s.emit evs).messageProcessingContext = s.messageProcessingContext := rfl
@[simp] theorem coreInitialized_emit : (s.emit evs).coreInitialized = s.coreInitialized := rfl
@[simp] theorem coreInitialized_setPending :
    (s.setPending t m).coreInitialized = s.coreInitialized := rfl
@[simp] theorem coreInitialized_setContext :
    (s.setContext t c).coreInitialized = s.coreInitialized := rfl
@[simp] theorem log_setPending : (s.setPending t m).log = s.log := rfl
@[simp] theorem heapNext_setPending : (s.setPending t m).heapNext = s.heapNext := rfl
@[simp] theorem messageProcessingContext_setPending :
    (s.setPending t m).messageProcessingContext = s.messageProcessingContext := rfl
@[simp] theorem log_setContext : (s.setContext t c).log = s.log := rfl
@[simp] theorem heapNext_setContext : (s.setContext t c).heapNext = s.heapNext := rfl
@[simp] theorem pendingMessageStore_setContext :
    (s.setContext t c).pendingMessageStore = s.pendingMessageStore := rfl

@[simp] theorem pendingMessageStore_setPending_self : (s.setPending t m).pendingMessageStore t = m :=
  Function.update_same ..
@[simp] theorem messageProcessingContext_setContext_self :
    (s.setContext t c).messageProcessingContext t = c :=
  Function.update_same ..

@[simp] theorem emit_nil : s.emit [] = s := by simp [emit]

theorem emit_append (evs' : List D2CEvent) : (s.emit evs).emit evs' = s.emit (evs ++ evs') := by
  simp [emit]

theorem setContext_emit : (s.setContext t c).emit evs = (s.emit evs).setContext t c := rfl

theorem setPending_emit : (s.setPending t m).emit evs = (s.emit evs).setPending t m := rfl

end D2CState

/-! ## The functions of `d2c_messaging.cpp` -/

/-- `SetMessageStatus`. -/
def setMessageStatus (message : D2CMessage) (status : D2CMessageStatus) :
    D2CMessage × List D2CEvent :=
  ({ message with status },
    if message.statusChangedCallback then [.statusChanged message.content status] else [])

/-- `OnMessageProcessingCompleted` on a message: what it reports, then `DestroyMessageData`'s
free; the slot is empty afterwards. -/
def onMessageProcessingCompleted (message : D2CMessage) (status : D2CMessageStatus) :
    List D2CEvent :=
  (setMessageStatus message status).2 ++
    (if message.completedCallback then [.completed message.content status] else []) ++
    [.free message.content]

/-- `OnMessageProcessingCompleted` on a slot, which returns at once when its content is NULL. -/
def completeSlot (slot : Option D2CMessage) (status : D2CMessageStatus) : List D2CEvent :=
  (slot.map (onMessageProcessingCompleted · status)).getD []

/-- `ADUC_D2C_Messaging_Init`, from the zeroed statics. -/
def d2cMessagingInit {n : Nat} (s : D2CState n) : Bool × D2CState n :=
  if !s.coreInitialized then
    (true, { s with
      coreInitialized := true
      pendingMessageStore := fun _ => none
      messageProcessingContext := fun _ => ⟨none, 0, 0⟩ })
  else (true, s)

/-- `ADUC_D2C_Message_SendAsync`: `message` is `none` for NULL, `mallocOk` whether
`mallocAndStrcpy_s` succeeds and `now` the submit time. -/
def d2cMessageSendAsync {n : Nat} (type : Fin n) (cloudServiceHandle : Bool)
    (message : Option String) (responseCallback : Option ResponseCallback)
    (completedCallback statusChangedCallback mallocOk : Bool) (now : Int) (s : D2CState n) :
    Bool × D2CState n :=
  match message with
  | none => (false, s)
  | some _ =>
    if !mallocOk then (false, s)
    else
      let messageToSend := s.heapNext
      let s := { s with heapNext := s.heapNext + 1 }.emit [.malloc messageToSend]
      -- Replace pending message if exist.
      let s := match s.pendingMessageStore type with
        | some p => if p.completedCallback then s.emit (onMessageProcessingCompleted p .replaced)
          else s
        | none => s
      let (m, evs) := setMessageStatus ⟨messageToSend, cloudServiceHandle, responseCallback,
        completedCallback, statusChangedCallback, .pending, 0, now⟩ .pending
      (true, (s.setPending type (some m)).emit evs)

/-- `ADUC_D2C_Default_Message_Transport_Function` on a context: whether it returns 0, and the
context and events it leaves. `iotHubClientOk` is whether `ClientHandle_SendReportedState`
returns `IOTHUB_CLIENT_OK`. -/
def defaultMessageTransportFunction (iotHubClientOk : Bool) (ctx : ProcessingContext) :
    Bool × ProcessingContext × List D2CEvent :=
  match ctx.message with
  | none => (false, ctx, [])
  | some m =>
    if !m.cloudServiceHandle then (false, ctx, [])
    else if iotHubClientOk then
      let (m, evs) := setMessageStatus m .waitingForResponse
      (true, { ctx with message := some m }, evs)
    else (false, { ctx with message := none }, onMessageProcessingCompleted m .failed)

/-- The `shouldSend` branch of `ProcessMessage`. -/
def sendMessage {n : Nat} (iotHubClientOk : Bool) (type : Fin n) (s : D2CState n) :
    D2CState n :=
  let ctx := s.messageProcessingContext type
  let ctx := { ctx with
    message := ctx.message.map (fun m => { m with attempts := m.attempts + 1 }) }
  let (ok, ctx', evs) := defaultMessageTransportFunction iotHubClientOk ctx
  let ctx' := if ok then ctx'
    else { ctx' with nextRetryTimeStampEpoch := ctx'.nextRetryTimeStampEpoch + fatalErrorWaitTimeSec }
  (s.setContext type ctx').emit
    ((ctx.message.map fun m => [D2CEvent.transport type m.content]).getD [] ++ evs)

/-- `ProcessMessage` for one type at time `now`. -/
def processMessage {n : Nat} (now : Int) (iotHubClientOk : Bool) (type : Fin n)
    (s : D2CState n) : D2CState n :=
  let ctx := s.messageProcessingContext type
  match s.pendingMessageStore type with
  | some p =>
    if ctx.message.any (·.status == .waitingForResponse) then s
    else
      -- Discard old message, use the new one and empty the pending store.
      let (m, evs) := setMessageStatus { p with attempts := 0 } .inProgress
      let s := (((s.emit (completeSlot ctx.message .replaced)).setPending type none).setContext type
        ⟨some m, 0, now⟩).emit evs
      sendMessage iotHubClientOk type s
  | none =>
    if ctx.message.any (·.status == .inProgress) && decide (now ≥ ctx.nextRetryTimeStampEpoch) then
      sendMessage iotHubClientOk type s
    else s

/-- `ADUC_D2C_Messaging_DoWork`: `ProcessMessage` for each type in turn. -/
def d2cMessagingDoWork {n : Nat} (now : Int) (iotHubClientOk : Fin n → Bool)
    (s : D2CState n) : D2CState n :=
  (List.finRange n).foldl (fun s t => processMessage now (iotHubClientOk t) t s) s

/-- How the retry loop of the response callback ends. -/
inductive RetryDecision where
  | maxRetriesReached
  | retryAt (retries : Nat) (time : Int)
  | fallThrough

/-- The loop of `DefaultIoTHubSendReportedStateCompletedCallback` over the strategy's
`httpStatusRetryInfo`. -/
def retryScan (retryDelay : RetryDelayCalculator) (strategy : D2CRetryStrategy) (httpStatusCode : Int)
    (retries : Nat) : List HttpStatusRetryInfo → RetryDecision
  | [] => .fallThrough
  | info :: infos =>
    if info.httpStatusMin ≤ httpStatusCode ∧ httpStatusCode ≤ info.httpStatusMax then
      if retries ≥ info.maxRetry then .maxRetriesReached
      else if !info.retryTimestampCalcFunc then retryScan retryDelay strategy httpStatusCode retries infos
      else .retryAt (retries + 1) (retryDelay info.additionalDelaySecs (retries + 1)
        strategy.initialDelayUnitMilliSecs strategy.maxDelaySecs strategy.maxJitterPercent)
    else retryScan retryDelay strategy httpStatusCode retries infos

/-- The decision `DefaultIoTHubSendReportedStateCompletedCallback` takes for a message: the
terminal status it completes the message with, if any, and the context's retry count and retry
timestamp afterwards. The previous retry timestamp is read after the response callback has run,
as the code does. -/
def responseDecision (retryDelay : RetryDelayCalculator) (httpStatusCode : Int) (m : D2CMessage)
    (ctx : ProcessingContext) : Option D2CMessageStatus × Nat × Int :=
  let (stop, nextRetryTimeStampEpoch) : Bool × Int := match m.responseCallback with
    | some cb =>
      let (retry, time) := cb httpStatusCode ctx.nextRetryTimeStampEpoch
      (!retry, time)
    | none => (false, ctx.nextRetryTimeStampEpoch)
  let success := stop || (decide (200 ≤ httpStatusCode) && decide (httpStatusCode < 300))
  let previousRetryTimeStamp := nextRetryTimeStampEpoch
  let strategy := defaultRetryStrategy
  if success then (some .success, ctx.retries, nextRetryTimeStampEpoch)
  else if nextRetryTimeStampEpoch ≠ previousRetryTimeStamp then
    (none, ctx.retries, nextRetryTimeStampEpoch)
  else if ctx.retries ≥ strategy.maxRetries then
    (some .maxRetriesReached, ctx.retries, nextRetryTimeStampEpoch)
  else match retryScan retryDelay strategy httpStatusCode ctx.retries strategy.httpStatusRetryInfo with
    | .maxRetriesReached => (some .maxRetriesReached, ctx.retries, nextRetryTimeStampEpoch)
    | .retryAt retries time => (none, retries, time)
    | .fallThrough =>
      (none, ctx.retries, nextRetryTimeStampEpoch + strategy.fallbackWaitTimeSec)

theorem responseDecision_terminal {retryDelay : RetryDelayCalculator} {httpStatusCode : Int}
    {m : D2CMessage} {ctx : ProcessingContext} {status : D2CMessageStatus}
    (h : (responseDecision retryDelay httpStatusCode m ctx).1 = some status) :
    status.Terminal = true := by
  simp only [responseDecision] at h
  split_ifs at h
  all_goals first
    | (cases h; rfl)
    | (split at h <;> first | (cases h; rfl) | cases h)

/-! ### The default retry policy -/

/-- What the message's response callback, if any, answers for a status: whether to stop
retrying, and the retry timestamp it leaves in the context. -/
def D2CMessage.callbackAnswer (m : D2CMessage) (httpStatusCode nextRetryTimeStampEpoch : Int) :
    Bool × Int :=
  match m.responseCallback with
  | some cb => (!(cb httpStatusCode nextRetryTimeStampEpoch).1,
      (cb httpStatusCode nextRetryTimeStampEpoch).2)
  | none => (false, nextRetryTimeStampEpoch)

/-- The additional delay `g_defaultHttpStatusRetryInfo` gives a status it retries: 30 s for
429 and the 5xx statuses, 5 s for the other 4xx, none for the rest. -/
def defaultAdditionalDelaySecs (httpStatusCode : Int) : Nat :=
  if httpStatusCode = 429 ∨ 500 ≤ httpStatusCode ∧ httpStatusCode ≤ 599 then 30
  else if 400 ≤ httpStatusCode ∧ httpStatusCode ≤ 499 then 5 else 0

/-- The scan of `g_defaultHttpStatusRetryInfo`, below the strategy's `maxRetries`: the first
entry whose range holds the status decides, and the entries of 2xx, 400 and 413 allow no
retry. -/
theorem retryScan_default (retryDelay : RetryDelayCalculator) (httpStatusCode : Int)
    {retries : Nat} (hr : retries < intMax) :
    retryScan retryDelay defaultRetryStrategy httpStatusCode retries defaultHttpStatusRetryInfo =
      if 200 ≤ httpStatusCode ∧ httpStatusCode ≤ 299 ∨ httpStatusCode = 400 ∨
          httpStatusCode = 413 then .maxRetriesReached
      else if 0 ≤ httpStatusCode ∧ httpStatusCode ≤ intMax then
        .retryAt (retries + 1) (retryDelay (defaultAdditionalDelaySecs httpStatusCode)
          (retries + 1) 1000 oneDayInSeconds 5)
      else .fallThrough := by
  have h0 : ¬ retries ≥ intMax := by omega
  simp only [defaultHttpStatusRetryInfo, retryScan, defaultRetryStrategy, ge_iff_le, Nat.zero_le,
    if_true, h0, if_false, Bool.not_false, Bool.not_true, Bool.false_eq_true]
  unfold intMax
  push_cast
  -- the entries in the table's order: 2xx, 400, 429, 413, 4xx, 503, 5xx, then any status
  by_cases h2xx : 200 ≤ httpStatusCode ∧ httpStatusCode ≤ 299
  · rw [if_pos h2xx, if_pos (.inl h2xx)]
  rw [if_neg h2xx]
  by_cases h4xx : 400 ≤ httpStatusCode ∧ httpStatusCode ≤ 499
  · rcases (show httpStatusCode = 400 ∨ httpStatusCode = 413 ∨ httpStatusCode = 429 ∨
        httpStatusCode ≠ 400 ∧ httpStatusCode ≠ 413 ∧ httpStatusCode ≠ 429 by omega) with
      rfl | rfl | rfl | ⟨h400, h413, h429⟩
    · rfl
    · rfl
    · rfl
    · rw [if_neg (by omega), if_neg (by omega), if_neg (by omega), if_pos h4xx,
        if_neg (by omega), if_pos (by omega), defaultAdditionalDelaySecs, if_neg (by omega),
        if_pos h4xx]
  by_cases h5xx : 500 ≤ httpStatusCode ∧ httpStatusCode ≤ 599
  · rcases eq_or_ne httpStatusCode 503 with rfl | h503
    · rfl
    · rw [if_neg (by omega), if_neg (by omega), if_neg (by omega), if_neg h4xx, if_neg (by omega),
        if_pos h5xx, if_neg (by omega), if_pos (by omega), defaultAdditionalDelaySecs,
        if_pos (.inr h5xx)]
  rw [if_neg (by omega), if_neg (by omega), if_neg (by omega), if_neg h4xx, if_neg (by omega),
    if_neg h5xx]
  by_cases hin : 0 ≤ httpStatusCode ∧ httpStatusCode ≤ 2147483647
  · rw [if_pos hin, if_neg (by omega), if_pos hin, defaultAdditionalDelaySecs, if_neg (by omega),
      if_neg h4xx]
  · rw [if_neg hin, if_neg (by omega), if_neg hin]

/-- What the response callback decides, for every HTTP status and retry count, with the
default strategy: success when the message's callback says stop or the status is 2xx; an
immediate `MaxRetriesReached` for 400, 413 and a retry count at `INT_MAX`; for any other
status from 0 to `INT_MAX` one more retry at the calculator's time, whatever timestamp the
callback left, since the timestamp meant to keep it is read after the callback has run; and
otherwise a retry 30 s after the callback's timestamp, with the count unchanged. -/
theorem responseDecision_default_policy (retryDelay : RetryDelayCalculator) (httpStatusCode : Int)
    (m : D2CMessage) (ctx : ProcessingContext) :
    responseDecision retryDelay httpStatusCode m ctx =
      let (stop, t) := m.callbackAnswer httpStatusCode ctx.nextRetryTimeStampEpoch
      if stop = true ∨ 200 ≤ httpStatusCode ∧ httpStatusCode < 300 then
        (some .success, ctx.retries, t)
      else if intMax ≤ ctx.retries ∨ httpStatusCode = 400 ∨ httpStatusCode = 413 then
        (some .maxRetriesReached, ctx.retries, t)
      else if 0 ≤ httpStatusCode ∧ httpStatusCode ≤ intMax then
        (none, ctx.retries + 1, retryDelay (defaultAdditionalDelaySecs httpStatusCode)
          (ctx.retries + 1) 1000 oneDayInSeconds 5)
      else (none, ctx.retries, t + 30) := by
  obtain ⟨stop, t, hans⟩ : ∃ stop t,
      m.callbackAnswer httpStatusCode ctx.nextRetryTimeStampEpoch = (stop, t) := ⟨_, _, rfl⟩
  have hdec : responseDecision retryDelay httpStatusCode m ctx =
      if stop || (decide (200 ≤ httpStatusCode) && decide (httpStatusCode < 300)) then
        (some .success, ctx.retries, t)
      else if t ≠ t then (none, ctx.retries, t)
      else if ctx.retries ≥ intMax then (some .maxRetriesReached, ctx.retries, t)
      else match retryScan retryDelay defaultRetryStrategy httpStatusCode ctx.retries
          defaultHttpStatusRetryInfo with
        | .maxRetriesReached => (some .maxRetriesReached, ctx.retries, t)
        | .retryAt retries time => (none, retries, time)
        | .fallThrough => (none, ctx.retries, t + 30) := by
    unfold D2CMessage.callbackAnswer at hans
    unfold responseDecision
    split at hans <;> cases hans <;> rfl
  rw [hdec, hans]
  simp only [ne_eq, not_true_eq_false, if_false]
  by_cases hs : stop = true ∨ 200 ≤ httpStatusCode ∧ httpStatusCode < 300
  · rw [if_pos hs, if_pos (by rcases hs with hs | hs <;> simp [hs])]
  rw [if_neg hs, if_neg (by simpa using hs)]
  have h2xx : ¬(200 ≤ httpStatusCode ∧ httpStatusCode < 300) := fun h => hs (.inr h)
  by_cases hr : intMax ≤ ctx.retries
  · rw [if_pos (show ctx.retries ≥ intMax from hr), if_pos (Or.inl hr)]
  rw [if_neg (show ¬ctx.retries ≥ intMax from hr), retryScan_default _ _ (by omega)]
  by_cases hA : 200 ≤ httpStatusCode ∧ httpStatusCode ≤ 299 ∨ httpStatusCode = 400 ∨
      httpStatusCode = 413
  · rw [if_pos hA, if_pos (.inr (by omega))]
  rw [if_neg hA, if_neg (show ¬(intMax ≤ ctx.retries ∨ httpStatusCode = 400 ∨
    httpStatusCode = 413) by omega)]
  by_cases hB : 0 ≤ httpStatusCode ∧ httpStatusCode ≤ intMax
  · rw [if_pos hB, if_pos hB]
  · rw [if_neg hB, if_neg hB]

/-- `DefaultIoTHubSendReportedStateCompletedCallback` for the context of `type`. -/
def defaultIoTHubSendReportedStateCompletedCallback {n : Nat} (retryDelay : RetryDelayCalculator)
    (httpStatusCode : Int) (type : Fin n) (s : D2CState n) : D2CState n :=
  let ctx := s.messageProcessingContext type
  match ctx.message with
  | none => s
  | some m =>
    let (status, retries, nextRetryTimeStampEpoch) :=
      responseDecision retryDelay httpStatusCode m ctx
    match status with
    | some status => (s.setContext type ⟨none, retries, nextRetryTimeStampEpoch⟩).emit
        (onMessageProcessingCompleted m status)
    | none =>
      let (m, evs) := setMessageStatus m .inProgress
      (s.setContext type ⟨some m, retries, nextRetryTimeStampEpoch⟩).emit evs

/-- The body of `ADUC_D2C_Messaging_Uninit`'s loop for one type: cancel the pending message,
then the one being processed. -/
def cancelMessages {n : Nat} (s : D2CState n) (t : Fin n) : D2CState n :=
  let s := (s.emit (completeSlot (s.pendingMessageStore t) .canceled)).setPending t none
  let ctx := s.messageProcessingContext t
  (s.emit (completeSlot ctx.message .canceled)).setContext t { ctx with message := none }

/-- `ADUC_D2C_Messaging_Uninit`. -/
def d2cMessagingUninit {n : Nat} (s : D2CState n) : D2CState n :=
  if s.coreInitialized then
    { (List.finRange n).foldl cancelMessages s with coreInitialized := false }
  else s

/-! ## Interleavings -/

/-- One atomic step of a caller: a producer's `SendAsync`, one `ProcessMessage` of the `DoWork`
loop, or a transport response. -/
inductive D2COp (n : Nat) where
  | sendAsync (type : Fin n) (cloudServiceHandle : Bool) (message : Option String)
      (responseCallback : Option ResponseCallback)
      (completedCallback statusChangedCallback mallocOk : Bool) (now : Int)
  | processMessage (type : Fin n) (now : Int) (iotHubClientOk : Bool)
  | response (type : Fin n) (httpStatusCode : Int)

def D2COp.run {n : Nat} (retryDelay : RetryDelayCalculator) : D2COp n → D2CState n → D2CState n
  | .sendAsync t h msg rcb ccb scb ok now, s => (d2cMessageSendAsync t h msg rcb ccb scb ok now s).2
  | .processMessage t now ok, s => AziotOta.processMessage now ok t s
  | .response t code, s => defaultIoTHubSendReportedStateCompletedCallback retryDelay code t s

/-- `DoWork` is the run of one `ProcessMessage` step per type. -/
theorem d2cMessagingDoWork_eq_run {n : Nat} (retryDelay : RetryDelayCalculator) (now : Int)
    (iotHubClientOk : Fin n → Bool) (s : D2CState n) :
    d2cMessagingDoWork now iotHubClientOk s =
      ((List.finRange n).map fun t => D2COp.processMessage t now (iotHubClientOk t)).foldl
        (fun s op => op.run retryDelay s) s := by
  simp [d2cMessagingDoWork, List.foldl_map, D2COp.run]

/-- The state after `ADUC_D2C_Messaging_Init` and a sequence of steps. -/
def d2cRun {n : Nat} (retryDelay : RetryDelayCalculator) (ops : List (D2COp n)) : D2CState n :=
  ops.foldl (fun s op => op.run retryDelay s) (d2cMessagingInit D2CState.zero).2

end AziotOta
