import Mathlib.Data.List.Nodup
import AziotOta.D2CMessaging

/-!
# Ownership of the D2C content buffers

Every step of `d2c_messaging.cpp` works on the two slots of one type. `Effect` says once what
such a step may do to the buffers: leave the other types' slots alone, allocate fresh buffers,
free or drop buffers of its type, and call the transport on a buffer no buffer its type still
holds precedes. `D2CInv` is what holds of the buffers after every interleaving, and every
`Effect` keeps it (`D2CInv.effect`); a lossless one, which drops no buffer, also keeps every
allocated buffer freed or held (`D2CState.Accounted.effect`). The pieces of code the steps are
made of are `Effect`s, proved once each here and chained in `AziotOta.D2CRuns`.
-/

namespace AziotOta

/-! ## What the log says -/

namespace D2CEvent

def freed? : D2CEvent → Option Nat
  | .free b => some b
  | _ => none

def malloced? : D2CEvent → Option Nat
  | .malloc b => some b
  | _ => none

def sentFor? (k : Nat) : D2CEvent → Option Nat
  | .transport t b => if t = k then some b else none
  | _ => none

end D2CEvent

/-- The buffers freed, in order. -/
def frees (evs : List D2CEvent) : List Nat := evs.filterMap D2CEvent.freed?

/-- The buffers allocated, in order. -/
def mallocs (evs : List D2CEvent) : List Nat := evs.filterMap D2CEvent.malloced?

/-- The buffers passed to the transport for type `k`, in order. -/
def sent (evs : List D2CEvent) (k : Nat) : List Nat := evs.filterMap (D2CEvent.sentFor? k)

section Projections

variable (evs evs' : List D2CEvent) (m : D2CMessage) (st : D2CMessageStatus) (k b : Nat)

@[simp] theorem frees_append : frees (evs ++ evs') = frees evs ++ frees evs' :=
  List.filterMap_append ..
@[simp] theorem mallocs_append : mallocs (evs ++ evs') = mallocs evs ++ mallocs evs' :=
  List.filterMap_append ..
@[simp] theorem sent_append : sent (evs ++ evs') k = sent evs k ++ sent evs' k :=
  List.filterMap_append ..
@[simp] theorem frees_nil : frees [] = [] := rfl
@[simp] theorem mallocs_nil : mallocs [] = [] := rfl
@[simp] theorem sent_nil : sent [] k = [] := rfl

@[simp] theorem frees_setMessageStatus : frees (setMessageStatus m st).2 = [] := by
  unfold setMessageStatus; split <;> rfl
@[simp] theorem mallocs_setMessageStatus : mallocs (setMessageStatus m st).2 = [] := by
  unfold setMessageStatus; split <;> rfl
@[simp] theorem sent_setMessageStatus : sent (setMessageStatus m st).2 k = [] := by
  unfold setMessageStatus; split <;> rfl

@[simp] theorem frees_onMessageProcessingCompleted :
    frees (onMessageProcessingCompleted m st) = [m.content] := by
  simp only [onMessageProcessingCompleted, frees_append, frees_setMessageStatus]
  split <;> rfl
@[simp] theorem mallocs_onMessageProcessingCompleted :
    mallocs (onMessageProcessingCompleted m st) = [] := by
  simp only [onMessageProcessingCompleted, mallocs_append, mallocs_setMessageStatus]
  split <;> rfl
@[simp] theorem sent_onMessageProcessingCompleted :
    sent (onMessageProcessingCompleted m st) k = [] := by
  simp only [onMessageProcessingCompleted, sent_append, sent_setMessageStatus]
  split <;> rfl

@[simp] theorem frees_malloc : frees (.malloc b :: evs) = frees evs := rfl
@[simp] theorem mallocs_malloc : mallocs (.malloc b :: evs) = b :: mallocs evs := rfl
@[simp] theorem sent_malloc : sent (.malloc b :: evs) k = sent evs k := rfl
@[simp] theorem frees_transport : frees (.transport k b :: evs) = frees evs := rfl
@[simp] theorem mallocs_transport : mallocs (.transport k b :: evs) = mallocs evs := rfl

theorem sent_transport (k' : Nat) : sent [.transport k b] k' = if k = k' then [b] else [] := by
  by_cases h : k = k' <;> simp [sent, D2CEvent.sentFor?, h]

theorem sent_transport_cons (k' : Nat) :
    sent (.transport k b :: evs) k' = (if k = k' then [b] else []) ++ sent evs k' := by
  by_cases h : k = k' <;> simp [sent, D2CEvent.sentFor?, h]

end Projections

/-- The pieces the code appends to the log: an allocation, a status report that is not
terminal, a call of the transport, or `OnMessageProcessingCompleted` with a terminal status. -/
inductive Chunk : List D2CEvent → Prop
  | malloc (b : Nat) : Chunk [.malloc b]
  | status (m : D2CMessage) {st : D2CMessageStatus} :
      st.Terminal = false → Chunk (setMessageStatus m st).2
  | transport (k : Nat) (b : Nat) : Chunk [.transport k b]
  | completed (m : D2CMessage) {st : D2CMessageStatus} :
      st.Terminal = true → Chunk (onMessageProcessingCompleted m st)

/-- A log cut into chunks: every free is the end of a terminal `OnMessageProcessingCompleted`,
and a terminal status is reported only there. -/
def Chunked (evs : List D2CEvent) : Prop :=
  ∃ cs : List (List D2CEvent), evs = cs.flatten ∧ ∀ c ∈ cs, Chunk c

theorem chunked_nil : Chunked [] := ⟨[], rfl, by simp⟩

theorem Chunk.chunked {c : List D2CEvent} (h : Chunk c) : Chunked c :=
  ⟨[c], by simp, by simpa using h⟩

theorem Chunked.append {a b : List D2CEvent} (ha : Chunked a) (hb : Chunked b) :
    Chunked (a ++ b) := by
  obtain ⟨ca, rfl, ha⟩ := ha
  obtain ⟨cb, rfl, hb⟩ := hb
  exact ⟨ca ++ cb, by simp, fun c hc => (List.mem_append.mp hc).elim (ha c) (hb c)⟩

theorem chunked_completeSlot (slot : Option D2CMessage) {st : D2CMessageStatus}
    (hst : st.Terminal = true) : Chunked (completeSlot slot st) := by
  cases slot with
  | none => exact chunked_nil
  | some m => exact (Chunk.completed m hst).chunked

/-! ## Who holds a buffer -/

namespace D2CState

variable {n : Nat} (s : D2CState n) (t t' : Fin n)

/-- The buffers the slots of `t` hold: the message being processed, then the pending one. -/
def own : List Nat :=
  ((s.messageProcessingContext t).message.map (·.content)).toList ++
    ((s.pendingMessageStore t).map (·.content)).toList

/-- The buffers all slots hold. -/
def held : List Nat := (List.finRange n).flatMap s.own

@[simp] theorem own_emit (evs : List D2CEvent) : (s.emit evs).own = s.own := rfl

theorem own_setPending (m : Option D2CMessage) :
    (s.setPending t m).own t' = if t' = t then
      ((s.messageProcessingContext t).message.map (·.content)).toList ++ (m.map (·.content)).toList
    else s.own t' := by
  by_cases h : t' = t
  · subst h; simp [own, setPending]
  · simp [own, setPending, h]

theorem own_setContext (c : ProcessingContext) :
    (s.setContext t c).own t' = if t' = t then
      (c.message.map (·.content)).toList ++ ((s.pendingMessageStore t).map (·.content)).toList
    else s.own t' := by
  by_cases h : t' = t
  · subst h; simp [own, setContext]
  · simp [own, setContext, h]

theorem held_eq_nil (h : ∀ t, s.own t = []) : s.held = [] := by
  unfold held
  rw [show s.own = fun _ => [] from funext h]
  simp

/-- The slots of all types, with those of `t` last. -/
theorem held_perm : s.held.Perm (((List.finRange n).erase t).flatMap s.own ++ s.own t) :=
  ((List.perm_cons_erase (List.mem_finRange t)).flatMap_right _).trans
    (by simpa using List.perm_append_comm)

theorem flatMap_erase_congr {s' : D2CState n} (h : ∀ t', t' ≠ t → s'.own t' = s.own t') :
    ((List.finRange n).erase t).flatMap s'.own = ((List.finRange n).erase t).flatMap s.own :=
  List.flatMap_congr fun t' ht' => h t' ((List.nodup_finRange n).mem_erase_iff.mp ht').1

end D2CState

/-! ## What one step may do -/

section Effect

variable {n : Nat}

/-- What a piece of code working on the slots of `t` may do, appending `evs` to the log: leave
the other types alone, allocate fresh buffers, free or drop buffers of `t` (each freed buffer
held by `t` or fresh, and held no more), and pass to the transport, in order, buffers held by `t`
or fresh that no buffer `t` still holds precedes. -/
structure Effect (s s' : D2CState n) (t : Fin n) (evs : List D2CEvent) : Prop where
  frame : ∀ t', t' ≠ t → s'.own t' = s.own t'
  log : s'.log = s.log ++ evs
  chunked : Chunked evs
  heapNext_le : s.heapNext ≤ s'.heapNext
  mallocsEq : mallocs evs = List.range' s.heapNext (s'.heapNext - s.heapNext)
  own : (s'.own t).Sublist (s.own t ++ List.range' s.heapNext (s'.heapNext - s.heapNext))
  freesNodup : (frees evs).Nodup
  freed : ∀ b ∈ frees evs, (b ∈ s.own t ∨ s.heapNext ≤ b) ∧ b < s'.heapNext ∧ b ∉ s'.own t
  sentFrame : ∀ k, k ≠ t.val → sent evs k = []
  sentSorted : (sent evs t.val).Pairwise (· ≤ ·)
  sentOk : ∀ b ∈ sent evs t.val,
    (b ∈ s.own t ∨ s.heapNext ≤ b) ∧ b < s'.heapNext ∧ ∀ b' ∈ s'.own t, b ≤ b'

/-- A step that drops no buffer: each buffer `t` held, and each one it allocated, is still held
or was freed. -/
def Effect.Lossless (s s' : D2CState n) (t : Fin n) (evs : List D2CEvent) : Prop :=
  ∀ b ∈ s.own t ++ List.range' s.heapNext (s'.heapNext - s.heapNext), b ∈ s'.own t ∨ b ∈ frees evs

theorem Effect.refl (s : D2CState n) (t : Fin n) : Effect s s t [] where
  frame _ _ := rfl
  log := by simp
  chunked := chunked_nil
  heapNext_le := le_rfl
  mallocsEq := by simp
  own := by simp
  freesNodup := List.nodup_nil
  freed := by simp
  sentFrame := by simp
  sentSorted := by simp
  sentOk := by simp

end Effect

/-! ## The invariant -/

/-- What holds of the buffers after every interleaving: buffers are allocated in order, the log is
made of chunks, no buffer is held twice or held after its free, none is freed twice, and each
type's transport calls are in submission order, before every buffer the type still holds. -/
structure D2CInv {n : Nat} (s : D2CState n) : Prop where
  mallocsEq : mallocs s.log = List.range s.heapNext
  chunked : Chunked s.log
  heldNodup : s.held.Nodup
  heldLive : ∀ b ∈ s.held, b < s.heapNext ∧ b ∉ frees s.log
  freesNodup : (frees s.log).Nodup
  freesAllocated : ∀ b ∈ frees s.log, b < s.heapNext
  sentSorted : ∀ t : Fin n, (sent s.log t.val).Pairwise (· ≤ ·)
  sentAllocated : ∀ t : Fin n, ∀ b ∈ sent s.log t.val, b < s.heapNext
  sentBefore : ∀ t : Fin n, ∀ b ∈ s.own t, ∀ b' ∈ sent s.log t.val, b' ≤ b

/-- Every buffer allocated is freed or held. -/
def D2CState.Accounted {n : Nat} (s : D2CState n) : Prop :=
  ∀ b < s.heapNext, b ∈ frees s.log ∨ b ∈ s.held

theorem d2cInv_init {n : Nat} : D2CInv (d2cMessagingInit (D2CState.zero (n := n))).2 where
  mallocsEq := rfl
  chunked := chunked_nil
  heldNodup := by rw [D2CState.held_eq_nil (d2cMessagingInit D2CState.zero).2 fun _ => rfl]; simp
  heldLive := by rw [D2CState.held_eq_nil (d2cMessagingInit D2CState.zero).2 fun _ => rfl]; simp
  freesNodup := List.nodup_nil
  freesAllocated := by simp [d2cMessagingInit, D2CState.zero]
  sentSorted _ := by simp [d2cMessagingInit, D2CState.zero]
  sentAllocated _ := by simp [d2cMessagingInit, D2CState.zero]
  sentBefore _ := by simp [d2cMessagingInit, D2CState.zero]

theorem accounted_init {n : Nat} : (d2cMessagingInit (D2CState.zero (n := n))).2.Accounted := by
  simp [D2CState.Accounted, d2cMessagingInit, D2CState.zero]

section Preservation

variable {n : Nat} {s s' : D2CState n} {t : Fin n} {evs : List D2CEvent}

theorem Effect.mem_own (hE : Effect s s' t evs) {b : Nat} (hb : b ∈ s'.own t) :
    b ∈ s.own t ∨ (s.heapNext ≤ b ∧ b < s'.heapNext) := by
  have := hE.heapNext_le
  rcases List.mem_append.mp (hE.own.subset hb) with h | h
  · exact .inl h
  · rw [List.mem_range'_1] at h
    exact .inr ⟨h.1, by omega⟩

theorem Effect.held_perm (hE : Effect s s' t evs) :
    s'.held.Perm (((List.finRange n).erase t).flatMap s.own ++ s'.own t) := by
  have := s'.held_perm t
  rwa [D2CState.flatMap_erase_congr s t hE.frame] at this

theorem mallocs_effect (hI : D2CInv s) (hE : Effect s s' t evs) :
    mallocs s'.log = List.range s'.heapNext := by
  obtain ⟨k, hk⟩ := Nat.exists_eq_add_of_le hE.heapNext_le
  rw [hE.log, mallocs_append, hI.mallocsEq, hE.mallocsEq, hk, List.range_add, Nat.add_sub_cancel_left,
    List.range'_eq_map_range]

/-- Every step keeps the invariant. -/
theorem D2CInv.effect (hI : D2CInv s) (hE : Effect s s' t evs) : D2CInv s' := by
  have hp := s.held_perm t
  have hp' := hE.held_perm
  have hnd := hp.nodup_iff.mp hI.heldNodup
  have hlive : ∀ b ∈ ((List.finRange n).erase t).flatMap s.own ++ s.own t,
      b < s.heapNext ∧ b ∉ frees s.log := fun b hb => hI.heldLive b (hp.symm.subset hb)
  have hdisj := List.disjoint_of_nodup_append hnd
  have hle := hE.heapNext_le
  have hfree : ∀ b ∈ frees evs, b ∉ ((List.finRange n).erase t).flatMap s.own := by
    intro b hb hr
    rcases (hE.freed b hb).1 with h | h
    · exact hdisj hr h
    · have := (hlive b (List.mem_append_left _ hr)).1
      omega
  have hsrc : (s.own t ++ List.range' s.heapNext (s'.heapNext - s.heapNext)).Nodup :=
    List.nodup_append.mpr ⟨(List.nodup_append.mp hnd).2.1, List.nodup_range' _ _,
      fun b h1 h2 => by
        have := (hlive b (List.mem_append_right _ h1)).1
        have := (List.mem_range'_1.mp h2).1
        omega⟩
  refine ⟨mallocs_effect hI hE, hE.log ▸ hI.chunked.append hE.chunked, ?_, ?_, ?_, ?_, ?_, ?_,
    ?_⟩
  · -- no buffer held twice
    refine hp'.nodup_iff.mpr (List.nodup_append.mpr ⟨(List.nodup_append.mp hnd).1,
      hsrc.sublist hE.own, fun b hr ho => ?_⟩)
    rcases hE.mem_own ho with h | h
    · exact hdisj hr h
    · have := (hlive b (List.mem_append_left _ hr)).1
      omega
  · -- a held buffer is allocated and not freed
    intro b hb
    rw [hE.log, frees_append, List.mem_append, not_or]
    rcases List.mem_append.mp (hp'.subset hb) with hr | ho
    · have := hlive b (List.mem_append_left _ hr)
      exact ⟨by omega, this.2, fun h => hfree b h hr⟩
    · refine ⟨?_, ?_, fun h => (hE.freed b h).2.2 ho⟩
      · rcases hE.mem_own ho with h | h
        · have := (hlive b (List.mem_append_right _ h)).1
          omega
        · exact h.2
      · rcases hE.mem_own ho with h | h
        · exact (hlive b (List.mem_append_right _ h)).2
        · exact fun hf => absurd (hI.freesAllocated b hf) (by omega)
  · -- no buffer freed twice
    rw [hE.log, frees_append]
    refine List.nodup_append.mpr ⟨hI.freesNodup, hE.freesNodup, fun b h1 h2 => ?_⟩
    rcases (hE.freed b h2).1 with h | h
    · exact (hlive b (List.mem_append_right _ h)).2 h1
    · have := hI.freesAllocated b h1
      omega
  · intro b hb
    rw [hE.log, frees_append] at hb
    rcases List.mem_append.mp hb with h | h
    · have := hI.freesAllocated b h
      omega
    · exact (hE.freed b h).2.1
  · -- the transport calls of each type stay in submission order
    intro t'
    rw [hE.log, sent_append]
    by_cases h : t' = t
    · subst h
      refine List.pairwise_append.mpr ⟨hI.sentSorted t', hE.sentSorted, fun x hx y hy => ?_⟩
      rcases (hE.sentOk y hy).1 with h | h
      · exact hI.sentBefore t' y h x hx
      · have := hI.sentAllocated t' x hx
        omega
    · rw [hE.sentFrame _ (Fin.val_ne_of_ne h), List.append_nil]
      exact hI.sentSorted t'
  · intro t' b hb
    rw [hE.log, sent_append] at hb
    rcases List.mem_append.mp hb with h | h
    · have := hI.sentAllocated t' b h
      omega
    · by_cases ht : t' = t
      · subst ht
        exact (hE.sentOk b h).2.1
      · rw [hE.sentFrame _ (Fin.val_ne_of_ne ht)] at h
        cases h
  · intro t' b hb b' hb'
    rw [hE.log, sent_append] at hb'
    by_cases ht : t' = t
    · subst ht
      rcases List.mem_append.mp hb' with h | h
      · rcases hE.mem_own hb with ho | ho
        · exact hI.sentBefore t' b ho b' h
        · have := hI.sentAllocated t' b' h
          omega
      · exact (hE.sentOk b' h).2.2 b hb
    · rw [hE.sentFrame _ (Fin.val_ne_of_ne ht), List.append_nil] at hb'
      exact hI.sentBefore t' b (hE.frame t' ht ▸ hb) b' hb'

/-- A lossless step keeps every allocated buffer freed or held. -/
theorem D2CState.Accounted.effect (hA : s.Accounted) (hE : Effect s s' t evs)
    (hL : Effect.Lossless s s' t evs) : s'.Accounted := by
  have hkeep : ∀ b ∈ s.own t ++ List.range' s.heapNext (s'.heapNext - s.heapNext),
      b ∈ frees s'.log ∨ b ∈ s'.held := fun b hb => by
    rw [hE.log, frees_append]
    rcases hL b hb with h | h
    · exact .inr (hE.held_perm.symm.subset (List.mem_append_right _ h))
    · exact .inl (List.mem_append_right _ h)
  intro b hb
  by_cases hlt : b < s.heapNext
  · rcases hA b hlt with h | h
    · exact .inl (hE.log ▸ frees_append s.log evs ▸ List.mem_append_left _ h)
    · rcases List.mem_append.mp ((s.held_perm t).subset h) with hr | ho
      · exact .inr (hE.held_perm.symm.subset (List.mem_append_left _ hr))
      · exact hkeep b (List.mem_append_left _ ho)
  · exact hkeep b (List.mem_append_right _ (List.mem_range'_1.mpr ⟨by omega, by omega⟩))

end Preservation

/-! ## The pieces of code the steps are made of -/

section Pieces

variable {n : Nat} {s : D2CState n} {t : Fin n}

theorem D2CState.mem_held {b : Nat} (hb : b ∈ s.own t) : b ∈ s.held :=
  List.mem_flatMap.mpr ⟨t, List.mem_finRange t, hb⟩

theorem D2CInv.own_nodup (hI : D2CInv s) (t : Fin n) : (s.own t).Nodup :=
  (List.nodup_append.mp ((s.held_perm t).nodup_iff.mp hI.heldNodup)).2.1

theorem D2CInv.own_lt (hI : D2CInv s) {b : Nat} (hb : b ∈ s.own t) : b < s.heapNext :=
  (hI.heldLive b (D2CState.mem_held hb)).1

theorem D2CState.own_setContext_self (c : ProcessingContext) :
    (s.setContext t c).own t =
      (c.message.map (·.content)).toList ++ ((s.pendingMessageStore t).map (·.content)).toList := by
  simp [D2CState.own_setContext]

theorem D2CState.own_eq : s.own t =
    ((s.messageProcessingContext t).message.map (·.content)).toList ++
      ((s.pendingMessageStore t).map (·.content)).toList := rfl

/-- A piece of code that moves no buffer and reports statuses that are not terminal. -/
theorem Effect.quiet {s' : D2CState n} {evs : List D2CEvent} (hown : ∀ t', s'.own t' = s.own t')
    (hh : s'.heapNext = s.heapNext) (hlog : s'.log = s.log ++ evs) (hch : Chunked evs)
    (hf : frees evs = []) (hm : mallocs evs = []) (hs : ∀ k, sent evs k = []) :
    Effect s s' t evs ∧ Effect.Lossless s s' t evs := by
  refine ⟨⟨fun t' _ => hown t', hlog, hch, hh.ge, by simp [hm, hh], by simp [hown, hh],
    by simp [hf], by simp [hf], fun k _ => hs k, by simp [hs], by simp [hs]⟩, ?_⟩
  intro b hb
  simp only [hh, Nat.sub_self, List.range'_zero, List.append_nil] at hb
  exact .inl (hown t ▸ hb)

/-- Updating the context of `t` without changing its buffer, and reporting statuses that are not
terminal. -/
theorem Effect.setContext_quiet (c : ProcessingContext) (evs : List D2CEvent)
    (hc : c.message.map (·.content) = (s.messageProcessingContext t).message.map (·.content))
    (hch : Chunked evs) (hf : frees evs = []) (hm : mallocs evs = [])
    (hs : ∀ k, sent evs k = []) :
    Effect s ((s.setContext t c).emit evs) t evs ∧
      Effect.Lossless s ((s.setContext t c).emit evs) t evs := by
  refine Effect.quiet (fun t' => ?_) rfl rfl hch hf hm hs
  by_cases h : t' = t
  · subst h
    rw [D2CState.own_emit, D2CState.own_setContext_self, hc]
    rfl
  · simp [D2CState.own_setContext, h]

theorem Effect.status (c : ProcessingContext) (m : D2CMessage) (st : D2CMessageStatus)
    (hst : st.Terminal = false)
    (hc : c.message.map (·.content) = (s.messageProcessingContext t).message.map (·.content)) :
    Effect s ((s.setContext t c).emit (setMessageStatus m st).2) t (setMessageStatus m st).2 ∧
      Effect.Lossless s ((s.setContext t c).emit (setMessageStatus m st).2) t
        (setMessageStatus m st).2 :=
  Effect.setContext_quiet c _ hc (Chunk.status m hst).chunked (frees_setMessageStatus ..)
    (mallocs_setMessageStatus ..) (sent_setMessageStatus _ _)

/-- Passing the only buffer `t` holds to the transport. -/
theorem Effect.transport {b : Nat} (hown : s.own t = [b]) (hb : b < s.heapNext) :
    Effect s (s.emit [.transport t.val b]) t [.transport t.val b] ∧
      Effect.Lossless s (s.emit [.transport t.val b]) t [.transport t.val b] := by
  refine ⟨⟨fun _ _ => rfl, rfl, (Chunk.transport _ _).chunked, le_rfl, by simp, by simp, by simp,
    by simp, fun k hk => ?_, ?_, ?_⟩, fun b' hb' => .inl (by simpa using hb')⟩
  · rw [sent_transport, if_neg (Ne.symm hk)]
  · simp [sent_transport]
  · simp only [sent_transport, if_true, List.mem_singleton, D2CState.own_emit, hown,
      D2CState.heapNext_emit]
    rintro _ rfl
    exact ⟨.inl rfl, hb, fun _ h => h.ge⟩

theorem Effect.emit_status (m : D2CMessage) (st : D2CMessageStatus) (hst : st.Terminal = false) :
    Effect s (s.emit (setMessageStatus m st).2) t (setMessageStatus m st).2 ∧
      Effect.Lossless s (s.emit (setMessageStatus m st).2) t (setMessageStatus m st).2 :=
  Effect.quiet (fun _ => rfl) rfl rfl (Chunk.status m hst).chunked (frees_setMessageStatus ..)
    (mallocs_setMessageStatus ..) (sent_setMessageStatus _ _)

/-- `OnMessageProcessingCompleted` on the message of the context of `t` (or a copy of it),
which empties the context. -/
theorem Effect.completeContext (hI : D2CInv s) {m m' : D2CMessage}
    (hm : (s.messageProcessingContext t).message = some m) (hm' : m'.content = m.content)
    (st : D2CMessageStatus) (hst : st.Terminal = true) (c : ProcessingContext)
    (hc : c.message = none) :
    Effect s ((s.setContext t c).emit (onMessageProcessingCompleted m' st)) t
        (onMessageProcessingCompleted m' st) ∧
      Effect.Lossless s ((s.setContext t c).emit (onMessageProcessingCompleted m' st)) t
        (onMessageProcessingCompleted m' st) := by
  have hown : s.own t = m.content :: ((s.pendingMessageStore t).map (·.content)).toList := by
    simp [D2CState.own_eq, hm]
  have hown' : ((s.setContext t c).emit (onMessageProcessingCompleted m' st)).own t =
      ((s.pendingMessageStore t).map (·.content)).toList := by
    simp [D2CState.own_setContext_self, hc]
  have hnd := hI.own_nodup t
  rw [hown, List.nodup_cons] at hnd
  have hlt : m.content < s.heapNext := hI.own_lt (hown ▸ List.mem_cons_self _ _)
  refine ⟨⟨fun t' h => by simp [D2CState.own_setContext, h], rfl,
    (Chunk.completed m' hst).chunked, le_rfl, by simp, ?_, by simp, ?_, by simp, by simp,
    by simp⟩, ?_⟩
  · rw [hown', hown]
    simp
  · simp only [frees_onMessageProcessingCompleted, hm', List.mem_singleton, hown',
      D2CState.heapNext_emit, D2CState.heapNext_setContext]
    rintro _ rfl
    exact ⟨.inl (hown ▸ List.mem_cons_self _ _), hlt, hnd.1⟩
  · intro b hb
    simp only [D2CState.heapNext_emit, D2CState.heapNext_setContext, Nat.sub_self,
      List.range'_zero, List.append_nil, hown, List.mem_cons] at hb
    rcases hb with rfl | hb
    · exact .inr (by simp [hm'])
    · exact .inl (hown' ▸ hb)

/-- `OnMessageProcessingCompleted` on the pending slot of `t`, which empties it. -/
theorem Effect.completePending (hI : D2CInv s) (st : D2CMessageStatus)
    (hst : st.Terminal = true) :
    Effect s ((s.emit (completeSlot (s.pendingMessageStore t) st)).setPending t none) t
        (completeSlot (s.pendingMessageStore t) st) ∧
      Effect.Lossless s ((s.emit (completeSlot (s.pendingMessageStore t) st)).setPending t none) t
        (completeSlot (s.pendingMessageStore t) st) := by
  have hframe : ∀ t', t' ≠ t →
      ((s.emit (completeSlot (s.pendingMessageStore t) st)).setPending t none).own t' = s.own t' :=
    fun t' h => by simp [D2CState.own_setPending, h]
  have hown' : ∀ evs, ((s.emit evs).setPending t none).own t =
      ((s.messageProcessingContext t).message.map (·.content)).toList := by
    simp [D2CState.own_setPending]
  cases hp : s.pendingMessageStore t with
  | none =>
    refine Effect.quiet (fun t' => ?_) rfl rfl chunked_nil rfl rfl fun _ => rfl
    by_cases h : t' = t
    · subst h; simp [D2CState.own_setPending, D2CState.own_eq, hp]
    · exact hframe t' h
  | some p =>
    have hown : s.own t = ((s.messageProcessingContext t).message.map (·.content)).toList ++
        [p.content] := by simp [D2CState.own_eq, hp]
    have hnd := hI.own_nodup t
    rw [hown, List.nodup_append] at hnd
    have hmem : p.content ∈ s.own t := by rw [hown]; simp
    have hlt : p.content < s.heapNext := hI.own_lt hmem
    simp only [completeSlot, Option.map_some', Option.getD_some]
    refine ⟨⟨hframe, rfl, (Chunk.completed p hst).chunked, le_rfl, by simp, ?_, by simp, ?_,
      by simp, by simp, by simp⟩, ?_⟩
    · rw [hown', hown]; simp
    · simp only [frees_onMessageProcessingCompleted, List.mem_singleton, hown',
        D2CState.heapNext_setPending, D2CState.heapNext_emit]
      rintro _ rfl
      exact ⟨.inl hmem, hlt, fun h => hnd.2.2 h (List.mem_singleton_self _)⟩
    · intro b hb
      simp only [D2CState.heapNext_setPending, D2CState.heapNext_emit, Nat.sub_self,
        List.range'_zero, List.append_nil, hown, List.mem_append, List.mem_singleton] at hb
      rcases hb with hb | rfl
      · exact .inl ((hown' _).symm ▸ hb)
      · exact .inr (by simp)

/-- `ProcessMessage` taking the pending message of `t` into its context, after completing the
message that was there. -/
theorem Effect.replace (hI : D2CInv s) {p : D2CMessage} (hp : s.pendingMessageStore t = some p)
    (c : ProcessingContext) (hc : c.message.map (·.content) = some p.content) :
    Effect s (((s.emit (completeSlot (s.messageProcessingContext t).message .replaced)).setPending t
        none).setContext t c) t (completeSlot (s.messageProcessingContext t).message .replaced) ∧
      Effect.Lossless s (((s.emit (completeSlot (s.messageProcessingContext t).message
        .replaced)).setPending t none).setContext t c) t
        (completeSlot (s.messageProcessingContext t).message .replaced) := by
  have hframe : ∀ evs, ∀ t', t' ≠ t →
      (((s.emit evs).setPending t none).setContext t c).own t' = s.own t' :=
    fun _ t' h => by simp [D2CState.own_setContext, D2CState.own_setPending, h]
  have hown' : ∀ evs, (((s.emit evs).setPending t none).setContext t c).own t = [p.content] := by
    simp [D2CState.own_setContext, hc]
  cases hm : (s.messageProcessingContext t).message with
  | none =>
    refine Effect.quiet (fun t' => ?_) rfl rfl chunked_nil rfl rfl fun _ => rfl
    by_cases h : t' = t
    · subst h; rw [hown', D2CState.own_eq, hm, hp]; rfl
    · exact hframe _ t' h
  | some m =>
    have hown : s.own t = [m.content, p.content] := by simp [D2CState.own_eq, hm, hp]
    have hne : m.content ≠ p.content := by
      have := hI.own_nodup t
      rw [hown] at this
      simpa using this
    have hlt : m.content < s.heapNext := hI.own_lt (by rw [hown]; simp)
    simp only [completeSlot, Option.map_some', Option.getD_some]
    refine ⟨⟨hframe _, rfl, (Chunk.completed m (show D2CMessageStatus.replaced.Terminal = true from rfl)).chunked, le_rfl, by simp, ?_,
      by simp, ?_,
      by simp, by simp, by simp⟩, ?_⟩
    · rw [hown', hown]; simp
    · simp only [frees_onMessageProcessingCompleted, List.mem_singleton, hown',
        D2CState.heapNext_setContext, D2CState.heapNext_setPending, D2CState.heapNext_emit]
      rintro _ rfl
      exact ⟨.inl (by rw [hown]; simp), hlt, hne⟩
    · intro b hb
      simp only [D2CState.heapNext_setContext, D2CState.heapNext_setPending,
        D2CState.heapNext_emit, Nat.sub_self, List.range'_zero, List.append_nil, hown,
        List.mem_cons, List.mem_singleton, List.not_mem_nil, or_false] at hb
      rcases hb with rfl | rfl
      · exact .inr (by simp)
      · exact .inl (by rw [hown']; simp)

/-- `SendAsync` allocating a buffer for the new message and storing it in the pending slot of
`t`, after completing (`X` the completion) or overwriting (`X = []`) the message there; it drops
nothing when it overwrites an empty slot. -/
theorem Effect.submit (hI : D2CInv s) (X : List D2CEvent)
    (hX : X = [] ∨ ∃ p, s.pendingMessageStore t = some p ∧
      X = onMessageProcessingCompleted p .replaced)
    (m : D2CMessage) (hm : m.content = s.heapNext) {s' : D2CState n}
    (hs' : s' = (((({ s with heapNext := s.heapNext + 1 } : D2CState n).emit
      [.malloc s.heapNext]).emit X).setPending t (some (setMessageStatus m .pending).1)).emit
      (setMessageStatus m .pending).2) :
    Effect s s' t ([.malloc s.heapNext] ++ X ++ (setMessageStatus m .pending).2) ∧
      ((X = [] → s.pendingMessageStore t = none) →
        Effect.Lossless s s' t ([.malloc s.heapNext] ++ X ++ (setMessageStatus m .pending).2)) := by
  subst hs'
  set C := ((s.messageProcessingContext t).message.map (·.content)).toList
  have hown' : ∀ evs, ((((({ s with heapNext := s.heapNext + 1 } : D2CState n).emit
      [.malloc s.heapNext]).emit evs).setPending t (some (setMessageStatus m .pending).1)).emit
      (setMessageStatus m .pending).2).own t = C ++ [s.heapNext] := by
    simp [D2CState.own_setPending, setMessageStatus, hm, C]
  have hframe : ∀ evs, ∀ t', t' ≠ t → ((((({ s with heapNext := s.heapNext + 1 } : D2CState n).emit
      [.malloc s.heapNext]).emit evs).setPending t (some (setMessageStatus m .pending).1)).emit
      (setMessageStatus m .pending).2).own t' = s.own t' :=
    fun _ t' h => by simp [D2CState.own_setPending, h]; rfl
  have hsub : s.own t = C ++ ((s.pendingMessageStore t).map (·.content)).toList := rfl
  have hchunk : Chunked ([.malloc s.heapNext] ++ X ++ (setMessageStatus m .pending).2) := by
    refine ((Chunk.malloc _).chunked.append ?_).append
      (Chunk.status m (show D2CMessageStatus.pending.Terminal = false from rfl)).chunked
    rcases hX with rfl | ⟨p, -, rfl⟩
    · exact chunked_nil
    · exact (Chunk.completed p (show D2CMessageStatus.replaced.Terminal = true from rfl)).chunked
  have hmalloc : mallocs X = [] ∧ (∀ k, sent X k = []) := by
    rcases hX with rfl | ⟨p, -, rfl⟩ <;> simp
  refine ⟨⟨hframe X, by simp, hchunk, Nat.le_succ _, ?_, ?_, ?_, ?_, ?_, ?_, ?_⟩, fun hL => ?_⟩
  · simp [hmalloc.1]
  · rw [hown' X, hsub]
    simp
  · rcases hX with rfl | ⟨p, -, rfl⟩ <;> simp
  · rcases hX with rfl | ⟨p, hp, rfl⟩
    · simp
    · have hmem : p.content ∈ s.own t := by rw [hsub, hp]; simp
      have hlt := hI.own_lt hmem
      have hnd := hI.own_nodup t
      rw [hsub, hp, List.nodup_append] at hnd
      simp only [List.singleton_append, List.cons_append, frees_malloc, frees_append, frees_nil,
        frees_onMessageProcessingCompleted, frees_setMessageStatus, List.append_nil,
        List.nil_append, List.mem_singleton, hown']
      rintro _ rfl
      refine ⟨.inl hmem, by simp; omega, fun h => ?_⟩
      rcases List.mem_append.mp h with h | h
      · exact hnd.2.2 h (by simp)
      · simp at h; omega
  · intro k _; simp [hmalloc.2]
  · simp [hmalloc.2]
  · simp [hmalloc.2]
  · intro b hb
    simp only [D2CState.heapNext_emit, D2CState.heapNext_setPending, Nat.add_sub_cancel_left,
      List.range'_one, hsub, List.mem_append, List.mem_singleton] at hb
    rw [hown' X]
    rcases hb with (hb | hb) | rfl
    · exact .inl (List.mem_append_left _ hb)
    · rcases hX with rfl | ⟨p, hp, rfl⟩
      · rw [hL rfl] at hb; cases hb
      · rw [hp] at hb
        simp only [Option.map_some', Option.toList_some, List.mem_singleton] at hb
        exact .inr (by simp [hb])
    · exact .inl (by simp)

end Pieces

end AziotOta
