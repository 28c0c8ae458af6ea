import AziotOta.Download

/-!
# The resources of the operation context

`OTACtx_Reinit` acquires the context's own block, an initialization of the secondary device
and the two scratch buffers; `OTACtx_Deinit` releases what `otaCtx_opaque` holds. Here the two
routines run beside the machine on `Resources`, and do to the machine what the model of
`Download` does. Reinit is not failure-atomic: a failed erase leaks an initialization of the
device and two buffers, and a failed `malloc` returns true with a null buffer, on which the
Download that called it asserts at its first chunk.
-/

namespace AziotOta

/-! ## The model -/

/-- The handles `otaCtx_opaque` holds: the context's own block, whether it has the secondary
device (`secondary_bd`) and has initialized it (`secondary_bd_inited`), and the blocks of
its program-unit and read-block buffers, `none` for `nullptr`. -/
structure CtxHandles where
  inst : Nat
  secondaryBd : Bool
  secondaryBdInited : Bool
  secondaryBdProgunit : Option Nat
  secondaryBdReadblock : Option Nat
  deriving DecidableEq, Repr

/-- The resources the two routines acquire and release: the initializations of the
secondary device not yet undone, the live heap blocks, the next fresh block, and
`otaCtx_opaque`. -/
structure Resources where
  bdInitCount : Nat
  live : List Nat
  next : Nat
  otaCtxOpaque : Option CtxHandles
  deriving DecidableEq, Repr

/-- Code that acquires and releases resources beside the machine. -/
abbrev ResM := StateT Resources OtaM

/-- The resources once the next fresh block is live. -/
def Resources.alloc (ρ : Resources) : Resources := { ρ with live := ρ.next :: ρ.live, next := ρ.next + 1 }

/-- `new` or a successful `malloc`: a fresh block becomes live. -/
def allocBlock : ResM Nat := modifyGet fun ρ => (ρ.next, ρ.alloc)

/-- `delete` or `free` of a block. -/
def freeBlock (b : Nat) : ResM Unit := modify fun ρ => { ρ with live := ρ.live.erase b }

/-- `malloc(size)` with the block it returns. -/
def mallocR (size : Nat) : ResM (Option (List UInt8) × Option Nat) := do
  match ← malloc size with
  | some buf => return (some buf, some (← allocBlock))
  | none => return (none, none)

/-- Modelled from the spec: `BlockDevice::init()` counts the device's initializations, and a
failed one counts none. -/
def bdInitR : ResM Bool := do
  let ok ← callOk .bdInit
  if ok then modify fun ρ => { ρ with bdInitCount := ρ.bdInitCount + 1 }
  return ok

/-- Modelled from the spec: `BlockDevice::deinit()` undoes one initialization. -/
def bdDeinitR : ResM Unit := modify fun ρ => { ρ with bdInitCount := ρ.bdInitCount - 1 }

/-- `if (buf) { free(buf); buf = nullptr; }` on a buffer of the context. -/
def freeIfSome : Option Nat → ResM Unit
  | some b => freeBlock b
  | none => pure ()

/-- `MCUbUpdateHandlerImpl::OTACtx_Deinit`: free the buffers and deinitialize the device the
context holds, then delete the context. -/
def otaCtxDeinitR : ResM Unit := do
  let some h := (← get).otaCtxOpaque | return
  if h.secondaryBd then
    freeIfSome h.secondaryBdReadblock
    freeIfSome h.secondaryBdProgunit
    if h.secondaryBdInited then bdDeinitR
  freeBlock h.inst
  modify fun ρ => { ρ with otaCtxOpaque := none }
  otaCtxDeinit

/-- The `cleanup:` label of `OTACtx_Reinit`: on a failure the new context is deleted. -/
def reinitCleanup (inst : Nat) (rcRet : Bool) : ResM Bool := do
  if !rcRet then freeBlock inst
  return rcRet

/-- `MCUbUpdateHandlerImpl::OTACtx_Reinit`. -/
def otaCtxReinitR : ResM Bool := do
  otaCtxDeinitR
  mbedAssert ((← get).otaCtxOpaque = none)
  let inst ← allocBlock
  if !(← nvImgUpgStReset false) then return ← reinitCleanup inst false
  if !(← callOk .getSecondaryBd) then return ← reinitCleanup inst false
  if !(← bdInitR) then return ← reinitCleanup inst false
  let w ← getWorld
  let (progunit, pu) ← mallocR w.programSize
  let (readblock, rb) ← mallocR (readblockSizeFor w.readSize)
  if !(← bdErase 0 w.secondary.length) then return ← reinitCleanup inst false
  setCtx { OtaContext.zero with
    secondaryBd := true, secondaryBdInited := true,
    secondaryBdProgunit := progunit, secondaryBdProgunitSize := w.programSize,
    secondaryBdReadblock := readblock, secondaryBdReadblockSize := readblockSizeFor w.readSize }
  modify fun ρ => { ρ with otaCtxOpaque := some ⟨inst, true, true, pu, rb⟩ }
  reinitCleanup inst true

/-! ## One lemma per routine -/

/-- The block a `malloc` returns: the next fresh one, or `nullptr` (`ok` false). -/
def Resources.mallocBlock (ρ : Resources) (ok : Bool) : Option Nat := if ok then some ρ.next else none

/-- The resources after a `malloc` that returned a block (`ok`) or `nullptr`. -/
def Resources.afterMalloc (ρ : Resources) (ok : Bool) : Resources := if ok then ρ.alloc else ρ

section Fields

variable (ρ : Resources) (ok : Bool)

@[simp] theorem Resources.alloc_bdInitCount : ρ.alloc.bdInitCount = ρ.bdInitCount := rfl
@[simp] theorem Resources.alloc_otaCtxOpaque : ρ.alloc.otaCtxOpaque = ρ.otaCtxOpaque := rfl
@[simp] theorem Resources.afterMalloc_false : ρ.afterMalloc false = ρ := rfl
@[simp] theorem Resources.afterMalloc_true : ρ.afterMalloc true = ρ.alloc := rfl
@[simp] theorem Resources.mallocBlock_false : ρ.mallocBlock false = none := rfl
@[simp] theorem Resources.mallocBlock_true : ρ.mallocBlock true = some ρ.next := rfl
@[simp] theorem Resources.afterMalloc_bdInitCount : (ρ.afterMalloc ok).bdInitCount = ρ.bdInitCount := by
  cases ok <;> rfl
@[simp] theorem Resources.afterMalloc_otaCtxOpaque :
    (ρ.afterMalloc ok).otaCtxOpaque = ρ.otaCtxOpaque := by
  cases ok <;> rfl

end Fields

section Run

variable (ρ : Resources) (m : Machine)

@[simp] theorem allocBlock_run : allocBlock.run ρ m = (.ok (ρ.next, ρ.alloc), m) := rfl

@[simp] theorem freeBlock_run (b : Nat) :
    (freeBlock b).run ρ m = (.ok ((), { ρ with live := ρ.live.erase b }), m) := rfl

@[simp] theorem freeIfSome_run (o : Option Nat) :
    (freeIfSome o).run ρ m = (.ok ((), { ρ with live := o.elim ρ.live ρ.live.erase }), m) := by
  cases o <;> rfl

@[simp] theorem bdDeinitR_run :
    bdDeinitR.run ρ m = (.ok ((), { ρ with bdInitCount := ρ.bdInitCount - 1 }), m) := rfl

@[simp] theorem bdInitR_run : bdInitR.run ρ m =
    (.ok (m.oracle .bdInit m.clock, if m.oracle .bdInit m.clock then
      { ρ with bdInitCount := ρ.bdInitCount + 1 } else ρ), { m with clock := m.clock + 1 }) := by
  cases h : m.oracle .bdInit m.clock <;> simp [bdInitR, h]

@[simp] theorem mallocR_run (size : Nat) : (mallocR size).run ρ m =
    (.ok ((if m.oracle .malloc m.clock then some (zeros size) else none,
        ρ.mallocBlock (m.oracle .malloc m.clock)), ρ.afterMalloc (m.oracle .malloc m.clock)),
      { m with clock := m.clock + 1 }) := by
  cases h : m.oracle .malloc m.clock <;>
    simp [mallocR, malloc, h, Resources.mallocBlock, Resources.afterMalloc]

@[simp] theorem reinitCleanup_run (inst : Nat) (rcRet : Bool) :
    (reinitCleanup inst rcRet).run ρ m =
      (.ok (rcRet, if rcRet then ρ else { ρ with live := ρ.live.erase inst }), m) := by
  cases rcRet <;> rfl

theorem ResM.run_ite {α : Type} (c : Prop) [Decidable c] (x y : ResM α) :
    (if c then x else y).run ρ = if c then x.run ρ else y.run ρ := by
  split <;> rfl

end Run

/-- The resources `OTACtx_Deinit` leaves: when the context holds the device, its read-block
and program-unit buffers freed in that order and the initialization undone if it made one;
then the context's own block freed. -/
def Resources.released (ρ : Resources) : Resources :=
  match ρ.otaCtxOpaque with
  | none => ρ
  | some h => { ρ with
      bdInitCount := if h.secondaryBd && h.secondaryBdInited then ρ.bdInitCount - 1 else ρ.bdInitCount
      live := (if h.secondaryBd then
        (h.secondaryBdProgunit.elim (h.secondaryBdReadblock.elim ρ.live ρ.live.erase)
          (h.secondaryBdReadblock.elim ρ.live ρ.live.erase).erase) else ρ.live).erase h.inst
      otaCtxOpaque := none }

@[simp] theorem Resources.released_otaCtxOpaque (ρ : Resources) : ρ.released.otaCtxOpaque = none := by
  unfold Resources.released; split <;> simp_all

theorem otaCtxDeinitR_run (ρ : Resources) (m : Machine) : otaCtxDeinitR.run ρ m =
    (.ok ((), ρ.released), { m with ctx := if ρ.otaCtxOpaque.isSome then none else m.ctx }) := by
  rcases ho : ρ.otaCtxOpaque with _ | ⟨inst, _ | _, _ | _, pu, rb⟩ <;>
    simp only [otaCtxDeinitR, StateT.run_bind, StateT.run_get, OtaM.bind_apply, ho, StateT.run_pure,
      OtaM.pure_apply, Resources.released, Option.isSome_none, Option.isSome_some, Bool.false_eq_true,
      ↓reduceIte, StateT.run_modify, StateT.run_monadLift, monadLift_self, freeIfSome_run,
      freeBlock_run, bdDeinitR_run, otaCtxDeinit, Bool.and_self, Bool.and_true, Bool.and_false]

/-- What `OTACtx_Reinit` does to the resources `ρ` its leading Deinit left, when its calls
from clock `n` on have the outcomes `o`: its result, and the resources it leaves. -/
def reinitResources (o : Oracle) (n : Nat) (ρ : Resources) : Bool × Resources :=
  let cleanup (ρ' : Resources) : Bool × Resources := (false, { ρ' with live := ρ'.live.erase ρ.next })
  if o .kvSet (n + 1) = false then cleanup ρ.alloc
  else if o .getSecondaryBd (n + 2) = false then cleanup ρ.alloc
  else if o .bdInit (n + 3) = false then cleanup ρ.alloc
  else
    let ρ₂ := { ρ.alloc with bdInitCount := ρ.bdInitCount + 1 }
    let ρ₃ := ρ₂.afterMalloc (o .malloc (n + 4))
    let ρ₄ := ρ₃.afterMalloc (o .malloc (n + 5))
    if o .bdErase (n + 6) = false then cleanup ρ₄
    else (true, { ρ₄ with otaCtxOpaque := some ⟨ρ.next, true, true,
      ρ₂.mallocBlock (o .malloc (n + 4)), ρ₃.mallocBlock (o .malloc (n + 5))⟩ })

/-- Whether `OTACtx_Reinit` initializes the device and then fails to erase it. -/
def reinitLeaks (o : Oracle) (n : Nat) : Bool :=
  o .kvSet (n + 1) && o .getSecondaryBd (n + 2) && o .bdInit (n + 3) && !o .bdErase (n + 6)

/-- A failed `BlockDevice::erase` in the log. -/
def Call.isFailedErase : Call → Bool
  | .bdErase _ _ ok => !ok
  | _ => false

/-- The initializations of the device that `otaCtx_opaque` accounts for: one when it holds
the device and has initialized it. -/
def Resources.ctxInits (ρ : Resources) : Nat :=
  match ρ.otaCtxOpaque with
  | some h => if h.secondaryBd && h.secondaryBdInited then 1 else 0
  | none => 0

/-- The initializations of the device that nothing will undo. -/
def Resources.leakedInits (ρ : Resources) : Nat := ρ.bdInitCount - ρ.ctxInits

/-- `OTACtx_Reinit` in closed form: the resources as `reinitResources` computes them from
those its leading Deinit left, and a log that records a failed erase exactly when it leaks. -/
theorem otaCtxReinitR_run (ρ : Resources) (m : Machine) :
    ∃ m', otaCtxReinitR.run ρ m = (.ok (reinitResources m.oracle m.clock ρ.released), m') ∧
      ∃ es, m'.log = m.log ++ es ∧
        es.countP (fun e => e.1.isFailedErase) = (reinitLeaks m.oracle m.clock).toNat := by
  simp only [otaCtxReinitR, Bool.not_eq_eq_eq_not, Bool.not_true, StateT.run_bind, StateT.run_get,
    StateT.run_monadLift, monadLift_self, OtaM.bind_apply, otaCtxDeinitR_run, mbedAssert_apply,
    ↓reduceIte, OtaM.pure_apply, allocBlock_run, nvImgUpgStReset_apply, kvSet_apply,
    Bool.false_eq_true, StateT.run_pure, Prod.mk.eta, reinitCleanup_run, callOk_apply, bdInitR_run,
    getWorld_apply, mallocR_run, bdErase, logCall_apply, ResM.run_ite, OtaM.ite_apply,
    Resources.released_otaCtxOpaque, setCtx_apply, StateT.run_modify, Nat.add_assoc, Nat.reduceAdd]
  unfold reinitResources
  cases h1 : m.oracle .kvSet (m.clock + 1)
  · simp only [h1, ↓reduceIte, Bool.false_eq_true]
    exact ⟨_, rfl, _, rfl, by simp [Call.isFailedErase, reinitLeaks, h1]⟩
  cases h2 : m.oracle .getSecondaryBd (m.clock + 2)
  · simp only [h1, h2, ↓reduceIte, Bool.false_eq_true]
    exact ⟨_, rfl, _, rfl, by simp [Call.isFailedErase, reinitLeaks, h2]⟩
  cases h3 : m.oracle .bdInit (m.clock + 3)
  · simp only [h1, h2, h3, ↓reduceIte, Bool.false_eq_true]
    exact ⟨_, rfl, _, rfl, by simp [Call.isFailedErase, reinitLeaks, h3]⟩
  cases h6 : m.oracle .bdErase (m.clock + 6) <;>
    simp only [h1, h2, h3, h6, ↓reduceIte, Bool.false_eq_true, List.append_assoc] <;>
    exact ⟨_, rfl, _, rfl, by simp [Call.isFailedErase, reinitLeaks, h1, h2, h3, h6]⟩

theorem reinitResources_fst (o : Oracle) (n : Nat) (ρ : Resources) :
    (reinitResources o n ρ).1 =
      (o .kvSet (n + 1) && o .getSecondaryBd (n + 2) && o .bdInit (n + 3) && o .bdErase (n + 6)) := by
  unfold reinitResources
  cases o .kvSet (n + 1) <;> cases o .getSecondaryBd (n + 2) <;> cases o .bdInit (n + 3) <;>
    cases o .bdErase (n + 6) <;> rfl

theorem reinitResources_otaCtxOpaque (o : Oracle) (n : Nat) {ρ : Resources}
    (h : ρ.otaCtxOpaque = none) :
    (reinitResources o n ρ).2.otaCtxOpaque.isSome = (reinitResources o n ρ).1 := by
  unfold reinitResources
  cases o .kvSet (n + 1) <;> cases o .getSecondaryBd (n + 2) <;> cases o .bdInit (n + 3) <;>
    cases o .bdErase (n + 6) <;> simp [h]

/-- `OTACtx_Reinit` leaves a context exactly when it returns true. -/
theorem otaCtxReinit_ctx (m : Machine) :
    ∃ b m', otaCtxReinit m = (.ok b, m') ∧ m'.ctx.isSome = b := by
  simp only [otaCtxReinit, otaCtxDeinit, Bool.not_eq_eq_eq_not, Bool.not_true, OtaM.bind_apply,
    OtaM.pure_apply, nvImgUpgStReset_apply, kvSet_apply, Bool.false_eq_true, ↓reduceIte, callOk_apply,
    getWorld_apply, malloc, bdErase, logCall_apply, OtaM.ite_apply, setCtx_apply, Nat.add_assoc,
    Nat.reduceAdd]
  cases m.oracle .kvSet (m.clock + 1); · simp
  cases m.oracle .getSecondaryBd (m.clock + 2); · simp
  cases m.oracle .bdInit (m.clock + 3); · simp
  cases m.oracle .bdErase (m.clock + 6) <;> simp

/-! ## The resources refine the model of `Download` -/

/-- `otaCtx_opaque` is set in the machine exactly when the resources hold a context. -/
def Coupled (m : Machine) (ρ : Resources) : Prop := m.ctx.isSome = ρ.otaCtxOpaque.isSome

/-- What code at the level of resources does to the machine, with the resources forgotten. -/
def ResM.onMachine {α : Type} (x : ResM α) (ρ : Resources) : OtaM α := fun m =>
  ((x.run ρ m).1.map Prod.fst, (x.run ρ m).2)

/-- `x`, run on resources coupled to the machine, does to the machine what `y` does, and
keeps the two coupled. -/
def ResM.Simulates {α : Type} (x : ResM α) (y : OtaM α) : Prop :=
  ∀ ρ m, Coupled m ρ → x.onMachine ρ m = y m ∧
    ∀ a ρ' m', x.run ρ m = (.ok (a, ρ'), m') → Coupled m' ρ'

namespace ResM.Simulates

variable {α β : Type}

theorem pure (a : α) : (Pure.pure a : ResM α).Simulates (Pure.pure a) := by
  intro ρ m hc
  refine ⟨rfl, fun a' ρ' m' h => ?_⟩
  obtain ⟨⟨-, rfl⟩, rfl⟩ : (a = a' ∧ ρ = ρ') ∧ m = m' := by simpa using h
  exact hc

theorem bind {x : ResM α} {y : OtaM α} {f : α → ResM β} {g : α → OtaM β} (hx : x.Simulates y)
    (hf : ∀ a, (f a).Simulates (g a)) : (x >>= f).Simulates (y >>= g) := by
  intro ρ m hc
  obtain ⟨hxm, hxc⟩ := hx ρ m hc
  rcases hrun : x.run ρ m with ⟨e | ⟨a, ρ₁⟩, m₁⟩
  · have hy : y m = (.error e, m₁) := by rw [← hxm, ResM.onMachine, hrun]; rfl
    refine ⟨?_, fun _ _ _ h => ?_⟩
    · simp [ResM.onMachine, hrun, hy, Except.map]
    · simp [hrun] at h
  · have hy : y m = (.ok a, m₁) := by rw [← hxm, ResM.onMachine, hrun]; rfl
    obtain ⟨hfm, hfc⟩ := hf a ρ₁ m₁ (hxc a ρ₁ m₁ hrun)
    refine ⟨?_, fun b ρ' m' h => hfc b ρ' m' (by simpa [hrun] using h)⟩
    simpa [ResM.onMachine, hrun, hy] using hfm

end ResM.Simulates

theorem otaCtxDeinitR_simulates : otaCtxDeinitR.Simulates otaCtxDeinit := by
  intro ρ m hc
  have hctx : (if ρ.otaCtxOpaque.isSome then none else m.ctx) = none := by
    unfold Coupled at hc
    cases h : ρ.otaCtxOpaque.isSome
    · simpa [h] using hc
    · rfl
  refine ⟨by simp [ResM.onMachine, otaCtxDeinitR_run, hctx, otaCtxDeinit, Except.map],
    fun a ρ' m' h => ?_⟩
  obtain ⟨-, rfl, rfl⟩ : () = a ∧ ρ.released = ρ' ∧ _ = m' := by simpa [otaCtxDeinitR_run] using h
  simp [Coupled, hctx]

theorem otaCtxReinitR_onMachine {ρ : Resources} {m : Machine} (hc : Coupled m ρ) :
    otaCtxReinitR.onMachine ρ m = otaCtxReinit m := by
  have hctx : (if ρ.otaCtxOpaque.isSome then none else m.ctx) = none := by
    unfold Coupled at hc
    cases h : ρ.otaCtxOpaque.isSome
    · simpa [h] using hc
    · rfl
  simp only [ResM.onMachine, otaCtxReinitR, otaCtxReinit, otaCtxDeinit, Bool.not_eq_eq_eq_not,
    Bool.not_true, StateT.run_bind, StateT.run_get, StateT.run_monadLift, monadLift_self,
    OtaM.bind_apply, otaCtxDeinitR_run, mbedAssert_apply, ↓reduceIte, OtaM.pure_apply,
    allocBlock_run, nvImgUpgStReset_apply, kvSet_apply, Bool.false_eq_true, StateT.run_pure,
    Prod.mk.eta, reinitCleanup_run, callOk_apply, bdInitR_run, getWorld_apply, mallocR_run, malloc,
    bdErase, logCall_apply, ResM.run_ite, OtaM.ite_apply, Resources.released_otaCtxOpaque,
    setCtx_apply, StateT.run_modify, Nat.add_assoc, Nat.reduceAdd, hctx]
  cases m.oracle .kvSet (m.clock + 1); · rfl
  cases m.oracle .getSecondaryBd (m.clock + 2); · rfl
  cases m.oracle .bdInit (m.clock + 3); · rfl
  cases m.oracle .bdErase (m.clock + 6) <;> rfl

theorem otaCtxReinitR_simulates : otaCtxReinitR.Simulates otaCtxReinit := by
  intro ρ m hc
  have hm := otaCtxReinitR_onMachine hc
  refine ⟨hm, fun a ρ' m' h => ?_⟩
  obtain ⟨m₁, h₁, -⟩ := otaCtxReinitR_run ρ m
  obtain ⟨b, m₂, h₂, hb⟩ := otaCtxReinit_ctx m
  rw [h₁] at h
  rw [ResM.onMachine, h₁, h₂] at hm
  simp only [Prod.mk.injEq, Except.ok.injEq] at h hm
  obtain ⟨hR, rfl⟩ := h
  obtain ⟨hRb, rfl⟩ := hm
  simp only [Except.map, hR, Except.ok.injEq] at hRb
  have hopq := reinitResources_otaCtxOpaque m.oracle m.clock (Resources.released_otaCtxOpaque ρ)
  simp only [hR] at hopq
  rw [Coupled, hb, ← hRb, hopq]

/-! ## Failure atomicity -/

section Outcomes

variable (o : Oracle) (n : Nat) {ρ : Resources}

theorem reinitResources_early
    (h : o .kvSet (n + 1) = false ∨ (o .kvSet (n + 1) = true ∧ o .getSecondaryBd (n + 2) = false) ∨
      (o .kvSet (n + 1) = true ∧ o .getSecondaryBd (n + 2) = true ∧ o .bdInit (n + 3) = false)) :
    reinitResources o n ρ = (false, { ρ with next := ρ.next + 1 }) := by
  rcases h with h | ⟨h1, h⟩ | ⟨h1, h2, h⟩ <;> simp [reinitResources, Resources.alloc, *]

/-- After a successful Reinit, Deinit leaves the resources Reinit started from, but for the
blocks handed out. -/
theorem reinitResources_released (h : ρ.otaCtxOpaque = none) (hs : (reinitResources o n ρ).1 = true) :
    (reinitResources o n ρ).2.released = { ρ with next := (reinitResources o n ρ).2.next } := by
  obtain ⟨⟨⟨h1, h2⟩, h3⟩, h6⟩ := by simpa [reinitResources_fst] using hs
  simp only [reinitResources, h1, h2, h3, h6, Bool.true_eq_false, ↓reduceIte]
  cases o .malloc (n + 4) <;> cases o .malloc (n + 5) <;> simp [Resources.released, Resources.alloc, h]

theorem Resources.released_ctxInits (ρ : Resources) : ρ.released.ctxInits = 0 := by
  simp [Resources.ctxInits]

theorem Resources.released_bdInitCount (ρ : Resources) :
    ρ.released.bdInitCount = ρ.bdInitCount - ρ.ctxInits := by
  rcases ho : ρ.otaCtxOpaque with _ | h <;> simp [Resources.released, Resources.ctxInits, ho]
  split_ifs <;> rfl

/-- Reinit accounts for the initialization it leaves, unless it fails to erase the device. -/
theorem reinitResources_leakedInits (h : ρ.otaCtxOpaque = none) :
    (reinitResources o n ρ).2.ctxInits ≤ (reinitResources o n ρ).2.bdInitCount ∧
      (reinitResources o n ρ).2.leakedInits = ρ.bdInitCount + (reinitLeaks o n).toNat := by
  unfold reinitResources reinitLeaks Resources.leakedInits
  cases o .kvSet (n + 1) <;> cases o .getSecondaryBd (n + 2) <;> cases o .bdInit (n + 3) <;>
    cases o .bdErase (n + 6) <;> simp [h, Resources.ctxInits]

end Outcomes

/-- The calls `OTACtx_Reinit` makes from clock `n` on: `kv_get` and `kv_set` of the store's
reset at `n` and `n + 1`, then `get_secondary_bd()`, `init()`, the two `malloc`s and
`erase()` at `n + 2` to `n + 6`. A failure before the device is initialized (of the reset,
of `get_secondary_bd()` or of `init()`) returns false and leaves the init count, the live
blocks and `otaCtx_opaque` (`nullptr`) as the leading Deinit left them. -/
theorem otaCtxReinitR_early_failure (ρ : Resources) (m : Machine)
    (hfail : m.oracle .kvSet (m.clock + 1) = false ∨
      (m.oracle .kvSet (m.clock + 1) = true ∧ m.oracle .getSecondaryBd (m.clock + 2) = false) ∨
      (m.oracle .kvSet (m.clock + 1) = true ∧ m.oracle .getSecondaryBd (m.clock + 2) = true ∧
        m.oracle .bdInit (m.clock + 3) = false)) :
    ∃ m', otaCtxReinitR.run ρ m = (.ok (false, { ρ.released with next := ρ.released.next + 1 }), m') := by
  obtain ⟨m', h, -⟩ := otaCtxReinitR_run ρ m
  exact ⟨m', h.trans (by rw [reinitResources_early _ _ hfail])⟩

theorem otaCtxReinitR_early_failure_getSecondaryBd :
    let m : Machine := ⟨⟨none, [], 1, 1, .zero, false, false⟩, none, .failAt .getSecondaryBd 2, 0, []⟩
    (m.oracle .kvSet (m.clock + 1) = false ∨
      (m.oracle .kvSet (m.clock + 1) = true ∧ m.oracle .getSecondaryBd (m.clock + 2) = false) ∨
      (m.oracle .kvSet (m.clock + 1) = true ∧ m.oracle .getSecondaryBd (m.clock + 2) = true ∧
        m.oracle .bdInit (m.clock + 3) = false)) ∧
    ∃ m', otaCtxReinitR.run ⟨0, [], 0, none⟩ m =
      (.ok (false, { (⟨0, [], 0, none⟩ : Resources).released with next := 1 }), m') :=
  ⟨.inr (.inl ⟨rfl, rfl⟩), otaCtxReinitR_early_failure _ _ (.inr (.inl ⟨rfl, rfl⟩))⟩

/-- `OTACtx_Reinit` is not failure-atomic. With every call up to the buffers succeeding: when
both `malloc`s succeed and `erase()` fails, it returns false with `otaCtx_opaque` `nullptr`,
the device initialized once more than the leading Deinit left it and the two buffers live,
held by nothing; when the first `malloc` fails and the rest succeed, it returns true with a
context whose program-unit buffer is `nullptr`. -/
theorem otaCtxReinitR_not_failure_atomic (ρ : Resources) (m : Machine)
    (hkv : m.oracle .kvSet (m.clock + 1) = true) (hbd : m.oracle .getSecondaryBd (m.clock + 2) = true)
    (hinit : m.oracle .bdInit (m.clock + 3) = true) :
    (m.oracle .malloc (m.clock + 4) = true → m.oracle .malloc (m.clock + 5) = true →
      m.oracle .bdErase (m.clock + 6) = false →
      ∃ m', otaCtxReinitR.run ρ m = (.ok (false, { ρ.released with
        bdInitCount := ρ.released.bdInitCount + 1,
        live := (ρ.released.next + 2) :: (ρ.released.next + 1) :: ρ.released.live,
        next := ρ.released.next + 3 }), m')) ∧
    (m.oracle .malloc (m.clock + 4) = false → m.oracle .malloc (m.clock + 5) = true →
      m.oracle .bdErase (m.clock + 6) = true →
      ∃ m', otaCtxReinitR.run ρ m = (.ok (true, { ρ.released with
        bdInitCount := ρ.released.bdInitCount + 1,
        live := (ρ.released.next + 1) :: ρ.released.next :: ρ.released.live,
        next := ρ.released.next + 2,
        otaCtxOpaque := some ⟨ρ.released.next, true, true, none, some (ρ.released.next + 1)⟩ }), m')) := by
  obtain ⟨m', h, -⟩ := otaCtxReinitR_run ρ m
  refine ⟨fun h4 h5 h6 => ⟨m', h.trans ?_⟩, fun h4 h5 h6 => ⟨m', h.trans ?_⟩⟩ <;>
    simp [reinitResources, Resources.alloc, hkv, hbd, hinit, h4, h5, h6, List.erase_cons]
  omega

theorem otaCtxReinitR_not_failure_atomic_failAt :
    let ρ : Resources := ⟨0, [], 0, none⟩
    let mErase : Machine := ⟨⟨none, [], 1, 1, .zero, false, false⟩, none, .failAt .bdErase 6, 0, []⟩
    let mMalloc : Machine := ⟨⟨none, [], 1, 1, .zero, false, false⟩, none, .failAt .malloc 4, 0, []⟩
    (∃ m', otaCtxReinitR.run ρ mErase = (.ok (false, ⟨1, [2, 1], 3, none⟩), m')) ∧
    ∃ m', otaCtxReinitR.run ρ mMalloc =
      (.ok (true, ⟨1, [1, 0], 2, some ⟨0, true, true, none, some 1⟩⟩), m') :=
  ⟨(otaCtxReinitR_not_failure_atomic _ _ rfl rfl rfl).1 rfl rfl rfl,
    (otaCtxReinitR_not_failure_atomic _ _ rfl rfl rfl).2 rfl rfl rfl⟩

/-- `OTACtx_Deinit` after a successful `OTACtx_Reinit` returns the init count and the live
blocks to what Reinit's leading Deinit left, and deletes the context. -/
theorem otaCtxDeinitR_after_reinit {ρ ρ' : Resources} {m m' : Machine}
    (h : otaCtxReinitR.run ρ m = (.ok (true, ρ'), m')) (m'' : Machine) :
    otaCtxDeinitR.run ρ' m'' =
      (.ok ((), { ρ.released with next := ρ'.next }), { m'' with ctx := none }) := by
  obtain ⟨m₁, h₁, -⟩ := otaCtxReinitR_run ρ m
  obtain ⟨hr, -⟩ := Prod.mk.inj (h₁.symm.trans h)
  have hr := Except.ok.inj hr
  have hrel := reinitResources_released m.oracle m.clock (Resources.released_otaCtxOpaque ρ)
    (by rw [hr])
  have hopq := reinitResources_otaCtxOpaque m.oracle m.clock (Resources.released_otaCtxOpaque ρ)
  rw [hr] at hrel hopq
  simp [otaCtxDeinitR_run, hrel, hopq]

theorem otaCtxDeinitR_after_reinit_reliable :
    let ρ : Resources := ⟨0, [], 0, none⟩
    let ρ' : Resources := ⟨1, [2, 1, 0], 3, some ⟨0, true, true, some 1, some 2⟩⟩
    let m : Machine := ⟨⟨none, [], 1, 1, .zero, false, false⟩, none, .reliable, 0, []⟩
    (∃ m', otaCtxReinitR.run ρ m = (.ok (true, ρ'), m')) ∧
      otaCtxDeinitR.run ρ' m = (.ok ((), { ρ.released with next := ρ'.next }), { m with ctx := none }) := by
  obtain ⟨m', h, -⟩ := otaCtxReinitR_run ⟨0, [], 0, none⟩
    ⟨⟨none, [], 1, 1, .zero, false, false⟩, none, .reliable, 0, []⟩
  have hrun : otaCtxReinitR.run ⟨0, [], 0, none⟩
      ⟨⟨none, [], 1, 1, .zero, false, false⟩, none, .reliable, 0, []⟩ =
      (.ok (true, ⟨1, [2, 1, 0], 3, some ⟨0, true, true, some 1, some 2⟩⟩), m') := h.trans rfl
  exact ⟨⟨m', hrun⟩, otaCtxDeinitR_after_reinit hrun _⟩

/-! ## Runs of the handler -/

/-- The handler's calls of the two routines: each `Download` calls `OTACtx_Reinit`, and the
destructor calls `OTACtx_Deinit`. -/
inductive CtxCall where
  | reinit
  | deinit
  deriving DecidableEq, Repr

/-- A sequence of the handler's calls, made with the given routines. -/
def runCtxCalls {M : Type → Type} [Monad M] (reinit : M Bool) (deinit : M Unit) :
    List CtxCall → M Unit
  | [] => pure ()
  | .reinit :: cs => do let _ ← reinit; runCtxCalls reinit deinit cs
  | .deinit :: cs => do deinit; runCtxCalls reinit deinit cs

/-- Over any sequence of calls, the resource-level routines do to the machine what the
routines of the model of `Download` do. -/
theorem runCtxCalls_simulates (cs : List CtxCall) :
    (runCtxCalls otaCtxReinitR otaCtxDeinitR cs).Simulates (runCtxCalls otaCtxReinit otaCtxDeinit cs) := by
  induction cs with
  | nil => exact .pure ()
  | cons c cs ih =>
    cases c
    · exact otaCtxReinitR_simulates.bind fun _ => ih
    · exact otaCtxDeinitR_simulates.bind fun _ => ih

/-- Each failed erase leaks one initialization of the device, and nothing else leaks one.
Over any sequence of the handler's calls, from resources where `otaCtx_opaque` accounts for
no more initializations than there are, the initializations nothing accounts for grow by
the number of failed erases the run logs. -/
theorem runCtxCalls_leakedInits (cs : List CtxCall) (ρ : Resources) (m : Machine)
    (hρ : ρ.ctxInits ≤ ρ.bdInitCount) :
    ∃ ρ' m' es, (runCtxCalls otaCtxReinitR otaCtxDeinitR cs).run ρ m = (.ok ((), ρ'), m') ∧
      m'.log = m.log ++ es ∧ ρ'.ctxInits ≤ ρ'.bdInitCount ∧
      ρ'.leakedInits = ρ.leakedInits + es.countP (fun e => e.1.isFailedErase) := by
  induction cs generalizing ρ m with
  | nil => exact ⟨ρ, m, [], rfl, by simp, hρ, by simp⟩
  | cons c cs ih =>
    have hrel : ρ.released.bdInitCount = ρ.leakedInits := Resources.released_bdInitCount ρ
    cases c
    · -- `OTACtx_Reinit`
      obtain ⟨m₁, h₁, es₁, hl₁, hc₁⟩ := otaCtxReinitR_run ρ m
      obtain ⟨hinv₁, hleak₁⟩ := reinitResources_leakedInits m.oracle m.clock
        (Resources.released_otaCtxOpaque ρ)
      obtain ⟨ρ', m', es, hrun, hl, hinv, hleak⟩ := ih _ m₁ hinv₁
      refine ⟨ρ', m', es₁ ++ es, ?_, by rw [hl, hl₁, List.append_assoc], hinv, ?_⟩
      · simp only [runCtxCalls, StateT.run_bind, OtaM.bind_apply, h₁, hrun]
      · rw [hleak, hleak₁, hrel, List.countP_append, hc₁, Nat.add_assoc]
    · -- `OTACtx_Deinit`
      obtain ⟨ρ', m', es, hrun, hl, hinv, hleak⟩ :=
        ih ρ.released { m with ctx := if ρ.otaCtxOpaque.isSome then none else m.ctx }
          (by simp [Resources.released_ctxInits])
      refine ⟨ρ', m', es, ?_, hl, hinv, ?_⟩
      · simp only [runCtxCalls, StateT.run_bind, OtaM.bind_apply, otaCtxDeinitR_run, hrun]
      · rw [hleak, Resources.leakedInits, Resources.released_ctxInits, Nat.sub_zero, hrel]

theorem runCtxCalls_leakedInits_failedErase :
    let ρ : Resources := ⟨0, [], 0, none⟩
    let m : Machine := ⟨⟨none, [], 1, 1, .zero, false, false⟩, none, .failAt .bdErase 6, 0, []⟩
    ρ.ctxInits ≤ ρ.bdInitCount ∧
    ∃ ρ' m' es, (runCtxCalls otaCtxReinitR otaCtxDeinitR [.reinit, .deinit]).run ρ m =
        (.ok ((), ρ'), m') ∧
      m'.log = m.log ++ es ∧ ρ'.ctxInits ≤ ρ'.bdInitCount ∧
      ρ'.leakedInits = ρ.leakedInits + es.countP (fun e => e.1.isFailedErase) :=
  ⟨le_refl 0, runCtxCalls_leakedInits _ _ _ (le_refl 0)⟩

/-! ## What a null buffer leads to -/

/-- With every call succeeding but the first `malloc`, `OTACtx_Reinit` returns true with a
context whose program-unit buffer is `nullptr`. -/
theorem otaCtxReinit_progunit_null (m : Machine) :
    ∃ r n es, otaCtxReinit { m with oracle := .failAt .malloc (m.clock + 4) } = (.ok true, { m with
      world := { m.world with kv := some (NvRecord.bytes r) },
      ctx := some { reinitCtx m.world with secondaryBdProgunit := none },
      oracle := .failAt .malloc (m.clock + 4), clock := n, log := m.log ++ es }) := by
  let r := (m.world.record.map NvRecord.zeroPrefix).getD NvRecord.zero
  refine ⟨r, m.clock + 7, [(.kvSet .reset true, { m.world with kv := some r.bytes }),
    (.bdErase 0 m.world.secondary.length true, { m.world with kv := some r.bytes })], ?_⟩
  simp [otaCtxReinit, otaCtxDeinit, nvImgUpgStReset_apply, Oracle.failAt, malloc, bdErase,
    reinitCtx, Machine.readRecord, r]

/-- A `malloc` that fails in `OTACtx_Reinit` is caught nowhere before the buffer is used. With
every call succeeding but the first `malloc` of Reinit, on a device whose running image
carries the magic, the Download that called Reinit goes on, and its first chunk stops at the
`MBED_ASSERT` of `CombinedDownloadInstall` on the program-unit buffer, which halts the device,
where a failure would have been returned. Every first chunk does so, unless it holds a whole
header without the magic. -/
theorem download_asserts_after_progunit_malloc_failure (hl : HashLib) (wf : Workflow)
    (fe : FileEntity) (c : List UInt8) (rest : List (List UInt8)) (responded : Bool) (m : Machine)
    (hcancel : wf.cancelRequested = false) (hactive : m.world.primaryHeader.ihMagic = imageMagic)
    (hc : imageHeaderSize ≤ c.length → ihMagicBytes c = imageMagic) :
    (download hl wf [fe] ⟨c :: rest, responded⟩ { m with oracle := .failAt .malloc (m.clock + 4) }).1 =
      .error .assertFailed := by
  obtain ⟨r, n, es, hreinit⟩ := otaCtxReinit_progunit_null m
  let ctx2 : OtaContext := { reinitCtx m.world with
    secondaryBdProgunit := none, fwuActiveHeader := m.world.primaryHeader, dlProgOffset := 0,
    dlProgTotalExp := fe.sizeInBytes, dlProgTotalAct := 0 }
  set m2 : Machine := { m with
    world := { m.world with kv := some r.bytes }, ctx := some ctx2,
    oracle := .failAt .malloc (m.clock + 4), clock := n, log := m.log ++ es } with hm2
  obtain ⟨h', kv', n', entries, hcatch, -⟩ := catchImageHeader_ok (t := []) (c := c) (m := m2) rfl rfl
    (headerHolds_nil _) (by simp [m2, World.record_setKv]) (fun _ => by simp [m2, Oracle.failAt])
    (by simpa using hc)
  simp only [hm2, ctx2, reinitCtx] at hcatch
  simp only [download, hcancel, Bool.false_eq_true, ↓reduceIte, Bool.not_eq_eq_eq_not, Bool.not_true,
    bne_iff_ne, ne_eq, deliverChunks, combinedDownloadInstallTask, isAducResultCodeFailure, Bool.or_false,
    beq_iff_eq, reduceCtorEq, combinedDownloadInstall, Bool.or_eq_true, Bool.not_false, Bool.and_true,
    ite_not, OtaM.bind_apply, hreinit, reinitCtx, Bool.true_eq_false, requireCtx, getWorld_apply, hactive,
    setCtx_apply, hcatch, List.append_assoc, or_self, Option.isSome_none, mbedAssert_apply]

/-- The first chunk a whole header with the magic: it is caught, and the program-unit
assertion that follows halts the device. -/
theorem download_asserts_after_progunit_malloc_failure_magicDevice :
    (imageHeaderSize ≤ ImageHeader.magicOnly.bytes.length →
        ihMagicBytes ImageHeader.magicOnly.bytes = imageMagic) ∧
    (download .unsupported ⟨none, false, true⟩ [⟨32, []⟩] ⟨[ImageHeader.magicOnly.bytes], true⟩
      { magicDevice with oracle := .failAt .malloc (magicDevice.clock + 4) }).1 =
      .error .assertFailed :=
  have hc : imageHeaderSize ≤ ImageHeader.magicOnly.bytes.length →
      ihMagicBytes ImageHeader.magicOnly.bytes = imageMagic := fun _ => by decide
  ⟨hc, download_asserts_after_progunit_malloc_failure _ _ _ _ [] true magicDevice rfl (by decide) hc⟩

end AziotOta
