import AziotOta.Bytes

/-!
# The device the handler runs on

What survives a reset (the key-value store, the secondary block device, the MCUboot
flags and the header of the running image), the handler's operation context, the outcome
of every fallible platform call, and the monad `OtaM` in which the MCUboot update
handler's code runs. `OtaM` threads a `Machine` and stops at a failed `MBED_ASSERT` or at
a `memcpy` past the end of a buffer; every call into the platform is appended to the
machine's log together with the persistent state it left, so that a reset after any call
can be stated as a reset at one of the logged states.
-/

namespace AziotOta

/-- Modelled from the spec: the fixed-size `ImageHeader` of §3, laid out as MCUboot's
`struct image_header` (`bootutil/image.h`, not in this repository): 32 bytes, `ih_magic`
in the first four, little-endian, and `ih_ver` in the eight at offset 20. -/
def imageHeaderSize : Nat := 32

/-- Modelled from the spec: MCUboot's `IMAGE_MAGIC`, the known constant of §3. -/
def imageMagic : UInt32 := 0x96f3b83d

/-- The offset of `ih_ver` in `struct image_header`. -/
def imageHeaderVersionOffset : Nat := 20

/-- `struct image_version` (`iv_major`, `iv_minor`, `iv_revision`, `iv_build_num`) as the
eight bytes `memcpy` and `memcmp` see. -/
@[ext] structure ImageVersion where
  bytes : List UInt8
  length_eq : bytes.length = 8
  deriving DecidableEq

/-- `struct image_header`, held as its bytes. -/
structure ImageHeader where
  bytes : List UInt8
  length_eq : bytes.length = imageHeaderSize
  deriving DecidableEq

/-- The little-endian `uint32_t` in the first four bytes of `l`: `ih_magic` of a header. -/
def ihMagicBytes (l : List UInt8) : UInt32 :=
  (l.getD 0 0).toUInt32 ||| ((l.getD 1 0).toUInt32 <<< 8) |||
    ((l.getD 2 0).toUInt32 <<< 16) ||| ((l.getD 3 0).toUInt32 <<< 24)

namespace ImageHeader

/-- `ih_magic`. -/
def ihMagic (h : ImageHeader) : UInt32 := ihMagicBytes h.bytes

/-- `ih_ver`. -/
def ihVer (h : ImageHeader) : ImageVersion :=
  ⟨readAt h.bytes imageHeaderVersionOffset 8, length_readAt_of_le (by rw [h.length_eq]; decide)⟩

theorem ihVer_bytes (h : ImageHeader) : h.ihVer.bytes = readAt h.bytes imageHeaderVersionOffset 8 := rfl

/-- A header buffer after `memset(.., 0, ..)`. -/
def zero : ImageHeader := ⟨zeros imageHeaderSize, length_zeros _⟩

/-- A `memcpy` into the header buffer; a write that would not fit leaves it alone (the
code's writes are checked against the buffer by `memcpyIntoHeader`). -/
def write (h : ImageHeader) (pos : Nat) (src : List UInt8) : ImageHeader :=
  if hp : pos + src.length ≤ imageHeaderSize then
    ⟨writeAt h.bytes pos src, by rw [length_writeAt (by rw [h.length_eq]; exact hp), h.length_eq]⟩
  else h

theorem write_bytes {h : ImageHeader} {pos : Nat} {src : List UInt8}
    (hp : pos + src.length ≤ imageHeaderSize) : (h.write pos src).bytes = writeAt h.bytes pos src := by
  simp [write, hp]

end ImageHeader

/-- What a reset leaves in place. -/
structure World where
  /-- The blob stored under the key `ota_image_update_state`, if there is one. -/
  kv : Option (List UInt8)
  /-- The contents of the secondary block device. -/
  secondary : List UInt8
  /-- `get_program_size()` and `get_read_size()` of the secondary block device. -/
  programSize : Nat
  readSize : Nat
  /-- The header at `MCUBOOT_PRIMARY_SLOT_START_ADDR`, the running image's. -/
  primaryHeader : ImageHeader
  /-- The image-ok flag of the primary slot reads `BOOT_FLAG_SET`. -/
  imageOk : Bool
  /-- MCUboot holds a pending (test) swap request for the secondary slot. -/
  pending : Bool
  deriving DecidableEq

/-- The platform calls whose outcome the model leaves open. -/
inductive Service where
  | kvGet | kvSet | getSecondaryBd | bdInit | bdErase | malloc
  | bootSetPending | bootSetConfirmed | flashAreaOpen | bootReadImageOk
  deriving DecidableEq, Repr

/-- The outcome of the `n`-th fallible call, by service: `true` is success. -/
def Oracle : Type := Service → Nat → Bool

/-- The oracle under which every call succeeds. -/
def Oracle.reliable : Oracle := fun _ _ => true

/-- The oracle under which every call succeeds but the `n`-th, a `kv_set`. -/
def Oracle.failKvSetAt (n : Nat) : Oracle := fun s k => !(s == .kvSet && k == n)

/-- The oracle under which every call succeeds but the `n`-th, a `kv_get`. -/
def Oracle.failKvGetAt (n : Nat) : Oracle := fun s k => !(s == .kvGet && k == n)

/-- The oracle under which every call succeeds but the `n`-th, a call to `s`. -/
def Oracle.failAt (s : Service) (n : Nat) : Oracle := fun s' k => !(decide (s' = s) && decide (k = n))

/-- The oracle under which every call of a service `s` has the outcome `f s`. -/
def Oracle.fixed (f : Service → Bool) : Oracle := fun s _ => f s

/-- The `nvImgUpgSt_*` routine whose `nvImgUpgSt_setAll` issued a `kv_set`. -/
inductive Site where
  | reset | setStageVersion | setInstallRebooted | setStageInstalledCriteria
  | settleInstalledCriteria
  deriving DecidableEq, Repr

/-- The platform calls the log records. -/
inductive Call where
  | kvSet (site : Site) (ok : Bool)
  | bdRead (addr len : Nat)
  | bdProgram (addr len : Nat)
  | bdErase (addr len : Nat) (ok : Bool)
  | bootSetPending (ok : Bool)
  | bootSetConfirmed (ok : Bool)
  | systemReset
  deriving DecidableEq, Repr

/-- The calls that change persistent state when they succeed. -/
def Call.writesPersistent : Call → Bool
  | .kvSet .. | .bdProgram .. | .bdErase .. | .bootSetPending _ | .bootSetConfirmed _ => true
  | .bdRead .. | .systemReset => false

/-- Modelled from the spec: the result codes of the handler, the closed enumeration of §6
(`aduc/result.h` is not in this repository). `failure` is `ADUC_Result_Failure` (and
`ADUC_GeneralResult_Failure`); it is the only code that is not a success. -/
inductive AducResultCode where
  | failure
  | downloadSuccess | installSuccess | applySuccess | applyRequiredReboot
  | cancelSuccess | cancelUnableToCancel
  | isInstalledInstalled | isInstalledNotInstalled
  | backupSuccessUnsupported | restoreSuccessUnsupported
  | generalSuccess
  deriving DecidableEq, Repr

/-- `IsAducResultCodeFailure`. -/
def isAducResultCodeFailure (c : AducResultCode) : Bool := c == .failure

/-- `IsAducResultCodeSuccess`. -/
def isAducResultCodeSuccess (c : AducResultCode) : Bool := c != .failure

/-- `OTA_OperationContext_t`. The two image headers are kept as their bytes and a buffer
pointer is `none` when it is `nullptr`. -/
structure OtaContext where
  fwuActiveHeader : ImageHeader
  fwuStageHeader : ImageHeader
  secondaryBd : Bool
  secondaryBdInited : Bool
  secondaryBdProgunit : Option (List UInt8)
  secondaryBdProgunitSize : Nat
  secondaryBdReadblock : Option (List UInt8)
  secondaryBdReadblockSize : Nat
  dlProgOffset : Nat
  dlProgTotalExp : Nat
  dlProgTotalAct : Nat
  deriving DecidableEq

/-- The device as the handler's code sees it: the persistent state, `otaCtx_opaque`, the
outcomes of the fallible calls, how many of them were made, and the log. -/
structure Machine where
  world : World
  ctx : Option OtaContext
  oracle : Oracle
  clock : Nat
  log : List (Call × World)

/-- Why a run stops without returning. -/
inductive Fault where
  | assertFailed
  | outOfBounds
  | nullDeref
  deriving DecidableEq, Repr

/-- The handler's code: it returns a value or stops at a `Fault`, and leaves a machine. -/
def OtaM (α : Type) : Type := Machine → Except Fault α × Machine

instance : Monad OtaM where
  pure a m := (.ok a, m)
  bind x f m := match x m with
    | (.ok a, m') => f a m'
    | (.error e, m') => (.error e, m')

section Monad

variable {α β : Type}

@[simp] theorem OtaM.pure_apply (a : α) (m : Machine) : (pure a : OtaM α) m = (.ok a, m) := rfl

@[simp] theorem OtaM.bind_apply (x : OtaM α) (f : α → OtaM β) (m : Machine) :
    (x >>= f) m = match x m with
      | (.ok a, m') => f a m'
      | (.error e, m') => (.error e, m') := rfl

theorem OtaM.bind_ok {x : OtaM α} {m m' : Machine} {a : α} (h : x m = (.ok a, m'))
    (f : α → OtaM β) : (x >>= f) m = f a m' := by
  simp [h]

theorem OtaM.ite_apply (c : Prop) [Decidable c] (x y : OtaM α) (m : Machine) :
    (if c then x else y) m = if c then x m else y m := by
  split <;> rfl

end Monad

/-- Ask the oracle for the outcome of the next call to `s`. -/
def callOk (s : Service) : OtaM Bool := fun m =>
  (.ok (m.oracle s m.clock), { m with clock := m.clock + 1 })

/-- Append a call to the log, with the persistent state it left. -/
def logCall (c : Call) : OtaM Unit := fun m => (.ok (), { m with log := m.log ++ [(c, m.world)] })

def modifyWorld (f : World → World) : OtaM Unit := fun m => (.ok (), { m with world := f m.world })

def getWorld : OtaM World := fun m => (.ok m.world, m)

/-- `MBED_ASSERT(c)`. -/
def mbedAssert (c : Prop) [Decidable c] : OtaM Unit := fun m =>
  if c then (.ok (), m) else (.error .assertFailed, m)

/-- A `memcpy` of `n` bytes out of `src` from `pos`: it reads past the end of the buffer
unless `pos + n ≤ src.length`. -/
def memcpyFrom (src : List UInt8) (pos n : Nat) : OtaM (List UInt8) := fun m =>
  if pos + n ≤ src.length then (.ok (readAt src pos n), m) else (.error .outOfBounds, m)

/-- A `memcpy` of `src` into `dst` at `pos`: it writes past the end of the buffer unless
`pos + src.length ≤ dst.length`. -/
def memcpyInto (dst : List UInt8) (pos : Nat) (src : List UInt8) : OtaM (List UInt8) := fun m =>
  if pos + src.length ≤ dst.length then (.ok (writeAt dst pos src), m) else (.error .outOfBounds, m)

/-- A `memcpy` of `src` into an image header at `pos`. -/
def memcpyIntoHeader (h : ImageHeader) (pos : Nat) (src : List UInt8) : OtaM ImageHeader :=
  fun m => if pos + src.length ≤ imageHeaderSize then (.ok (h.write pos src), m)
    else (.error .outOfBounds, m)

/-- A pointer that must not be `nullptr`. -/
def deref {α : Type} (p : Option α) : OtaM α := fun m =>
  match p with
  | some a => (.ok a, m)
  | none => (.error .nullDeref, m)

/-- `kv_get` of the update-state key: the stored blob, or `none` for any error (the key
absent, or the call failing). -/
def kvGet : OtaM (Option (List UInt8)) := do
  let ok ← callOk .kvGet
  let w ← getWorld
  return if ok then w.kv else none

/-- `kv_set` of the update-state key. The store is transactional: a failed set leaves the
previous blob. -/
def kvSet (site : Site) (b : List UInt8) : OtaM Bool := do
  let ok ← callOk .kvSet
  if ok then modifyWorld fun w => { w with kv := some b }
  logCall (.kvSet site ok)
  return ok

/-- `BlockDevice::read(buf, addr, len)` of the secondary device: `BD_ERROR_DEVICE_ERROR`
outside the device. -/
def bdRead (addr len : Nat) : OtaM (Option (List UInt8)) := do
  let w ← getWorld
  logCall (.bdRead addr len)
  return if addr + len ≤ w.secondary.length then some (readAt w.secondary addr len) else none

/-- `BlockDevice::program(buf, addr, len)`: programming overwrites the addressed range. -/
def bdProgram (buf : List UInt8) (addr len : Nat) : OtaM Bool := do
  let data ← memcpyFrom buf 0 len
  let w ← getWorld
  let ok := addr + len ≤ w.secondary.length
  if ok then modifyWorld fun w => { w with secondary := writeAt w.secondary addr data }
  logCall (.bdProgram addr len)
  return ok

/-- `boot_set_pending(0)`: a test swap request for the secondary slot. -/
def bootSetPending : OtaM Bool := do
  let ok ← callOk .bootSetPending
  if ok then modifyWorld fun w => { w with pending := true }
  logCall (.bootSetPending ok)
  return ok

/-- `boot_set_confirmed()`: set the image-ok flag of the primary slot. -/
def bootSetConfirmed : OtaM Bool := do
  let ok ← callOk .bootSetConfirmed
  if ok then modifyWorld fun w => { w with imageOk := true }
  logCall (.bootSetConfirmed ok)
  return ok

/-- `boot_read_image_ok` of the primary slot: the flag reads `BOOT_FLAG_SET`, or `none`
when the read fails. -/
def bootReadImageOk : OtaM (Option Bool) := do
  let ok ← callOk .bootReadImageOk
  let w ← getWorld
  return if ok then some w.imageOk else none

/-- `NVIC_SystemReset()`, recorded in the log; what follows a reset is the boot's business. -/
def nvicSystemReset : OtaM Unit := logCall .systemReset

/-- `m'` comes after `m` by calls that left the persistent state `w` and logged `entries`;
the context and the oracle are those of `m`. -/
structure Machine.Extends (m m' : Machine) (w : World) (entries : List (Call × World)) :
    Prop where
  world : m'.world = w
  ctx : m'.ctx = m.ctx
  oracle : m'.oracle = m.oracle
  log : m'.log = m.log ++ entries

theorem Machine.Extends.trans {m m1 m2 : Machine} {w1 w2 : World} {e1 e2 : List (Call × World)}
    (h1 : m.Extends m1 w1 e1) (h2 : m1.Extends m2 w2 e2) : m.Extends m2 w2 (e1 ++ e2) :=
  ⟨h2.world, h2.ctx.trans h1.ctx, h2.oracle.trans h1.oracle, by rw [h2.log, h1.log, List.append_assoc]⟩

theorem Machine.Extends.refl (m : Machine) : m.Extends { m with clock := n } m.world [] :=
  ⟨rfl, rfl, rfl, by simp⟩

section Primitives

variable (m : Machine)

@[simp] theorem callOk_apply (s : Service) :
    callOk s m = (.ok (m.oracle s m.clock), { m with clock := m.clock + 1 }) := rfl

@[simp] theorem logCall_apply (c : Call) :
    logCall c m = (.ok (), { m with log := m.log ++ [(c, m.world)] }) := rfl

@[simp] theorem modifyWorld_apply (f : World → World) :
    modifyWorld f m = (.ok (), { m with world := f m.world }) := rfl

@[simp] theorem getWorld_apply : getWorld m = (.ok m.world, m) := rfl

@[simp] theorem mbedAssert_apply (c : Prop) [Decidable c] :
    mbedAssert c m = if c then (.ok (), m) else (.error .assertFailed, m) := rfl

@[simp] theorem memcpyFrom_apply (src : List UInt8) (pos n : Nat) :
    memcpyFrom src pos n m =
      if pos + n ≤ src.length then (.ok (readAt src pos n), m) else (.error .outOfBounds, m) := rfl

@[simp] theorem memcpyInto_apply (dst : List UInt8) (pos : Nat) (src : List UInt8) :
    memcpyInto dst pos src m = if pos + src.length ≤ dst.length then (.ok (writeAt dst pos src), m)
      else (.error .outOfBounds, m) := rfl

@[simp] theorem memcpyIntoHeader_apply (h : ImageHeader) (pos : Nat) (src : List UInt8) :
    memcpyIntoHeader h pos src m = if pos + src.length ≤ imageHeaderSize
      then (.ok (h.write pos src), m) else (.error .outOfBounds, m) := rfl

@[simp] theorem deref_some {α : Type} (a : α) : deref (some a) m = (.ok a, m) := rfl

@[simp] theorem deref_none {α : Type} : deref (none : Option α) m = (.error .nullDeref, m) := rfl

@[simp] theorem kvGet_apply :
    kvGet m = (.ok (if m.oracle .kvGet m.clock then m.world.kv else none),
      { m with clock := m.clock + 1 }) := rfl

@[simp] theorem kvSet_apply (site : Site) (b : List UInt8) :
    kvSet site b m =
      (.ok (m.oracle .kvSet m.clock),
        { m with clock := m.clock + 1,
                 world := if m.oracle .kvSet m.clock then { m.world with kv := some b } else m.world,
                 log := m.log ++ [(.kvSet site (m.oracle .kvSet m.clock),
                   if m.oracle .kvSet m.clock then { m.world with kv := some b } else m.world)] }) := by
  cases h : m.oracle .kvSet m.clock <;> simp [kvSet, h]

theorem kvSet_outcome (site : Site) (b : List UInt8) :
    ∃ ok m', kvSet site b m = (.ok ok, m') ∧
      m.Extends m' (if ok then { m.world with kv := some b } else m.world)
        [(.kvSet site ok, if ok then { m.world with kv := some b } else m.world)] :=
  ⟨_, _, kvSet_apply m site b, rfl, rfl, rfl, rfl⟩

@[simp] theorem bdRead_apply (addr len : Nat) :
    bdRead addr len m =
      (.ok (if addr + len ≤ m.world.secondary.length then some (readAt m.world.secondary addr len)
        else none), { m with log := m.log ++ [(.bdRead addr len, m.world)] }) := rfl

@[simp] theorem bdProgram_apply (buf : List UInt8) (addr len : Nat) :
    bdProgram buf addr len m =
      if len ≤ buf.length then
        if addr + len ≤ m.world.secondary.length then
          (.ok true, { m with
            world := { m.world with secondary := writeAt m.world.secondary addr (buf.take len) },
            log := m.log ++ [(.bdProgram addr len,
              { m.world with secondary := writeAt m.world.secondary addr (buf.take len) })] })
        else (.ok false, { m with log := m.log ++ [(.bdProgram addr len, m.world)] })
      else (.error .outOfBounds, m) := by
  by_cases hb : len ≤ buf.length
  · by_cases hw : addr + len ≤ m.world.secondary.length <;> simp [bdProgram, hb, hw, readAt]
  · simp [bdProgram, hb]

@[simp] theorem bootSetPending_apply :
    bootSetPending m =
      (.ok (m.oracle .bootSetPending m.clock),
        { m with clock := m.clock + 1,
                 world := if m.oracle .bootSetPending m.clock then { m.world with pending := true }
                   else m.world,
                 log := m.log ++ [(.bootSetPending (m.oracle .bootSetPending m.clock),
                   if m.oracle .bootSetPending m.clock then { m.world with pending := true }
                   else m.world)] }) := by
  cases h : m.oracle .bootSetPending m.clock <;> simp [bootSetPending, h]

theorem bootSetPending_outcome :
    ∃ ok m', bootSetPending m = (.ok ok, m') ∧
      m.Extends m' (if ok then { m.world with pending := true } else m.world)
        [(.bootSetPending ok, if ok then { m.world with pending := true } else m.world)] :=
  ⟨_, _, bootSetPending_apply m, rfl, rfl, rfl, rfl⟩

@[simp] theorem bootSetConfirmed_apply :
    bootSetConfirmed m =
      (.ok (m.oracle .bootSetConfirmed m.clock),
        { m with clock := m.clock + 1,
                 world := if m.oracle .bootSetConfirmed m.clock then { m.world with imageOk := true }
                   else m.world,
                 log := m.log ++ [(.bootSetConfirmed (m.oracle .bootSetConfirmed m.clock),
                   if m.oracle .bootSetConfirmed m.clock then { m.world with imageOk := true }
                   else m.world)] }) := by
  cases h : m.oracle .bootSetConfirmed m.clock <;> simp [bootSetConfirmed, h]

@[simp] theorem bootReadImageOk_apply :
    bootReadImageOk m = (.ok (if m.oracle .bootReadImageOk m.clock then some m.world.imageOk
      else none), { m with clock := m.clock + 1 }) := rfl

@[simp] theorem nvicSystemReset_apply :
    nvicSystemReset m = (.ok (), { m with log := m.log ++ [(.systemReset, m.world)] }) := rfl

end Primitives

end AziotOta
