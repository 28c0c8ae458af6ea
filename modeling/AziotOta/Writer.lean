import AziotOta.NvImgUpgSt

/-!
# The aligned block writer

`MCUbUpdateHandlerImpl::CombinedDownloadInstall` takes one HTTP chunk at the running
offset `dl_prog.offset`. It first copies whatever of the chunk falls in the first
`sizeof(struct image_header)` bytes into the staged header and, on the call that completes
the header, checks its magic and records its version. It then programs the chunk into the
secondary block device in three parts: the unaligned head by read-modify-write of the
program unit that holds it, the aligned middle directly, and the unaligned tail by
read-modify-write again. The sections of the function are the definitions below, in the
order the code runs them.
-/

namespace AziotOta

/-- `MBED_ASSERT(otaCtx_opaque != nullptr)` and the cast to `OTA_OperationContext_t *`. -/
def requireCtx : OtaM OtaContext := fun m =>
  match m.ctx with
  | some c => (.ok c, m)
  | none => (.error .assertFailed, m)

def setCtx (c : OtaContext) : OtaM Unit := fun m => (.ok (), { m with ctx := some c })

theorem requireCtx_of {m : Machine} {c : OtaContext} (h : m.ctx = some c) :
    requireCtx m = (.ok c, m) := by
  simp [requireCtx, h]

@[simp] theorem setCtx_apply (c : OtaContext) (m : Machine) :
    setCtx c m = (.ok (), { m with ctx := some c }) := rfl

/-- `(x / a) * a`: `x` rounded down to a multiple of `a`. -/
def alignDown (x a : Nat) : Nat := (x / a) * a

/-- `((x + a - 1) / a) * a`: `x` rounded up to a multiple of `a`. -/
def alignUp (x a : Nat) : Nat := ((x + a - 1) / a) * a

section Align

variable {x y a : Nat}

theorem alignDown_le (x a : Nat) : alignDown x a ≤ x := Nat.div_mul_le_self x a

theorem lt_alignDown_add (ha : 0 < a) : x < alignDown x a + a := by
  have h1 := Nat.div_add_mod x a
  have h2 := Nat.mod_lt x ha
  rw [Nat.mul_comm] at h1
  unfold alignDown; omega

theorem dvd_alignDown (x a : Nat) : a ∣ alignDown x a := ⟨x / a, Nat.mul_comm _ _⟩

theorem alignDown_eq_self (h : a ∣ x) : alignDown x a = x := Nat.div_mul_cancel h

/-- Two multiples of `a` that differ are at least `a` apart. -/
theorem add_le_of_dvd_of_lt (hx : a ∣ x) (hy : a ∣ y) (h : x < y) : x + a ≤ y := by
  obtain ⟨i, rfl⟩ := hx
  obtain ⟨j, rfl⟩ := hy
  have hij : i < j := Nat.lt_of_mul_lt_mul_left h
  calc a * i + a = a * (i + 1) := (Nat.mul_succ a i).symm
    _ ≤ a * j := Nat.mul_le_mul_left a hij

/-- `alignDown x a` is the largest multiple of `a` not above `x`. -/
theorem le_alignDown (ha : 0 < a) (hy : a ∣ y) (h : y ≤ x) : y ≤ alignDown x a := by
  by_contra hlt
  have := add_le_of_dvd_of_lt (dvd_alignDown x a) hy (by omega)
  have := lt_alignDown_add (x := x) ha
  omega

theorem le_alignUp (ha : 0 < a) : x ≤ alignUp x a := by
  have := lt_alignDown_add (x := x + a - 1) ha
  unfold alignUp; unfold alignDown at this; omega

theorem alignUp_lt (ha : 0 < a) : alignUp x a < x + a := by
  have := alignDown_le (x + a - 1) a
  unfold alignUp; unfold alignDown at this; omega

theorem dvd_alignUp (x a : Nat) : a ∣ alignUp x a := dvd_alignDown (x + a - 1) a

theorem alignUp_mono (h : x ≤ y) (a : Nat) : alignUp x a ≤ alignUp y a :=
  Nat.mul_le_mul_right a (Nat.div_le_div_right (by omega))

/-- `alignUp x a` is the least multiple of `a` not below `x`. -/
theorem alignUp_le_of_dvd (ha : 0 < a) (hy : a ∣ y) (h : x ≤ y) : alignUp x a ≤ y := by
  by_contra hlt
  have := add_le_of_dvd_of_lt hy (dvd_alignUp x a) (by omega)
  have := alignUp_lt (x := x) ha
  omega

end Align

/-- `bd_read_program_unit(bd, progunit, progunit_size, readblock, readblock_size, offset)`:
read the read block that holds `offset`, then copy the program unit that holds `offset`
out of it. Returns the new contents of the two buffers, or `none` when the read fails. -/
def bdReadProgramUnit (progunit : List UInt8) (progunitSize : Nat) (readblock : List UInt8)
    (readblockSize offset : Nat) : OtaM (Option (List UInt8 × List UInt8)) := do
  mbedAssert (readblockSize ≥ progunitSize)
  let readblockAligndown := alignDown offset readblockSize
  let progunitAligndown := alignDown offset progunitSize
  mbedAssert (progunitAligndown ≥ readblockAligndown)
  match ← bdRead readblockAligndown readblockSize with
  | none => return none
  | some block =>
    let readblock ← memcpyInto readblock 0 block
    let unit ← memcpyFrom readblock (progunitAligndown - readblockAligndown) progunitSize
    let progunit ← memcpyInto progunit 0 unit
    return some (progunit, readblock)

/-- "Catch MCUBOOT header at offset 0": copy the part of the chunk that falls inside the
header, and on the call that completes the header check `ih_magic` and record `ih_ver` with
`nvImgUpgSt_setStageVersion`. Returns false where the code goes to `done` with a failure. -/
def catchImageHeader (dlData : List UInt8) : OtaM Bool := do
  let ctx ← requireCtx
  if ctx.dlProgOffset < imageHeaderSize then
    let todo := min (imageHeaderSize - ctx.dlProgOffset) dlData.length
    let header ← memcpyIntoHeader ctx.fwuStageHeader ctx.dlProgOffset (dlData.take todo)
    setCtx { ctx with fwuStageHeader := header }
    if ctx.dlProgOffset + todo = imageHeaderSize then
      if header.ihMagic != imageMagic then return false
      else nvImgUpgStSetStageVersion header.ihVer
    else return true
  else return true

/-- The loop state of the write: `fwu_data` (the bytes still to program, so that
`fwu_rmn` is their number) and `fwu_offset`. -/
structure Cursor where
  data : List UInt8
  offset : Nat

/-- "Program first data which doesn't align on program unit boundary". -/
def programFirst (cur : Cursor) : OtaM (Option Cursor) := do
  let ctx ← requireCtx
  let progunitSize := ctx.secondaryBdProgunitSize
  let todo := min (alignUp cur.offset progunitSize - cur.offset) cur.data.length
  mbedAssert (progunitSize > todo)
  if todo = 0 then return some cur
  else
    let progunit ← deref ctx.secondaryBdProgunit
    let readblock ← deref ctx.secondaryBdReadblock
    match ← bdReadProgramUnit progunit progunitSize readblock ctx.secondaryBdReadblockSize
        cur.offset with
    | none => return none
    | some (progunit, readblock) =>
      let offsetFirst := alignDown cur.offset progunitSize
      let progunit ← memcpyInto progunit (cur.offset - offsetFirst) (cur.data.take todo)
      setCtx { ctx with secondaryBdProgunit := some progunit,
                        secondaryBdReadblock := some readblock }
      let ok ← bdProgram progunit offsetFirst progunitSize
      return if ok then some ⟨cur.data.drop todo, cur.offset + todo⟩ else none

/-- "Program data which aligns on program unit boundary". -/
def programAligned (cur : Cursor) : OtaM (Option Cursor) := do
  let ctx ← requireCtx
  let todo := alignDown cur.data.length ctx.secondaryBdProgunitSize
  if todo = 0 then return some cur
  else
    let ok ← bdProgram cur.data cur.offset todo
    return if ok then some ⟨cur.data.drop todo, cur.offset + todo⟩ else none

/-- "Program last data which doesn't align on program unit boundary". -/
def programLast (cur : Cursor) : OtaM (Option Cursor) := do
  let ctx ← requireCtx
  let progunitSize := ctx.secondaryBdProgunitSize
  let todo := cur.data.length
  if todo = 0 then return some cur
  else
    mbedAssert (progunitSize > todo)
    let progunit ← deref ctx.secondaryBdProgunit
    let readblock ← deref ctx.secondaryBdReadblock
    match ← bdReadProgramUnit progunit progunitSize readblock ctx.secondaryBdReadblockSize
        cur.offset with
    | none => return none
    | some (progunit, readblock) =>
      let progunit ← memcpyInto progunit 0 (cur.data.take todo)
      setCtx { ctx with secondaryBdProgunit := some progunit,
                        secondaryBdReadblock := some readblock }
      let ok ← bdProgram progunit cur.offset progunitSize
      return if ok then some ⟨cur.data.drop todo, cur.offset + todo⟩ else none

/-- `MCUbUpdateHandlerImpl::CombinedDownloadInstall`. -/
def combinedDownloadInstall (dlData : List UInt8) : OtaM AducResultCode := do
  let _ ← requireCtx
  let headerOk ← catchImageHeader dlData
  if !headerOk then return .failure
  let ctx ← requireCtx
  if !ctx.secondaryBd || !ctx.secondaryBdInited then return .failure
  mbedAssert ctx.secondaryBdProgunit.isSome
  mbedAssert (ctx.secondaryBdProgunitSize ≠ 0)
  match ← programFirst ⟨dlData, ctx.dlProgOffset⟩ with
  | none => return .failure
  | some cur =>
  match ← programAligned cur with
  | none => return .failure
  | some cur =>
  match ← programLast cur with
  | none => return .failure
  | some cur =>
  mbedAssert (cur.data.length = 0)
  let ctx ← requireCtx
  setCtx { ctx with dlProgOffset := ctx.dlProgOffset + dlData.length }
  return .downloadSuccess

/-- The HTTP body callback `CombinedDownloadInstallTask` of `Download`: after a failure or
a cancel request it only cancels the transfer, otherwise the chunk goes to
`CombinedDownloadInstall` and its result becomes the download's result. -/
def combinedDownloadInstallTask (cancelRequested : Bool) (result : AducResultCode)
    (dlData : List UInt8) : OtaM AducResultCode :=
  if isAducResultCodeFailure result || cancelRequested then pure result
  else combinedDownloadInstall dlData

/-- The chunks of the HTTP body delivered to the callback in order. -/
def deliverChunks (cancelRequested : Bool) : AducResultCode → List (List UInt8) →
    OtaM AducResultCode
  | result, [] => pure result
  | result, dlData :: rest => do
    let result ← combinedDownloadInstallTask cancelRequested result dlData
    deliverChunks cancelRequested result rest

end AziotOta
