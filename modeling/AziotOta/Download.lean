import AziotOta.WriterExact
import AziotOta.Handler

/-!
# Download: the context, the transfer and the digest check

`MCUbUpdateHandlerImpl::Download` resets the operation context, checks the running image's
header, feeds the HTTP body chunk by chunk to `CombinedDownloadInstall`, checks the length it
got, and verifies the digest of the staged bytes, read back one read block at a time. With
every platform call succeeding, on every geometry the writer handles, it succeeds exactly when
the body has the announced size, carries the magic if it can hold a header, and matches the
first hash the manifest lists, if any (`DownloadAccepted`).
-/

namespace AziotOta

/-! ## The model -/

/-- `FWU_READ_BLOCK_DEFSIZE`. -/
def fwuReadBlockDefsize : Nat := 1024

/-- The read-block size `OTACtx_Reinit` takes for a device of read size `readSize`. -/
def readblockSizeFor (readSize : Nat) : Nat :=
  if fwuReadBlockDefsize < readSize then readSize else fwuReadBlockDefsize

theorem readblockSizeFor_pos (readSize : Nat) : 0 < readblockSizeFor readSize := by
  unfold readblockSizeFor fwuReadBlockDefsize
  split <;> omega

/-- `OTA_OperationContext_t` after `memset(otaCtx_inst, 0x00, ..)`. -/
def OtaContext.zero : OtaContext :=
  ⟨.zero, .zero, false, false, none, 0, none, 0, 0, 0, 0⟩

/-- `malloc(size)`: `nullptr` when the allocation fails. The bytes are indeterminate; the
code writes them before it reads them, and the model fills them with zeros. -/
def malloc (size : Nat) : OtaM (Option (List UInt8)) := do
  let ok ← callOk .malloc
  return if ok then some (zeros size) else none

/-- `BlockDevice::erase(addr, len)`. What erased bytes read is the device's own
(`get_erase_value()`); the model leaves them as they were, so that what is proved about the
device's contents holds whatever erasing leaves. -/
def bdErase (addr len : Nat) : OtaM Bool := do
  let ok ← callOk .bdErase
  logCall (.bdErase addr len ok)
  return ok

/-- `MCUbUpdateHandlerImpl::OTACtx_Deinit`: the context is deleted. Deinitializing the
device and freeing the buffers change nothing the model keeps. -/
def otaCtxDeinit : OtaM Unit := fun m => (.ok (), { m with ctx := none })

/-- `MCUbUpdateHandlerImpl::OTACtx_Reinit`. On a failure the new context is deleted and
`otaCtx_opaque` stays `nullptr`; the results of the two `malloc`s are not checked. -/
def otaCtxReinit : OtaM Bool := do
  otaCtxDeinit
  if !(← nvImgUpgStReset false) then return false
  if !(← callOk .getSecondaryBd) then return false
  if !(← callOk .bdInit) then return false
  let w ← getWorld
  let progunit ← malloc w.programSize
  let readblock ← malloc (readblockSizeFor w.readSize)
  if !(← bdErase 0 w.secondary.length) then return false
  setCtx { OtaContext.zero with
    secondaryBd := true, secondaryBdInited := true,
    secondaryBdProgunit := progunit, secondaryBdProgunitSize := w.programSize,
    secondaryBdReadblock := readblock, secondaryBdReadblockSize := readblockSizeFor w.readSize }
  return true

/-- An entry of a file entity's hash list (`ADUC_Hash`): the hash type and its Base64
value. -/
structure AducHash where
  type : String
  value : String

/-- `ADUC_FileEntity`, the fields `Download` and `VerifySignature` read: `SizeInBytes` and
the hash list (`Hash` with `HashCount` entries). -/
structure FileEntity where
  sizeInBytes : Nat
  hash : List AducHash

/-- The library functions `VerifySignature` calls that are not in this repository:
`ADUC_HashUtils_GetShaVersionForTypeString` (`none` for an unsupported type), `USHAHashSize`,
the digest `USHAReset`, `USHAInput` and `USHAResult` compute of the bytes input in order, and
the text `Azure_Base64_Encode_Bytes` returns. -/
structure HashLib where
  shaVersionForTypeString : String → Option Nat
  ushaHashSize : Nat → Nat
  usha : Nat → List UInt8 → List UInt8
  base64EncodeBytes : List UInt8 → String

/-- `ADUC_HashUtils_GetHashType(Hash, HashCount, index)`: `nullptr` past the end. -/
def getHashType (hash : List AducHash) (index : Nat) : Option String :=
  hash[index]?.map AducHash.type

/-- `ADUC_HashUtils_GetHashValue(Hash, HashCount, index)`: `nullptr` past the end. -/
def getHashValue (hash : List AducHash) (index : Nat) : Option String :=
  hash[index]?.map AducHash.value

/-- `MBED_ASSERT(c)` whose fact the code after it relies on. -/
def mbedAssertThen {α : Type} (c : Prop) [Decidable c] (k : c → OtaM α) : OtaM α := fun m =>
  if h : c then k h m else (.error .assertFailed, m)

/-- The first loop of `VerifySignature`: while bytes remain and a whole read block of them,
read the block at `fwu_offset` into the read-block buffer `fwu_data` and input it to the
digest. `none` where a read fails, else the buffer, the offset, the bytes remaining and the
bytes input so far. -/
def hashReadBlocks (readblockSize : Nat) (hR : 0 < readblockSize) (fwuData : List UInt8)
    (fwuOffset fwuRmn : Nat) (input : List UInt8) :
    OtaM (Option (List UInt8 × Nat × Nat × List UInt8)) :=
  if _h0 : fwuRmn = 0 then pure (some (fwuData, fwuOffset, fwuRmn, input))
  else if _hlt : min fwuRmn readblockSize < readblockSize then
    pure (some (fwuData, fwuOffset, fwuRmn, input))
  else do
    match ← bdRead fwuOffset (min fwuRmn readblockSize) with
    | none => return none
    | some block =>
      let fwuData ← memcpyInto fwuData 0 block
      let bytes ← memcpyFrom fwuData 0 (min fwuRmn readblockSize)
      hashReadBlocks readblockSize hR fwuData (fwuOffset + min fwuRmn readblockSize)
        (fwuRmn - min fwuRmn readblockSize) (input ++ bytes)
termination_by fwuRmn
decreasing_by omega

/-- The last stretch of `VerifySignature`, shorter than a read block: read the whole block at
`fwu_offset` and input only the bytes that remain. -/
def hashLastBlock (readblockSize : Nat) (fwuData : List UInt8) (fwuOffset fwuRmn : Nat)
    (input : List UInt8) : OtaM (Option (List UInt8)) := do
  if fwuRmn = 0 then return some input
  mbedAssert (fwuRmn < readblockSize)
  match ← bdRead fwuOffset readblockSize with
  | none => return none
  | some block =>
    let fwuData ← memcpyInto fwuData 0 block
    let bytes ← memcpyFrom fwuData 0 fwuRmn
    return some (input ++ bytes)

/-- `MCUbUpdateHandlerImpl::VerifySignature`: with no hash listed it accepts; otherwise it
reads the first `SizeInBytes` bytes of the device back, digests them with the first hash's
type and compares the digest's Base64 text with the hash's value. -/
def verifySignature (hl : HashLib) (fileEntity : FileEntity) : OtaM Bool := do
  let ctx ← requireCtx
  if fileEntity.hash.length = 0 then return true
  match getHashType fileEntity.hash 0 with
  | none => return false
  | some hashType =>
  match hl.shaVersionForTypeString hashType with
  | none => return false
  | some shaVersion =>
  mbedAssert ctx.secondaryBd
  mbedAssert ctx.secondaryBdInited
  mbedAssert ctx.secondaryBdReadblock.isSome
  mbedAssertThen (0 < ctx.secondaryBdReadblockSize) fun hR => do
  let fwuData ← deref ctx.secondaryBdReadblock
  match ← hashReadBlocks ctx.secondaryBdReadblockSize hR fwuData 0 fileEntity.sizeInBytes [] with
  | none => return false
  | some (fwuData, fwuOffset, fwuRmn, input) =>
  match ← hashLastBlock ctx.secondaryBdReadblockSize fwuData fwuOffset fwuRmn input with
  | none => return false
  | some input =>
  -- `USHAResult` fails on the `nullptr` a failed `malloc` of the digest buffer returns
  if (← malloc (hl.ushaHashSize shaVersion)).isNone then return false
  -- `Azure_Base64_Encode_Bytes` returns `nullptr` when it cannot allocate
  if !(← callOk .malloc) then return false
  let shaDigestBase64 := hl.base64EncodeBytes (hl.usha shaVersion input)
  match getHashValue fileEntity.hash 0 with
  | none => return false
  | some hashValueBase64 => return hashValueBase64 == shaDigestBase64

/-- The HTTP transfer of the body as `Download` sees it: the chunks its body callback gets, in
order, and whether `send()` returned a response. Whether the URI is HTTPS only picks the
request class. -/
structure Transfer where
  chunks : List (List UInt8)
  responded : Bool

/-- `MCUbUpdateHandlerImpl::Download`, for a workflow whose update files are `files`. -/
def download (hl : HashLib) (wf : Workflow) (files : List FileEntity) (transfer : Transfer) :
    OtaM AducResultCode := do
  if wf.cancelRequested then return cancel wf
  match files with
  | [fileEntity] =>
    if !(← otaCtxReinit) then return .failure
    let ctx ← requireCtx
    let w ← getWorld
    if w.primaryHeader.ihMagic != imageMagic then return .failure
    setCtx { ctx with
      fwuActiveHeader := w.primaryHeader, dlProgOffset := 0,
      dlProgTotalExp := fileEntity.sizeInBytes, dlProgTotalAct := 0 }
    let result ← deliverChunks wf.cancelRequested .downloadSuccess transfer.chunks
    if !transfer.responded && !wf.cancelRequested then return .failure
    if wf.cancelRequested then return cancel wf
    if isAducResultCodeFailure result then return result
    let ctx ← requireCtx
    setCtx { ctx with dlProgTotalAct := ctx.dlProgOffset }
    if ctx.dlProgOffset ≠ ctx.dlProgTotalExp then return .failure
    if !(← verifySignature hl fileEntity) then return .failure
    return result
  | _ => return .failure

/-! ## Runs with every call succeeding -/

/-- The context `OTACtx_Reinit` makes for a device. -/
def reinitCtx (w : World) : OtaContext := { OtaContext.zero with
  secondaryBd := true, secondaryBdInited := true,
  secondaryBdProgunit := some (zeros w.programSize), secondaryBdProgunitSize := w.programSize,
  secondaryBdReadblock := some (zeros (readblockSizeFor w.readSize)),
  secondaryBdReadblockSize := readblockSizeFor w.readSize }

section Reliable

variable {m : Machine} (ho : m.oracle = .reliable)
include ho

theorem otaCtxReinit_reliable :
    ∃ r n es, otaCtxReinit m = (.ok true, { m with
      world := { m.world with kv := some (NvRecord.bytes r) }, ctx := some (reinitCtx m.world),
      clock := n, log := m.log ++ es }) := by
  let r := (m.world.record.map NvRecord.zeroPrefix).getD NvRecord.zero
  refine ⟨r, m.clock + 7, [(.kvSet .reset true, { m.world with kv := some r.bytes }),
    (.bdErase 0 m.world.secondary.length true, { m.world with kv := some r.bytes })], ?_⟩
  simp [otaCtxReinit, otaCtxDeinit, nvImgUpgStReset_apply, ho, Oracle.reliable, malloc, bdErase,
    reinitCtx, Machine.readRecord, r]

end Reliable

/-! ## The geometries `OTACtx_Reinit` admits -/

theorem alignDown_lt_of_not_dvd {x a : Nat} (h : ¬a ∣ x) : alignDown x a < x :=
  Nat.lt_of_le_of_ne (alignDown_le x a) fun he => h (he ▸ dvd_alignDown x a)

/-- `bd_read_program_unit` on a geometry `OTACtx_Reinit` set up, program size `P` and read
size `r`: when `P` divides the read-block size its two assertions hold at every offset, the
program unit it copies lies inside the read block, and the unit is the device's content;
when `P` does not divide it, the assertions stop the code at the offset of the second read
block. -/
theorem bdReadProgramUnit_geometry (P r : Nat) (hP : 0 < P) :
    (P ∣ readblockSizeFor r → ∀ (off : Nat) (m : Machine) (pu rb : List UInt8),
        pu.length = P → rb.length = readblockSizeFor r →
        alignDown off (readblockSizeFor r) + readblockSizeFor r ≤ m.world.secondary.length →
        P ≤ readblockSizeFor r ∧ alignDown off (readblockSizeFor r) ≤ alignDown off P ∧
        alignDown off P - alignDown off (readblockSizeFor r) + P ≤ readblockSizeFor r ∧
        bdReadProgramUnit pu P rb (readblockSizeFor r) off m =
          (.ok (some (readAt m.world.secondary (alignDown off P) P,
            readAt m.world.secondary (alignDown off (readblockSizeFor r)) (readblockSizeFor r))),
            { m with log := m.log ++ [(.bdRead (alignDown off (readblockSizeFor r))
              (readblockSizeFor r), m.world)] })) ∧
    (¬P ∣ readblockSizeFor r → ∀ (m : Machine) (pu rb : List UInt8),
        bdReadProgramUnit pu P rb (readblockSizeFor r) (readblockSizeFor r) m =
          (.error .assertFailed, m)) := by
  have hR := readblockSizeFor_pos r
  refine ⟨fun hPR off m pu rb hpu hrb hdev => ?_, fun hPR m pu rb => ?_⟩
  · obtain ⟨h1, h2⟩ := programUnit_within_readBlock hP hR hPR off
    exact ⟨le_of_geometry hR hPR, h1, by omega, bdReadProgramUnit_apply hP hR hPR m hpu hrb hdev⟩
  · have hself : alignDown (readblockSizeFor r) (readblockSizeFor r) = readblockSizeFor r :=
      alignDown_eq_self (Nat.dvd_refl _)
    have hlt := alignDown_lt_of_not_dvd hPR
    by_cases hle : P ≤ readblockSizeFor r <;>
      simp [bdReadProgramUnit, hle, hself, Nat.not_le.mpr hlt]

/-- A unit of 512 bytes on a device of read size 1: the read block is 1024 bytes and the unit
at offset 700 is the device's bytes 512 to 1024. -/
theorem bdReadProgramUnit_geometry_halfBlock :
    bdReadProgramUnit (zeros 512) 512 (zeros 1024) (readblockSizeFor 1) 700
        (readyMachine 512 1024 (zeros 2048)) =
      (.ok (some (readAt (zeros 2048) (alignDown 700 512) 512,
        readAt (zeros 2048) (alignDown 700 (readblockSizeFor 1)) (readblockSizeFor 1))),
        { readyMachine 512 1024 (zeros 2048) with
          log := [] ++ [(.bdRead (alignDown 700 (readblockSizeFor 1)) (readblockSizeFor 1),
            (readyMachine 512 1024 (zeros 2048)).world)] }) :=
  ((bdReadProgramUnit_geometry 512 1 (by decide)).1 (by decide) 700 _ _ _ (length_zeros _)
    (length_zeros _) (by simp [readyMachine, alignDown, readblockSizeFor, fwuReadBlockDefsize])).2.2.2

/-- `OTACtx_Reinit` accepts a device of program size 2048 and read size 1024, whose program
size is a multiple of its read size, and sets it up with a 1024-byte read block; the first
assertion of `bd_read_program_unit` then fails at every offset. -/
theorem reinit_accepts_progunit_above_readblock :
    (∃ m', otaCtxReinit (readyMachine 2048 1024 []) = (.ok true, m') ∧
      m'.ctx = some (reinitCtx (readyMachine 2048 1024 []).world)) ∧
    1024 ∣ 2048 ∧ (reinitCtx (readyMachine 2048 1024 []).world).secondaryBdProgunitSize = 2048 ∧
    (reinitCtx (readyMachine 2048 1024 []).world).secondaryBdReadblockSize = 1024 ∧
    ∀ (off : Nat) (m : Machine) (pu rb : List UInt8),
      bdReadProgramUnit pu 2048 rb 1024 off m = (.error .assertFailed, m) := by
  obtain ⟨r, n, es, h⟩ := otaCtxReinit_reliable (m := readyMachine 2048 1024 []) rfl
  exact ⟨⟨_, h, rfl⟩, by decide, rfl, rfl, fun off m pu rb => by simp [bdReadProgramUnit]⟩

/-! ## Reading the image back -/

/-- The reads of `k` whole read blocks of `R` bytes from `off` on, as the log records them
on a device in state `w`. -/
def blockReads (w : World) (R : Nat) : Nat → Nat → List (Call × World)
  | _, 0 => []
  | off, k + 1 => (.bdRead off R, w) :: blockReads w R (off + R) k

theorem blockReads_succ (w : World) (R off k : Nat) :
    blockReads w R off (k + 1) = blockReads w R off k ++ [(.bdRead (off + k * R) R, w)] := by
  induction k generalizing off with
  | zero => simp [blockReads]
  | succ k ih =>
    rw [blockReads, ih, blockReads, Nat.succ_mul, Nat.add_comm (k * R) R, Nat.add_assoc]
    rfl

theorem mem_blockReads {w : World} {R off k : Nat} {e : Call × World}
    (he : e ∈ blockReads w R off k) : ∃ i < k, e = (.bdRead (off + i * R) R, w) := by
  induction k generalizing off with
  | zero => simp [blockReads] at he
  | succ k ih =>
    rcases List.mem_cons.mp he with rfl | he
    · exact ⟨0, by omega, by simp⟩
    · obtain ⟨i, hi, rfl⟩ := ih he
      exact ⟨i + 1, by omega, by rw [Nat.succ_mul, Nat.add_comm (i * R) R, Nat.add_assoc]⟩

section Digest

variable {R : Nat} {m : Machine} {buf input : List UInt8}

/-- One turn of the first loop: a whole read block is read into the buffer and input. -/
theorem hashReadBlocks_step (hR : 0 < R) (hbuf : buf.length = R) {off rmn : Nat} (hle : R ≤ rmn)
    (hdev : off + R ≤ m.world.secondary.length) :
    hashReadBlocks R hR buf off rmn input m =
      hashReadBlocks R hR (readAt m.world.secondary off R) (off + R) (rmn - R)
        (input ++ readAt m.world.secondary off R)
        { m with log := m.log ++ [(.bdRead off R, m.world)] } := by
  have hblock : (readAt m.world.secondary off R).length = R := length_readAt_of_le hdev
  rw [hashReadBlocks, dif_neg (by omega), dif_neg (by omega), Nat.min_eq_right hle]
  simp [hdev, hbuf, hblock, writeAt_zero_of_length_eq (hblock.trans hbuf.symm),
    readAt_readAt (show 0 + R ≤ R by omega)]

/-- The first loop reads the whole read blocks of the `fwu_rmn` bytes from `fwu_offset` and
inputs them; the remainder modulo the read-block size is left. -/
theorem hashReadBlocks_apply (hR : 0 < R) (hbuf : buf.length = R) (off rmn : Nat)
    (hdev : off + rmn ≤ m.world.secondary.length) :
    ∃ buf', buf'.length = R ∧ hashReadBlocks R hR buf off rmn input m =
      (.ok (some (buf', off + (rmn - rmn % R), rmn % R,
        input ++ readAt m.world.secondary off (rmn - rmn % R))),
        { m with log := m.log ++ blockReads m.world R off (rmn / R) }) := by
  induction rmn using Nat.strong_induction_on generalizing off buf input m with
  | _ rmn ih =>
  by_cases hlt : rmn < R
  · refine ⟨buf, hbuf, ?_⟩
    rw [hashReadBlocks, Nat.mod_eq_of_lt hlt, Nat.sub_self, Nat.div_eq_of_lt hlt]
    split <;> simp [Nat.min_eq_left (Nat.le_of_lt hlt), hlt, readAt, blockReads]
  have hmod : rmn % R = (rmn - R) % R := Nat.mod_eq_sub_mod (by omega)
  have hq := Nat.mod_le (rmn - R) R
  obtain ⟨buf', hbuf', hrun⟩ := @ih (rmn - R) (by omega)
    { m with log := m.log ++ [(.bdRead off R, m.world)] } (readAt m.world.secondary off R)
    (input ++ readAt m.world.secondary off R) (length_readAt_of_le (by omega)) (off + R)
    (by dsimp only; omega)
  refine ⟨buf', hbuf', ?_⟩
  rw [hashReadBlocks_step hR hbuf (by omega) (by omega), hrun, hmod,
    Nat.div_eq_sub_div hR (by omega : R ≤ rmn),
    show off + R + (rmn - R - (rmn - R) % R) = off + (rmn - (rmn - R) % R) by omega,
    show rmn - (rmn - R) % R = R + (rmn - R - (rmn - R) % R) by omega, readAt_add]
  simp [blockReads]

/-- The last stretch reads a whole block and inputs the bytes that remain of it. -/
theorem hashLastBlock_apply (hbuf : buf.length = R) {off rmn : Nat} (hrmn : rmn < R)
    (hdev : rmn ≠ 0 → off + R ≤ m.world.secondary.length) :
    hashLastBlock R buf off rmn input m =
      (.ok (some (input ++ readAt m.world.secondary off rmn)),
        { m with log := m.log ++ if rmn = 0 then [] else [(.bdRead off R, m.world)] }) := by
  by_cases h0 : rmn = 0
  · simp [hashLastBlock, h0, readAt]
  have hblock : (readAt m.world.secondary off R).length = R := length_readAt_of_le (hdev h0)
  simp [hashLastBlock, h0, hrmn, hdev h0, hblock, hbuf,
    writeAt_zero_of_length_eq (hblock.trans hbuf.symm), readAt_readAt (show 0 + rmn ≤ R by omega),
    Nat.le_of_lt hrmn]

/-- `N` rounded up to whole blocks of `R`: the whole blocks, and one more for a rest. -/
theorem ceil_div_eq (hR : 0 < R) (N : Nat) :
    (N + R - 1) / R = N / R + if N % R = 0 then 0 else 1 := by
  have hN := Nat.div_add_mod N R
  have hmod := Nat.mod_lt N hR
  have hsplit : N + R - 1 = (N % R + R - 1) + R * (N / R) := by omega
  rw [hsplit, Nat.add_mul_div_left _ _ hR, Nat.add_comm]
  split
  · exact congrArg _ (Nat.div_eq_of_lt (by omega))
  · exact congrArg _ (Nat.div_eq_of_lt_le (by omega) (by omega))

theorem sub_mod_eq_div_mul (N R : Nat) : N - N % R = N / R * R := by
  have := Nat.mod_add_div N R
  rw [Nat.mul_comm]; omega

/-- The blocks the two loops read: the whole blocks, then the block that holds the rest. -/
theorem blockReads_ceil (w : World) (hR : 0 < R) (N : Nat) :
    blockReads w R 0 (N / R) ++ (if N % R = 0 then [] else [(.bdRead (N - N % R) R, w)]) =
      blockReads w R 0 ((N + R - 1) / R) := by
  rw [ceil_div_eq hR, sub_mod_eq_div_mul]
  split
  · exact List.append_nil _
  · rw [blockReads_succ, Nat.zero_add]

/-- The last block holding one of `N` bytes ends at `N` rounded up to the block size. -/
theorem blockReads_ceil_bound (hR : 0 < R) {N i : Nat} (hi : i < (N + R - 1) / R) :
    i * R < N ∧ i * R + R ≤ alignUp N R := by
  have h1 : (i + 1) * R ≤ N + R - 1 := (Nat.le_div_iff_mul_le hR).mp hi
  have h2 : (i + 1) * R ≤ alignUp N R := Nat.mul_le_mul_right R hi
  rw [Nat.succ_mul] at h1 h2
  omega

end Digest

/-- What `VerifySignature` accepts, every call succeeding, for a staged image `data`: no hash
listed, or the first hash's type is supported and the Base64 text of the digest of `data` is
its value. -/
def digestMatches (hl : HashLib) : List AducHash → List UInt8 → Bool
  | [], _ => true
  | h :: _, data =>
    match hl.shaVersionForTypeString h.type with
    | none => false
    | some shaVersion => h.value == hl.base64EncodeBytes (hl.usha shaVersion data)

/-- `VerifySignature` of a file whose first hash has a supported type: the two loops read the
device's first `N` bytes back, one whole read block at a time from offset 0, and their
digest's Base64 text is compared with the hash's value, unless one of the two allocations
that follow fails. -/
theorem verifySignature_apply (hl : HashLib) (N : Nat) (h : AducHash) (hs : List AducHash)
    {v : Nat} (hv : hl.shaVersionForTypeString h.type = some v) {m : Machine} {ctx : OtaContext}
    {R : Nat} (hR : 0 < R) (hctx : m.ctx = some ctx) (hbd : ctx.secondaryBd = true)
    (hinit : ctx.secondaryBdInited = true) (hsize : ctx.secondaryBdReadblockSize = R)
    (hrb : ∃ rb, ctx.secondaryBdReadblock = some rb ∧ rb.length = R)
    (hdev : alignUp N R ≤ m.world.secondary.length) :
    ∃ n, verifySignature hl ⟨N, h :: hs⟩ m =
      (.ok (m.oracle .malloc m.clock && m.oracle .malloc (m.clock + 1) &&
          h.value == hl.base64EncodeBytes (hl.usha v (m.world.secondary.take N))),
        { m with clock := n, log := m.log ++ blockReads m.world R 0 ((N + R - 1) / R) }) := by
  obtain ⟨rb, hrb, hrbl⟩ := hrb
  have hN : N ≤ m.world.secondary.length := Nat.le_trans (le_alignUp hR) hdev
  obtain ⟨buf', hbuf', hloop⟩ := @hashReadBlocks_apply _ m _ [] hR hrbl 0 N (by omega)
  have hlast : N % R ≠ 0 → 0 + (N - N % R) + R ≤ m.world.secondary.length := fun h0 => by
    rw [alignUp, ceil_div_eq hR, if_neg h0, Nat.succ_mul] at hdev
    rw [sub_mod_eq_div_mul]; omega
  have hinput : readAt m.world.secondary 0 (N - N % R) ++
      readAt m.world.secondary (N - N % R) (N % R) = m.world.secondary.take N := by
    have hsplit := readAt_add m.world.secondary 0 (N - N % R) (N % R)
    rw [Nat.zero_add, Nat.sub_add_cancel (Nat.mod_le N R)] at hsplit
    rw [← hsplit]
    simp [readAt]
  have hlastRun := @hashLastBlock_apply _ { m with log := m.log ++ blockReads m.world R 0 (N / R) } _
    (readAt m.world.secondary 0 (N - N % R)) hbuf' _ _ (Nat.mod_lt N hR) hlast
  simp only [Nat.zero_add] at hlastRun hloop
  rw [hinput] at hlastRun
  subst hsize
  refine ⟨if m.oracle .malloc m.clock then m.clock + 2 else m.clock + 1, ?_⟩
  cases h1 : m.oracle .malloc m.clock
  · simp only [verifySignature, List.length_cons, Nat.add_one_ne_zero, ↓reduceIte, getHashType,
      Nat.zero_lt_succ, List.getElem?_eq_getElem, List.getElem_cons_zero, Option.map_some', hv, malloc,
      Option.isNone_iff_eq_none, Bool.not_eq_eq_eq_not, Bool.not_true, getHashValue, OtaM.bind_apply,
      requireCtx_of hctx, hrb, mbedAssert_apply, hbd, hinit, Option.isSome_some, mbedAssertThen, hR,
      ↓reduceDIte, deref_some, hloop, List.nil_append, hlastRun, List.append_assoc,
      blockReads_ceil _ hR N, callOk_apply, OtaM.pure_apply, h1, Bool.false_eq_true, Bool.false_and]
  · cases h2 : m.oracle .malloc (m.clock + 1) <;>
      simp only [verifySignature, List.length_cons, Nat.add_one_ne_zero, ↓reduceIte, getHashType,
      Nat.zero_lt_succ, List.getElem?_eq_getElem, List.getElem_cons_zero, Option.map_some', hv, malloc,
      Option.isNone_iff_eq_none, Bool.not_eq_eq_eq_not, Bool.not_true, getHashValue, OtaM.bind_apply,
      requireCtx_of hctx, hrb, mbedAssert_apply, hbd, hinit, Option.isSome_some, mbedAssertThen, hR,
      ↓reduceDIte, deref_some, hloop, List.nil_append, hlastRun, List.append_assoc,
      blockReads_ceil _ hR N, callOk_apply, OtaM.pure_apply, h1, h2, reduceCtorEq,
        Bool.true_eq_false, Bool.and_false, Bool.false_and, Bool.and_self, Bool.true_and]

/-- Every read of the two loops is of a whole block at a block boundary below `N`, and none
reaches past `N` rounded up to whole blocks. -/
theorem blockReads_ceil_aligned {w : World} {R N : Nat} (hR : 0 < R) {e : Call × World}
    (he : e ∈ blockReads w R 0 ((N + R - 1) / R)) :
    ∃ a, e = (.bdRead a R, w) ∧ R ∣ a ∧ a < N ∧ a + R ≤ alignUp N R := by
  obtain ⟨i, hi, rfl⟩ := mem_blockReads he
  obtain ⟨h1, h2⟩ := blockReads_ceil_bound hR hi
  exact ⟨i * R, by rw [Nat.zero_add], Nat.dvd_mul_left R i, h1, h2⟩

/-- The digest loop of `VerifySignature` hashes exactly the staged prefix: for every image size
`N`, read-block size `R ≥ 1` and device on which the reads succeed, with a first hash of a
supported type, the loops return, the bytes they input to the digest are the device's first
`N` bytes in order, and every read is of `R` bytes at a multiple of `R` below `N`, none past
`N` rounded up to `R`. -/
theorem verifySignature_hashes_staged_prefix (hl : HashLib) (N : Nat) (h : AducHash)
    (hs : List AducHash) {v : Nat} (hv : hl.shaVersionForTypeString h.type = some v)
    {m : Machine} {ctx : OtaContext} {R : Nat} (hR : 0 < R) (hctx : m.ctx = some ctx)
    (hbd : ctx.secondaryBd = true) (hinit : ctx.secondaryBdInited = true)
    (hsize : ctx.secondaryBdReadblockSize = R)
    (hrb : ∃ rb, ctx.secondaryBdReadblock = some rb ∧ rb.length = R)
    (hdev : alignUp N R ≤ m.world.secondary.length) :
    (∃ n, verifySignature hl ⟨N, h :: hs⟩ m =
      (.ok (m.oracle .malloc m.clock && m.oracle .malloc (m.clock + 1) &&
          h.value == hl.base64EncodeBytes (hl.usha v (m.world.secondary.take N))),
        { m with clock := n, log := m.log ++ blockReads m.world R 0 ((N + R - 1) / R) })) ∧
      ∀ e ∈ blockReads m.world R 0 ((N + R - 1) / R),
        ∃ a, e = (.bdRead a R, m.world) ∧ R ∣ a ∧ a < N ∧ a + R ≤ alignUp N R :=
  ⟨verifySignature_apply hl N h hs hv hR hctx hbd hinit hsize hrb hdev,
    fun _ he => blockReads_ceil_aligned hR he⟩

/-- Five bytes read back through blocks of two: three reads, at 0, 2 and 4. -/
theorem verifySignature_hashes_staged_prefix_five :
    (∃ n, verifySignature ⟨fun _ => some 0, fun _ => 0, fun _ l => l, fun _ => ""⟩
        ⟨5, [⟨"sha256", ""⟩]⟩ (readyMachine 2 2 [1, 2, 3, 4, 5, 6]) =
      (.ok (true && true && "" == ""),
        { readyMachine 2 2 [1, 2, 3, 4, 5, 6] with
          clock := n, log := [] ++ blockReads (readyMachine 2 2 [1, 2, 3, 4, 5, 6]).world 2 0 3 })) ∧
      ∀ e ∈ blockReads (readyMachine 2 2 [1, 2, 3, 4, 5, 6]).world 2 0 ((5 + 2 - 1) / 2),
        ∃ a, e = (.bdRead a 2, (readyMachine 2 2 [1, 2, 3, 4, 5, 6]).world) ∧ 2 ∣ a ∧ a < 5 ∧
          a + 2 ≤ alignUp 5 2 :=
  verifySignature_hashes_staged_prefix _ 5 _ [] rfl (by decide) rfl rfl rfl rfl ⟨_, rfl, rfl⟩
    (by decide)

/-- With every call succeeding, `VerifySignature` digests exactly the first `SizeInBytes`
bytes of the device, reading whole blocks of a device whose size is a multiple of the read
block. -/
theorem verifySignature_reliable (hl : HashLib) (fe : FileEntity) {m : Machine} {ctx : OtaContext}
    {P R : Nat} (hR : 0 < R) (hctx : m.ctx = some ctx) (hready : CtxReady P R ctx)
    (ho : m.oracle = .reliable) (hRd : R ∣ m.world.secondary.length)
    (hN : fe.sizeInBytes ≤ m.world.secondary.length) :
    ∃ m', verifySignature hl fe m =
      (.ok (digestMatches hl fe.hash (m.world.secondary.take fe.sizeInBytes)), m') := by
  obtain ⟨N, _ | ⟨h, t⟩⟩ := fe
  · exact ⟨m, by simp [verifySignature, requireCtx_of hctx, digestMatches]⟩
  rcases hv : hl.shaVersionForTypeString h.type with _ | v
  · exact ⟨m, by simp [verifySignature, requireCtx_of hctx, digestMatches, getHashType, hv]⟩
  obtain ⟨n, hrun⟩ := verifySignature_apply hl N h t hv hR hctx hready.bd hready.inited
    hready.readblockSize hready.readblock (alignUp_le_of_dvd hR hRd hN)
  have hres : (m.oracle .malloc m.clock && m.oracle .malloc (m.clock + 1) &&
      h.value == hl.base64EncodeBytes (hl.usha v (m.world.secondary.take N))) =
      digestMatches hl (h :: t) (m.world.secondary.take N) := by
    simp [ho, Oracle.reliable, digestMatches, hv]
  exact ⟨_, hrun.trans (by rw [hres])⟩

/-! ## The header gate -/

/-- The chunk that completes a header without the magic makes the header section fail, with
the header copied into the buffer and nothing else changed. -/
theorem catchImageHeader_bad {m : Machine} {ctx : OtaContext} (hctx : m.ctx = some ctx)
    {t c : List UInt8} (hoff : ctx.dlProgOffset = t.length) (hh : HeaderHolds t ctx.fwuStageHeader)
    (ht : t.length < imageHeaderSize) (hlen : imageHeaderSize ≤ (t ++ c).length)
    (hmagic : ihMagicBytes (t ++ c) ≠ imageMagic) :
    ∃ h', catchImageHeader c m = (.ok false, { m with ctx := some { ctx with fwuStageHeader := h' } }) ∧
      HeaderHolds (t ++ c) h' := by
  have hfit : t.length + (c.take (min (imageHeaderSize - t.length) c.length)).length ≤
      imageHeaderSize := by simp; omega
  have hh' := headerHolds_write (c := c) ht hh
  have hc : t.length + min (imageHeaderSize - t.length) c.length = imageHeaderSize := by
    simp at hlen; omega
  have hmag : (ctx.fwuStageHeader.write t.length
      (c.take (min (imageHeaderSize - t.length) c.length))).ihMagic ≠ imageMagic := by
    rw [ImageHeader.ihMagic, hh'.bytes_eq hlen, ihMagicBytes_take (by decide)]
    exact hmagic
  exact ⟨_, by simp [catchImageHeader, requireCtx_of hctx, hoff, ht, hfit, hc, hmag], hh'⟩

/-- The call that completes a header without the magic returns a failure, having copied the
header and nothing else: no byte of its chunk is programmed and nothing is logged. -/
theorem combinedDownloadInstall_bad_header {m : Machine} {ctx : OtaContext} (hctx : m.ctx = some ctx)
    {t c : List UInt8} (hoff : ctx.dlProgOffset = t.length) (hh : HeaderHolds t ctx.fwuStageHeader)
    (ht : t.length < imageHeaderSize) (hlen : imageHeaderSize ≤ (t ++ c).length)
    (hmagic : ihMagicBytes (t ++ c) ≠ imageMagic) :
    ∃ h', combinedDownloadInstall c m =
        (.ok .failure, { m with ctx := some { ctx with fwuStageHeader := h' } }) ∧
      HeaderHolds (t ++ c) h' := by
  obtain ⟨h', h, hh'⟩ := catchImageHeader_bad hctx hoff hh ht hlen hmagic
  exact ⟨h', by simp [combinedDownloadInstall, requireCtx_of hctx, h], hh'⟩

/-- After a failure every later chunk only cancels the transfer. -/
theorem deliverChunks_failure (cancelRequested : Bool) (chunks : List (List UInt8)) (m : Machine) :
    deliverChunks cancelRequested .failure chunks m = (.ok .failure, m) := by
  induction chunks with
  | nil => rfl
  | cons c rest ih =>
    simp [deliverChunks, combinedDownloadInstallTask, isAducResultCodeFailure, ih]

section Gate

variable {P R E : Nat} (hP : 0 < P) (hR : 0 < R) (hPR : P ∣ R)
include hP hR hPR

/-- A stream long enough to hold a header but without the magic fails at the chunk that
completes the header, whatever the chunking. -/
theorem deliverChunks_bad_header {D t : List UInt8} (chunks : List (List UInt8)) {m : Machine}
    (hw : Writing P R E D t m) (hRd : R ∣ D.length)
    (hdev : alignUp (t ++ chunks.flatten).length P ≤ D.length) (ht : t.length < imageHeaderSize)
    (hlen : imageHeaderSize ≤ (t ++ chunks.flatten).length)
    (hmagic : ihMagicBytes (t ++ chunks.flatten) ≠ imageMagic) :
    ∃ m', deliverChunks false .downloadSuccess chunks m = (.ok .failure, m') := by
  induction chunks generalizing t m with
  | nil => simp at hlen; omega
  | cons c rest ih =>
    rw [List.flatten_cons, ← List.append_assoc] at hdev hlen hmagic
    by_cases htc : (t ++ c).length < imageHeaderSize
    · -- the header is not complete yet: the chunk is programmed
      obtain ⟨m1, h1, -, hw1, -⟩ := combinedDownloadInstall_step (c := c) hP hR hPR hw hRd
        (Nat.le_trans (alignUp_mono (by simp) P) hdev) (fun h => absurd h (by omega))
      obtain ⟨m2, h2⟩ := ih hw1 hdev htc hlen hmagic
      exact ⟨m2, by simp [deliverChunks, combinedDownloadInstallTask, isAducResultCodeFailure, h1, h2]⟩
    · -- this chunk completes the header, without the magic
      obtain ⟨ctx, hctx, -, hoff, hh, -⟩ := hw.ctx
      obtain ⟨h', h1, -⟩ := combinedDownloadInstall_bad_header (c := c) hctx hoff hh ht (by omega) (by
        rwa [← ihMagicBytes_append (by unfold imageHeaderSize at htc; omega) rest.flatten])
      exact ⟨{ m with ctx := some { ctx with fwuStageHeader := h' } }, by
        simp [deliverChunks, combinedDownloadInstallTask, isAducResultCodeFailure, h1,
          deliverChunks_failure]⟩

end Gate

/-! ## The result of a Download -/

/-- When a Download with every call succeeding returns success, for a body `s`: the body
has the announced size, carries the magic when it can hold a header, and has the digest
the manifest lists, if it lists one. -/
def DownloadAccepted (hl : HashLib) (fe : FileEntity) (s : List UInt8) : Prop :=
  s.length = fe.sizeInBytes ∧ (imageHeaderSize ≤ s.length → ihMagicBytes s = imageMagic) ∧
    digestMatches hl fe.hash s = true

instance (hl : HashLib) (fe : FileEntity) (s : List UInt8) :
    Decidable (DownloadAccepted hl fe s) :=
  inferInstanceAs (Decidable (_ ∧ _ ∧ _))

/-- A Download with every call succeeding, on a device whose program size divides the read
block and whose size is a multiple of the read block that holds the body, returns success
exactly when the body is accepted, and a failure otherwise. -/
theorem download_reliable (hl : HashLib) (wf : Workflow) (fe : FileEntity)
    (chunks : List (List UInt8)) {m : Machine} (ho : m.oracle = .reliable)
    (hcancel : wf.cancelRequested = false) (hP : 0 < m.world.programSize)
    (hPR : m.world.programSize ∣ readblockSizeFor m.world.readSize)
    (hRd : readblockSizeFor m.world.readSize ∣ m.world.secondary.length)
    (hdev : alignUp chunks.flatten.length m.world.programSize ≤ m.world.secondary.length)
    (hactive : m.world.primaryHeader.ihMagic = imageMagic) :
    (download hl wf [fe] ⟨chunks, true⟩ m).1 =
      .ok (if DownloadAccepted hl fe chunks.flatten then .downloadSuccess else .failure) := by
  have hR := readblockSizeFor_pos m.world.readSize
  obtain ⟨r, n, es, hreinit⟩ := otaCtxReinit_reliable ho
  let ctx2 : OtaContext := { reinitCtx m.world with
    fwuActiveHeader := m.world.primaryHeader, dlProgOffset := 0,
    dlProgTotalExp := fe.sizeInBytes, dlProgTotalAct := 0 }
  set m2 : Machine := { m with
    world := { m.world with kv := some r.bytes }, ctx := some ctx2, clock := n, log := m.log ++ es }
    with hm2
  have hready : CtxReady m.world.programSize (readblockSizeFor m.world.readSize) ctx2 :=
    ⟨rfl, rfl, rfl, rfl, ⟨_, rfl, length_zeros _⟩, ⟨_, rfl, length_zeros _⟩⟩
  have hw : Writing m.world.programSize (readblockSizeFor m.world.readSize) fe.sizeInBytes
      m.world.secondary [] m2 :=
    ⟨⟨ctx2, rfl, hready, rfl, headerHolds_nil _, rfl⟩, by simp [m2],
      by simp [m2, World.record_setKv], fun _ => by simp [m2, ho, Oracle.reliable]⟩
  by_cases hbad : imageHeaderSize ≤ chunks.flatten.length ∧ ihMagicBytes chunks.flatten ≠ imageMagic
  · -- the header gate fails
    obtain ⟨m3, h3⟩ := deliverChunks_bad_header hP hR hPR chunks hw hRd (by simpa using hdev)
      (by decide) (by simpa using hbad.1) (by simpa using hbad.2)
    simp only [hm2, ctx2] at h3
    have hna : ¬DownloadAccepted hl fe chunks.flatten := fun h => hbad.2 (h.2.1 hbad.1)
    simp only [download, hcancel, Bool.false_eq_true, ↓reduceIte, Bool.not_eq_eq_eq_not, Bool.not_true,
      bne_iff_ne, ne_eq, Bool.not_false, Bool.and_true, isAducResultCodeFailure, beq_iff_eq, ite_not,
      OtaM.bind_apply, hreinit, Bool.true_eq_false, requireCtx, getWorld_apply, hactive, setCtx_apply, h3,
      OtaM.pure_apply, hna]
  obtain ⟨m3, h3, ho3, ⟨⟨ctx3, hctx3, hready3, hoff3, -, hE3⟩, hsec3, -, -⟩, -⟩ :=
    deliverChunks_writing hP hR hPR chunks hw hRd (by simpa using hdev)
      (fun h => by simpa using not_and.mp hbad (by simpa using h))
  simp only [hm2, ctx2] at h3
  have hlen : chunks.flatten.length ≤ m.world.secondary.length := le_trans (le_alignUp hP) hdev
  have hsec3' : m3.world.secondary.length = m.world.secondary.length := by
    rw [hsec3, List.nil_append, List.length_append, List.length_drop]; omega
  by_cases hN : chunks.flatten.length = fe.sizeInBytes
  · obtain ⟨m5, h5⟩ := verifySignature_reliable hl fe
      (m := { m3 with ctx := some { ctx3 with dlProgTotalAct := ctx3.dlProgOffset } }) hR rfl
      ⟨hready3.bd, hready3.inited, hready3.progunitSize, hready3.readblockSize, hready3.progunit,
        hready3.readblock⟩ (by simp [ho3, ho]) (by simpa [hsec3'] using hRd) (by simp [hsec3']; omega)
    have hdata : m3.world.secondary.take fe.sizeInBytes = chunks.flatten := by
      rw [hsec3, ← hN]; simp
    have hcmp : ctx3.dlProgOffset = ctx3.dlProgTotalExp := by rw [hoff3, hE3, ← hN]; simp
    simp only [download, hcancel, Bool.false_eq_true, ↓reduceIte, Bool.not_eq_eq_eq_not, Bool.not_true,
      bne_iff_ne, ne_eq, Bool.not_false, Bool.and_true, isAducResultCodeFailure, beq_iff_eq, ite_not,
      OtaM.bind_apply, hreinit, Bool.true_eq_false, requireCtx, getWorld_apply, hactive, setCtx_apply, h3,
      reduceCtorEq, hctx3]
    rw [if_pos hcmp]
    have hacc : DownloadAccepted hl fe chunks.flatten ↔
        digestMatches hl fe.hash chunks.flatten = true :=
      ⟨fun h => h.2.2, fun h => ⟨hN, fun h32 => not_not.mp fun hne => hbad ⟨h32, hne⟩, h⟩⟩
    cases hd : digestMatches hl fe.hash chunks.flatten <;> simp [h5, hdata, hacc, hd]
  · have hcmp : ctx3.dlProgOffset ≠ ctx3.dlProgTotalExp := by rw [hoff3, hE3]; simpa using hN
    simp only [download, hcancel, Bool.false_eq_true, ↓reduceIte, Bool.not_eq_eq_eq_not, Bool.not_true,
      bne_iff_ne, ne_eq, Bool.not_false, Bool.and_true, isAducResultCodeFailure, beq_iff_eq, ite_not,
      OtaM.bind_apply, hreinit, Bool.true_eq_false, requireCtx, getWorld_apply, hactive, setCtx_apply, h3,
      reduceCtorEq, hctx3]
    rw [if_neg hcmp, if_neg fun h : DownloadAccepted hl fe chunks.flatten => hN h.1]
    rfl

/-- Download accepts exactly the bodies `DownloadAccepted` describes: with every call
succeeding, no cancel, a running image whose header carries the magic and a geometry the
writer handles, it returns a success code iff the body has the announced size, carries the
magic when it can hold a header, and has the digest of the first listed hash, if any. -/
theorem download_success_iff (hl : HashLib) (wf : Workflow) (fe : FileEntity)
    (chunks : List (List UInt8)) (m : Machine) (ho : m.oracle = .reliable)
    (hcancel : wf.cancelRequested = false) (hP : 0 < m.world.programSize)
    (hPR : m.world.programSize ∣ readblockSizeFor m.world.readSize)
    (hRd : readblockSizeFor m.world.readSize ∣ m.world.secondary.length)
    (hdev : alignUp chunks.flatten.length m.world.programSize ≤ m.world.secondary.length)
    (hactive : m.world.primaryHeader.ihMagic = imageMagic) :
    (∃ r, (download hl wf [fe] ⟨chunks, true⟩ m).1 = .ok r ∧ isAducResultCodeSuccess r = true) ↔
      DownloadAccepted hl fe chunks.flatten := by
  rw [download_reliable hl wf fe chunks ho hcancel hP hPR hRd hdev hactive]
  by_cases h : DownloadAccepted hl fe chunks.flatten <;> simp [h, isAducResultCodeSuccess]

/-- A header that carries the magic and nothing else. -/
def ImageHeader.magicOnly : ImageHeader :=
  ⟨[0x3d, 0xb8, 0xf3, 0x96] ++ zeros 28, by simp [imageHeaderSize]⟩

/-- A device running an image with the magic, with no record stored and a secondary device
of one read block programmed byte by byte. -/
def magicDevice : Machine :=
  ⟨⟨none, zeros 1024, 1, 1, .magicOnly, false, false⟩, none, .reliable, 0, []⟩

/-- A hash library that supports no hash type. -/
def HashLib.unsupported : HashLib := ⟨fun _ => Option.none, fun _ => 0, fun _ _ => [], fun _ => ""⟩

theorem magicDevice_fits :
    readblockSizeFor magicDevice.world.readSize ∣ magicDevice.world.secondary.length ∧
      alignUp [ImageHeader.magicOnly.bytes].flatten.length magicDevice.world.programSize ≤
        magicDevice.world.secondary.length := by
  simp only [magicDevice, length_zeros, List.flatten, ImageHeader.magicOnly, List.length_append,
    List.length_cons, List.length_nil]
  decide

theorem download_success_iff_magicHeader :
    (∃ r, (download .unsupported ⟨none, false, false⟩ [⟨32, []⟩] ⟨[ImageHeader.magicOnly.bytes], true⟩
        magicDevice).1 = .ok r ∧ isAducResultCodeSuccess r = true) ↔
      DownloadAccepted .unsupported ⟨32, []⟩ [ImageHeader.magicOnly.bytes].flatten :=
  download_success_iff _ _ _ _ magicDevice rfl rfl (by decide) (by decide) magicDevice_fits.1
    magicDevice_fits.2 (by decide)

/-- A manifest that lists no hash skips the digest check: the body of a bare header with
the magic, of the announced size, is accepted. -/
theorem download_accepts_without_hash :
    (download .unsupported ⟨none, false, false⟩ [⟨32, []⟩] ⟨[ImageHeader.magicOnly.bytes], true⟩
      magicDevice).1 = .ok .downloadSuccess := by
  rw [download_reliable _ _ _ _ rfl rfl (by decide) (by decide) magicDevice_fits.1
    magicDevice_fits.2 (by decide),
    if_pos ⟨rfl, fun _ => by decide, rfl⟩]

end AziotOta
