import AziotOta.Writer

/-!
# The writer commits exactly the stream

For a program unit `P`, a read block `R` that is a multiple of `P` and a device whose size
is a multiple of `R`, every call of `CombinedDownloadInstall` at offset `o` with a chunk `c`
leaves the device as `writeAt d o c` and advances the offset by `c.length`, making only
aligned device calls. Chaining the calls, any partition of a stream `s` leaves the device
as `s ++ D.drop s.length`.
-/

namespace AziotOta

/-- The device calls among `entries` respect the geometry: whole program units programmed
at program-unit boundaries, one read block read at a read-block boundary. -/
def AlignedCalls (P R : Nat) (entries : List (Call × World)) : Prop :=
  ∀ e ∈ entries, match e.1 with
    | .bdProgram addr len => P ∣ addr ∧ P ∣ len ∧ 0 < len
    | .bdRead addr len => R ∣ addr ∧ len = R
    | _ => True

theorem alignedCalls_nil (P R : Nat) : AlignedCalls P R [] := fun _ h => absurd h (by simp)

theorem AlignedCalls.append {P R : Nat} {xs ys : List (Call × World)} (hx : AlignedCalls P R xs)
    (hy : AlignedCalls P R ys) : AlignedCalls P R (xs ++ ys) := by
  intro e he
  rcases List.mem_append.mp he with h | h
  · exact hx e h
  · exact hy e h

theorem alignedCalls_kvSet (P R : Nat) (site : Site) (ok : Bool) (w : World) :
    AlignedCalls P R [(.kvSet site ok, w)] := by
  intro e he; simp only [List.mem_singleton] at he; subst he; trivial

/-! ## What a piece of the code logs -/

/-- The calls to the key-value store. -/
def Call.isKvSet : Call → Bool
  | .kvSet .. => true
  | _ => false

/-- `x` logs only calls that satisfy `p`: from any machine, the log it leaves is the log it
found followed by such calls. -/
def LogsOnly {α : Type} (p : Call → Prop) (x : OtaM α) : Prop :=
  ∀ m, ∃ es, (x m).2.log = m.log ++ es ∧ ∀ e ∈ es, p e.1

namespace LogsOnly

variable {α β : Type} {p : Call → Prop}

theorem of_log {x : OtaM α} (h : ∀ m, (x m).2.log = m.log) : LogsOnly p x :=
  fun m => ⟨[], by rw [h, List.append_nil], by simp⟩

theorem run {x : OtaM α} (h : LogsOnly p x) {m m' : Machine} {r : Except Fault α}
    (hx : x m = (r, m')) : ∃ es, m'.log = m.log ++ es ∧ ∀ e ∈ es, p e.1 := by
  simpa [hx] using h m

theorem bind {x : OtaM α} {f : α → OtaM β} (hx : LogsOnly p x) (hf : ∀ a, LogsOnly p (f a)) :
    LogsOnly p (x >>= f) := by
  intro m
  obtain ⟨es, hl, hes⟩ := hx m
  rw [OtaM.bind_apply]
  rcases hxm : x m with ⟨_ | a, m'⟩
  · rw [hxm] at hl; exact ⟨es, hl, hes⟩
  · rw [hxm] at hl
    obtain ⟨es', hl', hes'⟩ := hf a m'
    refine ⟨es ++ es', by rw [hl', hl, List.append_assoc], fun e he => ?_⟩
    rcases List.mem_append.mp he with h | h
    · exact hes e h
    · exact hes' e h

theorem pure (a : α) : LogsOnly p (Pure.pure a : OtaM α) := of_log fun _ => rfl

theorem requireCtx : LogsOnly p requireCtx :=
  of_log fun m => by unfold AziotOta.requireCtx; split <;> rfl

theorem setCtx (c : OtaContext) : LogsOnly p (setCtx c) := of_log fun _ => rfl

theorem mbedAssert (c : Prop) [Decidable c] : LogsOnly p (mbedAssert c) :=
  of_log fun m => by rw [mbedAssert_apply]; split <;> rfl

theorem deref (o : Option α) : LogsOnly p (deref o) :=
  of_log fun m => by cases o <;> rfl

theorem memcpyInto (dst : List UInt8) (pos : Nat) (src : List UInt8) :
    LogsOnly p (memcpyInto dst pos src) :=
  of_log fun m => by rw [memcpyInto_apply]; split <;> rfl

theorem memcpyFrom (src : List UInt8) (pos n : Nat) : LogsOnly p (memcpyFrom src pos n) :=
  of_log fun m => by rw [memcpyFrom_apply]; split <;> rfl

theorem bdRead (addr len : Nat) (h : p (.bdRead addr len)) : LogsOnly p (bdRead addr len) :=
  fun m => ⟨[(.bdRead addr len, m.world)], rfl, by simpa using h⟩

theorem bdProgram (buf : List UInt8) (addr len : Nat) (h : p (.bdProgram addr len)) :
    LogsOnly p (bdProgram buf addr len) := by
  intro m
  rw [bdProgram_apply]
  split
  · split
    · exact ⟨_, rfl, by simpa using h⟩
    · exact ⟨_, rfl, by simpa using h⟩
  · exact ⟨[], by simp, by simp⟩

end LogsOnly

/-- A context whose secondary device is ready for the write, with scratch buffers of the
program-unit and read-block sizes. -/
structure CtxReady (P R : Nat) (ctx : OtaContext) : Prop where
  bd : ctx.secondaryBd = true
  inited : ctx.secondaryBdInited = true
  progunitSize : ctx.secondaryBdProgunitSize = P
  readblockSize : ctx.secondaryBdReadblockSize = R
  progunit : ∃ pu, ctx.secondaryBdProgunit = some pu ∧ pu.length = P
  readblock : ∃ rb, ctx.secondaryBdReadblock = some rb ∧ rb.length = R

namespace CtxReady

variable {P R : Nat} {ctx : OtaContext} (h : CtxReady P R ctx)
include h

theorem withHeader (hd : ImageHeader) : CtxReady P R { ctx with fwuStageHeader := hd } :=
  ⟨h.bd, h.inited, h.progunitSize, h.readblockSize, h.progunit, h.readblock⟩

theorem withOffset (off : Nat) : CtxReady P R { ctx with dlProgOffset := off } :=
  ⟨h.bd, h.inited, h.progunitSize, h.readblockSize, h.progunit, h.readblock⟩

theorem withBuffers {pu rb : List UInt8} (hpu : pu.length = P) (hrb : rb.length = R) :
    CtxReady P R { ctx with secondaryBdProgunit := some pu, secondaryBdReadblock := some rb } :=
  ⟨h.bd, h.inited, h.progunitSize, h.readblockSize, ⟨pu, rfl, hpu⟩, ⟨rb, rfl, hrb⟩⟩

end CtxReady

/-- `m'` is `m` after a stretch of the write that programmed `bytes` at `addr`, refilled
the two scratch buffers of `ctx` and made only aligned device calls. -/
def Programmed (P R : Nat) (m : Machine) (ctx : OtaContext) (addr : Nat) (bytes : List UInt8)
    (m' : Machine) : Prop :=
  ∃ pu rb entries, pu.length = P ∧ rb.length = R ∧ AlignedCalls P R entries ∧
    m' = { m with
      world := { m.world with secondary := writeAt m.world.secondary addr bytes },
      ctx := some { ctx with secondaryBdProgunit := some pu, secondaryBdReadblock := some rb },
      log := m.log ++ entries }

theorem ihMagicBytes_take {l : List UInt8} {n : Nat} (h : 4 ≤ n) :
    ihMagicBytes (l.take n) = ihMagicBytes l := by
  simp [ihMagicBytes, List.getD_eq_getElem?_getD, List.getElem?_take, show 0 < n by omega,
    show 1 < n by omega, show 2 < n by omega, show 3 < n by omega]

theorem ihMagicBytes_append {l : List UInt8} (h : 4 ≤ l.length) (l' : List UInt8) :
    ihMagicBytes (l ++ l') = ihMagicBytes l := by
  rw [← ihMagicBytes_take (l := l ++ l') h, List.take_left' rfl]

/-- The header buffer holds the first `sizeof(struct image_header)` bytes of the stream
prefix `t` delivered so far. -/
def HeaderHolds (t : List UInt8) (h : ImageHeader) : Prop :=
  h.bytes.take t.length = t.take imageHeaderSize

theorem headerHolds_nil (h : ImageHeader) : HeaderHolds [] h := by
  simp [HeaderHolds]

theorem headerHolds_append_of_le {t : List UInt8} {h : ImageHeader} (hh : HeaderHolds t h)
    (ht : imageHeaderSize ≤ t.length) (c : List UInt8) : HeaderHolds (t ++ c) h := by
  have hl := h.length_eq
  unfold HeaderHolds at hh ⊢
  rw [List.take_of_length_le (by simp; omega), List.take_append_of_le_length ht, ← hh,
    List.take_of_length_le (by omega)]

/-- Once the prefix reaches the header's size, the buffer is exactly its header. -/
theorem HeaderHolds.bytes_eq {t : List UInt8} {h : ImageHeader} (hh : HeaderHolds t h)
    (ht : imageHeaderSize ≤ t.length) : h.bytes = t.take imageHeaderSize := by
  have hl := h.length_eq
  rw [HeaderHolds, List.take_of_length_le (by omega)] at hh
  exact hh

theorem headerHolds_write {t c : List UInt8} {h : ImageHeader}
    (ht : t.length < imageHeaderSize) (hh : HeaderHolds t h) :
    HeaderHolds (t ++ c) (h.write t.length (c.take (min (imageHeaderSize - t.length) c.length))) := by
  have hl := h.length_eq
  have hfit : t.length + (c.take (min (imageHeaderSize - t.length) c.length)).length ≤
      imageHeaderSize := by simp; omega
  have hpre : ∀ i, i < t.length → h.bytes[i]? = t[i]? := by
    intro i hi
    have := congrArg (·[i]?) hh
    simp only [List.getElem?_take, if_pos hi, if_pos (show i < imageHeaderSize by omega)] at this
    exact this
  unfold HeaderHolds
  apply List.ext_getElem?
  intro i
  rw [ImageHeader.write_bytes hfit, List.getElem?_take, List.getElem?_take,
    getElem?_writeAt (hl ▸ hfit), List.length_append]
  simp only [List.length_take]
  by_cases h1 : i < t.length
  · rw [if_pos (by omega), if_neg (by omega), if_pos (by omega), hpre i h1,
      List.getElem?_append_left h1]
  · by_cases h2 : i < t.length + min (min (imageHeaderSize - t.length) c.length) c.length
    · rw [if_pos (by omega), if_pos (by omega), if_pos (by omega), List.getElem?_take,
        if_pos (by omega), List.getElem?_append_right (by omega)]
    · by_cases h3 : i < t.length + c.length
      · rw [if_pos h3, if_neg (by omega), if_neg (by omega), List.getElem?_eq_none (by omega)]
      · rw [if_neg h3]
        split_ifs
        · rw [List.getElem?_eq_none (by simp; omega)]
        · rfl

/-- The entries are calls to the key-value store only. -/
def KvCalls (entries : List (Call × World)) : Prop := ∀ e ∈ entries, ∃ site ok, e.1 = .kvSet site ok

theorem KvCalls.aligned {entries : List (Call × World)} (h : KvCalls entries) (P R : Nat) :
    AlignedCalls P R entries := by
  intro e he
  obtain ⟨site, ok, hs⟩ := h e he
  rw [hs]; trivial

/-- The store writes of the header section on the chunk `c` after the prefix `t`, from the
state `w`, which leave the blob `kv'`: on the call that completes the header, one write of
the stored record with the version the stream's header holds; on any other call, none. -/
def HeaderCalls (t c : List UInt8) (w : World) (kv' : Option (List UInt8))
    (entries : List (Call × World)) : Prop :=
  if t.length < imageHeaderSize ∧ imageHeaderSize ≤ (t ++ c).length then
    ∃ r v, w.record = some r ∧ v.bytes = readAt (t ++ c) imageHeaderVersionOffset 8 ∧
      kv' = some (NvRecord.setStageVersion r v).bytes ∧
      entries = [(.kvSet .setStageVersion true, { w with kv := kv' })]
  else kv' = w.kv ∧ entries = []

namespace HeaderCalls

variable {t c : List UInt8} {w : World} {kv' : Option (List UInt8)} {entries : List (Call × World)}

theorem kvCalls (h : HeaderCalls t c w kv' entries) : KvCalls entries := by
  unfold HeaderCalls at h
  split at h
  · obtain ⟨_, _, _, _, _, rfl⟩ := h
    intro e he; simp only [List.mem_singleton] at he; exact ⟨_, _, by rw [he]⟩
  · obtain ⟨_, rfl⟩ := h
    intro e he; cases he

theorem record_isSome (h : HeaderCalls t c w kv' entries) (hrec : w.record.isSome) :
    (kv'.bind NvRecord.ofBytes?).isSome := by
  unfold HeaderCalls at h
  split at h
  · obtain ⟨_, _, _, _, rfl, _⟩ := h
    simp [NvRecord.ofBytes?_bytes]
  · obtain ⟨rfl, _⟩ := h
    exact hrec

end HeaderCalls

/-- The header section of `CombinedDownloadInstall` succeeds on a stream that carries the
magic, leaves the prefix's header in the buffer, and writes the store only on the call that
completes the header (`HeaderCalls`). -/
theorem catchImageHeader_ok {m : Machine} {ctx : OtaContext} (hctx : m.ctx = some ctx)
    {t c : List UInt8} (hoff : ctx.dlProgOffset = t.length) (hh : HeaderHolds t ctx.fwuStageHeader)
    (hrec : m.world.record.isSome) (hkv : ∀ n, m.oracle .kvGet n = true ∧ m.oracle .kvSet n = true)
    (hmagic : imageHeaderSize ≤ (t ++ c).length → ihMagicBytes (t ++ c) = imageMagic) :
    ∃ h' kv' n entries, catchImageHeader c m =
        (.ok true, { m with
          world := { m.world with kv := kv' }, ctx := some { ctx with fwuStageHeader := h' },
          clock := n, log := m.log ++ entries }) ∧
      HeaderHolds (t ++ c) h' ∧ HeaderCalls t c m.world kv' entries := by
  by_cases ht : t.length < imageHeaderSize
  · have hfit : t.length + (c.take (min (imageHeaderSize - t.length) c.length)).length ≤
        imageHeaderSize := by simp; omega
    have hh' := headerHolds_write (c := c) ht hh
    set h' := ctx.fwuStageHeader.write t.length (c.take (min (imageHeaderSize - t.length) c.length))
    by_cases hc : t.length + min (imageHeaderSize - t.length) c.length = imageHeaderSize
    · have hlen : imageHeaderSize ≤ (t ++ c).length := by simp; omega
      have hmag : h'.ihMagic = imageMagic := by
        rw [ImageHeader.ihMagic, hh'.bytes_eq hlen, ihMagicBytes_take (by decide)]
        exact hmagic hlen
      obtain ⟨r, hr⟩ := Option.isSome_iff_exists.mp hrec
      refine ⟨h', some (r.setStageVersion h'.ihVer).bytes, m.clock + 1 + 1,
        [(.kvSet .setStageVersion true, { m.world with kv := some (r.setStageVersion h'.ihVer).bytes })],
        ?_, hh', ?_⟩
      · simp only [catchImageHeader, bne_iff_ne, ne_eq, nvImgUpgStSetStageVersion, ite_not,
          OtaM.bind_apply, requireCtx_of hctx, hoff, ht, ↓reduceIte, hc, memcpyIntoHeader_apply,
          List.length_take, Nat.min_assoc, min_self, le_refl, hmag, setCtx_apply, nvImgUpgStUpdate_apply,
          Machine.readRecord, hkv, hr, Option.some_bind, kvSet_apply]
      · rw [HeaderCalls, if_pos ⟨ht, hlen⟩]
        refine ⟨r, h'.ihVer, hr, ?_, rfl, rfl⟩
        rw [ImageHeader.ihVer_bytes, hh'.bytes_eq hlen, readAt_take (by decide)]
    · refine ⟨h', m.world.kv, m.clock, [], ?_, hh', ?_⟩
      · simp [catchImageHeader, requireCtx_of hctx, hoff, ht, hc,
          show t.length + min (imageHeaderSize - t.length) c.length ≤ imageHeaderSize by omega]
      · rw [HeaderCalls, if_neg fun hx => hc (by rw [List.length_append] at hx; omega)]
        exact ⟨rfl, rfl⟩
  · refine ⟨ctx.fwuStageHeader, m.world.kv, m.clock, [], ?_,
      headerHolds_append_of_le hh (by omega) c, by rw [HeaderCalls, if_neg fun hx => ht hx.1]; exact ⟨rfl, rfl⟩⟩
    obtain ⟨w, _, o, n, l⟩ := m
    cases hctx
    simp [catchImageHeader, requireCtx, show ¬ctx.dlProgOffset < imageHeaderSize by omega]

/-- Between two chunks of a download of a stream whose prefix `t` has been delivered to a
device that held `D`: the context is ready at offset `t.length` with the prefix's header in
its buffer, the device holds `t` over `D`, and the store holds a record it reads back. -/
structure Writing (P R E : Nat) (D t : List UInt8) (m : Machine) : Prop where
  ctx : ∃ ctx, m.ctx = some ctx ∧ CtxReady P R ctx ∧ ctx.dlProgOffset = t.length ∧
    HeaderHolds t ctx.fwuStageHeader ∧ ctx.dlProgTotalExp = E
  secondary : m.world.secondary = t ++ D.drop t.length
  record : m.world.record.isSome
  kv : ∀ n, m.oracle .kvGet n = true ∧ m.oracle .kvSet n = true

/-- The three program sections make device calls only. -/
theorem bdReadProgramUnit_logsOnly (pu : List UInt8) (P : Nat) (rb : List UInt8) (R off : Nat) :
    LogsOnly (fun c => c.isKvSet = false) (bdReadProgramUnit pu P rb R off) := by
  unfold bdReadProgramUnit
  refine .bind (.mbedAssert _) fun _ => .bind (.mbedAssert _) fun _ => .bind (.bdRead _ _ rfl) fun r => ?_
  rcases r with _ | block
  · exact .pure _
  · exact .bind (.memcpyInto _ _ _) fun _ => .bind (.memcpyFrom _ _ _) fun _ =>
      .bind (.memcpyInto _ _ _) fun _ => .pure _

theorem programFirst_logsOnly (cur : Cursor) : LogsOnly (fun c => c.isKvSet = false) (programFirst cur) := by
  unfold programFirst
  refine .bind .requireCtx fun ctx => .bind (.mbedAssert _) fun _ => ?_
  split
  · exact .pure _
  refine .bind (.deref _) fun _ => .bind (.deref _) fun _ =>
    .bind (bdReadProgramUnit_logsOnly _ _ _ _ _) fun r => ?_
  rcases r with _ | ⟨pu, rb⟩
  · exact .pure _
  · exact .bind (.memcpyInto _ _ _) fun _ => .bind (.setCtx _) fun _ =>
      .bind (.bdProgram _ _ _ rfl) fun _ => .pure _

theorem programAligned_logsOnly (cur : Cursor) : LogsOnly (fun c => c.isKvSet = false) (programAligned cur) := by
  unfold programAligned
  refine .bind .requireCtx fun ctx => ?_
  dsimp only
  split
  · exact .pure _
  · exact .bind (.bdProgram _ _ _ rfl) fun _ => .pure _

theorem programLast_logsOnly (cur : Cursor) : LogsOnly (fun c => c.isKvSet = false) (programLast cur) := by
  unfold programLast
  refine .bind .requireCtx fun ctx => ?_
  dsimp only
  split
  · exact .pure _
  refine .bind (.mbedAssert _) fun _ => .bind (.deref _) fun _ => .bind (.deref _) fun _ =>
    .bind (bdReadProgramUnit_logsOnly _ _ _ _ _) fun r => ?_
  rcases r with _ | ⟨pu, rb⟩
  · exact .pure _
  · exact .bind (.memcpyInto _ _ _) fun _ => .bind (.setCtx _) fun _ =>
      .bind (.bdProgram _ _ _ rfl) fun _ => .pure _

section Geometry

variable {P R E : Nat} (hP : 0 < P) (hR : 0 < R) (hPR : P ∣ R)
include hP hR hPR

omit hP in
theorem le_of_geometry : P ≤ R := Nat.le_of_dvd hR hPR

/-- The program unit that holds `off` lies inside the read block that holds it. -/
theorem programUnit_within_readBlock (off : Nat) :
    alignDown off R ≤ alignDown off P ∧ alignDown off P + P ≤ alignDown off R + R := by
  have hRP : P ∣ alignDown off R := Nat.dvd_trans hPR (dvd_alignDown off R)
  refine ⟨le_alignDown hP hRP (alignDown_le off R), ?_⟩
  have := lt_alignDown_add (x := off) hR
  have := alignDown_le off P
  exact add_le_of_dvd_of_lt (dvd_alignDown off P) (Nat.dvd_add hRP hPR) (by omega)

theorem bdReadProgramUnit_apply {pu rb : List UInt8} {off : Nat} (m : Machine)
    (hpu : pu.length = P) (hrb : rb.length = R)
    (hdev : alignDown off R + R ≤ m.world.secondary.length) :
    bdReadProgramUnit pu P rb R off m =
      (.ok (some (readAt m.world.secondary (alignDown off P) P,
        readAt m.world.secondary (alignDown off R) R)),
        { m with log := m.log ++ [(.bdRead (alignDown off R) R, m.world)] }) := by
  obtain ⟨h1, h2⟩ := programUnit_within_readBlock hP hR hPR off
  have hcut : alignDown off P - alignDown off R + P ≤ R := by omega
  have hunit := readAt_readAt (l := m.world.secondary) (p := alignDown off R) hcut
  rw [Nat.add_sub_cancel' h1] at hunit
  have hpa : alignDown off P + P ≤ m.world.secondary.length := by omega
  simp [bdReadProgramUnit, le_of_geometry hR hPR, h1, hdev, length_readAt_of_le hdev, hrb, hpu,
    hcut, hunit, length_readAt_of_le hpa, List.drop_eq_nil_of_le]

omit hR hPR in
/-- A unit holding an offset that is not aligned ends at the next boundary. -/
theorem alignUp_le_alignDown_add (off : Nat) : alignUp off P ≤ alignDown off P + P := by
  by_contra h
  have h1 := add_le_of_dvd_of_lt (Nat.dvd_add (dvd_alignDown off P) (Nat.dvd_refl P))
    (dvd_alignUp off P) (by omega)
  have h2 := alignUp_lt (x := off) hP
  have h3 := lt_alignDown_add (x := off) hP
  omega

theorem programFirst_programmed {m : Machine} {ctx : OtaContext} (hctx : m.ctx = some ctx)
    (hready : CtxReady P R ctx) (data : List UInt8) (off : Nat)
    (hRd : R ∣ m.world.secondary.length)
    (hdev : alignUp (off + data.length) P ≤ m.world.secondary.length) :
    ∃ m', programFirst ⟨data, off⟩ m =
        (.ok (some ⟨data.drop (min (alignUp off P - off) data.length),
          off + min (alignUp off P - off) data.length⟩), m') ∧
      Programmed P R m ctx off (data.take (min (alignUp off P - off) data.length)) m' := by
  obtain ⟨hbd, hinit, rfl, rfl, ⟨pu, hpu, hpul⟩, ⟨rb, hrb, hrbl⟩⟩ := hready
  set P := ctx.secondaryBdProgunitSize
  set R := ctx.secondaryBdReadblockSize
  have hlt : min (alignUp off P - off) data.length < P := by
    have := alignUp_lt (x := off) hP; omega
  have hoff : off + data.length ≤ m.world.secondary.length :=
    Nat.le_trans (le_alignUp hP) hdev
  by_cases h0 : min (alignUp off P - off) data.length = 0
  · refine ⟨m, ?_, pu, rb, [], hpul, hrbl, alignedCalls_nil P R, ?_⟩
    · simp only [programFirst, requireCtx, hctx, OtaM.bind_apply, mbedAssert_apply,
        gt_iff_lt, h0, if_pos hP, if_true, OtaM.pure_apply, List.drop_zero, Nat.add_zero]
    · rw [h0, List.take_zero, writeAt_nil _ _ (by omega), List.append_nil, ← hpu, ← hrb]
      cases m; cases ctx; simp_all
  · have hup := alignUp_le_alignDown_add hP off
    have hd : off < m.world.secondary.length := by omega
    have hra : alignDown off R + R ≤ m.world.secondary.length :=
      add_le_of_dvd_of_lt (dvd_alignDown off R) hRd (Nat.lt_of_le_of_lt (alignDown_le off R) hd)
    have hpa : alignDown off P + P ≤ m.world.secondary.length :=
      add_le_of_dvd_of_lt (dvd_alignDown off P) (Nat.dvd_trans hPR hRd)
        (Nat.lt_of_le_of_lt (alignDown_le off P) hd)
    have hfit : off - alignDown off P + (data.take (min (alignUp off P - off) data.length)).length
        ≤ P := by
      have := alignDown_le off P; simp only [List.length_take]; omega
    have hunit : (readAt m.world.secondary (alignDown off P) P).length = P :=
      length_readAt_of_le hpa
    have hfit' : off - alignDown off P + (data.take (min (alignUp off P - off) data.length)).length
        ≤ (readAt m.world.secondary (alignDown off P) P).length := by rw [hunit]; exact hfit
    have hspliced := length_writeAt hfit'
    rw [hunit] at hspliced
    have hwrite := writeAt_writeAt_readAt (l := m.world.secondary) hpa hfit
    rw [Nat.add_sub_cancel' (alignDown_le off P)] at hwrite
    simp only [programFirst, requireCtx_of hctx, hpu, hrb, OtaM.bind_apply,
      mbedAssert_apply, gt_iff_lt, if_pos hlt, if_neg h0, deref_some,
      bdReadProgramUnit_apply hP hR hPR m hpul hrbl hra, memcpyInto_apply, if_pos hfit',
      setCtx_apply, bdProgram_apply, hspliced, le_refl, if_true, if_pos hpa,
      List.take_of_length_le (le_of_eq hspliced), hwrite, OtaM.pure_apply]
    refine ⟨_, rfl, ?_⟩
    unfold Programmed
    simp only [List.append_assoc, List.singleton_append]
    refine ⟨_, _, _, hspliced, length_readAt_of_le hra, ?_, rfl⟩
    intro e he
    simp only [List.mem_cons, List.not_mem_nil, or_false] at he
    rcases he with he | he <;> subst he
    · exact ⟨dvd_alignDown off R, rfl⟩
    · exact ⟨dvd_alignDown off _, Nat.dvd_refl _, hP⟩

theorem programAligned_programmed {m : Machine} {ctx : OtaContext} (hctx : m.ctx = some ctx)
    (hready : CtxReady P R ctx) (data : List UInt8) (off : Nat) (hal : P ∣ off ∨ data = [])
    (hoff : off + data.length ≤ m.world.secondary.length) :
    ∃ m', programAligned ⟨data, off⟩ m =
        (.ok (some ⟨data.drop (alignDown data.length P), off + alignDown data.length P⟩), m') ∧
      Programmed P R m ctx off (data.take (alignDown data.length P)) m' := by
  obtain ⟨hbd, hinit, rfl, rfl, ⟨pu, hpu, hpul⟩, ⟨rb, hrb, hrbl⟩⟩ := hready
  set P := ctx.secondaryBdProgunitSize
  have hk := alignDown_le data.length P
  have hctxeq : ctx = { ctx with secondaryBdProgunit := some pu, secondaryBdReadblock := some rb } := by
    cases ctx; simp_all
  by_cases h0 : alignDown data.length P = 0
  · refine ⟨m, ?_, pu, rb, [], hpul, hrbl, alignedCalls_nil P _, ?_⟩
    · simp only [programAligned, requireCtx_of hctx, OtaM.bind_apply, h0, if_true, OtaM.pure_apply,
        List.drop_zero, Nat.add_zero]
    · rw [h0, List.take_zero, writeAt_nil _ _ (by omega), List.append_nil, ← hctxeq, ← hctx]
  · have hne : data ≠ [] := by rintro rfl; simp [alignDown] at h0
    have hal' : P ∣ off := hal.resolve_right hne
    simp only [programAligned, requireCtx_of hctx, OtaM.bind_apply, if_neg h0, bdProgram_apply,
      if_pos hk, if_pos (show off + alignDown data.length P ≤ m.world.secondary.length by omega),
      if_true, OtaM.pure_apply]
    refine ⟨_, rfl, pu, rb, [(.bdProgram off (alignDown data.length P), { m.world with
      secondary := writeAt m.world.secondary off (data.take (alignDown data.length P)) })],
      hpul, hrbl, ?_, ?_⟩
    · intro e he
      simp only [List.mem_singleton] at he; subst he
      exact ⟨hal', dvd_alignDown _ _, by omega⟩
    · rw [← hctxeq, ← hctx]

theorem programLast_programmed {m : Machine} {ctx : OtaContext} (hctx : m.ctx = some ctx)
    (hready : CtxReady P R ctx) (data : List UInt8) (off : Nat) (hlen : data.length < P)
    (hal : P ∣ off ∨ data = []) (hRd : R ∣ m.world.secondary.length)
    (hdev : alignUp (off + data.length) P ≤ m.world.secondary.length) :
    ∃ m', programLast ⟨data, off⟩ m = (.ok (some ⟨[], off + data.length⟩), m') ∧
      Programmed P R m ctx off data m' := by
  obtain ⟨hbd, hinit, rfl, rfl, ⟨pu, hpu, hpul⟩, ⟨rb, hrb, hrbl⟩⟩ := hready
  set P := ctx.secondaryBdProgunitSize
  set R := ctx.secondaryBdReadblockSize
  have hoff : off + data.length ≤ m.world.secondary.length :=
    Nat.le_trans (le_alignUp hP) hdev
  by_cases h0 : data = []
  · subst h0
    refine ⟨m, ?_, pu, rb, [], hpul, hrbl, alignedCalls_nil P R, ?_⟩
    · simp [programLast, requireCtx_of hctx]
    · rw [writeAt_nil _ _ (by simpa using hoff), List.append_nil]
      cases m; cases ctx; simp_all
  · have hal' : P ∣ off := hal.resolve_right h0
    have hpos : 0 < data.length := List.length_pos.mpr h0
    have hd : off < m.world.secondary.length := by omega
    have hdown : alignDown off P = off := alignDown_eq_self hal'
    have hra : alignDown off R + R ≤ m.world.secondary.length :=
      add_le_of_dvd_of_lt (dvd_alignDown off R) hRd (Nat.lt_of_le_of_lt (alignDown_le off R) hd)
    have hpa : off + P ≤ m.world.secondary.length :=
      add_le_of_dvd_of_lt hal' (Nat.dvd_trans hPR hRd) hd
    have hunit : (readAt m.world.secondary off P).length = P := length_readAt_of_le hpa
    have hfit' : 0 + data.length ≤ (readAt m.world.secondary off P).length := by omega
    have hspliced := length_writeAt hfit'
    rw [hunit] at hspliced
    have hwrite := @writeAt_writeAt_readAt _ m.world.secondary data off P 0 hpa (by omega)
    rw [Nat.add_zero] at hwrite
    simp only [programLast, requireCtx_of hctx, hpu, hrb, OtaM.bind_apply, if_neg (by omega :
      ¬data.length = 0), mbedAssert_apply, gt_iff_lt, if_pos hlen, deref_some,
      bdReadProgramUnit_apply hP hR hPR m hpul hrbl hra, hdown, memcpyInto_apply, if_pos hfit',
      setCtx_apply, bdProgram_apply, hspliced, le_refl, if_true, if_pos hpa,
      List.take_of_length_le (le_of_eq hspliced), hwrite, OtaM.pure_apply, List.drop_length,
      List.take_length]
    refine ⟨_, rfl, ?_⟩
    unfold Programmed
    simp only [List.append_assoc, List.singleton_append]
    refine ⟨_, _, _, hspliced, length_readAt_of_le hra, ?_, rfl⟩
    intro e he
    simp only [List.mem_cons, List.not_mem_nil, or_false] at he
    rcases he with he | he <;> subst he
    · exact ⟨dvd_alignDown off R, rfl⟩
    · exact ⟨hal', Nat.dvd_refl _, hP⟩

omit hP hR hPR in
theorem Programmed.ctx_eq {m m' : Machine} {ctx : OtaContext} {a : Nat} {b : List UInt8}
    (h : Programmed P R m ctx a b m') : ∃ pu rb, pu.length = P ∧ rb.length = R ∧
      m'.ctx = some { ctx with secondaryBdProgunit := some pu, secondaryBdReadblock := some rb } := by
  obtain ⟨pu, rb, -, hpu, hrb, -, rfl⟩ := h
  exact ⟨pu, rb, hpu, hrb, rfl⟩

omit hP hR hPR in
theorem Programmed.length_secondary {m m' : Machine} {ctx : OtaContext} {a : Nat}
    {b : List UInt8} (h : Programmed P R m ctx a b m') (hfit : a + b.length ≤ m.world.secondary.length) :
    m'.world.secondary.length = m.world.secondary.length := by
  obtain ⟨pu, rb, -, -, -, -, rfl⟩ := h
  exact length_writeAt hfit

omit hP hR hPR in
/-- Two stretches of the write, the second starting where the first ended, program their
concatenation. -/
theorem Programmed.trans {m m1 m2 : Machine} {ctx ctx1 : OtaContext} {a : Nat} {b b' : List UInt8}
    (h1 : Programmed P R m ctx a b m1) (hc1 : m1.ctx = some ctx1)
    (h2 : Programmed P R m1 ctx1 (a + b.length) b' m2)
    (hfit : a + b.length + b'.length ≤ m.world.secondary.length) :
    Programmed P R m ctx a (b ++ b') m2 := by
  obtain ⟨pu1, rb1, e1, -, -, ha1, rfl⟩ := h1
  cases hc1
  obtain ⟨pu2, rb2, e2, hpu2, hrb2, ha2, rfl⟩ := h2
  refine ⟨pu2, rb2, e1 ++ e2, hpu2, hrb2, ha1.append ha2, ?_⟩
  simp [writeAt_writeAt_append hfit, List.append_assoc]

/-- The three sections of `CombinedDownloadInstall` (`ProgramFirst`, `ProgramAligned`,
`ProgramLast`), each started where the one before stopped, program the whole chunk at the
offset and leave no data over. -/
theorem programSections_programmed {m : Machine} {ctx : OtaContext} (hctx : m.ctx = some ctx)
    (hready : CtxReady P R ctx) (c : List UInt8) (off : Nat)
    (hRd : R ∣ m.world.secondary.length)
    (hdev : alignUp (off + c.length) P ≤ m.world.secondary.length) :
    ∃ cur1 m2 cur2 m3 m4, programFirst ⟨c, off⟩ m = (.ok (some cur1), m2) ∧
      programAligned cur1 m2 = (.ok (some cur2), m3) ∧
      programLast cur2 m3 = (.ok (some ⟨[], off + c.length⟩), m4) ∧
      Programmed P R m ctx off c m4 := by
  have hoc : off + c.length ≤ m.world.secondary.length := Nat.le_trans (le_alignUp hP) hdev
  obtain ⟨m2, hF, hp2⟩ := programFirst_programmed hP hR hPR hctx hready c off hRd hdev
  have hal1 : P ∣ off + min (alignUp off P - off) c.length ∨
      c.drop (min (alignUp off P - off) c.length) = [] := by
    by_cases hle : alignUp off P - off ≤ c.length
    · left
      rw [Nat.min_eq_left hle, Nat.add_sub_cancel' (le_alignUp hP)]
      exact dvd_alignUp _ _
    · right; exact List.drop_eq_nil_of_le (by omega)
  generalize hk1 : min (alignUp off P - off) c.length = k1 at hF hp2 hal1
  have hb1 : (c.take k1).length = k1 := List.length_take_of_le (by omega)
  have hd1 : (c.drop k1).length = c.length - k1 := List.length_drop _ _
  obtain ⟨pu2, rb2, hpu2, hrb2, hc2⟩ := hp2.ctx_eq
  have hS2 := hp2.length_secondary (by omega)
  obtain ⟨m3, hA, hp3⟩ := programAligned_programmed hP hR hPR hc2
    (hready.withBuffers hpu2 hrb2) (c.drop k1) (off + k1) hal1 (by omega)
  have hal3 : P ∣ off + k1 + alignDown (c.drop k1).length P ∨
      (c.drop k1).drop (alignDown (c.drop k1).length P) = [] := by
    rcases hal1 with h | h
    · exact .inl (Nat.dvd_add h (dvd_alignDown _ _))
    · right; rw [h, List.drop_nil]
  have hk2' := lt_alignDown_add (x := (c.drop k1).length) hP
  have hk2 := alignDown_le (c.drop k1).length P
  generalize alignDown (c.drop k1).length P = k2 at hA hp3 hal3 hk2 hk2'
  have hb2 : ((c.drop k1).take k2).length = k2 := List.length_take_of_le hk2
  have hb3 : ((c.drop k1).drop k2).length = c.length - k1 - k2 := by
    rw [List.length_drop, hd1]
  have hend : off + k1 + k2 + ((c.drop k1).drop k2).length = off + c.length := by
    rw [hb3]; omega
  obtain ⟨pu3, rb3, hpu3, hrb3, hc3⟩ := hp3.ctx_eq
  have hS3 := (hp3.length_secondary (by omega)).trans hS2
  obtain ⟨m4, hL, hp4⟩ := programLast_programmed hP hR hPR hc3
    ((hready.withBuffers hpu2 hrb2).withBuffers hpu3 hrb3) ((c.drop k1).drop k2)
    (off + k1 + k2) (by omega) hal3 (hS3 ▸ hRd) (by rw [hS3, hend]; exact hdev)
  rw [hend] at hL
  refine ⟨_, m2, _, m3, m4, hF, hA, hL, ?_⟩
  -- the three stretches program the whole chunk
  have h12 := hp2.trans hc2 (by rw [hb1]; exact hp3) (by omega)
  have h123 := h12.trans hc3 (by rw [List.length_append, hb1, hb2, ← Nat.add_assoc]; exact hp4)
    (by rw [List.length_append, hb1, hb2, hb3]; omega)
  rwa [List.append_assoc, List.take_append_drop, List.take_append_drop] at h123

/-- One call of `CombinedDownloadInstall` programs its chunk at the running offset. Its log is
the header section's store write, made only on the call that completes the header, followed
by aligned device calls. -/
theorem combinedDownloadInstall_step {D t c : List UInt8} {m : Machine}
    (hw : Writing P R E D t m) (hRd : R ∣ D.length)
    (hdev : alignUp (t ++ c).length P ≤ D.length)
    (hmagic : imageHeaderSize ≤ (t ++ c).length → ihMagicBytes (t ++ c) = imageMagic) :
    ∃ m', combinedDownloadInstall c m = (.ok .downloadSuccess, m') ∧ m'.oracle = m.oracle ∧
      Writing P R E D (t ++ c) m' ∧
      ∃ kv' e0 e, m'.log = m.log ++ e0 ++ e ∧ HeaderCalls t c m.world kv' e0 ∧
        AlignedCalls P R e ∧ ∀ x ∈ e, x.1.isKvSet = false := by
  obtain ⟨⟨ctx, hctx, hready, hoff, hh, hE⟩, hsec, hrec, hkv⟩ := hw
  have htc : (t ++ c).length ≤ D.length := Nat.le_trans (le_alignUp hP) hdev
  rw [List.length_append] at htc hdev
  have hlenS : m.world.secondary.length = D.length := by rw [hsec]; simp; omega
  obtain ⟨h', kv', n, e0, hcatch, hh', hcalls⟩ := catchImageHeader_ok hctx hoff hh hrec hkv hmagic
  set m1 : Machine := { m with
    world := { m.world with kv := kv' }, ctx := some { ctx with fwuStageHeader := h' }, clock := n,
    log := m.log ++ e0 }
  obtain ⟨_, m2, _, m3, _, hF, hA, hL, ⟨pu4, rb4, e, hpu4, hrb4, he, rfl⟩⟩ :=
    programSections_programmed hP hR hPR (m := m1) rfl (hready.withHeader h') c t.length
      (hlenS ▸ hRd) (hlenS ▸ hdev)
  -- the three sections log device calls only
  have hbd : ∀ x ∈ e, x.1.isKvSet = false := by
    obtain ⟨e1, h1, k1⟩ := (programFirst_logsOnly _).run hF
    obtain ⟨e2, h2, k2⟩ := (programAligned_logsOnly _).run hA
    obtain ⟨e3, h3, k3⟩ := (programLast_logsOnly _).run hL
    have hsplit : e = e1 ++ e2 ++ e3 := List.append_cancel_left
      (h3.trans (by simp only [h2, h1, List.append_assoc]) : m1.log ++ e = _)
    intro x hx
    rw [hsplit, List.mem_append, List.mem_append] at hx
    rcases hx with (hx | hx) | hx
    exacts [k1 x hx, k2 x hx, k3 x hx]
  obtain ⟨pu, hpu, -⟩ := hready.progunit
  simp only [combinedDownloadInstall, OtaM.bind_apply, hctx, hcatch,
    Bool.not_true, Bool.false_eq_true, if_false, OtaM.pure_apply, requireCtx,
    hready.bd, hready.inited, Bool.not_true, Bool.or_self, mbedAssert_apply, hpu,
    Option.isSome_some, hready.progunitSize, Nat.pos_iff_ne_zero.mp hP, if_true, ne_eq,
    not_false_eq_true, hoff, hF, hA, hL, List.length_nil, setCtx_apply]
  refine ⟨_, rfl, rfl, ⟨⟨_, rfl, ⟨rfl, rfl, rfl, hready.readblockSize, ⟨pu4, rfl, hpu4⟩,
    ⟨rb4, rfl, hrb4⟩⟩, (List.length_append t c).symm, hh', hE⟩, ?_,
    hcalls.record_isSome hrec, hkv⟩, kv', e0, e, rfl, hcalls, he, hbd⟩
  rw [hsec, writeAt_append_drop htc, List.length_append]

/-- Chunk after chunk: a body whose chunks all reach `CombinedDownloadInstall` programs their
concatenation. -/
theorem deliverChunks_writing {D t : List UInt8} (chunks : List (List UInt8)) {m : Machine}
    (hw : Writing P R E D t m) (hRd : R ∣ D.length)
    (hdev : alignUp (t ++ chunks.flatten).length P ≤ D.length)
    (hmagic : imageHeaderSize ≤ (t ++ chunks.flatten).length →
      ihMagicBytes (t ++ chunks.flatten) = imageMagic) :
    ∃ m', deliverChunks false .downloadSuccess chunks m = (.ok .downloadSuccess, m') ∧
      m'.oracle = m.oracle ∧ Writing P R E D (t ++ chunks.flatten) m' ∧
      ∃ entries, m'.log = m.log ++ entries ∧ AlignedCalls P R entries := by
  induction chunks generalizing t m with
  | nil => exact ⟨m, rfl, rfl, by simpa using hw, [], by simp, alignedCalls_nil P R⟩
  | cons c rest ih =>
    rw [List.flatten_cons, ← List.append_assoc] at hdev hmagic
    have hmagic1 : imageHeaderSize ≤ (t ++ c).length → ihMagicBytes (t ++ c) = imageMagic :=
      fun h => by
        rw [← ihMagicBytes_append (by unfold imageHeaderSize at h; omega) rest.flatten]
        exact hmagic (by simp only [List.length_append] at h ⊢; omega)
    obtain ⟨m1, h1, ho1, hw1, _, e0, e1, hl1, hc1, ha1, -⟩ := combinedDownloadInstall_step hP hR hPR
      hw hRd (Nat.le_trans (alignUp_mono (by simp) P) hdev) hmagic1
    obtain ⟨m2, h2, ho2, hw2, e2, hl2, ha2⟩ := ih hw1 hdev hmagic
    refine ⟨m2, ?_, ho2.trans ho1, by simpa using hw2, e0 ++ e1 ++ e2, by simp [hl2, hl1],
      ((hc1.kvCalls.aligned P R).append ha1).append ha2⟩
    simp [deliverChunks, combinedDownloadInstallTask, isAducResultCodeFailure, h1, h2]

end Geometry

/-- The writer commits exactly the stream, whatever the chunking: feeding the chunks of a
body `s` in order to `CombinedDownloadInstall` from offset 0, on a device of a size that is
a multiple of `R` and holds `s` rounded up to program units, every call succeeds, the device
calls are aligned, the offset ends at `s.length` and the device holds `s` over its old
contents. -/
theorem combinedDownloadInstall_chunk_split (chunks : List (List UInt8)) (m : Machine)
    (ctx : OtaContext) {P R : Nat} (hP : 0 < P) (hR : 0 < R) (hPR : P ∣ R)
    (hctx : m.ctx = some ctx) (hready : CtxReady P R ctx) (hoff : ctx.dlProgOffset = 0)
    (hRd : R ∣ m.world.secondary.length)
    (hdev : alignUp chunks.flatten.length P ≤ m.world.secondary.length)
    (hmagic : chunks.flatten.length < imageHeaderSize ∨ ihMagicBytes chunks.flatten = imageMagic)
    (hrec : m.world.record.isSome) (hkv : ∀ n, m.oracle .kvGet n = true ∧ m.oracle .kvSet n = true) :
    ∃ m', deliverChunks false .downloadSuccess chunks m = (.ok .downloadSuccess, m') ∧
      (∃ ctx', m'.ctx = some ctx' ∧ ctx'.dlProgOffset = chunks.flatten.length) ∧
      m'.world.secondary = chunks.flatten ++ m.world.secondary.drop chunks.flatten.length ∧
      ∃ entries, m'.log = m.log ++ entries ∧ AlignedCalls P R entries := by
  have hw : Writing P R ctx.dlProgTotalExp m.world.secondary [] m :=
    ⟨⟨ctx, hctx, hready, hoff, headerHolds_nil _, rfl⟩, by simp, hrec, hkv⟩
  obtain ⟨m', hrun, -, ⟨⟨ctx', hc', -, hoff', -, -⟩, hsec, -, -⟩, hlog⟩ :=
    deliverChunks_writing hP hR hPR chunks hw hRd (by simpa using hdev)
      (fun h => hmagic.resolve_left (by simpa using Nat.not_lt.mpr h))
  exact ⟨m', hrun, ⟨ctx', hc', by simpa using hoff'⟩, by simpa using hsec, hlog⟩

/-- A device whose context is ready to write at offset 0, with a record in the store. -/
def readyMachine (P R : Nat) (D : List UInt8) : Machine where
  world := { kv := some NvRecord.zero.bytes, secondary := D, programSize := P, readSize := R,
             primaryHeader := .zero, imageOk := false, pending := false }
  ctx := some { fwuActiveHeader := .zero, fwuStageHeader := .zero, secondaryBd := true,
                secondaryBdInited := true, secondaryBdProgunit := some (zeros P),
                secondaryBdProgunitSize := P, secondaryBdReadblock := some (zeros R),
                secondaryBdReadblockSize := R, dlProgOffset := 0, dlProgTotalExp := 0,
                dlProgTotalAct := 0 }
  oracle := .reliable
  clock := 0
  log := []

theorem combinedDownloadInstall_chunk_split_three_chunks :
    ∃ m', deliverChunks false .downloadSuccess [[1, 2, 3], [], [4, 5]]
        (readyMachine 2 4 (zeros 8)) = (.ok .downloadSuccess, m') ∧
      (∃ ctx', m'.ctx = some ctx' ∧ ctx'.dlProgOffset = [[1, 2, 3], [], [4, 5]].flatten.length) ∧
      m'.world.secondary = [[1, 2, 3], [], [4, 5]].flatten ++ (zeros 8).drop 5 ∧
      ∃ entries, m'.log = [] ++ entries ∧ AlignedCalls 2 4 entries :=
  combinedDownloadInstall_chunk_split [[1, 2, 3], [], [4, 5]] (readyMachine 2 4 (zeros 8)) _
    (by decide) (by decide) (by decide) rfl
    ⟨rfl, rfl, rfl, rfl, ⟨zeros 2, rfl, rfl⟩, ⟨zeros 4, rfl, rfl⟩⟩ rfl (by decide) (by decide)
    (.inl (by decide)) (by simp [readyMachine, World.record, NvRecord.ofBytes?_bytes])
    (fun _ => ⟨rfl, rfl⟩)

end AziotOta
