import Mathlib.Data.List.Basic

/-!
# Byte buffers

Every buffer the agent copies between (an HTTP chunk, the program unit, the read block,
the in-storage record, the secondary block device) is a list of bytes. `writeAt` is a
`memcpy` into a buffer, `readAt` a `memcpy` out of one, `zeros` a `memset` to zero and
`cStrlen` is `strlen`.
-/

namespace AziotOta

/-- `memcpy(l + pos, src, src.length)`: the bytes of `src` replace those of `l` from `pos`. -/
def writeAt {α : Type} (l : List α) (pos : Nat) (src : List α) : List α :=
  l.take pos ++ src ++ l.drop (pos + src.length)

/-- The `n` bytes of `l` from `pos` on. -/
def readAt {α : Type} (l : List α) (pos n : Nat) : List α :=
  (l.drop pos).take n

/-- A zero-filled buffer of `n` bytes. -/
def zeros (n : Nat) : List UInt8 := List.replicate n 0

/-- `strlen`: the number of bytes before the first NUL. A buffer without a NUL is read to
its end; the invariants of the store show that this never happens on a stored record. -/
def cStrlen (l : List UInt8) : Nat := (l.takeWhile (· != 0)).length

/-- The bytes `strcpy` and `memcpy(dst, s, strlen(s) + 1)` copy: the string and its NUL. -/
def cStr (l : List UInt8) : List UInt8 := l.takeWhile (· != 0) ++ [0]

variable {α : Type}

@[simp] theorem length_zeros (n : Nat) : (zeros n).length = n := List.length_replicate _ _

@[simp] theorem length_cStr (l : List UInt8) : (cStr l).length = cStrlen l + 1 := by
  simp [cStr, cStrlen]

@[simp] theorem length_readAt (l : List α) (pos n : Nat) :
    (readAt l pos n).length = min n (l.length - pos) := by
  simp [readAt]

theorem length_readAt_of_le {l : List α} {pos n : Nat} (h : pos + n ≤ l.length) :
    (readAt l pos n).length = n := by
  simp only [length_readAt]; omega

theorem length_writeAt {l : List α} {pos : Nat} {src : List α}
    (h : pos + src.length ≤ l.length) : (writeAt l pos src).length = l.length := by
  simp only [writeAt, List.length_append, List.length_take, List.length_drop]; omega

theorem getElem?_writeAt {l : List α} {pos : Nat} {src : List α}
    (h : pos + src.length ≤ l.length) (i : Nat) :
    (writeAt l pos src)[i]? = if pos ≤ i ∧ i < pos + src.length then src[i - pos]? else l[i]? := by
  have hp : (l.take pos).length = pos := by simp; omega
  unfold writeAt
  by_cases h1 : i < pos
  · rw [List.append_assoc, List.getElem?_append_left (by omega), List.getElem?_take_of_lt h1,
      if_neg (by omega)]
  · rw [List.append_assoc, List.getElem?_append_right (by omega), hp]
    by_cases h2 : i - pos < src.length
    · rw [List.getElem?_append_left h2, if_pos (by omega)]
    · rw [List.getElem?_append_right (by omega), List.getElem?_drop, if_neg (by omega)]
      congr 1; omega

theorem getElem?_readAt (l : List α) (pos n i : Nat) :
    (readAt l pos n)[i]? = if i < n then l[pos + i]? else none := by
  simp [readAt, List.getElem?_take, List.getElem?_drop]

@[simp] theorem writeAt_zero (l src : List α) : writeAt l 0 src = src ++ l.drop src.length := by
  simp [writeAt]

theorem readAt_zero_length (l : List α) : readAt l 0 l.length = l := by
  simp [readAt]

/-- Writing back what was just read changes nothing. -/
theorem writeAt_readAt_self {l : List α} {pos n : Nat} (h : pos + n ≤ l.length) :
    writeAt l pos (readAt l pos n) = l := by
  apply List.ext_getElem?
  intro i
  rw [getElem?_writeAt (by rw [length_readAt_of_le h]; omega), length_readAt_of_le h]
  by_cases h1 : pos ≤ i ∧ i < pos + n
  · rw [if_pos h1, getElem?_readAt, if_pos (by omega)]
    congr 1; omega
  · rw [if_neg h1]

/-- A read-modify-write of the unit `[pos, pos + n)` that splices `src` in at `q`
writes exactly `src` at `pos + q`. -/
theorem writeAt_writeAt_readAt {l src : List α} {pos n q : Nat} (hn : pos + n ≤ l.length)
    (hq : q + src.length ≤ n) :
    writeAt l pos (writeAt (readAt l pos n) q src) = writeAt l (pos + q) src := by
  have hr := length_readAt_of_le hn
  have hw : (writeAt (readAt l pos n) q src).length = n := by rw [length_writeAt (by omega), hr]
  apply List.ext_getElem?
  intro i
  rw [@getElem?_writeAt _ l pos _ (by omega), @getElem?_writeAt _ l (pos + q) _ (by omega), hw]
  by_cases hA : pos + q ≤ i ∧ i < pos + q + src.length
  · rw [if_pos (by omega), if_pos hA, getElem?_writeAt (by omega), if_pos (by omega)]
    congr 1; omega
  · rw [if_neg hA]
    by_cases hB : pos ≤ i ∧ i < pos + n
    · rw [if_pos hB, getElem?_writeAt (by omega), if_neg (by omega), getElem?_readAt,
        if_pos (by omega)]
      congr 1; omega
    · rw [if_neg hB]

/-- Two adjacent writes are one write of the concatenation. -/
theorem writeAt_writeAt_append {l s t : List α} {pos : Nat}
    (h : pos + s.length + t.length ≤ l.length) :
    writeAt (writeAt l pos s) (pos + s.length) t = writeAt l pos (s ++ t) := by
  have hs : (writeAt l pos s).length = l.length := length_writeAt (by omega)
  apply List.ext_getElem?
  intro i
  rw [getElem?_writeAt (by omega), getElem?_writeAt (l := l) (by omega),
    getElem?_writeAt (l := l) (by simp; omega), List.length_append]
  by_cases hT : pos + s.length ≤ i ∧ i < pos + s.length + t.length
  · rw [if_pos hT, if_pos (by omega), List.getElem?_append_right (by omega)]
    congr 1; omega
  · rw [if_neg hT]
    by_cases hS : pos ≤ i ∧ i < pos + s.length
    · rw [if_pos hS, if_pos (by omega), List.getElem?_append_left (by omega)]
    · rw [if_neg hS, if_neg (by omega)]

/-- Writing a buffer's worth over the whole buffer replaces it. -/
theorem writeAt_zero_of_length_eq {l src : List α} (h : src.length = l.length) :
    writeAt l 0 src = src := by
  simp [writeAt, h]

theorem readAt_readAt {l : List α} {p n q k : Nat} (h : q + k ≤ n) :
    readAt (readAt l p n) q k = readAt l (p + q) k := by
  apply List.ext_getElem?
  intro i
  rw [getElem?_readAt, getElem?_readAt, getElem?_readAt]
  by_cases hi : i < k
  · rw [if_pos hi, if_pos hi, if_pos (by omega), Nat.add_assoc]
  · rw [if_neg hi, if_neg hi]

theorem readAt_take {l : List α} {pos n k : Nat} (h : pos + n ≤ k) :
    readAt (l.take k) pos n = readAt l pos n := by
  rw [readAt, readAt, List.drop_take, List.take_take, Nat.min_eq_left (by omega)]

/-- Reading `a + b` bytes reads `a` of them and then the `b` after. -/
theorem readAt_add (l : List α) (pos a b : Nat) :
    readAt l pos (a + b) = readAt l pos a ++ readAt l (pos + a) b := by
  simp only [readAt, List.take_add, List.drop_drop, Nat.add_comm]

theorem readAt_writeAt_self {l src : List α} {pos : Nat} (h : pos + src.length ≤ l.length) :
    readAt (writeAt l pos src) pos src.length = src := by
  apply List.ext_getElem?
  intro i
  rw [getElem?_readAt, getElem?_writeAt h]
  by_cases hi : i < src.length
  · rw [if_pos hi, if_pos (by omega), Nat.add_sub_cancel_left]
  · rw [if_neg hi, List.getElem?_eq_none (by omega)]

theorem readAt_writeAt_of_disjoint {l src : List α} {pos q n : Nat}
    (h : pos + src.length ≤ l.length) (hd : pos + src.length ≤ q ∨ q + n ≤ pos) :
    readAt (writeAt l pos src) q n = readAt l q n := by
  apply List.ext_getElem?
  intro i
  rw [getElem?_readAt, getElem?_readAt, getElem?_writeAt h]
  by_cases hi : i < n
  · rw [if_pos hi, if_pos hi, if_neg (by omega)]
  · rw [if_neg hi, if_neg hi]

/-- A window that holds a write sees it at its place in the window. -/
theorem readAt_writeAt_of_within {l src : List α} {pos q n : Nat} (hq : q ≤ pos)
    (hn : pos + src.length ≤ q + n) (hl : q + n ≤ l.length) :
    readAt (writeAt l pos src) q n = writeAt (readAt l q n) (pos - q) src := by
  have hr := length_readAt_of_le hl
  apply List.ext_getElem?
  intro i
  rw [getElem?_readAt, getElem?_writeAt (by omega), getElem?_writeAt (by omega), getElem?_readAt]
  by_cases hi : i < n
  · rw [if_pos hi]
    by_cases hw : pos ≤ q + i ∧ q + i < pos + src.length
    · rw [if_pos hw, if_pos (by omega)]
      congr 1; omega
    · rw [if_neg hw, if_neg (by omega), if_pos hi]
  · rw [if_neg hi, if_neg (by omega), if_neg hi]

/-- A window inside a write sees only the written bytes. -/
theorem readAt_writeAt_of_inside {l src : List α} {pos q n : Nat} (hp : pos ≤ q)
    (hn : q + n ≤ pos + src.length) (hl : pos + src.length ≤ l.length) :
    readAt (writeAt l pos src) q n = readAt src (q - pos) n := by
  apply List.ext_getElem?
  intro i
  rw [getElem?_readAt, getElem?_readAt, getElem?_writeAt hl]
  by_cases hi : i < n
  · rw [if_pos hi, if_pos hi, if_pos (by omega)]
    congr 1; omega
  · rw [if_neg hi, if_neg hi]

theorem readAt_zeros (n p k : Nat) : readAt (zeros n) p k = zeros (min k (n - p)) := by
  simp [readAt, zeros, List.drop_replicate, List.take_replicate]

theorem drop_writeAt_of_le {l src : List α} {pos k : Nat} (hl : pos + src.length ≤ l.length)
    (h : pos + src.length ≤ k) : (writeAt l pos src).drop k = l.drop k := by
  apply List.ext_getElem?
  intro i
  rw [List.getElem?_drop, List.getElem?_drop, getElem?_writeAt hl, if_neg (by omega)]

/-- Dropping a prefix before a write. -/
theorem drop_writeAt_of_ge {l src : List α} {pos k : Nat} (hl : pos + src.length ≤ l.length)
    (h : k ≤ pos) : (writeAt l pos src).drop k = writeAt (l.drop k) (pos - k) src := by
  apply List.ext_getElem?
  intro i
  rw [List.getElem?_drop, getElem?_writeAt hl, getElem?_writeAt (by simp; omega), List.getElem?_drop]
  by_cases hi : pos ≤ k + i ∧ k + i < pos + src.length
  · rw [if_pos hi, if_pos (by omega)]
    congr 1; omega
  · rw [if_neg hi, if_neg (by omega)]

/-- Writing `t` right after a prefix `s` already written over `l`. -/
theorem writeAt_append_drop {l s t : List α} (h : s.length + t.length ≤ l.length) :
    writeAt (s ++ l.drop s.length) s.length t = s ++ t ++ l.drop (s.length + t.length) := by
  simpa using @writeAt_writeAt_append _ l s t 0 (by omega)

theorem writeAt_nil (l : List α) (pos : Nat) (h : pos ≤ l.length) : writeAt l pos [] = l := by
  simpa [readAt] using @writeAt_readAt_self _ l pos 0 (by omega)

/-! ## C strings -/

@[simp] theorem cStrlen_nil : cStrlen [] = 0 := rfl

@[simp] theorem cStrlen_cons (a : UInt8) (t : List UInt8) :
    cStrlen (a :: t) = if a = 0 then 0 else cStrlen t + 1 := by
  by_cases ha : a = 0 <;> simp [cStrlen, List.takeWhile_cons, ha]

/-- A NUL among the first `n` bytes ends the string before `n`. -/
theorem cStrlen_lt_of_zero_mem_take {l : List UInt8} {n : Nat} (h : 0 ∈ l.take n) :
    cStrlen l < n := by
  induction l generalizing n with
  | nil => simp at h
  | cons a t ih =>
    cases n with
    | zero => simp at h
    | succ k =>
      rw [List.take_succ_cons, List.mem_cons] at h
      by_cases ha : a = 0
      · rw [cStrlen_cons, if_pos ha]; omega
      · rw [cStrlen_cons, if_neg ha]
        have := ih (h.resolve_left (Ne.symm ha)); omega

@[simp] theorem cStr_cons (a : UInt8) (t : List UInt8) :
    cStr (a :: t) = if a = 0 then [0] else a :: cStr t := by
  by_cases ha : a = 0 <;> simp [cStr, List.takeWhile_cons, ha]

/-- A string copied with its NUL reads back as itself, whatever follows it. -/
theorem cStr_cStr_append (l t : List UInt8) : cStr (cStr l ++ t) = cStr l := by
  induction l with
  | nil => simp [cStr]
  | cons a l ih => by_cases ha : a = 0 <;> simp [ha, ih]

/-- A buffer that holds a NUL among its first `n` bytes reads as the same string when cut to
them. -/
theorem cStr_take {l : List UInt8} {n : Nat} (h : 0 ∈ l.take n) : cStr (l.take n) = cStr l := by
  induction l generalizing n with
  | nil => simp at h
  | cons a t ih =>
    cases n with
    | zero => simp at h
    | succ k =>
      rw [List.take_succ_cons, List.mem_cons] at h
      by_cases ha : a = 0
      · simp [ha]
      · rw [List.take_succ_cons, cStr_cons, cStr_cons, if_neg ha, if_neg ha,
          ih (h.resolve_left (Ne.symm ha))]

theorem cStrlen_take {l : List UInt8} {n : Nat} (h : 0 ∈ l.take n) :
    cStrlen (l.take n) = cStrlen l := by
  have := congrArg List.length (cStr_take h)
  simpa using this

/-- The `strlen(s) + 1` bytes `memcpy` takes from a string with a NUL are the string and its
NUL. -/
theorem take_cStrlen_succ {l : List UInt8} (h : 0 ∈ l) : l.take (cStrlen l + 1) = cStr l := by
  induction l with
  | nil => simp at h
  | cons a t ih =>
    by_cases ha : a = 0
    · simp [ha]
    · rw [List.mem_cons] at h
      rw [cStrlen_cons, if_neg ha, List.take_succ_cons, cStr_cons, if_neg ha,
        ih (h.resolve_left (Ne.symm ha))]

/-- `memcpy(dst, s, strlen(s) + 1)` copies the NUL of a string found among the first `n`
bytes of `s`. -/
theorem zero_mem_take_cStrlen_succ {l : List UInt8} {n : Nat} (h : 0 ∈ l.take n) :
    0 ∈ (l.take n).take (cStrlen l + 1) := by
  induction l generalizing n with
  | nil => simp at h
  | cons a t ih =>
    cases n with
    | zero => simp at h
    | succ k =>
      rw [List.take_succ_cons, List.mem_cons] at h
      by_cases ha : a = 0
      · simp [ha]
      · rw [cStrlen_cons, if_neg ha, List.take_succ_cons, List.take_succ_cons, List.mem_cons]
        exact .inr (ih (h.resolve_left (Ne.symm ha)))

theorem cStr_writeAt_zero_cStr {l c : List UInt8} : cStr (writeAt l 0 (cStr c)) = cStr c := by
  rw [writeAt_zero, cStr_cStr_append]

end AziotOta
