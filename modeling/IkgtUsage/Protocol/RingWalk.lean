import IkgtUsage.Lib.Loop
import IkgtUsage.Protocol.LogRing

/-!
# The walk of `read_logs`

`read_logs` in the integer types of the source, on any buffer: `count` is an `int`, `index` and
`num_of_entries_copied` are `uint32_t`, `LOGS_PER_CPU` is a `size_t`, and `results` is an array that
is only written at `num_of_entries_copied`. The loop has two exits, `count` at zero and `index` back
at the stop slot, and `Walking` is its invariant: after `i` passes `k - i` slots are left, and
`index` is `i` slots past the first one. So the second exit is taken exactly where the first one
would be next.

`readLogs_walk` is the result for every buffer, head and count; `readLogs` is the same list
(`walk_eq_readLogs`).
-/

namespace IkgtUsage

open Lib

/-! ## The slots before the stop slot -/

/-- The slot before `slot` in the ring `1 … LOGS_PER_CPU`. -/
def prevSlot (slot : Nat) : Nat := if slot ≤ 1 then logsPerCpu else slot - 1

/-- The `k` slots before `stop`, in ring order. -/
def precedingSlots (stop : Nat) : Nat → List Nat
  | 0 => []
  | k + 1 => precedingSlots (prevSlot stop) k ++ [prevSlot stop]

@[simp] theorem length_precedingSlots (stop k : Nat) : (precedingSlots stop k).length = k := by
  induction k generalizing stop with
  | zero => rfl
  | succ k ih => rw [precedingSlots, List.length_append, ih, List.length_singleton]

/-- By position in the ring: slot `q % LOGS_PER_CPU + 1` is at position `q`. -/
theorem precedingSlots_eq :
    ∀ (k q : Nat), k ≤ q → precedingSlots (q % logsPerCpu + 1) k =
      (List.range' (q - k) k).map fun p => p % logsPerCpu + 1
  | 0, _, _ => rfl
  | k + 1, q, hq => by
    have hprev : prevSlot (q % logsPerCpu + 1) = (q - 1) % logsPerCpu + 1 := by
      unfold prevSlot
      rw [logsPerCpu_eq]
      split <;> omega
    have hfirst : q - 1 - k = q - (k + 1) := by omega
    have hlast : q - (k + 1) + k = q - 1 := by omega
    rw [precedingSlots, hprev, precedingSlots_eq k (q - 1) (by omega), hfirst,
      List.range'_1_concat, List.map_append, hlast, List.map_singleton]

theorem precedingSlots_logSeqNumToIndex (seq : U64) {k : Nat} (hk : k ≤ logsPerCpu) :
    precedingSlots (logSeqNumToIndex seq) k =
      (List.range' (logsPerCpu + seq.toNat - k) k).map fun p => p % logsPerCpu + 1 := by
  have hslots := precedingSlots_eq k (logsPerCpu + seq.toNat) (by omega)
  rwa [Nat.add_mod_left] at hslots

/-- No more than `LOGS_PER_CPU` slots in a row are distinct. -/
theorem nodup_slots (first : Nat) {k : Nat} (hk : k ≤ logsPerCpu) :
    ((List.range' first k).map fun p => p % logsPerCpu + 1).Nodup := by
  refine List.Nodup.map_on ?_ List.nodup_range'
  intro p hp p' hp' heq
  rw [List.mem_range'_1] at hp hp'
  rw [logsPerCpu_eq] at hk heq
  omega

/-! ## The loop -/

/-- The variables of `read_logs` in its `while` loop. The last field is not in the source: the
indices of the buffer that were looked at. -/
structure RingWalk where
  count : BitVec 32
  index : U32
  results : Nat → LogEntry
  numOfEntriesCopied : U32
  examined : List Nat

namespace RingWalk

/-- `read_logs` before its loop: `results` is the caller's array. -/
def start (startSeqNum : U64) (count : BitVec 32) (results : Nat → LogEntry) : RingWalk :=
  -- `count > LOGS_PER_CPU` compares as `size_t`, `index <= count` as `uint32_t`
  let count : BitVec 32 :=
    if count = -1 ∨ logsPerCpu < (count.signExtend 64).toNat then BitVec.ofNat 32 logsPerCpu
    else count
  let index : U32 := BitVec.ofNat 32 (logSeqNumToIndex startSeqNum)
  let index : U32 :=
    if index ≤ count then
      (BitVec.ofNat 64 logsPerCpu - (count - index).zeroExtend 64).truncate 32
    else index - count
  ⟨count, index, results, 0, []⟩

/-- `results[num_of_entries_copied++] = *entry` where the entry is valid. -/
def examine (cpuLogBuffer : Nat → LogEntry) (w : RingWalk) : RingWalk :=
  let entry := cpuLogBuffer w.index.toNat
  let w := { w with examined := w.examined ++ [w.index.toNat] }
  if entry.isValid then
    { w with
      results := Function.update w.results w.numOfEntriesCopied.toNat entry
      numOfEntriesCopied := w.numOfEntriesCopied + 1 }
  else w

/-- One pass of `while (count)`: the loop is left, or the next pass follows. -/
def pass (cpuLogBuffer : Nat → LogEntry) (startSeqNum : U64) (w : RingWalk) :
    RingWalk ⊕ RingWalk :=
  if w.count = 0 then .inl w
  else
    let w := w.examine cpuLogBuffer
    let w := { w with index := if logsPerCpu ≤ w.index.toNat then 1 else w.index + 1 }
    if w.index.toNat = logSeqNumToIndex startSeqNum then .inl w
    else .inr { w with count := w.count - 1 }

/-- `results` up to `num_of_entries_copied`. -/
def copied (w : RingWalk) : List LogEntry :=
  (List.range w.numOfEntriesCopied.toNat).map w.results

/-! ## The invariant -/

/-- `results` holds the valid ones among the entries looked at; the rest of the array is as it
was. -/
structure Copied (cpuLogBuffer : Nat → LogEntry) (results : Nat → LogEntry) (w : RingWalk) :
    Prop where
  copied : w.copied = (w.examined.map cpuLogBuffer).filter LogEntry.isValid
  rest : ∀ i, w.numOfEntriesCopied.toNat ≤ i → w.results i = results i

/-- Between two passes of the loop over `k` slots from position `first` on. -/
structure Walking (cpuLogBuffer : Nat → LogEntry) (results : Nat → LogEntry) (k first : Nat)
    (w : RingWalk) : Prop where
  count : w.count.toNat + w.examined.length = k
  index : w.index.toNat = (first + w.examined.length) % logsPerCpu + 1
  examined : w.examined =
    (List.range' first w.examined.length).map fun p => p % logsPerCpu + 1
  copied : Copied cpuLogBuffer results w

variable {cpuLogBuffer results : Nat → LogEntry} {k first : Nat} {w : RingWalk}

theorem length_copied (w : RingWalk) : w.copied.length = w.numOfEntriesCopied.toNat := by
  rw [copied, List.length_map, List.length_range]

/-- No more entries are copied than were looked at. -/
theorem Copied.num_le (h : Copied cpuLogBuffer results w) :
    w.numOfEntriesCopied.toNat ≤ w.examined.length := by
  have hlength : (w.examined.map cpuLogBuffer).length = w.examined.length := List.length_map _
  rw [← length_copied, h.copied, ← hlength]
  exact List.length_filter_le _ _

@[simp] theorem examined_examine (cpuLogBuffer : Nat → LogEntry) (w : RingWalk) :
    (w.examine cpuLogBuffer).examined = w.examined ++ [w.index.toNat] := by
  unfold examine
  simp only
  split <;> rfl

@[simp] theorem index_examine (cpuLogBuffer : Nat → LogEntry) (w : RingWalk) :
    (w.examine cpuLogBuffer).index = w.index := by
  unfold examine
  simp only
  split <;> rfl

@[simp] theorem count_examine (cpuLogBuffer : Nat → LogEntry) (w : RingWalk) :
    (w.examine cpuLogBuffer).count = w.count := by
  unfold examine
  simp only
  split <;> rfl

/-- Looking at one more entry. -/
theorem Copied.examine (h : Copied cpuLogBuffer results w)
    (hfew : w.examined.length + 1 < 2 ^ 32) :
    Copied cpuLogBuffer results (w.examine cpuLogBuffer) := by
  have hlist : ((w.examine cpuLogBuffer).examined.map cpuLogBuffer).filter LogEntry.isValid =
      w.copied ++ [cpuLogBuffer w.index.toNat].filter LogEntry.isValid := by
    rw [examined_examine, List.map_append, List.filter_append, ← h.copied, List.map_singleton]
  have hnum := h.num_le
  cases hvalid : (cpuLogBuffer w.index.toNat).isValid with
  | false =>
    have hw : w.examine cpuLogBuffer = { w with examined := w.examined ++ [w.index.toNat] } := by
      unfold RingWalk.examine
      simp only [hvalid, Bool.false_eq_true, if_false]
    refine ⟨?_, fun i hi => ?_⟩
    · rw [hlist, List.filter_singleton, hvalid, hw]
      exact (List.append_nil _).symm
    · rw [hw] at hi ⊢
      exact h.rest i hi
  | true =>
    have hw : w.examine cpuLogBuffer =
        { w with
          examined := w.examined ++ [w.index.toNat]
          results := Function.update w.results w.numOfEntriesCopied.toNat
            (cpuLogBuffer w.index.toNat)
          numOfEntriesCopied := w.numOfEntriesCopied + 1 } := by
      unfold RingWalk.examine
      simp only [hvalid, if_true]
    have hsucc : (w.numOfEntriesCopied + 1).toNat = w.numOfEntriesCopied.toNat + 1 := by
      rw [BitVec.toNat_add]
      exact Nat.mod_eq_of_lt (by have : (1 : U32).toNat = 1 := rfl; omega)
    refine ⟨?_, fun i hi => ?_⟩
    · rw [hlist, List.filter_singleton, hvalid, hw]
      simp only [RingWalk.copied, hsucc, List.range_succ, List.map_append, List.map_singleton,
        Function.update_self]
      congr 1
      refine List.map_congr_left fun i hi => Function.update_of_ne ?_ _ _
      exact (List.mem_range.mp hi).ne
    · rw [hw] at hi ⊢
      simp only [hsucc] at hi ⊢
      rw [Function.update_of_ne (by omega)]
      exact h.rest i (by omega)

/-- The index of the first slot, where the numbers are small enough not to wrap. -/
theorem toNat_startIndex {index count : U32} (hindex : index.toNat ≤ logsPerCpu)
    (hcount : count.toNat ≤ logsPerCpu) :
    (if index ≤ count then
      ((BitVec.ofNat 64 logsPerCpu - (count - index).zeroExtend 64).truncate 32 : U32)
    else index - count).toNat =
      if index.toNat ≤ count.toNat then logsPerCpu - (count.toNat - index.toNat)
      else index.toNat - count.toNat := by
  rw [logsPerCpu_eq] at *
  by_cases hle : index ≤ count
  · rw [if_pos hle, if_pos (BitVec.le_def.mp hle)]
    bv_omega
  · rw [if_neg hle, if_neg fun h => hle (BitVec.le_def.mpr h)]
    bv_omega

/-- **Before the loop**, `index` is `k` slots before the stop slot. -/
theorem walking_start (cpuLogBuffer : Nat → LogEntry) (startSeqNum : U64) (count : BitVec 32)
    (results : Nat → LogEntry) :
    Walking cpuLogBuffer results (readCount count)
      (logsPerCpu + startSeqNum.toNat - readCount count) (start startSeqNum count results) := by
  have hle := readCount_le count
  have hmax := logSeqNumToIndex_le startSeqNum
  have hcount : (start startSeqNum count results).count.toNat = readCount count := by
    rw [← clamp_eq_readCount]
    unfold start
    simp only
    split <;> rfl
  have hindex : (BitVec.ofNat 32 (logSeqNumToIndex startSeqNum)).toNat =
      logSeqNumToIndex startSeqNum := by
    rw [BitVec.toNat_ofNat]
    exact Nat.mod_eq_of_lt (by rw [logsPerCpu_eq] at hmax; omega)
  refine ⟨hcount, ?_, rfl, rfl, fun _ _ => rfl⟩
  rw [← hcount] at hle
  rw [← hindex] at hmax
  refine (toNat_startIndex hmax hle).trans ?_
  rw [hindex, hcount, readLogs_index startSeqNum (readCount_le count)]
  rfl

/-- The variables at the end of a pass, before the test of `index`. -/
def advance (cpuLogBuffer : Nat → LogEntry) (w : RingWalk) : RingWalk :=
  let w := w.examine cpuLogBuffer
  { w with index := if logsPerCpu ≤ w.index.toNat then 1 else w.index + 1 }

theorem pass_eq (cpuLogBuffer : Nat → LogEntry) (startSeqNum : U64) (w : RingWalk) :
    w.pass cpuLogBuffer startSeqNum =
      if w.count = 0 then .inl w
      else if (w.advance cpuLogBuffer).index.toNat = logSeqNumToIndex startSeqNum then
        .inl (w.advance cpuLogBuffer)
      else .inr { w.advance cpuLogBuffer with count := w.count - 1 } := by
  have hcount : (w.advance cpuLogBuffer).count = w.count := count_examine cpuLogBuffer w
  rw [← hcount]
  unfold pass advance
  simp only [count_examine]

theorem Walking.index_advance (h : Walking cpuLogBuffer results k first w) :
    (w.advance cpuLogBuffer).index.toNat =
      (first + (w.examined.length + 1)) % logsPerCpu + 1 := by
  have hindex := h.index
  unfold advance
  simp only [index_examine]
  rw [logsPerCpu_eq] at hindex ⊢
  split
  · show (1 : Nat) = _
    omega
  · bv_omega

theorem Walking.examined_advance (h : Walking cpuLogBuffer results k first w) :
    (w.advance cpuLogBuffer).examined =
      (List.range' first (w.examined.length + 1)).map fun p => p % logsPerCpu + 1 := by
  have hexamined : (w.advance cpuLogBuffer).examined = w.examined ++ [w.index.toNat] :=
    examined_examine cpuLogBuffer w
  rw [hexamined, List.range'_1_concat, List.map_append, ← h.examined, List.map_singleton,
    h.index]

theorem Walking.copied_advance (h : Walking cpuLogBuffer results k first w)
    (hk : k ≤ logsPerCpu) : Copied cpuLogBuffer results (w.advance cpuLogBuffer) := by
  have hfew : w.examined.length + 1 < 2 ^ 32 := by
    have := h.count
    rw [logsPerCpu_eq] at hk
    omega
  exact ⟨(h.copied.examine hfew).copied, (h.copied.examine hfew).rest⟩

/-- The loop is left after `k` slots. -/
theorem Walking.leave {startSeqNum : U64} (h : Walking cpuLogBuffer results k first w)
    (hk : k ≤ logsPerCpu)
    (hstop : logSeqNumToIndex startSeqNum = (first + k) % logsPerCpu + 1)
    {w' : RingWalk} (hpass : w.pass cpuLogBuffer startSeqNum = .inl w') :
    w'.examined = (List.range' first k).map (fun p => p % logsPerCpu + 1) ∧
      Copied cpuLogBuffer results w' := by
  have hcount := h.count
  rw [pass_eq] at hpass
  split at hpass
  · rename_i hzero
    cases hpass
    rw [hzero] at hcount
    refine ⟨?_, h.copied⟩
    rw [← hcount]
    simpa using h.examined
  · rename_i hpos
    split at hpass
    swap
    · exact absurd hpass Sum.inr_ne_inl
    rename_i hback
    cases hpass
    -- the walk is back at the stop slot, less than a round after its start: nothing is left
    have hall : w.examined.length + 1 = k := by
      have hpos' : w.count.toNat ≠ 0 := BitVec.toNat_ne.mp hpos
      rw [h.index_advance, hstop] at hback
      rw [logsPerCpu_eq] at hback hk
      omega
    refine ⟨?_, h.copied_advance hk⟩
    rw [h.examined_advance, hall]

/-- Otherwise one slot less is left. -/
theorem Walking.again {startSeqNum : U64} (h : Walking cpuLogBuffer results k first w)
    (hk : k ≤ logsPerCpu) {w' : RingWalk} (hpass : w.pass cpuLogBuffer startSeqNum = .inr w') :
    Walking cpuLogBuffer results k first w' ∧ w'.count.toNat < w.count.toNat := by
  have hcount := h.count
  rw [pass_eq] at hpass
  split at hpass
  · exact absurd hpass Sum.inl_ne_inr
  rename_i hpos
  split at hpass
  · exact absurd hpass Sum.inl_ne_inr
  cases hpass
  have hpred : (w.count - 1).toNat + 1 = w.count.toNat := by
    have hpos' : w.count.toNat ≠ 0 := BitVec.toNat_ne.mp hpos
    bv_omega
  have hlength : (w.advance cpuLogBuffer).examined.length = w.examined.length + 1 := by
    rw [h.examined_advance, List.length_map, List.length_range']
  refine ⟨⟨?_, ?_, ?_, ?_⟩, by simp only; omega⟩
  · simp only [hlength]
    omega
  · simp only [hlength]
    exact h.index_advance
  · simp only [hlength]
    exact h.examined_advance
  · exact ⟨(h.copied_advance hk).copied, (h.copied_advance hk).rest⟩

end RingWalk

/-! ## The whole walk -/

/-- **The loop of `read_logs` ends**, after the `k` slots before the stop slot. -/
theorem readLogs_ends (cpuLogBuffer : Nat → LogEntry) (startSeqNum : U64) (count : BitVec 32)
    (results : Nat → LogEntry) :
    ∃ w, Ends (RingWalk.pass cpuLogBuffer startSeqNum) (.start startSeqNum count results) w ∧
      w.examined = precedingSlots (logSeqNumToIndex startSeqNum) (readCount count) ∧
      RingWalk.Copied cpuLogBuffer results w := by
  have hle := readCount_le count
  have hstart := RingWalk.walking_start cpuLogBuffer startSeqNum count results
  have hstop : logSeqNumToIndex startSeqNum =
      (logsPerCpu + startSeqNum.toNat - readCount count + readCount count) % logsPerCpu + 1 := by
    unfold logSeqNumToIndex
    rw [Nat.sub_add_cancel (by omega), Nat.add_mod_left]
  rw [precedingSlots_logSeqNumToIndex startSeqNum hle]
  exact ends_of_measure (fun w => w.count.toNat)
    (fun w w' hw hpass => hw.leave hle hstop hpass)
    (fun w w' hw hpass => hw.again hle hpass) _ hstart

/-- **`read_logs` on any buffer.** It looks at the `k` slots before the stop slot in ring order,
all distinct and none of them the meta entry, and `results` is the valid ones in that order. -/
theorem readLogs_walk (cpuLogBuffer : Nat → LogEntry) (startSeqNum : U64) (count : BitVec 32)
    (results : Nat → LogEntry) :
    ∃ w, Ends (RingWalk.pass cpuLogBuffer startSeqNum) (.start startSeqNum count results) w ∧
      w.examined = precedingSlots (logSeqNumToIndex startSeqNum) (readCount count) ∧
      w.examined.length = readCount count ∧ w.examined.Nodup ∧
      (∀ slot ∈ w.examined, 1 ≤ slot ∧ slot ≤ logsPerCpu) ∧
      (List.range w.numOfEntriesCopied.toNat).map w.results =
        (w.examined.map cpuLogBuffer).filter LogEntry.isValid ∧
      w.numOfEntriesCopied.toNat =
        ((w.examined.map cpuLogBuffer).filter LogEntry.isValid).length ∧
      ∀ i, w.numOfEntriesCopied.toNat ≤ i → w.results i = results i := by
  have hle := readCount_le count
  obtain ⟨w, hends, hexamined, hcopied⟩ := readLogs_ends cpuLogBuffer startSeqNum count results
  have hrange := precedingSlots_logSeqNumToIndex startSeqNum hle
  refine ⟨w, hends, hexamined, ?_, ?_, ?_, hcopied.copied, ?_, hcopied.rest⟩
  · rw [hexamined, length_precedingSlots]
  · rw [hexamined, hrange]
    exact nodup_slots _ hle
  · intro slot hslot
    rw [hexamined, hrange] at hslot
    obtain ⟨p, -, rfl⟩ := List.mem_map.mp hslot
    exact ⟨Nat.le_add_left 1 _, Nat.mod_lt _ (by decide)⟩
  · rw [← hcopied.copied, RingWalk.length_copied]

/-- **The walk copies what `readLogs` says.** -/
theorem walk_eq_readLogs (area : LogArea) (start : Nat) (startSeqNum : U64) (count : BitVec 32)
    (results : Nat → LogEntry) {w : RingWalk}
    (hends : Ends (RingWalk.pass (fun i => area (start + i)) startSeqNum)
      (.start startSeqNum count results) w) :
    w.copied = readLogs area start startSeqNum count := by
  have hle := readCount_le count
  obtain ⟨w', hends', hexamined, hcopied⟩ :=
    readLogs_ends (fun i => area (start + i)) startSeqNum count results
  rw [hends.unique hends', hcopied.copied, hexamined, readLogs_eq_window,
    precedingSlots_logSeqNumToIndex startSeqNum hle, List.map_map]
  rfl

end IkgtUsage
