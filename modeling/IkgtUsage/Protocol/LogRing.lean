import IkgtUsage.Driver.Log
import IkgtUsage.Handler.Log
import IkgtUsage.Lib.Ring
import IkgtUsage.Lib.Run

/-!
# The log ring: written by the handler, read by the driver

The two programs share the area, the head in entry 0 and `LOG_SEQ_NUM_TO_INDEX`. `CpuRing` says
what the buffer of one CPU holds after the appends `hist`: it is a ring of `Lib/Ring.lean` whose
slot `i` is entry `i + 1`. An append to the CPU extends it (`CpuRing.append_self`), an append to
another CPU leaves it (`CpuRing.append_other`).

On the reader's side `read_logs` is a window of that ring, on any buffer (`readLogs_eq_window`). The
two halves meet in `readLogs_last`.
-/

namespace IkgtUsage

open Lib

/-! ## The reader -/

/-- The number of slots `read_logs` looks at. -/
def readCount (count : BitVec 32) : Nat :=
  if 0 ≤ count.toInt ∧ count.toInt ≤ logsPerCpu then count.toNat else logsPerCpu

theorem readCount_le (count : BitVec 32) : readCount count ≤ logsPerCpu := by
  unfold readCount
  split
  · rename_i h
    have := BitVec.toInt_eq_toNat_cond count
    split at this <;> omega
  · exact le_refl _

/-- The comparisons of `read_logs` with `-1` and with a `size_t` make `readCount`. -/
theorem clamp_eq_readCount (count : BitVec 32) :
    (if count = -1 ∨ logsPerCpu < (count.signExtend 64).toNat then logsPerCpu else count.toNat) =
      readCount count := by
  have hint := BitVec.toInt_eq_toNat_cond count
  have hext := BitVec.toNat_signExtend count (v := 64)
  have hwidth : (count.setWidth 64).toNat = count.toNat := by
    rw [BitVec.toNat_setWidth]
    omega
  have hmsb : count.msb = decide (2 ^ 31 ≤ count.toNat) := BitVec.msb_eq_decide count
  rw [hwidth, hmsb] at hext
  unfold readCount
  by_cases hneg : 2 ^ 31 ≤ count.toNat
  · rw [decide_eq_true hneg, if_pos rfl] at hext
    rw [if_pos (Or.inr (by rw [hext, logsPerCpu_eq]; omega)), if_neg (by omega)]
  · rw [decide_eq_false hneg, if_neg Bool.false_ne_true, Nat.add_zero] at hext
    rw [if_pos (by omega)] at hint
    have hminus : count ≠ -1 := by
      rintro rfl
      exact hneg (by decide)
    by_cases hbig : logsPerCpu < count.toNat
    · rw [if_pos (Or.inr (hext ▸ hbig)), if_neg (by omega)]
    · rw [if_neg (by rintro (h | h) <;> [exact hminus h; exact hbig (hext ▸ h)]),
        if_pos (by omega)]

/-- A count that is negative as an `int` is above `LOGS_PER_CPU` as an unsigned number. -/
theorem readCount_eq_min (count : BitVec 32) : readCount count = min count.toNat logsPerCpu := by
  have hint := BitVec.toInt_eq_toNat_cond count
  unfold readCount
  rw [logsPerCpu_eq]
  split at hint <;> split <;> omega

/-- The slots of the buffer that starts at index `start`. -/
def cpuSlots (area : LogArea) (start : Nat) : Nat → LogEntry := fun i => area (start + (i + 1))

/-- The loop of `read_logs` from position `p` of the ring: the walk stops after `count` slots. -/
theorem readLogsLoop_eq (area : LogArea) (start : Nat) :
    ∀ (count p : Nat), count ≤ logsPerCpu →
      readLogsLoop area start ((p + count) % logsPerCpu + 1) count (p % logsPerCpu + 1) =
        ((List.range' p count).map fun q => cpuSlots area start (q % logsPerCpu)).filter
          LogEntry.isValid
  | 0, _, _ => rfl
  | count + 1, p, hcount => by
    have hnext : (if logsPerCpu ≤ p % logsPerCpu + 1 then 1 else p % logsPerCpu + 1 + 1) =
        (p + 1) % logsPerCpu + 1 := by
      rw [logsPerCpu_eq]
      split <;> omega
    have hrest : (if (p + 1) % logsPerCpu + 1 = (p + (count + 1)) % logsPerCpu + 1 then []
        else readLogsLoop area start ((p + (count + 1)) % logsPerCpu + 1) count
          ((p + 1) % logsPerCpu + 1)) =
        ((List.range' (p + 1) count).map fun q => cpuSlots area start (q % logsPerCpu)).filter
          LogEntry.isValid := by
      by_cases hstop : (p + 1) % logsPerCpu + 1 = (p + (count + 1)) % logsPerCpu + 1
      · -- the walk is back at the head: nothing was left to read
        have hzero : count = 0 := by
          rw [logsPerCpu_eq] at hstop hcount
          omega
        rw [if_pos hstop, hzero]
        rfl
      · rw [if_neg hstop, ← readLogsLoop_eq area start count (p + 1) (by omega), add_assoc,
          add_comm 1 count]
    unfold readLogsLoop
    simp only [hnext, hrest, List.range'_succ, List.map_cons, List.filter_cons]
    rfl

/-- The index that `read_logs` starts at. -/
theorem readLogs_index (startSeqNum : U64) {k : Nat} (hle : k ≤ logsPerCpu) :
    (if logSeqNumToIndex startSeqNum ≤ k then logsPerCpu - (k - logSeqNumToIndex startSeqNum)
      else logSeqNumToIndex startSeqNum - k) =
      (logsPerCpu + startSeqNum.toNat - k) % logsPerCpu + 1 := by
  unfold logSeqNumToIndex
  rw [logsPerCpu_eq] at hle ⊢
  split <;> omega

/-- **`read_logs` on any buffer**: the valid ones among the slots before the head. -/
theorem readLogs_eq_window (area : LogArea) (start : Nat) (startSeqNum : U64)
    (count : BitVec 32) :
    readLogs area start startSeqNum count =
      (window logsPerCpu (cpuSlots area start) startSeqNum.toNat (readCount count)).filter
        LogEntry.isValid := by
  have hle := readCount_le count
  unfold readLogs window
  simp only [clamp_eq_readCount]
  generalize readCount count = k at hle
  have hloop := readLogsLoop_eq area start k (logsPerCpu + startSeqNum.toNat - k) hle
  have hstop : (logsPerCpu + startSeqNum.toNat - k + k) % logsPerCpu + 1 =
      logSeqNumToIndex startSeqNum := by
    unfold logSeqNumToIndex
    rw [Nat.sub_add_cancel (by omega), Nat.add_mod_left]
  rw [hstop, ← readLogs_index startSeqNum hle] at hloop
  exact hloop

/-! ## The writer -/

/-- The entry of record number `q`. -/
def LogRecord.stored (q : Nat) (r : LogRecord) : LogEntry := r.entry (BitVec.ofNat 64 q)

/-- An entry no record has been written to. -/
def LogEntry.Blank (e : LogEntry) : Prop := e.valid = 0

/-- The buffer of a CPU after the appends `hist`. -/
structure CpuRing (area : LogArea) (cpu : Nat) (hist : List LogRecord) : Prop where
  head : getLastSeqNum area (getCpuLogBufferStart cpu) = BitVec.ofNat 64 hist.length
  ring : Retains logsPerCpu LogRecord.stored LogEntry.Blank
    (cpuSlots area (getCpuLogBufferStart cpu)) hist

/-- An append touches its own buffer only. -/
theorem logBufferAddRecord_of_outside {start i : Nat} (hi : i < start ∨ start + logsPerCpu < i)
    (r : LogRecord) (area : LogArea) : logBufferAddRecord start r area i = area i := by
  have hle := logSeqNumToIndex_le (area start).metaHead
  have hpos := logSeqNumToIndex_pos (area start).metaHead
  unfold logBufferAddRecord
  rw [Function.update_of_ne (by omega), Function.update_of_ne (by omega)]

/-- An append advances the head. -/
theorem getLastSeqNum_logBufferAddRecord (start : Nat) (r : LogRecord) (area : LogArea) :
    getLastSeqNum (logBufferAddRecord start r area) start = getLastSeqNum area start + 1 := by
  unfold logBufferAddRecord getLastSeqNum
  rw [Function.update_self, LogEntry.metaHead_withMetaHead]

/-- An append fills the slot of the head. -/
theorem cpuSlots_logBufferAddRecord (start : Nat) (r : LogRecord) (area : LogArea) :
    cpuSlots (logBufferAddRecord start r area) start =
      Function.update (cpuSlots area start) ((getLastSeqNum area start).toNat % logsPerCpu)
        (r.entry (getLastSeqNum area start)) := by
  funext i
  unfold cpuSlots logBufferAddRecord getLastSeqNum
  rw [Function.update_of_ne (by omega)]
  by_cases hi : i = (area start).metaHead.toNat % logsPerCpu
  · rw [hi, Function.update_self]
    exact Function.update_self _ _ _
  · rw [Function.update_of_ne hi]
    refine Function.update_of_ne ?_ _ _
    unfold logSeqNumToIndex
    omega

/-- The buffers of two CPUs do not overlap. -/
theorem buffers_disjoint {c c' : Nat} (h : c ≠ c') {i : Nat} (hi : i ≤ logsPerCpu) :
    getCpuLogBufferStart c + i < getCpuLogBufferStart c' ∨
      getCpuLogBufferStart c' + logsPerCpu < getCpuLogBufferStart c + i := by
  unfold getCpuLogBufferStart
  rw [logsPerCpu_eq] at hi ⊢
  rw [entriesPerCpu_eq]
  omega

namespace CpuRing

variable {area : LogArea} {c c' : Nat} {hist : List LogRecord}

/-- The head counts the records. -/
theorem toNat_head (h : CpuRing area c hist) (hlen : hist.length < 2 ^ 64) :
    (getLastSeqNum area (getCpuLogBufferStart c)).toNat = hist.length := by
  rw [h.head, BitVec.toNat_ofNat, Nat.mod_eq_of_lt hlen]

/-- A zeroed area. -/
theorem zero (c : Nat) : CpuRing (fun _ => .zero) c [] := ⟨rfl, .nil fun _ _ => rfl⟩

/-- **An append to the CPU.** -/
theorem append_self (h : CpuRing area c hist) (hlen : hist.length < 2 ^ 64) (r : LogRecord) :
    CpuRing (logBufferAddRecord (getCpuLogBufferStart c) r area) c (hist ++ [r]) := by
  refine ⟨?_, ?_⟩
  · rw [getLastSeqNum_logBufferAddRecord, h.head, List.length_append, List.length_singleton,
      BitVec.ofNat_add]
    rfl
  · rw [cpuSlots_logBufferAddRecord, h.toNat_head hlen, h.head]
    exact h.ring.append r

/-- **An append to another CPU.** -/
theorem append_other (h : CpuRing area c hist) (hne : c ≠ c') (r : LogRecord) :
    CpuRing (logBufferAddRecord (getCpuLogBufferStart c') r area) c hist := by
  have hsame : ∀ i ≤ logsPerCpu,
      logBufferAddRecord (getCpuLogBufferStart c') r area (getCpuLogBufferStart c + i) =
        area (getCpuLogBufferStart c + i) := fun i hi =>
    logBufferAddRecord_of_outside (buffers_disjoint hne hi) r area
  refine ⟨?_, fun q hq hlast => ?_, fun i hi hlen => ?_⟩
  · have hmeta := hsame 0 (Nat.zero_le _)
    rw [Nat.add_zero] at hmeta
    unfold getLastSeqNum
    rw [hmeta]
    exact h.head
  · have hslot := hsame (q % logsPerCpu + 1) (Nat.mod_lt q (by decide))
    unfold cpuSlots
    rw [hslot]
    exact h.ring.recent q hq hlast
  · have hslot := hsame (i + 1) hi
    unfold cpuSlots
    rw [hslot]
    exact h.ring.unwritten i hi hlen

/-- **What `read_logs` returns at the head**: the last records, as they were appended. -/
theorem readLogs_head (h : CpuRing area c hist) (hlen : hist.length < 2 ^ 64)
    (count : BitVec 32) :
    readLogs area (getCpuLogBufferStart c) (getLastSeqNum area (getCpuLogBufferStart c)) count =
      lastStored LogRecord.stored hist (readCount count) := by
  rw [readLogs_eq_window, h.toNat_head hlen]
  refine h.ring.window_filter (readCount_le count) (fun _ _ => rfl) fun e he => ?_
  unfold LogEntry.isValid
  rw [he]
  rfl

end CpuRing

/-! ## Runs of appends -/

/-- `log_buffer_add_record` on the buffer of a CPU. -/
def appendRecord (area : LogArea) (a : Nat × LogRecord) : LogArea :=
  logBufferAddRecord (getCpuLogBufferStart a.1) a.2 area

/-- The records appended to a CPU. -/
def recordsOf (c : Nat) (appends : List (Nat × LogRecord)) : List LogRecord :=
  (appends.filter fun a => a.1 = c).map Prod.snd

theorem length_recordsOf_le (c : Nat) (appends : List (Nat × LogRecord)) :
    (recordsOf c appends).length ≤ appends.length := by
  unfold recordsOf
  rw [List.length_map]
  exact List.length_filter_le _ _

/-- The rings of all CPUs after a run of appends. -/
theorem cpuRing_run (c : Nat) :
    ∀ (appends : List (Nat × LogRecord)) {area : LogArea} {hist : List LogRecord},
      CpuRing area c hist → (hist ++ recordsOf c appends).length < 2 ^ 64 →
        CpuRing (run appendRecord area appends) c (hist ++ recordsOf c appends)
  | [], _, hist, h, _ => by simpa [recordsOf] using h
  | a :: appends, area, hist, h, hlen => by
    by_cases hc : a.1 = c
    · subst hc
      have hrecords : recordsOf a.1 (a :: appends) = a.2 :: recordsOf a.1 appends := by
        simp [recordsOf]
      rw [hrecords] at hlen ⊢
      have happend := h.append_self (by simp at hlen; omega) a.2
      have hrest := cpuRing_run a.1 appends happend (by simpa using hlen)
      rwa [List.append_assoc, List.singleton_append] at hrest
    · have hrecords : recordsOf c (a :: appends) = recordsOf c appends := by
        simp [recordsOf, hc]
      rw [hrecords] at hlen ⊢
      exact cpuRing_run c appends (h.append_other (Ne.symm hc) a.2) hlen

/-- The area of `init_log` is zero. -/
theorem initLog_area (numOfCpus : U32) (s : LogDriver) :
    (initLog numOfCpus (true, true) s).logDataGva = .live fun _ => LogEntry.zero := by
  have hzero : ∀ cpus : List Nat, cpus.foldl
      (fun area cpuIndex => logBufferInit (getCpuLogBufferStart cpuIndex) area)
        (fun _ => LogEntry.zero) = fun _ => LogEntry.zero := by
    intro cpus
    induction cpus with
    | nil => rfl
    | cons c cpus ih =>
      have hinit : logBufferInit (getCpuLogBufferStart c) (fun _ => LogEntry.zero) =
          fun _ => LogEntry.zero := Function.update_eq_self _ _
      rw [List.foldl_cons, hinit, ih]
  unfold initLog
  simp only [Bool.not_true, Bool.false_eq_true, if_false, hzero]

/-- An entry of the buffer of a CPU lies in the area that `init_log` allocates. -/
theorem entryEnd_le_logAreaSize {numOfCpus : U32}
    (hsize : numOfCpus.toNat * logPagesPerCpu * page4KB < 2 ^ 32) {c i : Nat}
    (hc : c < numOfCpus.toNat) (hi : i ≤ logsPerCpu) :
    entryEnd (getCpuLogBufferStart c + i) ≤ (logAreaSize numOfCpus).toNat := by
  have hmul : (logAreaSize numOfCpus).toNat = numOfCpus.toNat * logPagesPerCpu * page4KB := by
    unfold logAreaSize
    have hpages : numOfCpus.toNat * logPagesPerCpu < 2 ^ 32 := by
      unfold logPagesPerCpu page4KB at *
      omega
    rw [BitVec.toNat_mul, BitVec.toNat_mul]
    simp only [BitVec.toNat_ofNat]
    rw [show logPagesPerCpu % 2 ^ 32 = logPagesPerCpu from rfl,
      show page4KB % 2 ^ 32 = page4KB from rfl, Nat.mod_eq_of_lt hpages, Nat.mod_eq_of_lt hsize]
  rw [hmul]
  unfold entryEnd getCpuLogBufferStart sizeofLogEntry logPagesPerCpu page4KB
  rw [entriesPerCpu_eq]
  rw [logsPerCpu_eq] at hi
  omega

/-- **The ring writer and the ring reader agree.** Start from the area of `init_log` for
`numOfCpus` CPUs and append any records to these CPUs, fewer than `2 ^ 64` each. Then for every CPU
`c` and every `count`, the head counts the records of `c`, and `read_logs` at the head returns the
last `min k N_c` of them, oldest first, with their contents and consecutive numbers. All entries
concerned lie in the allocated area; an append changes no entry of another CPU's buffer, and its
own head by one. -/
theorem readLogs_last {numOfCpus : U32}
    (hsize : numOfCpus.toNat * logPagesPerCpu * page4KB < 2 ^ 32)
    {appends : List (Nat × LogRecord)} (hfew : ∀ c, (recordsOf c appends).length < 2 ^ 64)
    {c : Nat} (hc : c < numOfCpus.toNat) (count : BitVec 32) :
    ∃ area₀, (initLog numOfCpus (true, true) .atLoad).logDataGva = .live area₀ ∧
      let area := run appendRecord area₀ appends
      let start := getCpuLogBufferStart c
      let hist := recordsOf c appends
      (getLastSeqNum area start).toNat = hist.length ∧
        readLogs area start (getLastSeqNum area start) count =
          (hist.mapIdx LogRecord.stored).drop (hist.length - readCount count) ∧
        (∀ i ≤ logsPerCpu, entryEnd (start + i) ≤ (logAreaSize numOfCpus).toNat) ∧
        (∀ c' r, c ≠ c' → ∀ i ≤ logsPerCpu,
          appendRecord area (c', r) (start + i) = area (start + i)) ∧
        ∀ r, getLastSeqNum (appendRecord area (c, r)) start = getLastSeqNum area start + 1 := by
  refine ⟨_, initLog_area numOfCpus .atLoad, ?_⟩
  have hring := cpuRing_run c appends (CpuRing.zero c) (by simpa using hfew c)
  rw [List.nil_append] at hring
  exact ⟨hring.toNat_head (hfew c), hring.readLogs_head (hfew c) count,
    fun i hi => entryEnd_le_logAreaSize hsize hc hi,
    fun c' r hne i hi => logBufferAddRecord_of_outside (buffers_disjoint hne hi) r _,
    fun r => getLastSeqNum_logBufferAddRecord _ r _⟩

/-- Two CPUs, three appends, a reader that asks for two records of CPU 0. -/
theorem readLogs_last_two_cpus :
    let appends : List (Nat × LogRecord) :=
      [(0, ⟨1, 2, 3, 4⟩), (1, ⟨5, 6, 7, 8⟩), (0, ⟨9, 0, 1, 2⟩)]
    ∃ area₀, (initLog 2 (true, true) .atLoad).logDataGva = .live area₀ ∧
      let area := run appendRecord area₀ appends
      let start := getCpuLogBufferStart 0
      let hist := recordsOf 0 appends
      (getLastSeqNum area start).toNat = hist.length ∧
        readLogs area start (getLastSeqNum area start) 2 =
          (hist.mapIdx LogRecord.stored).drop (hist.length - readCount 2) ∧
        (∀ i ≤ logsPerCpu, entryEnd (start + i) ≤ (logAreaSize 2).toNat) ∧
        (∀ c' r, 0 ≠ c' → ∀ i ≤ logsPerCpu,
          appendRecord area (c', r) (start + i) = area (start + i)) ∧
        ∀ r, getLastSeqNum (appendRecord area (0, r)) start = getLastSeqNum area start + 1 :=
  readLogs_last (by decide) (fun c => (length_recordsOf_le c _).trans_lt (by decide)) (by decide) 2

end IkgtUsage
