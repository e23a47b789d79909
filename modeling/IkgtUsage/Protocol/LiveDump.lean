import IkgtUsage.Protocol.LogRing
import IkgtUsage.Driver.Dump

/-!
# A dump step by step, while the handler logs

No lock keeps the handler from logging while `dump_log` runs. `LiveLog` is the log with the program
counter of `dump_log`: one step reads the head of a CPU, or copies one slot in the loop of
`read_logs`. Between two steps the handler may append a record to any CPU. What a running `dump_log`
has read it formats on its own memory, which no append reaches: that is part of the last copy.

Three fields are not in the source: the records appended, the calls of `read_logs` that have
returned, and those of them since a dump last filled its page. Where nothing is appended in between,
the steps come to `dumpCpus` (`run_dump`).
-/

namespace IkgtUsage

open Lib

/-! ## One call of `read_logs` -/

/-- The variables of a running `read_logs`. -/
structure LogReader where
  startSeqNum : U64
  count : Nat
  index : Nat
  results : List LogEntry

namespace LogReader

/-- `read_logs` before its loop. -/
def start (startSeqNum : U64) (count : BitVec 32) : LogReader :=
  let count :=
    if count = -1 ∨ logsPerCpu < (count.signExtend 64).toNat then logsPerCpu else count.toNat
  let index := logSeqNumToIndex startSeqNum
  let index := if index ≤ count then logsPerCpu - (count - index) else index - count
  ⟨startSeqNum, count, index, []⟩

/-- The loop runs at least once. -/
theorem count_start_pos (startSeqNum : U64) {count : U32} (h : count ≠ 0) :
    0 < (start startSeqNum count).count := by
  have hcount : (start startSeqNum count).count = readCount count := clamp_eq_readCount count
  have hpos : count.toNat ≠ 0 := fun hzero => h (BitVec.eq_of_toNat_eq hzero)
  rw [hcount, readCount_eq_min, logsPerCpu_eq]
  omega

/-- One iteration of the loop, and whether it is the last one. -/
def copy (area : LogArea) (bufferStart : Nat) (rd : LogReader) : LogReader × Bool :=
  let entry := area (bufferStart + rd.index)
  let results := if entry.isValid then rd.results ++ [entry] else rd.results
  let index := if logsPerCpu ≤ rd.index then 1 else rd.index + 1
  let count := rd.count - 1
  (⟨rd.startSeqNum, count, index, results⟩,
    index = logSeqNumToIndex rd.startSeqNum ∨ count = 0)

/-- What the rest of the loop copies if nothing is appended in between. -/
def rest (area : LogArea) (bufferStart : Nat) (rd : LogReader) : List LogEntry :=
  readLogsLoop area bufferStart (logSeqNumToIndex rd.startSeqNum) rd.count rd.index

theorem rest_start (area : LogArea) (bufferStart : Nat) (startSeqNum : U64) (count : BitVec 32) :
    (start startSeqNum count).rest area bufferStart =
      readLogs area bufferStart startSeqNum count := rfl

/-- With one slot left the iteration is the last one. -/
theorem copy_last (area : LogArea) (bufferStart : Nat) (rd : LogReader) (hcount : rd.count = 1) :
    (rd.copy area bufferStart).2 = true :=
  decide_eq_true (Or.inr (by rw [hcount]))

/-- **An iteration is the step of `readLogsLoop`.** -/
theorem rest_copy (area : LogArea) (bufferStart : Nat) {rd : LogReader} (hcount : 0 < rd.count) :
    rd.results ++ rd.rest area bufferStart =
      if (rd.copy area bufferStart).2 then (rd.copy area bufferStart).1.results
      else (rd.copy area bufferStart).1.results ++
        (rd.copy area bufferStart).1.rest area bufferStart := by
  obtain ⟨startSeqNum, count, index, results⟩ := rd
  cases count with
  | zero => exact absurd hcount (Nat.lt_irrefl 0)
  | succ count =>
    simp only [rest, copy, readLogsLoop, Nat.add_sub_cancel, decide_eq_true_eq]
    generalize (if logsPerCpu ≤ index then 1 else index + 1) = next
    by_cases hstop : next = logSeqNumToIndex startSeqNum
    · simp only [hstop, if_true, true_or]
      split
      · rfl
      · rw [List.append_nil]
    · simp only [hstop, if_false, false_or]
      cases count with
      | zero =>
        simp only [readLogsLoop, if_true]
        split
        · rfl
        · rw [List.append_nil]
      | succ count =>
        rw [if_neg (Nat.succ_ne_zero count)]
        split
        · rw [List.append_assoc, List.singleton_append]
        · rfl

end LogReader

/-! ## The system -/

/-- A call of `read_logs` that has returned: its CPU, the head it was given, its results. -/
structure LogRead where
  cpuIndex : Nat
  lastSeqNum : U64
  results : List LogEntry

/-- Where `dump_log` is. -/
inductive DumpPc
  /-- It is not running. -/
  | idle
  /-- Before it reads the head of a CPU. -/
  | head (cpuIndex : Nat) (d : DumpState)
  /-- In the loop of `read_logs`. -/
  | copy (cpuIndex : Nat) (d : DumpState) (rd : LogReader)
  /-- Stopped by the `BUG_ON`. -/
  | bug

/-- The log, with a dump that may be under way. -/
structure LiveLog where
  numOfCpus : U32
  area : LogArea
  logRecordSeqNum : Nat → U64
  pc : DumpPc
  records : Nat → List LogRecord
  reads : List LogRead
  sinceFull : List LogRead

namespace LiveLog

/-- The log after `init_log`. -/
def init (numOfCpus : U32) : LiveLog :=
  ⟨numOfCpus, fun _ => .zero, fun _ => 0, .idle, fun _ => [], [], []⟩

theorem initLog_eq (numOfCpus : U32) :
    initLog numOfCpus (true, true) .atLoad =
      ⟨numOfCpus, .live (init numOfCpus).logRecordSeqNum, .live (init numOfCpus).area, true⟩ := by
  have harea := initLog_area numOfCpus .atLoad
  unfold initLog at harea ⊢
  simp only [Bool.not_true, Bool.false_eq_true, if_false] at harea ⊢
  rw [harea]
  rfl

/-- The end of the body of the CPU loop: the next CPU, or the end of the dump. -/
def afterCpu (s : LiveLog) (cpuIndex : Nat) : Option DumpState → LiveLog
  | none => { s with pc := .bug }
  | some d =>
    if d.full then { s with logRecordSeqNum := d.logRecordSeqNum, pc := .idle, sinceFull := [] }
    else if cpuIndex + 1 < s.numOfCpus.toNat then { s with pc := .head (cpuIndex + 1) d }
    else { s with logRecordSeqNum := d.logRecordSeqNum, pc := .idle }

/-- `read_logs` has returned. -/
def returned (s : LiveLog) (cpuIndex : Nat) (rd : LogReader) : LiveLog :=
  let read : LogRead := ⟨cpuIndex, rd.startSeqNum, rd.results⟩
  { s with reads := s.reads ++ [read], sinceFull := s.sinceFull ++ [read] }

end LiveLog

/-- The next step of `dump_log`; a new dump starts where none is running. -/
def dumpStep (s : LiveLog) : LiveLog :=
  match s.pc with
  | .idle =>
    if 0 < s.numOfCpus.toNat then { s with pc := .head 0 (.start s.logRecordSeqNum) } else s
  | .head cpuIndex d =>
    let lastSeqNum := getLastSeqNum s.area (getCpuLogBufferStart cpuIndex)
    let numOfLogsToRead : U32 := (lastSeqNum - d.logRecordSeqNum cpuIndex).truncate 32
    let d := { d with logRecordSeqNum := Function.update d.logRecordSeqNum cpuIndex lastSeqNum }
    if numOfLogsToRead = 0 ∨ lastSeqNum = 0 then s.afterCpu cpuIndex (some d)
    else { s with pc := .copy cpuIndex d (.start lastSeqNum numOfLogsToRead) }
  | .copy cpuIndex d rd =>
    let (rd, done) := rd.copy s.area (getCpuLogBufferStart cpuIndex)
    if done then (s.returned cpuIndex rd).afterCpu cpuIndex (dumpRecords cpuIndex rd.results d)
    else { s with pc := .copy cpuIndex d rd }
  | .bug => s

/-- What happens: the handler logs an event on a CPU, or the dump takes a step. -/
inductive LiveAction
  | append (cpuIndex : Nat) (r : LogRecord)
  | dump

/-- One action. -/
def liveStep (s : LiveLog) : LiveAction → LiveLog
  | .append c r =>
    { s with
      area := appendRecord s.area (c, r)
      records := Function.update s.records c (s.records c ++ [r]) }
  | .dump => dumpStep s

/-! ## An undisturbed dump -/

/-- Only the program counter and the calls that have returned may differ. -/
structure SameLog (s s' : LiveLog) : Prop where
  numOfCpus : s'.numOfCpus = s.numOfCpus
  area : s'.area = s.area
  logRecordSeqNum : s'.logRecordSeqNum = s.logRecordSeqNum

theorem SameLog.refl (s : LiveLog) : SameLog s s := ⟨rfl, rfl, rfl⟩

theorem SameLog.returned (s : LiveLog) (cpuIndex : Nat) (rd : LogReader) :
    SameLog s (s.returned cpuIndex rd) := ⟨rfl, rfl, rfl⟩

section

variable {s : LiveLog} {cpuIndex : Nat} {d : DumpState} {rd : LogReader}

/-- The last iteration. -/
theorem dumpStep_copy_done (hpc : s.pc = .copy cpuIndex d rd)
    (hdone : (rd.copy s.area (getCpuLogBufferStart cpuIndex)).2 = true) :
    dumpStep s =
      (s.returned cpuIndex (rd.copy s.area (getCpuLogBufferStart cpuIndex)).1).afterCpu cpuIndex
        (dumpRecords cpuIndex (rd.copy s.area (getCpuLogBufferStart cpuIndex)).1.results d) := by
  unfold dumpStep
  simp only [hpc]
  rw [if_pos hdone]

/-- Another iteration. -/
theorem dumpStep_copy_more (hpc : s.pc = .copy cpuIndex d rd)
    (hmore : ¬ (rd.copy s.area (getCpuLogBufferStart cpuIndex)).2 = true) :
    dumpStep s =
      { s with pc := .copy cpuIndex d (rd.copy s.area (getCpuLogBufferStart cpuIndex)).1 } := by
  unfold dumpStep
  simp only [hpc]
  rw [if_neg hmore]

/-- `num_of_logs_to_read` at a CPU. -/
def logsToRead (s : LiveLog) (cpuIndex : Nat) (d : DumpState) : U32 :=
  (getLastSeqNum s.area (getCpuLogBufferStart cpuIndex) - d.logRecordSeqNum cpuIndex).truncate 32

/-- A CPU with nothing to read. -/
theorem dumpStep_head_none (hpc : s.pc = .head cpuIndex d)
    (hnone : logsToRead s cpuIndex d = 0 ∨
      getLastSeqNum s.area (getCpuLogBufferStart cpuIndex) = 0) :
    dumpStep s = s.afterCpu cpuIndex (some (d.resumeAtHead s.area cpuIndex)) := by
  unfold dumpStep
  simp only [hpc]
  exact if_pos hnone

/-- A CPU whose records are read. -/
theorem dumpStep_head_some (hpc : s.pc = .head cpuIndex d)
    (hsome : ¬ (logsToRead s cpuIndex d = 0 ∨
      getLastSeqNum s.area (getCpuLogBufferStart cpuIndex) = 0)) :
    dumpStep s =
      { s with
        pc := .copy cpuIndex (d.resumeAtHead s.area cpuIndex)
          (.start (getLastSeqNum s.area (getCpuLogBufferStart cpuIndex))
            (logsToRead s cpuIndex d)) } := by
  unfold dumpStep
  simp only [hpc]
  exact if_neg hsome

end

/-- From `s`, some steps of the dump alone lead to `s'`. -/
def DumpsTo (s s' : LiveLog) : Prop := ∃ n, run liveStep s (List.replicate n .dump) = s'

namespace DumpsTo

variable {s s' s'' : LiveLog}

theorem refl (s : LiveLog) : DumpsTo s s := ⟨0, rfl⟩

theorem step (h : DumpsTo (dumpStep s) s') : DumpsTo s s' := by
  obtain ⟨n, hn⟩ := h
  exact ⟨n + 1, by rw [List.replicate_succ, run_cons]; exact hn⟩

theorem trans (h : DumpsTo s s') (h' : DumpsTo s' s'') : DumpsTo s s'' := by
  obtain ⟨n, rfl⟩ := h
  obtain ⟨m, rfl⟩ := h'
  exact ⟨n + m, by rw [List.replicate_add, run_append]⟩

/-- The loop of `read_logs`, to its end. -/
theorem copy {cpuIndex : Nat} {d : DumpState} (n : Nat) :
    ∀ {s : LiveLog} {rd : LogReader}, rd.count = n + 1 → s.pc = .copy cpuIndex d rd →
      ∃ s₁, SameLog s s₁ ∧ DumpsTo s (s₁.afterCpu cpuIndex (dumpRecords cpuIndex
        (rd.results ++ rd.rest s.area (getCpuLogBufferStart cpuIndex)) d)) := by
  induction n with
  | zero =>
    intro s rd hcount hpc
    have hdone := LogReader.copy_last s.area (getCpuLogBufferStart cpuIndex) rd hcount
    refine ⟨_, .returned s cpuIndex (rd.copy s.area (getCpuLogBufferStart cpuIndex)).1, .step ?_⟩
    rw [dumpStep_copy_done hpc hdone, LogReader.rest_copy _ _ (by omega), if_pos hdone]
    exact .refl _
  | succ n ih =>
    intro s rd hcount hpc
    by_cases hdone : (rd.copy s.area (getCpuLogBufferStart cpuIndex)).2 = true
    · refine ⟨_, .returned s cpuIndex (rd.copy s.area (getCpuLogBufferStart cpuIndex)).1,
        .step ?_⟩
      rw [dumpStep_copy_done hpc hdone, LogReader.rest_copy _ _ (by omega), if_pos hdone]
      exact .refl _
    · have hcount' : (rd.copy s.area (getCpuLogBufferStart cpuIndex)).1.count = n + 1 := by
        change rd.count - 1 = n + 1
        omega
      obtain ⟨s₁, hsame, hdumps⟩ := ih (s := { s with
        pc := .copy cpuIndex d (rd.copy s.area (getCpuLogBufferStart cpuIndex)).1 }) hcount' rfl
      refine ⟨s₁, ⟨hsame.numOfCpus, hsame.area, hsame.logRecordSeqNum⟩, .step ?_⟩
      rw [dumpStep_copy_more hpc hdone, LogReader.rest_copy _ _ (show 0 < rd.count by omega),
        if_neg hdone]
      exact hdumps

/-- One CPU. -/
theorem cpu {cpuIndex : Nat} {d : DumpState} {s : LiveLog} (hpc : s.pc = .head cpuIndex d) :
    ∃ s₁, SameLog s s₁ ∧ DumpsTo s (s₁.afterCpu cpuIndex (dumpCpu s.area cpuIndex d)) := by
  by_cases hnone : logsToRead s cpuIndex d = 0 ∨
      getLastSeqNum s.area (getCpuLogBufferStart cpuIndex) = 0
  · refine ⟨s, .refl s, .step ?_⟩
    have hcpu : dumpCpu s.area cpuIndex d = some (d.resumeAtHead s.area cpuIndex) := if_pos hnone
    rw [dumpStep_head_none hpc hnone, hcpu]
    exact .refl _
  · have hcpu : dumpCpu s.area cpuIndex d = dumpRecords cpuIndex
        (readLogs s.area (getCpuLogBufferStart cpuIndex)
          (getLastSeqNum s.area (getCpuLogBufferStart cpuIndex)) (logsToRead s cpuIndex d))
        (d.resumeAtHead s.area cpuIndex) := if_neg hnone
    obtain ⟨n, hn⟩ := Nat.exists_eq_add_one_of_ne_zero
      (LogReader.count_start_pos (getLastSeqNum s.area (getCpuLogBufferStart cpuIndex))
        (not_or.mp hnone).1).ne'
    obtain ⟨s₁, hsame, hdumps⟩ := copy (s := dumpStep s) n hn (by rw [dumpStep_head_some hpc hnone])
    rw [dumpStep_head_some hpc hnone] at hsame
    refine ⟨s₁, ⟨hsame.numOfCpus, hsame.area, hsame.logRecordSeqNum⟩, .step ?_⟩
    rw [dumpStep_head_some hpc hnone] at hdumps ⊢
    rw [hcpu]
    exact hdumps

/-- The end of a dump. -/
theorem afterCpu_last (s : LiveLog) (cpuIndex : Nat) {d : DumpState}
    (hlast : d.full = true ∨ ¬ cpuIndex + 1 < s.numOfCpus.toNat) :
    SameLog { s with logRecordSeqNum := d.logRecordSeqNum } (s.afterCpu cpuIndex (some d)) ∧
      (s.afterCpu cpuIndex (some d)).pc = .idle := by
  unfold LiveLog.afterCpu
  simp only
  by_cases hfull : d.full = true
  · rw [if_pos hfull]
    exact ⟨⟨rfl, rfl, rfl⟩, rfl⟩
  · rw [if_neg hfull, if_neg (hlast.resolve_left hfull)]
    exact ⟨⟨rfl, rfl, rfl⟩, rfl⟩

/-- The CPUs from one on. -/
theorem cpus (n : Nat) {s : LiveLog} {cpuIndex : Nat} {d d' : DumpState}
    (hpc : s.pc = .head cpuIndex d) (hcpus : cpuIndex + (n + 1) = s.numOfCpus.toNat)
    (hd' : dumpCpus s.area (n + 1) cpuIndex d = some d') :
    ∃ s', SameLog { s with logRecordSeqNum := d'.logRecordSeqNum } s' ∧ s'.pc = .idle ∧
      DumpsTo s s' := by
  induction n generalizing s cpuIndex d with
  | zero =>
    obtain ⟨s₁, hsame, hdumps⟩ := cpu hpc
    cases hd₁ : dumpCpu s.area cpuIndex d with
    | none => simp [dumpCpus, hd₁] at hd'
    | some d₁ =>
      obtain rfl : d₁ = d' := by simpa [dumpCpus, hd₁] using hd'
      rw [hd₁] at hdumps
      obtain ⟨hend, hidle⟩ := afterCpu_last s₁ cpuIndex (d := d₁)
        (Or.inr (by rw [hsame.numOfCpus]; omega))
      exact ⟨_, ⟨hend.numOfCpus.trans hsame.numOfCpus, hend.area.trans hsame.area,
        hend.logRecordSeqNum⟩, hidle, hdumps⟩
  | succ n ih =>
    obtain ⟨s₁, hsame, hdumps⟩ := cpu hpc
    rw [dumpCpus] at hd'
    cases hd₁ : dumpCpu s.area cpuIndex d with
    | none =>
      rw [hd₁] at hd'
      cases hd'
    | some d₁ =>
      rw [hd₁] at hd' hdumps
      simp only at hd'
      by_cases hfull : d₁.full = true
      · rw [if_pos hfull, Option.some_inj] at hd'
        subst hd'
        obtain ⟨hend, hidle⟩ := afterCpu_last s₁ cpuIndex (Or.inl hfull)
        exact ⟨_, ⟨hend.numOfCpus.trans hsame.numOfCpus, hend.area.trans hsame.area,
          hend.logRecordSeqNum⟩, hidle, hdumps⟩
      · rw [if_neg hfull, ← hsame.area] at hd'
        have hnext : s₁.afterCpu cpuIndex (some d₁) =
            { s₁ with pc := .head (cpuIndex + 1) d₁ } := by
          unfold LiveLog.afterCpu
          simp only
          rw [if_neg hfull, if_pos (by rw [hsame.numOfCpus]; omega)]
        rw [hnext] at hdumps
        obtain ⟨s', hsame', hidle, hdumps'⟩ := ih (s := { s₁ with pc := .head (cpuIndex + 1) d₁ })
          rfl (by rw [hsame.numOfCpus]; omega) hd'
        exact ⟨s', ⟨hsame'.numOfCpus.trans hsame.numOfCpus, hsame'.area.trans hsame.area,
          hsame'.logRecordSeqNum⟩, hidle, hdumps.trans hdumps'⟩

end DumpsTo

/-- **Undisturbed, the steps come to `dumpCpus`**: the dump ends with the resume points it
computes. -/
theorem run_dump {s : LiveLog} (hpc : s.pc = .idle) {d' : DumpState}
    (hd' : dumpCpus s.area s.numOfCpus.toNat 0 (.start s.logRecordSeqNum) = some d') :
    ∃ n, (run liveStep s (List.replicate n .dump)).pc = .idle ∧
      (run liveStep s (List.replicate n .dump)).area = s.area ∧
      (run liveStep s (List.replicate n .dump)).logRecordSeqNum = d'.logRecordSeqNum := by
  cases hcpus : s.numOfCpus.toNat with
  | zero =>
    rw [hcpus, dumpCpus, Option.some_inj] at hd'
    exact ⟨0, hpc, rfl, by rw [← hd']; rfl⟩
  | succ n =>
    rw [hcpus] at hd'
    have hstart : dumpStep s = { s with pc := .head 0 (.start s.logRecordSeqNum) } := by
      unfold dumpStep
      simp only [hpc]
      exact if_pos (by omega)
    obtain ⟨s', hsame, hidle, hdumps⟩ := DumpsTo.cpus n
      (s := { s with pc := .head 0 (.start s.logRecordSeqNum) }) rfl (by rw [hcpus]; omega) hd'
    rw [← hstart] at hdumps
    obtain ⟨m, hm⟩ := hdumps.step
    exact ⟨m, by rw [hm]; exact ⟨hidle, hsame.area, hsame.logRecordSeqNum⟩⟩

end IkgtUsage
