import IkgtUsage.Protocol.LiveDump

/-!
# What a dump reads while the handler logs

A copy is good as long as the handler has not come round the ring: the slot of record number `q`
holds that record until the head is beyond `q + LOGS_PER_CPU` (`SlotIntact`). One copy from a slot
that has been overwritten returns a number at or above the head that was read. Up to the first such
copy the numbers returned are in order, below the head, and none is returned twice by dumps that do
not fill their page (`live_dump_safe_iff`).
-/

namespace IkgtUsage

open Lib

/-! ## Reads in order -/

/-- The numbers of the records that a call has copied. -/
def LogRead.seqNums (read : LogRead) : List Nat := read.results.map fun e => e.seqNum.toNat

/-- Strictly increasing, and below the head that was read. -/
structure LogRead.InOrder (read : LogRead) : Prop where
  increasing : read.seqNums.Pairwise (· < ·)
  below : ∀ q ∈ read.seqNums, q < read.lastSeqNum.toNat

/-- The numbers that calls have copied for a CPU. -/
def returnedNums (c : Nat) (reads : List LogRead) : List Nat :=
  (reads.filter fun read => read.cpuIndex = c).flatMap LogRead.seqNums

/-- The call that is running. -/
def LiveLog.running (s : LiveLog) : List LogRead :=
  match s.pc with
  | .copy cpuIndex _ rd => [⟨cpuIndex, rd.startSeqNum, rd.results⟩]
  | _ => []

/-- Every call of `read_logs` copies records in order and below its head; dumps since one last
filled its page return no record twice. -/
structure DumpSafe (s : LiveLog) : Prop where
  inOrder : ∀ read ∈ s.reads ++ s.running, read.InOrder
  once : ∀ c, (returnedNums c (s.sinceFull ++ s.running)).Nodup

/-- The head that is advanced does not wrap. -/
def HeadFits (s : LiveLog) : LiveAction → Prop
  | .append c _ => (getLastSeqNum s.area (getCpuLogBufferStart c)).toNat + 1 < 2 ^ 64
  | .dump => True

/-- The slot that is copied next still holds the record it held when the head was read: the head
now is at most `LOGS_PER_CPU` beyond that record's number. -/
def SlotIntact (s : LiveLog) : LiveAction → Prop
  | .append _ _ => True
  | .dump =>
    match s.pc with
    | .copy cpuIndex _ rd =>
      (getLastSeqNum s.area (getCpuLogBufferStart cpuIndex)).toNat + rd.count ≤
        rd.startSeqNum.toNat + logsPerCpu
    | _ => True

theorem returnedNums_append (c : Nat) (reads reads' : List LogRead) :
    returnedNums c (reads ++ reads') = returnedNums c reads ++ returnedNums c reads' := by
  unfold returnedNums
  rw [List.filter_append, List.flatMap_append]

theorem returnedNums_singleton (c : Nat) (read : LogRead) :
    returnedNums c [read] = if read.cpuIndex = c then read.seqNums else [] := by
  unfold returnedNums
  by_cases hc : read.cpuIndex = c
  · simp [hc]
  · simp [hc]

/-! ## The invariant -/

/-- A running `read_logs` on a CPU with `n` records: it has copied a range of numbers, and its
index is that of the next one. -/
structure ReaderOk (rd : LogReader) (n : Nat) : Prop where
  count_pos : 0 < rd.count
  le_logsPerCpu : rd.results.length + rd.count ≤ logsPerCpu
  le_head : rd.results.length + rd.count ≤ rd.startSeqNum.toNat
  head_le : rd.startSeqNum.toNat ≤ n
  index : rd.index = (rd.startSeqNum.toNat - rd.count) % logsPerCpu + 1
  copied : (rd.results.map fun e => e.seqNum.toNat) =
    List.range' (rd.startSeqNum.toNat - (rd.results.length + rd.count)) rd.results.length

/-- What holds of the rings and of the numbers returned, with resume points `seq`. The numbers
returned for a CPU are below `bound`. -/
structure LiveCore (s : LiveLog) (seq : Nat → U64) (bound : Nat → Nat) : Prop where
  ring : ∀ c, CpuRing s.area c (s.records c)
  few : ∀ c, (s.records c).length < 2 ^ 64
  resume : ∀ c, (seq c).toNat ≤ (s.records c).length
  inOrder : ∀ read ∈ s.reads, read.InOrder
  increasing : ∀ c, (returnedNums c s.sinceFull).Pairwise (· < ·)
  below : ∀ c, ∀ q ∈ returnedNums c s.sinceFull, q < bound c

/-- A dump under way at a CPU, with room on the page. -/
structure PageOk (s : LiveLog) (cpuIndex : Nat) (d : DumpState) : Prop where
  cpu : cpuIndex < s.numOfCpus.toNat
  full : d.full = false
  room : d.configfsPage.length < maxConfigfsPageSize - 1

/-- The invariant, by the program counter. -/
def LiveInv (s : LiveLog) : Prop :=
  match s.pc with
  | .idle => LiveCore s s.logRecordSeqNum fun c => (s.logRecordSeqNum c).toNat
  | .head cpuIndex d =>
    LiveCore s d.logRecordSeqNum (fun c => (d.logRecordSeqNum c).toNat) ∧ PageOk s cpuIndex d
  | .copy cpuIndex d rd =>
    LiveCore s d.logRecordSeqNum (Function.update (fun c => (d.logRecordSeqNum c).toNat) cpuIndex
        (rd.startSeqNum.toNat - (rd.results.length + rd.count))) ∧
      PageOk s cpuIndex d ∧ d.logRecordSeqNum cpuIndex = rd.startSeqNum ∧
      ReaderOk rd (s.records cpuIndex).length
  | .bug => False

theorem LiveCore.idle {s : LiveLog} (h : LiveInv s) (hpc : s.pc = .idle) :
    LiveCore s s.logRecordSeqNum fun c => (s.logRecordSeqNum c).toNat := by
  unfold LiveInv at h
  rwa [hpc] at h

/-- The rings in every state. -/
theorem LiveInv.ring {s : LiveLog} (h : LiveInv s) (c : Nat) :
    CpuRing s.area c (s.records c) ∧ (s.records c).length < 2 ^ 64 := by
  unfold LiveInv at h
  cases hpc : s.pc with
  | idle => rw [hpc] at h; exact ⟨h.ring c, h.few c⟩
  | head => rw [hpc] at h; exact ⟨h.1.ring c, h.1.few c⟩
  | copy => rw [hpc] at h; exact ⟨h.1.ring c, h.1.few c⟩
  | bug => rw [hpc] at h; exact h.elim

/-- A range of numbers below the head. -/
theorem LogRead.inOrder_of_range {read : LogRead} {a l : Nat}
    (hnums : read.seqNums = List.range' a l) (hle : a + l ≤ read.lastSeqNum.toNat) :
    read.InOrder := by
  constructor
  · rw [hnums]
    exact List.pairwise_lt_range'
  · intro q hq
    rw [hnums] at hq
    have := (List.mem_range'_1.mp hq).2
    omega

/-- One more call, whose numbers are beyond those of its CPU so far. -/
theorem LiveCore.increasing_read {s : LiveLog} {seq : Nat → U64} {bound : Nat → Nat}
    (h : LiveCore s seq bound) (read : LogRead) {a l : Nat}
    (hnums : read.seqNums = List.range' a l) (hbound : bound read.cpuIndex ≤ a) (c : Nat) :
    (returnedNums c (s.sinceFull ++ [read])).Pairwise (· < ·) := by
  rw [returnedNums_append, returnedNums_singleton]
  by_cases hc : read.cpuIndex = c
  · subst hc
    rw [if_pos rfl, hnums, List.pairwise_append]
    refine ⟨h.increasing _, List.pairwise_lt_range', fun q hq q' hq' => ?_⟩
    have := h.below _ q hq
    have := (List.mem_range'_1.mp hq').1
    omega
  · rw [if_neg hc, List.append_nil]
    exact h.increasing c

/-- **The invariant makes the dump safe.** -/
theorem LiveInv.dumpSafe {s : LiveLog} (h : LiveInv s) : DumpSafe s := by
  have hidle : ∀ {seq bound}, s.running = [] → LiveCore s seq bound → DumpSafe s := by
    intro seq bound hrunning hcore
    constructor
    · rw [hrunning, List.append_nil]
      exact hcore.inOrder
    · intro c
      rw [hrunning, List.append_nil]
      exact (hcore.increasing c).imp Nat.ne_of_lt
  unfold LiveInv at h
  cases hpc : s.pc with
  | idle => rw [hpc] at h; exact hidle (by rw [LiveLog.running, hpc]) h
  | head => rw [hpc] at h; exact hidle (by rw [LiveLog.running, hpc]) h.1
  | bug => rw [hpc] at h; exact h.elim
  | copy cpuIndex d rd =>
    rw [hpc] at h
    obtain ⟨hcore, -, -, hreader⟩ := h
    have hrunning : s.running = [⟨cpuIndex, rd.startSeqNum, rd.results⟩] := by
      rw [LiveLog.running, hpc]
    have hpos := hreader.count_pos
    have hle := hreader.le_head
    constructor
    · intro read hread
      rw [hrunning] at hread
      rcases List.mem_append.mp hread with hread | hread
      · exact hcore.inOrder read hread
      · obtain rfl := List.mem_singleton.mp hread
        have hend : rd.startSeqNum.toNat - (rd.results.length + rd.count) + rd.results.length ≤
            rd.startSeqNum.toNat := by omega
        exact LogRead.inOrder_of_range hreader.copied hend
    · intro c
      rw [hrunning]
      refine (hcore.increasing_read ⟨cpuIndex, rd.startSeqNum, rd.results⟩
        hreader.copied ?_ c).imp Nat.ne_of_lt
      rw [Function.update_self]

/-! ## One copy -/

/-- A copy of a valid entry. -/
theorem ReaderOk.copy_eq {rd : LogReader} {n : Nat} (h : ReaderOk rd n) {area : LogArea}
    {bufferStart : Nat} {e : LogEntry} (hentry : area (bufferStart + rd.index) = e)
    (hvalid : e.isValid = true) :
    rd.copy area bufferStart =
      (⟨rd.startSeqNum, rd.count - 1,
        (rd.startSeqNum.toNat - (rd.count - 1)) % logsPerCpu + 1, rd.results ++ [e]⟩,
        decide (rd.count = 1)) := by
  have hpos := h.count_pos
  have hhead := h.le_head
  have hlogs := h.le_logsPerCpu
  have hindex := h.index
  have hnext : (if logsPerCpu ≤ rd.index then 1 else rd.index + 1) =
      (rd.startSeqNum.toNat - (rd.count - 1)) % logsPerCpu + 1 := by
    rw [hindex, logsPerCpu_eq]
    split <;> omega
  have hlast : ((rd.startSeqNum.toNat - (rd.count - 1)) % logsPerCpu + 1 =
      logSeqNumToIndex rd.startSeqNum ∨ rd.count - 1 = 0) ↔ rd.count = 1 := by
    unfold logSeqNumToIndex
    rw [logsPerCpu_eq] at hlogs ⊢
    omega
  unfold LogReader.copy
  simp only [hentry, hvalid, if_true, hnext, hlast]

/-- The numbers after a copy of the right record. -/
theorem ReaderOk.copied_append {rd : LogReader} {n : Nat} (h : ReaderOk rd n) {e : LogEntry}
    (he : e.seqNum.toNat = rd.startSeqNum.toNat - rd.count) :
    ((rd.results ++ [e]).map fun e => e.seqNum.toNat) =
      List.range' (rd.startSeqNum.toNat - (rd.results.length + rd.count))
        (rd.results.length + 1) := by
  have hhead := h.le_head
  rw [List.map_append, h.copied, List.map_singleton, he, List.range'_1_concat]
  congr 2
  omega

/-- After an iteration there is one slot less to look at. -/
theorem ReaderOk.length_append {rd : LogReader} {n : Nat} (h : ReaderOk rd n) (e : LogEntry) :
    (rd.results ++ [e]).length + (rd.count - 1) = rd.results.length + rd.count := by
  have hpos := h.count_pos
  rw [List.length_append, List.length_singleton]
  omega

/-- A call that goes on. -/
theorem ReaderOk.more {rd : LogReader} {n : Nat} (h : ReaderOk rd n) {e : LogEntry}
    (he : e.seqNum.toNat = rd.startSeqNum.toNat - rd.count) (hmore : rd.count ≠ 1) :
    ReaderOk ⟨rd.startSeqNum, rd.count - 1,
      (rd.startSeqNum.toNat - (rd.count - 1)) % logsPerCpu + 1, rd.results ++ [e]⟩ n := by
  have hpos := h.count_pos
  have hlen := h.length_append e
  refine ⟨by simp only; omega, ?_, ?_, h.head_le, rfl, ?_⟩
  · simp only [hlen]
    exact h.le_logsPerCpu
  · simp only [hlen]
    exact h.le_head
  · simp only [hlen]
    rw [h.copied_append he, List.length_append, List.length_singleton]

/-- A call that starts: it looks at no more slots than there are records since `resume`. -/
theorem ReaderOk.start {head : U64} {count : U32} {resume n : Nat} (hcount : count ≠ 0)
    (hgap : count.toNat ≤ head.toNat - resume) (hresume : resume ≤ head.toNat)
    (hn : head.toNat ≤ n) :
    ReaderOk (.start head count) n ∧
      resume ≤ head.toNat -
        ((LogReader.start head count).results.length + (LogReader.start head count).count) := by
  have hstart : LogReader.start head count =
      ⟨head, readCount count, (logsPerCpu + head.toNat - readCount count) % logsPerCpu + 1,
        []⟩ := by
    unfold LogReader.start
    simp only [clamp_eq_readCount, readLogs_index head (readCount_le count)]
  have hpos := LogReader.count_start_pos head hcount
  have hmin := readCount_eq_min count
  rw [hstart] at hpos ⊢
  simp only [List.length_nil, Nat.zero_add] at hpos ⊢
  refine ⟨⟨hpos, ?_, ?_, hn, ?_, rfl⟩, by omega⟩
  · simp only [List.length_nil]
    omega
  · simp only [List.length_nil]
    omega
  · simp only
    rw [show logsPerCpu + head.toNat - readCount count =
      head.toNat - readCount count + logsPerCpu by omega, Nat.add_mod_right]

/-- The slot that is copied next, in a ring. -/
theorem CpuRing.slot_recent {area : LogArea} {c q : Nat} {hist : List LogRecord}
    (hring : CpuRing area c hist) (hfew : hist.length < 2 ^ 64) (hq : q < hist.length)
    (hlast : hist.length ≤ q + logsPerCpu) :
    (area (getCpuLogBufferStart c + (q % logsPerCpu + 1))).isValid = true ∧
      (area (getCpuLogBufferStart c + (q % logsPerCpu + 1))).seqNum.toNat = q := by
  have hslot : area (getCpuLogBufferStart c + (q % logsPerCpu + 1)) = hist[q].stored q :=
    hring.ring.recent q hq hlast
  rw [hslot]
  refine ⟨rfl, ?_⟩
  unfold LogRecord.stored LogRecord.entry
  rw [BitVec.toNat_ofNat, Nat.mod_eq_of_lt (by omega)]

/-- A slot that has been overwritten holds the last record that goes there. -/
theorem CpuRing.slot_overwritten {area : LogArea} {c q : Nat} {hist : List LogRecord}
    (hring : CpuRing area c hist) (hfew : hist.length < 2 ^ 64)
    (hover : q + logsPerCpu < hist.length) :
    (area (getCpuLogBufferStart c + (q % logsPerCpu + 1))).isValid = true ∧
      q + logsPerCpu ≤
        (area (getCpuLogBufferStart c + (q % logsPerCpu + 1))).seqNum.toNat := by
  obtain ⟨q', hq', hmod, hlast, hge⟩ : ∃ q' < hist.length, q' % logsPerCpu = q % logsPerCpu ∧
      hist.length ≤ q' + logsPerCpu ∧ q + logsPerCpu ≤ q' := by
    refine ⟨hist.length - 1 - (hist.length - 1 - q) % logsPerCpu, ?_⟩
    rw [logsPerCpu_eq] at hover ⊢
    omega
  obtain ⟨hvalid, hseq⟩ := hring.slot_recent hfew hq' hlast
  rw [hmod] at hvalid hseq
  exact ⟨hvalid, by omega⟩

/-! ## Steps that keep the invariant -/

section

variable {s : LiveLog} {cpuIndex : Nat} {d : DumpState} {rd : LogReader}

@[simp] theorem reads_afterCpu (s : LiveLog) (cpuIndex : Nat) (d : Option DumpState) :
    (s.afterCpu cpuIndex d).reads = s.reads := by
  cases d with
  | none => rfl
  | some d =>
    unfold LiveLog.afterCpu
    simp only
    split
    · rfl
    · split <;> rfl

@[simp] theorem running_afterCpu (s : LiveLog) (cpuIndex : Nat) (d : Option DumpState) :
    (s.afterCpu cpuIndex d).running = [] := by
  cases d with
  | none => rfl
  | some d =>
    unfold LiveLog.afterCpu
    simp only
    split
    · rfl
    · split <;> rfl

/-- The end of a CPU. A full page starts the numbers returned anew. -/
theorem liveInv_afterCpu (bound : Nat → Nat) (hcore : LiveCore s d.logRecordSeqNum bound)
    (hbound : d.full = false → ∀ c, bound c ≤ (d.logRecordSeqNum c).toNat)
    (hroom : d.full = false → d.configfsPage.length < maxConfigfsPageSize - 1) :
    LiveInv (s.afterCpu cpuIndex (some d)) := by
  unfold LiveLog.afterCpu
  simp only
  by_cases hfull : d.full = true
  · rw [if_pos hfull]
    exact ⟨hcore.ring, hcore.few, hcore.resume, hcore.inOrder, fun _ => .nil,
      fun _ q hq => absurd hq List.not_mem_nil⟩
  · have hfull' : d.full = false := by simpa using hfull
    have hbelow : ∀ c, ∀ q ∈ returnedNums c s.sinceFull, q < (d.logRecordSeqNum c).toNat :=
      fun c q hq => (hcore.below c q hq).trans_le (hbound hfull' c)
    rw [if_neg hfull]
    by_cases hnext : cpuIndex + 1 < s.numOfCpus.toNat
    · rw [if_pos hnext]
      exact ⟨⟨hcore.ring, hcore.few, hcore.resume, hcore.inOrder, hcore.increasing, hbelow⟩,
        hnext, hfull', hroom hfull'⟩
    · rw [if_neg hnext]
      exact ⟨hcore.ring, hcore.few, hcore.resume, hcore.inOrder, hcore.increasing, hbelow⟩

/-- **Reading a head.** -/
theorem liveInv_head (hpc : s.pc = .head cpuIndex d) (h : LiveInv s) : LiveInv (dumpStep s) := by
  unfold LiveInv at h
  rw [hpc] at h
  obtain ⟨hcore, hpage⟩ := h
  have hhead := (hcore.ring cpuIndex).toNat_head (hcore.few cpuIndex)
  have hres := hcore.resume cpuIndex
  have hresume : ∀ c, (d.logRecordSeqNum c).toNat ≤
        ((d.resumeAtHead s.area cpuIndex).logRecordSeqNum c).toNat ∧
      ((d.resumeAtHead s.area cpuIndex).logRecordSeqNum c).toNat ≤ (s.records c).length := by
    intro c
    by_cases hc : c = cpuIndex
    · subst hc
      rw [d.resumeAtHead_self, hhead]
      exact ⟨hres, le_refl _⟩
    · rw [d.resumeAtHead_of_ne s.area hc]
      exact ⟨le_refl _, hcore.resume c⟩
  by_cases hnone : logsToRead s cpuIndex d = 0 ∨
      getLastSeqNum s.area (getCpuLogBufferStart cpuIndex) = 0
  · rw [dumpStep_head_none hpc hnone]
    exact liveInv_afterCpu (fun c => (d.logRecordSeqNum c).toNat)
      ⟨hcore.ring, hcore.few, fun c => (hresume c).2, hcore.inOrder, hcore.increasing,
        hcore.below⟩ (fun _ c => (hresume c).1) fun _ => hpage.room
  · have hgap : (logsToRead s cpuIndex d).toNat ≤
        (getLastSeqNum s.area (getCpuLogBufferStart cpuIndex)).toNat -
          (d.logRecordSeqNum cpuIndex).toNat := by
      unfold logsToRead
      rw [BitVec.truncate_eq_setWidth, BitVec.toNat_setWidth, BitVec.toNat_sub_of_le]
      · exact Nat.mod_le _ _
      · rw [BitVec.le_def, hhead]
        exact hres
    obtain ⟨hreader, hfirst⟩ := ReaderOk.start (not_or.mp hnone).1 hgap (hhead ▸ hres) hhead.le
    rw [dumpStep_head_some hpc hnone]
    refine ⟨⟨hcore.ring, hcore.few, fun c => (hresume c).2, hcore.inOrder, hcore.increasing,
      fun c q hq => ?_⟩, ⟨hpage.cpu, hpage.full, hpage.room⟩, d.resumeAtHead_self s.area cpuIndex,
      hreader⟩
    have hbelow := hcore.below c q hq
    by_cases hc : c = cpuIndex
    · subst hc
      rw [Function.update_self]
      exact hbelow.trans_le hfirst
    · rw [Function.update_of_ne hc, d.resumeAtHead_of_ne s.area hc]
      exact hbelow

/-- A call has returned the records from its first number up to the head. -/
theorem LiveCore.returned {a l : Nat}
    (h : LiveCore s d.logRecordSeqNum
      (Function.update (fun c => (d.logRecordSeqNum c).toNat) cpuIndex a))
    (hcopied : (rd.results.map fun e => e.seqNum.toNat) = List.range' a l)
    (hend : a + l = (d.logRecordSeqNum cpuIndex).toNat)
    (hhead : d.logRecordSeqNum cpuIndex = rd.startSeqNum) :
    LiveCore (s.returned cpuIndex rd) d.logRecordSeqNum fun c => (d.logRecordSeqNum c).toNat := by
  refine ⟨h.ring, h.few, h.resume, fun read hread => ?_, fun c => ?_, fun c q hq => ?_⟩
  · rcases List.mem_append.mp hread with hread | hread
    · exact h.inOrder read hread
    · obtain rfl := List.mem_singleton.mp hread
      exact LogRead.inOrder_of_range hcopied (hhead ▸ hend.le)
  · refine h.increasing_read ⟨cpuIndex, rd.startSeqNum, rd.results⟩ hcopied ?_ c
    rw [Function.update_self]
  · change q ∈ returnedNums c (s.sinceFull ++ [_]) at hq
    rw [returnedNums_append, returnedNums_singleton] at hq
    by_cases hc : c = cpuIndex
    · subst hc
      rw [if_pos rfl] at hq
      rcases List.mem_append.mp hq with hold | hnew
      · have hbelow := h.below c q hold
        rw [Function.update_self] at hbelow
        omega
      · change q ∈ rd.results.map fun e => e.seqNum.toNat at hnew
        rw [hcopied] at hnew
        have := (List.mem_range'_1.mp hnew).2
        omega
    · rw [if_neg (Ne.symm hc), List.append_nil] at hq
      have hbelow := h.below c q hq
      rwa [Function.update_of_ne hc] at hbelow

/-- The records of a call go to the page. If it fills, the CPU resumes at one of them. -/
theorem liveInv_page {results : List LogEntry}
    (hcore : LiveCore s d.logRecordSeqNum fun c => (d.logRecordSeqNum c).toNat)
    (hpage : PageOk s cpuIndex d)
    (hresults : ∀ e ∈ results, e.seqNum.toNat ≤ (s.records cpuIndex).length) :
    LiveInv (s.afterCpu cpuIndex (dumpRecords cpuIndex results d)) := by
  have hcpu : cpuIndex < 2 ^ 32 := hpage.cpu.trans s.numOfCpus.isLt
  obtain ⟨d', hd', hout⟩ := dumpRecords_cases hcpu results hpage.full hpage.room
  have hcut : ∀ e ∈ results, d'.full = true →
      d'.logRecordSeqNum = Function.update d.logRecordSeqNum cpuIndex e.seqNum →
      LiveInv (s.afterCpu cpuIndex (some d')) := by
    intro e he hfull hseq
    refine liveInv_afterCpu _ ⟨hcore.ring, hcore.few, fun c => ?_, hcore.inOrder,
      hcore.increasing, hcore.below⟩ (fun hroom => absurd hfull (by rw [hroom]; decide))
      (fun hroom => absurd hfull (by rw [hroom]; decide))
    rw [hseq]
    by_cases hc : c = cpuIndex
    · subst hc
      rw [Function.update_self]
      exact hresults e he
    · rw [Function.update_of_ne hc]
      exact hcore.resume c
  rw [hd']
  cases hout with
  | all hfull hpage' hroom hseq =>
    exact liveInv_afterCpu _ (hseq ▸ hcore) (fun _ c => hseq ▸ le_refl _) fun _ => hroom
  | cut done rest e hres hfull _ _ hseq =>
    exact hcut e (hres ▸ List.mem_append_right _ List.mem_cons_self) hfull hseq
  | exact done rest e hres hfull _ hseq =>
    exact hcut e (hres ▸ List.mem_append_right _ List.mem_cons_self) hfull hseq

/-- **Copying a slot that is intact.** -/
theorem liveInv_copy (hpc : s.pc = .copy cpuIndex d rd) (h : LiveInv s)
    (hintact : SlotIntact s .dump) : LiveInv (dumpStep s) := by
  unfold LiveInv at h
  unfold SlotIntact at hintact
  rw [hpc] at h
  simp only [hpc] at hintact
  obtain ⟨hcore, hpage, hseq, hreader⟩ := h
  have hpos := hreader.count_pos
  have hle := hreader.le_head
  have hheadle := hreader.head_le
  rw [(hcore.ring cpuIndex).toNat_head (hcore.few cpuIndex)] at hintact
  obtain ⟨hvalid, hnum⟩ := (hcore.ring cpuIndex).slot_recent (hcore.few cpuIndex)
    (q := rd.startSeqNum.toNat - rd.count) (by omega) (by omega)
  have hcopy := hreader.copy_eq (congrArg (fun i => s.area (getCpuLogBufferStart cpuIndex + i))
    hreader.index) hvalid
  have hcopied := hreader.copied_append hnum
  generalize s.area (getCpuLogBufferStart cpuIndex +
    ((rd.startSeqNum.toNat - rd.count) % logsPerCpu + 1)) = e at hcopy hcopied hnum
  by_cases hlast : rd.count = 1
  · -- the call returns and its records go to the page
    have hdone := LogReader.copy_last s.area (getCpuLogBufferStart cpuIndex) rd hlast
    rw [dumpStep_copy_done hpc hdone, hcopy]
    have hend : rd.startSeqNum.toNat - (rd.results.length + rd.count) + (rd.results.length + 1) =
        rd.startSeqNum.toNat := by omega
    have hcore' : LiveCore (s.returned cpuIndex ⟨rd.startSeqNum, rd.count - 1,
        (rd.startSeqNum.toNat - (rd.count - 1)) % logsPerCpu + 1, rd.results ++ [e]⟩)
        d.logRecordSeqNum fun c => (d.logRecordSeqNum c).toNat :=
      hcore.returned hcopied (hseq ▸ hend) hseq
    refine liveInv_page hcore' ⟨hpage.cpu, hpage.full, hpage.room⟩ fun e' he' => ?_
    have hmem : e'.seqNum.toNat ∈ (rd.results ++ [e]).map fun e => e.seqNum.toNat :=
      List.mem_map_of_mem he'
    rw [hcopied] at hmem
    have := (List.mem_range'_1.mp hmem).2
    change e'.seqNum.toNat ≤ (s.records cpuIndex).length
    omega
  · have hmore : ¬ (rd.copy s.area (getCpuLogBufferStart cpuIndex)).2 = true := by
      rw [hcopy]
      simpa using hlast
    rw [dumpStep_copy_more hpc hmore, hcopy]
    refine ⟨?_, ⟨hpage.cpu, hpage.full, hpage.room⟩, hseq, hreader.more hnum hlast⟩
    simp only [hreader.length_append e]
    exact ⟨hcore.ring, hcore.few, hcore.resume, hcore.inOrder, hcore.increasing, hcore.below⟩

/-- **Copying a slot that has been overwritten** returns a number that is not below the head. -/
theorem not_inOrder_copy (hpc : s.pc = .copy cpuIndex d rd) (h : LiveInv s)
    (hover : ¬ SlotIntact s .dump) :
    ∃ read ∈ (dumpStep s).reads ++ (dumpStep s).running, ¬ read.InOrder := by
  unfold LiveInv at h
  unfold SlotIntact at hover
  rw [hpc] at h
  simp only [hpc] at hover
  obtain ⟨hcore, -, -, hreader⟩ := h
  have hpos := hreader.count_pos
  have hle := hreader.le_head
  have hlogs := hreader.le_logsPerCpu
  rw [(hcore.ring cpuIndex).toNat_head (hcore.few cpuIndex)] at hover
  obtain ⟨hvalid, hnum⟩ := (hcore.ring cpuIndex).slot_overwritten (hcore.few cpuIndex)
    (q := rd.startSeqNum.toNat - rd.count) (by omega)
  have hcopy := hreader.copy_eq (congrArg (fun i => s.area (getCpuLogBufferStart cpuIndex + i))
    hreader.index) hvalid
  generalize s.area (getCpuLogBufferStart cpuIndex +
    ((rd.startSeqNum.toNat - rd.count) % logsPerCpu + 1)) = e at hcopy hnum
  refine ⟨⟨cpuIndex, rd.startSeqNum, rd.results ++ [e]⟩, ?_, fun hread => ?_⟩
  · by_cases hlast : rd.count = 1
    · have hdone := LogReader.copy_last s.area (getCpuLogBufferStart cpuIndex) rd hlast
      rw [dumpStep_copy_done hpc hdone, reads_afterCpu, hcopy]
      exact List.mem_append_left _ (List.mem_append_right _ (List.mem_singleton.mpr rfl))
    · have hmore : ¬ (rd.copy s.area (getCpuLogBufferStart cpuIndex)).2 = true := by
        rw [hcopy]
        simpa using hlast
      rw [dumpStep_copy_more hpc hmore, hcopy]
      exact List.mem_append_right _ (List.mem_singleton.mpr rfl)
  · have hmem : e.seqNum.toNat ∈ (rd.results ++ [e]).map fun e => e.seqNum.toNat :=
      List.mem_map_of_mem (List.mem_append_right _ (List.mem_singleton.mpr rfl))
    have hbelow : e.seqNum.toNat < rd.startSeqNum.toNat := hread.below _ hmem
    omega

end

/-- **An append.** -/
theorem liveInv_append {s : LiveLog} (h : LiveInv s) {c : Nat} {r : LogRecord}
    (hfits : HeadFits s (.append c r)) : LiveInv (liveStep s (.append c r)) := by
  have hlen : (s.records c).length + 1 < 2 ^ 64 := by
    rw [← (h.ring c).1.toNat_head (h.ring c).2]
    exact hfits
  have hring : ∀ c', CpuRing (appendRecord s.area (c, r)) c'
      (Function.update s.records c (s.records c ++ [r]) c') := by
    intro c'
    by_cases hc : c' = c
    · subst hc
      rw [Function.update_self]
      exact (h.ring c').1.append_self (h.ring c').2 r
    · rw [Function.update_of_ne hc]
      exact (h.ring c').1.append_other hc r
  have hlength : ∀ c', (s.records c').length ≤
        (Function.update s.records c (s.records c ++ [r]) c').length ∧
      (Function.update s.records c (s.records c ++ [r]) c').length < 2 ^ 64 := by
    intro c'
    by_cases hc : c' = c
    · subst hc
      rw [Function.update_self, List.length_append, List.length_singleton]
      exact ⟨Nat.le_succ _, hlen⟩
    · rw [Function.update_of_ne hc]
      exact ⟨le_refl _, (h.ring c').2⟩
  have hcore : ∀ {seq bound}, LiveCore s seq bound →
      LiveCore (liveStep s (.append c r)) seq bound :=
    fun hcore => ⟨hring, fun c' => (hlength c').2,
      fun c' => (hcore.resume c').trans (hlength c').1, hcore.inOrder, hcore.increasing,
      hcore.below⟩
  unfold LiveInv at h ⊢
  change match s.pc with
    | .idle => _
    | .head _ _ => _
    | .copy _ _ _ => _
    | .bug => _
  cases hpc : s.pc with
  | idle =>
    rw [hpc] at h
    exact hcore h
  | head cpuIndex d =>
    rw [hpc] at h
    exact ⟨hcore h.1, h.2.cpu, h.2.full, h.2.room⟩
  | copy cpuIndex d rd =>
    rw [hpc] at h
    obtain ⟨hold, hpage, hseq, hreader⟩ := h
    exact ⟨hcore hold, ⟨hpage.cpu, hpage.full, hpage.room⟩, hseq, hreader.count_pos,
      hreader.le_logsPerCpu, hreader.le_head, hreader.head_le.trans (hlength cpuIndex).1,
      hreader.index, hreader.copied⟩
  | bug =>
    rw [hpc] at h
    exact h

/-- **A step of the dump** from a slot that is intact. -/
theorem liveInv_dump {s : LiveLog} (h : LiveInv s) (hintact : SlotIntact s .dump) :
    LiveInv (liveStep s .dump) := by
  cases hpc : s.pc with
  | idle =>
    have hcore := LiveCore.idle h hpc
    change LiveInv (dumpStep s)
    unfold dumpStep
    simp only [hpc]
    by_cases hcpus : 0 < s.numOfCpus.toNat
    · rw [if_pos hcpus]
      exact ⟨⟨hcore.ring, hcore.few, hcore.resume, hcore.inOrder, hcore.increasing,
        hcore.below⟩, hcpus, rfl, show 0 < maxConfigfsPageSize - 1 by decide⟩
    · rwa [if_neg hcpus]
  | head cpuIndex d => exact liveInv_head hpc h
  | copy cpuIndex d rd => exact liveInv_copy hpc h hintact
  | bug =>
    unfold LiveInv at h
    rw [hpc] at h
    exact h.elim

theorem liveInv_init (numOfCpus : U32) : LiveInv (.init numOfCpus) :=
  ⟨fun c => .zero c, fun _ => Nat.two_pow_pos 64, fun _ => Nat.le_of_eq rfl,
    fun _ h => absurd h List.not_mem_nil, fun _ => .nil, fun _ _ h => absurd h List.not_mem_nil⟩

/-- **One action.** -/
theorem liveStep_safe_iff {s : LiveLog} (h : LiveInv s) {a : LiveAction} (hfits : HeadFits s a) :
    (DumpSafe (liveStep s a) ↔ SlotIntact s a) ∧
      (SlotIntact s a → LiveInv (liveStep s a)) := by
  cases a with
  | append c r =>
    have hnext := liveInv_append h hfits
    exact ⟨⟨fun _ => trivial, fun _ => hnext.dumpSafe⟩, fun _ => hnext⟩
  | dump =>
    refine ⟨⟨fun hsafe => ?_, fun hintact => (liveInv_dump h hintact).dumpSafe⟩,
      liveInv_dump h⟩
    by_contra hover
    cases hpc : s.pc with
    | copy cpuIndex d rd =>
      obtain ⟨read, hread, hbad⟩ := not_inOrder_copy hpc h hover
      exact hbad (hsafe.inOrder read hread)
    | idle => exact hover (by rw [SlotIntact, hpc]; trivial)
    | head => exact hover (by rw [SlotIntact, hpc]; trivial)
    | bug => exact hover (by rw [SlotIntact, hpc]; trivial)

/-- **When dumping is safe while the handler logs.** For every interleaving of appends with the
steps of dumps, from the log of `init_log`, in which no head reaches `2 ^ 64`: the records that
calls of `read_logs` return are in order and below the head, and none is returned twice by dumps
that do not fill their page, if and only if every copy finds its slot intact. -/
theorem live_dump_safe_iff (numOfCpus : U32) (actions : List LiveAction) :
    Steps liveStep (fun s a => HeadFits s a ∧ DumpSafe (liveStep s a)) (.init numOfCpus) actions ↔
      Steps liveStep (fun s a => HeadFits s a ∧ SlotIntact s a) (.init numOfCpus) actions := by
  have hall : Steps liveStep (fun _ _ => True) (.init numOfCpus) actions :=
    steps_of_forall (P := fun _ => True) (fun _ _ _ => trivial) actions fun _ _ => trivial
  refine steps_congr LiveInv ?_ ?_ actions (liveInv_init numOfCpus) hall
  · intro s a h _
    exact and_congr_right fun hfits => (liveStep_safe_iff h hfits).1
  · intro s a h _ hgood
    obtain ⟨hiff, hnext⟩ := liveStep_safe_iff h hgood.1
    exact hnext (hiff.mp hgood.2)

/-- Appends to one CPU, nothing else. -/
theorem liveInv_appends (c : Nat) (r : LogRecord) (n : Nat) {s : LiveLog} (h : LiveInv s)
    (hfew : (s.records c).length + n < 2 ^ 64) :
    LiveInv (run liveStep s (List.replicate n (.append c r))) ∧
      (run liveStep s (List.replicate n (.append c r))).pc = s.pc ∧
      ((run liveStep s (List.replicate n (.append c r))).records c).length =
        (s.records c).length + n := by
  induction n generalizing s with
  | zero => exact ⟨h, rfl, rfl⟩
  | succ n ih =>
    have hfits : HeadFits s (.append c r) := by
      rw [HeadFits, (h.ring c).1.toNat_head (h.ring c).2]
      omega
    have hlen : ((liveStep s (.append c r)).records c).length = (s.records c).length + 1 := by
      simp [liveStep]
    obtain ⟨hinv, hpc, hrecords⟩ := ih (liveInv_append h hfits) (by omega)
    rw [List.replicate_succ, run_cons]
    exact ⟨hinv, hpc, by omega⟩

/-- **An overwritten record is returned.** A dump reads the head after one append; 203 appends
later it copies the slot, finds record number 203 there and returns it. -/
theorem overwritten_record_returned :
    let s := run liveStep (.init 1) ([.append 0 ⟨1, 2, 3, 4⟩, .dump, .dump] ++
      List.replicate 203 (.append 0 ⟨5, 6, 7, 8⟩) ++ [.dump])
    s.running = [] ∧ ¬ DumpSafe s := by
  have hinv : LiveInv (run liveStep (.init 1) [.append 0 ⟨1, 2, 3, 4⟩, .dump, .dump]) :=
    liveInv_dump (liveInv_dump (liveInv_append (c := 0) (r := ⟨1, 2, 3, 4⟩) (liveInv_init 1)
      (show 0 + 1 < 2 ^ 64 by decide)) trivial) trivial
  have hpc : ∃ d, (run liveStep (.init 1) [.append 0 ⟨1, 2, 3, 4⟩, .dump, .dump]).pc =
      .copy 0 d ⟨1, 1, 1, []⟩ := ⟨_, rfl⟩
  have hlen : ((run liveStep (.init 1) [.append 0 ⟨1, 2, 3, 4⟩, .dump, .dump]).records 0).length =
      1 := rfl
  rw [run_append, run_append]
  generalize run liveStep (.init 1) [.append 0 ⟨1, 2, 3, 4⟩, .dump, .dump] = s at hinv hpc hlen
  obtain ⟨d, hpc⟩ := hpc
  obtain ⟨hinv', hpc', hlen'⟩ := liveInv_appends 0 ⟨5, 6, 7, 8⟩ 203 hinv (by omega)
  generalize run liveStep s (List.replicate 203 (.append 0 ⟨5, 6, 7, 8⟩)) = s'
    at hinv' hpc' hlen' ⊢
  have hcopy := hpc'.trans hpc
  have hover : ¬ SlotIntact s' .dump := by
    unfold SlotIntact
    simp only [hcopy]
    rw [(hinv'.ring 0).1.toNat_head (hinv'.ring 0).2, hlen', hlen]
    decide
  obtain ⟨read, hread, hbad⟩ := not_inOrder_copy hcopy hinv' hover
  have hdone := LogReader.copy_last s'.area (getCpuLogBufferStart 0) ⟨1, 1, 1, []⟩ rfl
  refine ⟨?_, fun hsafe => hbad (hsafe.inOrder read hread)⟩
  change (dumpStep s').running = []
  rw [dumpStep_copy_done hcopy hdone, running_afterCpu]

end IkgtUsage
