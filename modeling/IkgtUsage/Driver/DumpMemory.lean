import IkgtUsage.Driver.DumpPage
import IkgtUsage.Protocol.LogRing

/-!
# The memory a dump touches

`dump_log` on the bytes of the configfs page: `strncpy` writes exactly as many bytes as it is told
to, wherever it is pointed. `DumpMemory` carries the page as a memory, `offset`, and what is not in
the source, the accesses made so far to the three buffers: stores to `results`, texts formatted
into `sz_log_record`, copies to the page.

Each function here is the one of `driver/log.c` on that memory, and `Shows` says that it does what
the function on the text of the page does. `dumpLog_inBounds` is the result: nothing is accessed out
of bounds.
-/

namespace IkgtUsage

/-- An access to a buffer of `dump_log`. -/
inductive DumpAccess
  /-- `results[index] = *entry`. -/
  | result (index : Nat)
  /-- `snprintf` with room for `size` bytes of a text of `length` characters. -/
  | format (size length : Nat)
  /-- `strncpy` of `n` bytes to `configfs_page + offset`. -/
  | page (offset n : Nat)
  deriving DecidableEq, Repr

/-- The access stays in its buffer; a formatted text is not cut. -/
def DumpAccess.InBounds : DumpAccess → Prop
  | .result index => index < logsPerCpu
  | .format size length => length < size
  | .page offset n => offset + n ≤ page4KB

/-- `strncpy(page + offset, msg, n)`: past the end of `msg` it writes zeros. -/
def strncpy (page : Nat → Char) (offset : Nat) (msg : List Char) (n : Nat) : Nat → Char :=
  fun i => if offset ≤ i ∧ i < offset + n then msg.getD (i - offset) (Char.ofNat 0) else page i

/-- The variables of a running `dump_log`. -/
structure DumpMemory where
  configfsPage : Nat → Char
  offset : Nat
  full : Bool
  numOfLogsDumped : U32
  /-- `log_record_seq_num[]`, by CPU. -/
  logRecordSeqNum : Nat → U64
  accesses : List DumpAccess

namespace DumpMemory

/-- One more access. -/
def access (a : DumpAccess) (m : DumpMemory) : DumpMemory :=
  { m with accesses := m.accesses ++ [a] }

/-- `strncpy(configfs_page + offset, msg, n); offset += n`. -/
def put (msg : List Char) (n : Nat) (m : DumpMemory) : DumpMemory :=
  { m.access (.page m.offset n) with
    configfsPage := strncpy m.configfsPage m.offset msg n
    offset := m.offset + n }

/-- `log_add_msg_to_configfs`; the caller stores its answer in `full`. -/
def logAddMsgToConfigfs (msg : List Char) (msglen : Nat) (m : DumpMemory) : Option DumpMemory :=
  -- BUG_ON
  if maxConfigfsPageSize - 1 ≤ m.offset then none
  else
    let copy := min msglen (maxConfigfsPageSize - 1 - m.offset)
    let m := m.put msg copy
    if copy ≠ msglen then
      some { m.put ['.', '.', '.', '\n'] (min 4 maxEllipsisSize) with full := true }
    else if maxConfigfsPageSize - 1 ≤ m.offset then some { m with full := true }
    else some { m with full := false }

/-- The loop of `dump_log` over the records of one CPU. -/
def dumpRecords (cpuIndex : Nat) : List LogEntry → DumpMemory → Option DumpMemory
  | [], m => some m
  | entry :: rest, m =>
    let szLogRecord := formatRecord cpuIndex entry
    match (m.access (.format maxLogRecordLen szLogRecord.length)).logAddMsgToConfigfs
        (snprintf maxLogRecordLen szLogRecord) szLogRecord.length with
    | none => none
    | some m =>
      if m.full then
        some { m with
          logRecordSeqNum := Function.update m.logRecordSeqNum cpuIndex entry.seqNum }
      else dumpRecords cpuIndex rest { m with numOfLogsDumped := m.numOfLogsDumped + 1 }

/-- The body of the CPU loop of `dump_log`. -/
def dumpCpu (area : LogArea) (cpuIndex : Nat) (m : DumpMemory) : Option DumpMemory :=
  let cpuLogBuffer := getCpuLogBufferStart cpuIndex
  let lastSeqNum := getLastSeqNum area cpuLogBuffer
  let numOfLogsToRead : U32 := (lastSeqNum - m.logRecordSeqNum cpuIndex).truncate 32
  let m := { m with logRecordSeqNum := Function.update m.logRecordSeqNum cpuIndex lastSeqNum }
  if numOfLogsToRead = 0 ∨ lastSeqNum = 0 then some m
  else
    let results := readLogs area cpuLogBuffer lastSeqNum numOfLogsToRead
    dumpRecords cpuIndex results
      { m with accesses := m.accesses ++ (List.range results.length).map .result }

/-- The CPU loop of `dump_log`. -/
def dumpCpus (area : LogArea) : (count cpuIndex : Nat) → DumpMemory → Option DumpMemory
  | 0, _, m => some m
  | count + 1, cpuIndex, m =>
    match dumpCpu area cpuIndex m with
    | none => none
    | some m => if m.full then some m else dumpCpus area count (cpuIndex + 1) m

/-- The variables at the start of `dump_log`. -/
def start (configfsPage : Nat → Char) (logRecordSeqNum : Nat → U64) : DumpMemory :=
  ⟨configfsPage, 0, false, 0, logRecordSeqNum, []⟩

/-- The end of `dump_log`: the sentinel. -/
def finish (m : DumpMemory) : DumpMemory :=
  let szLogRecord := formatSentinel m.offset m.numOfLogsDumped m.full
  (m.access (.format (maxSentinelSize - 1) szLogRecord.length)).put
    (snprintf (maxSentinelSize - 1) szLogRecord) szLogRecord.length

/-- `dump_log`, its allocations succeeding. It returns the last `offset`. -/
def dumpLog (numOfCpus : U32) (logRecordSeqNum : Nat → U64) (area : LogArea)
    (configfsPage : Nat → Char) : Option DumpMemory :=
  (dumpCpus area numOfCpus.toNat 0 (.start configfsPage logRecordSeqNum)).map finish

/-! ## The text of the page -/

/-- The bytes of the page before `offset`. -/
def text (m : DumpMemory) : List Char := (List.range m.offset).map m.configfsPage

@[simp] theorem length_text (m : DumpMemory) : m.text.length = m.offset := by
  rw [text, List.length_map, List.length_range]

/-- **`strncpy` appends** the first `n` characters of a text that has as many. -/
theorem text_put (m : DumpMemory) {msg : List Char} {n : Nat} (hn : n ≤ msg.length) :
    (m.put msg n).text = m.text ++ msg.take n := by
  have hsplit : (m.put msg n).text =
      (List.range m.offset).map (strncpy m.configfsPage m.offset msg n) ++
        (List.range n).map fun i => strncpy m.configfsPage m.offset msg n (m.offset + i) := by
    change (List.range (m.offset + n)).map (strncpy m.configfsPage m.offset msg n) = _
    rw [List.range_add, List.map_append, List.map_map]
    rfl
  have hbefore : (List.range m.offset).map (strncpy m.configfsPage m.offset msg n) = m.text := by
    refine List.map_congr_left fun i hi => if_neg ?_
    have := List.mem_range.mp hi
    omega
  have hcopied : (List.range n).map
      (fun i => strncpy m.configfsPage m.offset msg n (m.offset + i)) = msg.take n := by
    refine List.ext_getElem (by simp [hn]) fun i hi _ => ?_
    rw [List.length_map, List.length_range] at hi
    rw [List.getElem_map, List.getElem_range, List.getElem_take, strncpy, if_pos (by omega),
      Nat.add_sub_cancel_left, List.getD_eq_getElem?_getD, List.getElem?_eq_getElem (by omega),
      Option.getD_some]
  rw [hsplit, hbefore, hcopied]

/-! ## Nothing out of bounds -/

/-- So far every access was in bounds, and the page past `offset` is as it was. -/
structure Safe (configfsPage : Nat → Char) (m : DumpMemory) : Prop where
  untouched : ∀ i, m.offset ≤ i → m.configfsPage i = configfsPage i
  inBounds : ∀ a ∈ m.accesses, a.InBounds

variable {configfsPage : Nat → Char} {m : DumpMemory}

theorem Safe.accesses (h : Safe configfsPage m) {as : List DumpAccess}
    (has : ∀ a ∈ as, a.InBounds) :
    Safe configfsPage { m with accesses := m.accesses ++ as } :=
  ⟨h.untouched, fun a ha => (List.mem_append.mp ha).elim (h.inBounds a) (has a)⟩

theorem Safe.access (h : Safe configfsPage m) {a : DumpAccess} (ha : a.InBounds) :
    Safe configfsPage (m.access a) :=
  h.accesses fun _ hb => List.mem_singleton.mp hb ▸ ha

theorem Safe.put (h : Safe configfsPage m) (msg : List Char) {n : Nat}
    (hn : m.offset + n ≤ page4KB) : Safe configfsPage (m.put msg n) := by
  have haccess := h.access (a := .page m.offset n) hn
  refine ⟨fun i hi => ?_, haccess.inBounds⟩
  have hi' : m.offset + n ≤ i := hi
  exact (if_neg (by omega)).trans (h.untouched i (by omega))

/-- The memory shows what the text says. -/
structure Shows (configfsPage : Nat → Char) (m : DumpMemory) (d : DumpState) : Prop where
  text : m.text = d.configfsPage
  full : m.full = d.full
  num : m.numOfLogsDumped = d.numOfLogsDumped
  seq : m.logRecordSeqNum = d.logRecordSeqNum
  safe : Safe configfsPage m

/-- **A message is added to the memory as to the text**, in bounds. -/
theorem Safe.logAddMsgToConfigfs (h : Safe configfsPage m) (msg : List Char) {full : Bool}
    {page : List Char}
    (hadd : IkgtUsage.logAddMsgToConfigfs m.text msg msg.length = some (full, page)) :
    ∃ m', m.logAddMsgToConfigfs msg msg.length = some m' ∧ Safe configfsPage m' ∧
      m'.text = page ∧ m'.full = full ∧ m'.numOfLogsDumped = m.numOfLogsDumped ∧
      m'.logRecordSeqNum = m.logRecordSeqNum := by
  unfold IkgtUsage.logAddMsgToConfigfs at hadd
  unfold DumpMemory.logAddMsgToConfigfs
  rw [length_text] at hadd
  by_cases hbug : maxConfigfsPageSize - 1 ≤ m.offset
  · rw [if_pos hbug] at hadd
    cases hadd
  rw [if_neg hbug] at hadd ⊢
  rw [maxConfigfsPageSize_eq] at *
  simp only at hadd ⊢
  generalize hcopy : min msg.length (4027 - 1 - m.offset) = copy at hadd ⊢
  have hput := h.put msg (n := copy) (show m.offset + copy ≤ 4096 by omega)
  have htext : (m.put msg copy).text = m.text ++ msg.take copy := m.text_put (by omega)
  have hoffset : (m.put msg copy).offset = m.offset + copy := rfl
  by_cases hcut : copy = msg.length
  · rw [if_neg (not_not_intro hcut), ← htext, length_text] at hadd
    rw [if_neg (not_not_intro hcut)]
    by_cases hend : 4027 - 1 ≤ (m.put msg copy).offset
    · rw [if_pos hend] at hadd ⊢
      cases hadd
      exact ⟨_, rfl, ⟨hput.untouched, hput.inBounds⟩, rfl, rfl, rfl, rfl⟩
    · rw [if_neg hend] at hadd ⊢
      cases hadd
      exact ⟨_, rfl, ⟨hput.untouched, hput.inBounds⟩, rfl, rfl, rfl, rfl⟩
  · rw [if_pos hcut, ← htext] at hadd
    rw [if_pos hcut]
    cases hadd
    have hdots := hput.put ['.', '.', '.', '\n'] (n := min 4 maxEllipsisSize)
      (show m.offset + copy + 4 ≤ 4096 by omega)
    refine ⟨_, rfl, ⟨hdots.untouched, hdots.inBounds⟩, ?_, rfl, rfl, rfl⟩
    exact text_put _ (by decide)

/-- The records of one CPU. -/
theorem Shows.dumpRecords {cpuIndex : Nat} (hcpu : cpuIndex < 2 ^ 32) :
    ∀ (results : List LogEntry) {m : DumpMemory} {d d' : DumpState}, Shows configfsPage m d →
      IkgtUsage.dumpRecords cpuIndex results d = some d' →
      ∃ m', dumpRecords cpuIndex results m = some m' ∧ Shows configfsPage m' d'
  | [], m, d, d', h, hd => by
    cases hd
    exact ⟨m, rfl, h⟩
  | e :: rest, m, d, d', h, hd => by
    have hlen := length_formatRecord_le hcpu e
    have hsafe := h.safe.access (a := .format maxLogRecordLen (formatRecord cpuIndex e).length)
      (show _ < 256 by omega)
    rw [IkgtUsage.dumpRecords] at hd
    rw [DumpMemory.dumpRecords]
    simp only [snprintf_formatRecord hcpu, ← h.text] at hd ⊢
    cases hadd : IkgtUsage.logAddMsgToConfigfs m.text (formatRecord cpuIndex e)
        (formatRecord cpuIndex e).length with
    | none =>
      rw [hadd] at hd
      cases hd
    | some r =>
      obtain ⟨full, page⟩ := r
      obtain ⟨m', hm', hsafe', htext, hfull, hnum, hseq⟩ := hsafe.logAddMsgToConfigfs _ hadd
      rw [hadd] at hd
      rw [hm']
      simp only [hfull] at hd ⊢
      have hseq' := hseq.trans h.seq
      have hnum' := hnum.trans h.num
      cases full with
      | true =>
        cases hd
        exact ⟨_, rfl, htext, rfl, hnum', congrArg (Function.update · cpuIndex e.seqNum) hseq',
          hsafe'.untouched, hsafe'.inBounds⟩
      | false =>
        have hshows : Shows configfsPage
            { m' with full := false, numOfLogsDumped := m'.numOfLogsDumped + 1 }
            { d with
              configfsPage := page
              full := false
              lines := if d.fits (formatRecord cpuIndex e) = true then d.lines ++ [(cpuIndex, e)]
                else d.lines
              numOfLogsDumped := d.numOfLogsDumped + 1 } :=
          ⟨htext, rfl, congrArg (· + 1) hnum', hseq', hsafe'.untouched, hsafe'.inBounds⟩
        exact Shows.dumpRecords hcpu rest hshows hd

/-- No more than `LOGS_PER_CPU` records are copied. -/
theorem length_readLogs_le (area : LogArea) (start : Nat) (startSeqNum : U64)
    (count : BitVec 32) : (readLogs area start startSeqNum count).length ≤ logsPerCpu := by
  rw [readLogs_eq_window]
  refine (List.length_filter_le _ _).trans ?_
  rw [Lib.length_window]
  exact readCount_le count

/-- One CPU. -/
theorem Shows.dumpCpu {area : LogArea} {cpuIndex : Nat} (hcpu : cpuIndex < 2 ^ 32)
    {d d' : DumpState} (h : Shows configfsPage m d)
    (hd : IkgtUsage.dumpCpu area cpuIndex d = some d') :
    ∃ m', m.dumpCpu area cpuIndex = some m' ∧ Shows configfsPage m' d' := by
  unfold IkgtUsage.dumpCpu at hd
  unfold DumpMemory.dumpCpu
  simp only [h.seq] at hd ⊢
  have hlen := length_readLogs_le area (getCpuLogBufferStart cpuIndex)
    (getLastSeqNum area (getCpuLogBufferStart cpuIndex))
    ((getLastSeqNum area (getCpuLogBufferStart cpuIndex) -
      d.logRecordSeqNum cpuIndex).truncate 32)
  split at hd
  · rename_i hnone
    cases hd
    rw [if_pos hnone]
    exact ⟨_, rfl, h.text, h.full, h.num, rfl, h.safe.untouched, h.safe.inBounds⟩
  · rename_i hsome
    rw [if_neg hsome]
    generalize readLogs _ _ _ _ = results at hd hlen ⊢
    have hstores : ∀ a ∈ (List.range results.length).map DumpAccess.result, a.InBounds := by
      intro a ha
      obtain ⟨i, hi, rfl⟩ := List.mem_map.mp ha
      exact (List.mem_range.mp hi).trans_le hlen
    have hresults := h.safe.accesses hstores
    have hshows : Shows configfsPage
        { m with
          logRecordSeqNum := Function.update d.logRecordSeqNum cpuIndex
            (getLastSeqNum area (getCpuLogBufferStart cpuIndex))
          accesses := m.accesses ++ (List.range results.length).map .result }
        (d.resumeAtHead area cpuIndex) :=
      ⟨h.text, h.full, h.num, rfl, hresults.untouched, hresults.inBounds⟩
    exact hshows.dumpRecords hcpu results hd

/-- The CPU loop. -/
theorem Shows.dumpCpus {area : LogArea} :
    ∀ (count cpuIndex : Nat) {m : DumpMemory} {d d' : DumpState}, cpuIndex + count ≤ 2 ^ 32 →
      Shows configfsPage m d → IkgtUsage.dumpCpus area count cpuIndex d = some d' →
      ∃ m', m.dumpCpus area count cpuIndex = some m' ∧ Shows configfsPage m' d'
  | 0, _, m, d, d', _, h, hd => by
    cases hd
    exact ⟨m, rfl, h⟩
  | count + 1, cpuIndex, m, d, d', hcpus, h, hd => by
    unfold IkgtUsage.dumpCpus at hd
    unfold DumpMemory.dumpCpus
    cases hcpu : IkgtUsage.dumpCpu area cpuIndex d with
    | none =>
      rw [hcpu] at hd
      cases hd
    | some d₁ =>
      obtain ⟨m₁, hm₁, h₁⟩ := h.dumpCpu (by omega) hcpu
      rw [hcpu] at hd
      rw [hm₁]
      simp only [h₁.full] at hd ⊢
      split at hd
      · rename_i hfull
        cases hd
        rw [if_pos hfull]
        exact ⟨m₁, rfl, h₁⟩
      · rename_i hfull
        rw [if_neg hfull]
        exact h₁.dumpCpus count (cpuIndex + 1) (by omega) hd

/-- The sentinel. -/
theorem Shows.finish {d : DumpState} (h : Shows configfsPage m d)
    (hlen : d.configfsPage.length ≤ 4030) :
    m.finish.text = d.finish ∧ Safe configfsPage m.finish ∧ m.finish.offset ≤ page4KB := by
  have hoffset : m.offset = d.configfsPage.length := by rw [← h.text, length_text]
  have hsmall : m.offset < 10 ^ 4 := by omega
  have hsentinel := length_formatSentinel_le hsmall m.numOfLogsDumped m.full
  have hwhole := snprintf_formatSentinel hsmall m.numOfLogsDumped m.full
  have hformat := h.safe.access (a := .format (maxSentinelSize - 1)
    (formatSentinel m.offset m.numOfLogsDumped m.full).length) (show _ < 63 by omega)
  have hput := hformat.put (formatSentinel m.offset m.numOfLogsDumped m.full)
    (n := (formatSentinel m.offset m.numOfLogsDumped m.full).length)
    (show m.offset + _ ≤ 4096 by omega)
  unfold DumpMemory.finish
  simp only [hwhole]
  refine ⟨?_, hput, show m.offset + _ ≤ 4096 by omega⟩
  rw [text_put _ (le_refl _), List.take_length, DumpState.finish_eq hlen, ← h.num, ← h.full,
    ← hoffset]
  exact congrArg (· ++ _) h.text

end DumpMemory

/-- **The page in memory is the page of `dumpLog`.** -/
theorem DumpMemory.dumpLog_shows (numOfCpus : U32) (logRecordSeqNum : Nat → U64) (area : LogArea)
    (isLoggingRunning : Bool) (configfsPage : Nat → Char) :
    ∃ m r, DumpMemory.dumpLog numOfCpus logRecordSeqNum area configfsPage = some m ∧
      IkgtUsage.dumpLog (true, true)
        ⟨numOfCpus, .live logRecordSeqNum, .live area, isLoggingRunning⟩ = some r ∧
      m.text = r.configfsPage ∧ DumpMemory.Safe configfsPage m ∧ m.offset ≤ page4KB := by
  obtain ⟨r, d, hr, hd, hpage, hout⟩ :=
    dumpLog_page numOfCpus logRecordSeqNum area isLoggingRunning
  have hstart : DumpMemory.Shows configfsPage (.start configfsPage logRecordSeqNum)
      (.start logRecordSeqNum) :=
    ⟨rfl, rfl, rfl, rfl, fun _ _ => rfl, fun a ha => absurd ha List.not_mem_nil⟩
  obtain ⟨m, hm, hshows⟩ := hstart.dumpCpus numOfCpus.toNat 0
    (by have := numOfCpus.isLt; omega) hd
  obtain ⟨htext, hsafe, hoffset⟩ := hshows.finish hout.length_le
  refine ⟨m.finish, r, ?_, hr, htext.trans hpage.symm, hsafe, hoffset⟩
  unfold DumpMemory.dumpLog
  rw [hm]
  rfl

/-- **A dump stays in its buffers.** For any number of CPUs, any contents of the log buffers and
any resume points, no `BUG_ON` is met, no more than `LOGS_PER_CPU` records are stored in `results`,
no text is cut by `snprintf`, only bytes of the page are written, and so many are returned. -/
theorem dumpLog_inBounds (numOfCpus : U32) (logRecordSeqNum : Nat → U64) (area : LogArea)
    (configfsPage : Nat → Char) :
    ∃ m, DumpMemory.dumpLog numOfCpus logRecordSeqNum area configfsPage = some m ∧
      (∀ a ∈ m.accesses, a.InBounds) ∧
      (∀ i, page4KB ≤ i → m.configfsPage i = configfsPage i) ∧ m.offset ≤ page4KB := by
  obtain ⟨m, r, hm, -, -, hsafe, hoffset⟩ :=
    DumpMemory.dumpLog_shows numOfCpus logRecordSeqNum area true configfsPage
  exact ⟨m, hm, hsafe.inBounds, fun i hi => hsafe.untouched i (hoffset.trans hi), hoffset⟩

end IkgtUsage
