import IkgtUsage.Common.Log

/-!
# `driver/log.c`: the driver's end of the log

`readLogs` copies the last records of one CPU's buffer. `dumpLog` formats the records of every CPU
that are new since the last dump into one configfs page; what does not fit is left for the next
dump. For each CPU `log_record_seq_num` holds the point to resume from.

A page under construction is the text up to `offset`. Two things can stop the driver for good, a
`BUG_ON` and the use of freed memory; a function that may meet them returns `none` there. The field
`lines` of a `DumpState` is not in the source: it lists the records written in full, with their
newline.
-/

namespace IkgtUsage

/-! ## Reading a buffer -/

/-- `entry->data.valid` as a condition. -/
def LogEntry.isValid (e : LogEntry) : Bool := e.valid ≠ 0

/-- The `while (count)` loop of `read_logs`, on the buffer that starts at index `start`: `stop` is
`LOG_SEQ_NUM_TO_INDEX(start_seq_num)`. -/
def readLogsLoop (area : LogArea) (start stop : Nat) : (count index : Nat) → List LogEntry
  | 0, _ => []
  | count + 1, index =>
    let entry := area (start + index)
    let next := if logsPerCpu ≤ index then 1 else index + 1
    let rest := if next = stop then [] else readLogsLoop area start stop count next
    if entry.isValid then entry :: rest else rest

/-- `read_logs`: the records copied to `results`. A negative `count` is a huge one in the
comparison with `LOGS_PER_CPU`, which is a `size_t`. -/
def readLogs (area : LogArea) (start : Nat) (startSeqNum : U64) (count : BitVec 32) :
    List LogEntry :=
  let count :=
    if count = -1 ∨ logsPerCpu < (count.signExtend 64).toNat then logsPerCpu else count.toNat
  let index := logSeqNumToIndex startSeqNum
  let index := if index ≤ count then logsPerCpu - (count - index) else index - count
  readLogsLoop area start (logSeqNumToIndex startSeqNum) count index

/-! ## Formatting -/

/-- `MAX_LOG_RECORD_LEN`. -/
def maxLogRecordLen : Nat := 256

/-- `MAX_SENTINEL_SIZE`. -/
def maxSentinelSize : Nat := 64

/-- `MAX_ELLIPSIS_SIZE`. -/
def maxEllipsisSize : Nat := 4

/-- `MAX_CONFIGFS_PAGE_SIZE`. -/
def maxConfigfsPageSize : Nat := page4KB - maxSentinelSize - maxEllipsisSize - 1

/-- `%u`, `%llu` and, of a natural number, `%d`. -/
def formatDec (n : Nat) : List Char := Nat.toDigits 10 n

/-- `%llX`. -/
def formatHex (n : Nat) : List Char := (Nat.toDigits 16 n).map Char.toUpper

/-- The record format `"%u,%llu,%u,%llX,%llX,%llX\n"`. -/
def formatRecord (cpuIndex : Nat) (e : LogEntry) : List Char :=
  formatDec cpuIndex ++ ',' :: formatDec e.seqNum.toNat ++ ',' :: formatDec e.reason.toNat ++
    ',' :: formatHex e.qualification.toNat ++ ',' :: formatHex e.rip.toNat ++
    ',' :: formatHex e.gva.toNat ++ ['\n']

/-- The sentinel format `"%u,%u,%d\nEOF\n"`. -/
def formatSentinel (offset : Nat) (numOfLogsDumped : U32) (full : Bool) : List Char :=
  formatDec offset ++ ',' :: formatDec numOfLogsDumped.toNat ++ ',' :: formatDec full.toNat ++
    ['\n', 'E', 'O', 'F', '\n']

/-- `snprintf(buffer, size, …)`: what is left in the buffer. It returns the length of the whole
text. -/
def snprintf (size : Nat) (text : List Char) : List Char := text.take (size - 1)

/-! ## Dumping -/

/-- `log_add_msg_to_configfs`: whether the page is full, and the page. -/
def logAddMsgToConfigfs (configfsPage msg : List Char) (msglen : Nat) :
    Option (Bool × List Char) :=
  -- BUG_ON
  if maxConfigfsPageSize - 1 ≤ configfsPage.length then none
  else
    let copy := min msglen (maxConfigfsPageSize - 1 - configfsPage.length)
    let configfsPage := configfsPage ++ msg.take copy
    if copy ≠ msglen then
      some (true, configfsPage ++ ['.', '.', '.', '\n'].take (min 4 maxEllipsisSize))
    else if maxConfigfsPageSize - 1 ≤ configfsPage.length then some (true, configfsPage)
    else some (false, configfsPage)

/-- The variables of a running `dump_log`. -/
structure DumpState where
  configfsPage : List Char
  full : Bool
  numOfLogsDumped : U32
  /-- `log_record_seq_num[]`, by CPU. -/
  logRecordSeqNum : Nat → U64
  /-- The records whose whole line is on the page, with their CPU. -/
  lines : List (Nat × LogEntry)

/-- A record line fits in full. -/
def DumpState.fits (d : DumpState) (line : List Char) : Bool :=
  d.configfsPage.length + line.length ≤ maxConfigfsPageSize - 1

/-- The loop of `dump_log` over the records of one CPU. -/
def dumpRecords (cpuIndex : Nat) : List LogEntry → DumpState → Option DumpState
  | [], d => some d
  | entry :: rest, d =>
    let szLogRecord := formatRecord cpuIndex entry
    match logAddMsgToConfigfs d.configfsPage (snprintf maxLogRecordLen szLogRecord)
        szLogRecord.length with
    | none => none
    | some (full, configfsPage) =>
      let lines := if d.fits szLogRecord then d.lines ++ [(cpuIndex, entry)] else d.lines
      if full then
        some { d with configfsPage, full, lines,
                      logRecordSeqNum := Function.update d.logRecordSeqNum cpuIndex entry.seqNum }
      else
        dumpRecords cpuIndex rest
          { d with configfsPage, full, lines, numOfLogsDumped := d.numOfLogsDumped + 1 }

/-- The body of the CPU loop of `dump_log`. The difference of two 64-bit numbers is stored in a
`uint32_t`. -/
def dumpCpu (area : LogArea) (cpuIndex : Nat) (d : DumpState) : Option DumpState :=
  let cpuLogBuffer := getCpuLogBufferStart cpuIndex
  let lastSeqNum := getLastSeqNum area cpuLogBuffer
  let numOfLogsToRead : U32 := (lastSeqNum - d.logRecordSeqNum cpuIndex).truncate 32
  let d := { d with logRecordSeqNum := Function.update d.logRecordSeqNum cpuIndex lastSeqNum }
  if numOfLogsToRead = 0 ∨ lastSeqNum = 0 then some d
  else dumpRecords cpuIndex (readLogs area cpuLogBuffer lastSeqNum numOfLogsToRead) d

/-- The CPU loop of `dump_log`: `count` CPUs from `cpuIndex` on. It ends early when the page is
full. -/
def dumpCpus (area : LogArea) : (count cpuIndex : Nat) → DumpState → Option DumpState
  | 0, _, d => some d
  | count + 1, cpuIndex, d =>
    match dumpCpu area cpuIndex d with
    | none => none
    | some d => if d.full then some d else dumpCpus area count (cpuIndex + 1) d

/-- A pointer to allocated memory: null, live with its contents, or left dangling by `kfree`. -/
inductive KPointer (α : Type)
  | null
  | live (contents : α)
  | freed

/-- The globals of `driver/log.c`. -/
structure LogDriver where
  numOfCpus : U32
  logRecordSeqNum : KPointer (Nat → U64)
  logDataGva : KPointer LogArea
  isLoggingRunning : Bool

/-- The driver before `init_log`. -/
def LogDriver.atLoad : LogDriver := ⟨0, .null, .null, false⟩

/-- What `dump_log` leaves: the bytes of the page up to the length it returns, the driver, and the
records written in full. -/
structure DumpResult where
  configfsPage : List Char
  driver : LogDriver
  lines : List (Nat × LogEntry)

/-- The variables at the start of `dump_log`. -/
def DumpState.start (logRecordSeqNum : Nat → U64) : DumpState := ⟨[], false, 0, logRecordSeqNum, []⟩

/-- The end of `dump_log`: the sentinel. -/
def DumpState.finish (d : DumpState) : List Char :=
  let szLogRecord := formatSentinel d.configfsPage.length d.numOfLogsDumped d.full
  d.configfsPage ++ (snprintf (maxSentinelSize - 1) szLogRecord).take szLogRecord.length

/-- `dump_log` on a page, `allocated` telling which of its two allocations succeed. -/
def dumpLog (allocated : Bool × Bool) (s : LogDriver) : Option DumpResult :=
  match s.logRecordSeqNum with
  | .null => some ⟨[], s, []⟩
  | .freed => none
  | .live logRecordSeqNum =>
    if !allocated.1 || !allocated.2 then some ⟨[], s, []⟩
    else
      match s.logDataGva with
      | .live area =>
        match dumpCpus area s.numOfCpus.toNat 0 (.start logRecordSeqNum) with
        | none => none
        | some d =>
          some ⟨d.finish, { s with logRecordSeqNum := .live d.logRecordSeqNum }, d.lines⟩
      | .null | .freed => none

/-! ## Initialisation -/

/-- `log_buffer_init`. -/
def logBufferInit (start : Nat) (area : LogArea) : LogArea :=
  Function.update area start ((area start).withMetaHead 0)

/-- The size `init_log` computes, in 32 bits. -/
def logAreaSize (numOfCpus : U32) : U32 :=
  numOfCpus * BitVec.ofNat 32 logPagesPerCpu * BitVec.ofNat 32 page4KB

/-- `init_log`, `allocated` telling which of its two allocations succeed. Where the second fails
`log_record_seq_num` is freed and still set. -/
def initLog (numOnlineCpus : U32) (allocated : Bool × Bool) (s : LogDriver) : LogDriver :=
  let s := { s with numOfCpus := numOnlineCpus }
  if !allocated.1 then { s with logRecordSeqNum := .null }
  else if !allocated.2 then { s with logRecordSeqNum := .freed, logDataGva := .null }
  else
    let area := (List.range numOnlineCpus.toNat).foldl
      (fun area cpuIndex => logBufferInit (getCpuLogBufferStart cpuIndex) area)
      fun _ => LogEntry.zero
    { s with
      logRecordSeqNum := .live fun _ => 0
      logDataGva := .live area
      isLoggingRunning := true }

end IkgtUsage
