import IkgtUsage.Common.Policy

/-!
# `common/include/policy_common.h`: the layout of the log area

The log area is one array of 40-byte `log_entry_t`, `ENTRIES_PER_CPU` of them per CPU. Entry 0 of
a CPU's buffer holds the next sequence number, entries `1 … LOGS_PER_CPU` the records.

`log_entry_t` is a union of `data` and `meta`. It is modelled by `data`; `meta.head` is its first
eight bytes, which are `data.seq_num`, so `LogEntry.metaHead` reads and `withMetaHead` writes that
field. An area is a function from the entry index: which indices lie inside the allocated bytes
is a matter of its own (`entryEnd`).
-/

namespace IkgtUsage

/-- `log_entry_t`, seen as its `data` member. -/
structure LogEntry where
  seqNum : U64
  reason : U32
  valid : U32
  qualification : U64
  rip : U64
  gva : U64
  deriving DecidableEq, Repr

/-- The bytes of a zeroed entry. -/
def LogEntry.zero : LogEntry := ⟨0, 0, 0, 0, 0, 0⟩

/-- `meta.head`: the first eight bytes of the union. -/
def LogEntry.metaHead (e : LogEntry) : U64 := e.seqNum

/-- A store to `meta.head`. -/
def LogEntry.withMetaHead (e : LogEntry) (head : U64) : LogEntry := { e with seqNum := head }

@[simp] theorem LogEntry.metaHead_withMetaHead (e : LogEntry) (head : U64) :
    (e.withMetaHead head).metaHead = head := rfl

/-- `sizeof(log_entry_t)`. -/
def sizeofLogEntry : Nat := 40

/-- `PAGE_4KB`. -/
def page4KB : Nat := 4096

/-- `LOG_PAGES_PER_CPU`. -/
def logPagesPerCpu : Nat := 2

/-- `ENTRIES_PER_CPU`. -/
def entriesPerCpu : Nat := logPagesPerCpu * page4KB / sizeofLogEntry

/-- `LOGS_PER_CPU`: entry 0 is the meta entry. -/
def logsPerCpu : Nat := entriesPerCpu - 1

theorem entriesPerCpu_eq : entriesPerCpu = 204 := rfl

theorem logsPerCpu_eq : logsPerCpu = 203 := rfl

/-- `LOG_SEQ_NUM_TO_INDEX(seq)`. -/
def logSeqNumToIndex (seq : U64) : Nat := seq.toNat % logsPerCpu + 1

theorem logSeqNumToIndex_pos (seq : U64) : 1 ≤ logSeqNumToIndex seq := Nat.le_add_left 1 _

theorem logSeqNumToIndex_le (seq : U64) : logSeqNumToIndex seq ≤ logsPerCpu :=
  Nat.mod_lt _ (by decide)

/-- The array of log entries behind a base address. -/
abbrev LogArea := Nat → LogEntry

/-- `get_cpu_log_buffer_start`: the index of entry 0 of the CPU's buffer. The product of the
`uint32_t` index and the `size_t` constant is 64 bits wide and does not wrap. -/
def getCpuLogBufferStart (cpuIndex : Nat) : Nat := cpuIndex * entriesPerCpu

/-- `get_last_seq_num` of the buffer that starts at index `start`. -/
def getLastSeqNum (area : LogArea) (start : Nat) : U64 := (area start).metaHead

/-- The first byte past entry `i` of an area. -/
def entryEnd (i : Nat) : Nat := (i + 1) * sizeofLogEntry

end IkgtUsage
