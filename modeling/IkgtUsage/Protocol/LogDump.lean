import IkgtUsage.Driver.Dump
import IkgtUsage.Protocol.LogRing

/-!
# The log as a system: appends and dumps in any order

The handler appends records, the driver dumps what is new. `LogSystem` is the driver with two
things that are not in the source: all records ever appended, and all records ever written in full
to a page. `LogInv` is the invariant of its runs: every buffer is a ring of the records appended,
and no resume point is beyond its head.

A dump reads, of a CPU with head `h` and resume point `r`, the last `(h - r) mod 2 ^ 32` records,
at most `LOGS_PER_CPU` (`pendingRecords_eq`): the difference is stored in 32 bits. So a dump skips
records that are still in the ring exactly when the gap is `2 ^ 32` or more and its low half is
small (`nothing_skipped_iff`). Records are reported twice only after a line ended exactly at the
page limit: that record counts as not written (see `LogOrder`).
-/

namespace IkgtUsage

open Lib

/-! ## The system -/

/-- The driver, the records appended to each CPU so far, and the records reported so far. -/
structure LogSystem where
  driver : LogDriver
  records : Nat → List LogRecord
  lines : List (Nat × LogEntry)

/-- The system after `init_log`. -/
def LogSystem.init (numOfCpus : U32) : LogSystem :=
  ⟨initLog numOfCpus (true, true) .atLoad, fun _ => [], []⟩

/-- What happens: the handler logs an event on a CPU, or the log is read. -/
inductive LogAction
  | append (cpuIndex : Nat) (r : LogRecord)
  | dump

/-- One action, run as a whole. -/
def logStep (s : LogSystem) : LogAction → LogSystem
  | .append c r =>
    match s.driver.logDataGva with
    | .live area =>
      { s with
        driver := { s.driver with logDataGva := .live (appendRecord area (c, r)) }
        records := Function.update s.records c (s.records c ++ [r]) }
    | .null | .freed => s
  | .dump =>
    match dumpLog (true, true) s.driver with
    | some result => { s with driver := result.driver, lines := s.lines ++ result.lines }
    | none => s

/-- The head of no CPU wraps. -/
def NoWrap (s : LogSystem) : LogAction → Prop
  | .append c _ => (s.records c).length + 1 < 2 ^ 64
  | .dump => True

/-! ## The invariant -/

/-- The driver works on `area` with the resume points `seq`. -/
structure LogInv (numOfCpus : U32) (s : LogSystem) (area : LogArea) (seq : Nat → U64) : Prop where
  driver : s.driver = ⟨numOfCpus, .live seq, .live area, true⟩
  ring : ∀ c, CpuRing area c (s.records c)
  few : ∀ c, (s.records c).length < 2 ^ 64
  resume : ∀ c, (seq c).toNat ≤ (s.records c).length

/-- The number of records a dump reads of a CPU with head `h` and resume point `r`. -/
def pendingCount (h r : Nat) : Nat := min ((h - r) % 2 ^ 32) logsPerCpu

theorem pendingCount_le (h r : Nat) : pendingCount h r ≤ h - r := by
  unfold pendingCount
  have := Nat.mod_le (h - r) (2 ^ 32)
  omega

theorem pendingCount_self (h : Nat) : pendingCount h h = 0 := by
  unfold pendingCount
  rw [Nat.sub_self, Nat.zero_mod, Nat.zero_min]

/-- **What a dump reads of a CPU.** -/
theorem pendingRecords_eq {area : LogArea} {c : Nat} {hist : List LogRecord}
    (hring : CpuRing area c hist) (hfew : hist.length < 2 ^ 64) {seq : Nat → U64}
    (hresume : (seq c).toNat ≤ hist.length) :
    pendingRecords area seq c =
      lastStored LogRecord.stored hist (pendingCount hist.length (seq c).toNat) := by
  have hhead := hring.toNat_head hfew
  have hgap : ((getLastSeqNum area (getCpuLogBufferStart c) - seq c).truncate 32 : U32).toNat =
      (hist.length - (seq c).toNat) % 2 ^ 32 := by
    rw [BitVec.truncate_eq_setWidth, BitVec.toNat_setWidth, BitVec.toNat_sub_of_le, hhead]
    rw [BitVec.le_def, hhead]
    exact hresume
  unfold pendingRecords pendingCount
  simp only
  split
  · rename_i hnone
    have hzero : min ((hist.length - (seq c).toNat) % 2 ^ 32) logsPerCpu = 0 ∨ hist.length = 0 := by
      rcases hnone with hnone | hnone
      · have := congrArg BitVec.toNat hnone
        rw [hgap] at this
        exact Or.inl (by rw [this]; rfl)
      · exact Or.inr (by rw [← hhead, hnone]; rfl)
    symm
    rw [← List.length_eq_zero_iff, length_lastStored]
    omega
  · rw [hring.readLogs_head hfew, readCount_eq_min, hgap]

theorem seqNum_stored {q : Nat} (hq : q < 2 ^ 64) (r : LogRecord) :
    (r.stored q).seqNum.toNat = q := by
  unfold LogRecord.stored LogRecord.entry
  rw [BitVec.toNat_ofNat, Nat.mod_eq_of_lt hq]

/-! ## One CPU of a dump -/

/-- How a CPU was dumped: `n` of its `m` pending records are reported, those from number
`hist.length - m` on. -/
inductive CpuDump (hist : List LogRecord) (m n c : Nat) (d d' : DumpState) : Prop
  /-- All of them; the CPU resumes at its head. -/
  | all (hfull : d'.full = false) (hn : n = m) (hseq : (d'.logRecordSeqNum c).toNat = hist.length)
  /-- The next line was cut; the CPU resumes there. -/
  | cut (hfull : d'.full = true) (hn : n < m)
      (hseq : (d'.logRecordSeqNum c).toNat = hist.length - m + n)
      (hroom : d.configfsPage.length +
        (linesText (cpuLines c ((lastStored LogRecord.stored hist m).take n))).length <
          maxConfigfsPageSize - 1)
      (hover : maxConfigfsPageSize - 1 < d.configfsPage.length +
        (linesText (cpuLines c ((lastStored LogRecord.stored hist m).take (n + 1)))).length)
  /-- The last line ended exactly at the limit; the CPU resumes at that record. -/
  | exact (hfull : d'.full = true) (hn : 0 < n) (hle : n ≤ m)
      (hseq : (d'.logRecordSeqNum c).toNat + 1 = hist.length - m + n)
      (hexact : d.configfsPage.length +
        (linesText (cpuLines c ((lastStored LogRecord.stored hist m).take n))).length =
          maxConfigfsPageSize - 1)

theorem CpuDump.le {hist : List LogRecord} {m n c : Nat} {d d' : DumpState}
    (h : CpuDump hist m n c d d') : n ≤ m := by
  cases h with
  | all _ hn => exact hn.le
  | cut _ hn => exact hn.le
  | exact _ _ hle => exact hle

theorem take_of_split {l done rest : List LogEntry} {e : LogEntry} (h : l = done ++ e :: rest) :
    l.take done.length = done ∧ l.take (done.length + 1) = done ++ [e] := by
  rw [h]
  constructor
  · exact List.take_left
  · rw [List.append_cons]
    exact List.take_left' (by simp)

/-- The record at which a split of the pending records cuts them. -/
theorem seqNum_of_lastStored_eq {hist : List LogRecord} (hfew : hist.length < 2 ^ 64) {m : Nat}
    {done rest : List LogEntry} {e : LogEntry} (hm : m ≤ hist.length)
    (h : lastStored LogRecord.stored hist m = done ++ e :: rest) :
    done.length < m ∧ e.seqNum.toNat = hist.length - m + done.length := by
  have hlen := congrArg List.length h
  rw [length_lastStored, List.length_append, List.length_cons] at hlen
  have hlt : done.length < m := by omega
  have hi : done.length < (lastStored LogRecord.stored hist m).length := by
    rw [length_lastStored]
    omega
  have he : e = (lastStored LogRecord.stored hist m)[done.length] := by simp [h]
  rw [he, getElem_lastStored hi (by omega), seqNum_stored (by omega)]
  exact ⟨hlt, rfl⟩

/-- **One CPU of a dump**, whose buffer is a ring of the records `hist`. -/
theorem dumpCpu_stored {area : LogArea} {c : Nat} {hist : List LogRecord}
    (hring : CpuRing area c hist) (hfew : hist.length < 2 ^ 64) (hc : c < 2 ^ 32) {d : DumpState}
    (hresume : (d.logRecordSeqNum c).toNat ≤ hist.length) (hfull : d.full = false)
    (hroom : d.configfsPage.length < maxConfigfsPageSize - 1) :
    ∃ d' n, dumpCpu area c d = some d' ∧
      CpuDump hist (pendingCount hist.length (d.logRecordSeqNum c).toNat) n c d d' ∧
      d'.lines = d.lines ++ cpuLines c ((lastStored LogRecord.stored hist
        (pendingCount hist.length (d.logRecordSeqNum c).toNat)).take n) ∧
      ∀ c', c' ≠ c → d'.logRecordSeqNum c' = d.logRecordSeqNum c' := by
  obtain ⟨d', hd', hout⟩ := dumpCpu_cases hc area hfull hroom
  rw [pendingRecords_eq hring hfew hresume] at hout
  have hm := pendingCount_le hist.length (d.logRecordSeqNum c).toNat
  generalize pendingCount hist.length (d.logRecordSeqNum c).toNat = m at hout hm ⊢
  have hother : ∀ (v : U64) c', c' ≠ c →
      Function.update (d.resumeAtHead area c).logRecordSeqNum c v c' = d.logRecordSeqNum c' := by
    intro v c' hne
    rw [Function.update_of_ne hne]
    exact d.resumeAtHead_of_ne area hne
  refine ⟨d', ?_⟩
  cases hout with
  | all hfull' hpage hroom' hseq hlines =>
    have htake : (lastStored LogRecord.stored hist m).take m = lastStored LogRecord.stored hist m :=
      List.take_of_length_le (by rw [length_lastStored]; omega)
    refine ⟨m, hd', .all hfull' rfl ?_, by rw [htake]; exact hlines, fun c' hne => ?_⟩
    · rw [hseq, d.resumeAtHead_self, hring.toNat_head hfew]
    · rw [hseq]
      exact d.resumeAtHead_of_ne area hne
  | cut done rest e hresults hfull' hroom' hover hseq hlines =>
    obtain ⟨hlt, he⟩ := seqNum_of_lastStored_eq hfew (by omega) hresults
    obtain ⟨hdone, hnext⟩ := take_of_split hresults
    refine ⟨done.length, hd', .cut hfull' hlt ?_ ?_ ?_, ?_, fun c' hne => hseq ▸ hother _ c' hne⟩
    · rw [hseq, Function.update_self, he]
    · rw [hdone]
      exact hroom'
    · rw [hnext]
      exact hover
    · rw [hdone]
      exact hlines
  | exact done rest e hresults hfull' hexact hseq hlines =>
    obtain ⟨hlt, he⟩ := seqNum_of_lastStored_eq hfew (by omega) hresults
    obtain ⟨-, htake⟩ := take_of_split hresults
    refine ⟨done.length + 1, hd', .exact hfull' (Nat.succ_pos _) hlt ?_ ?_, ?_,
      fun c' hne => hseq ▸ hother _ c' hne⟩
    · rw [hseq, Function.update_self, he]
      rfl
    · rw [htake]
      exact hexact
    · rw [htake]
      exact hlines

namespace LogInv

variable {numOfCpus : U32} {s : LogSystem} {area : LogArea} {seq : Nat → U64}

theorem init (numOfCpus : U32) :
    LogInv numOfCpus (.init numOfCpus) (fun _ => .zero) fun _ => 0 := by
  refine ⟨?_, fun c => .zero c, fun _ => Nat.two_pow_pos 64, fun _ => Nat.le_of_eq rfl⟩
  have harea := initLog_area numOfCpus .atLoad
  unfold LogSystem.init initLog at *
  simp only [Bool.not_true, Bool.false_eq_true, if_false] at harea ⊢
  rw [harea]

/-- **An append.** -/
theorem append (h : LogInv numOfCpus s area seq) {c : Nat} {r : LogRecord}
    (hwrap : NoWrap s (.append c r)) :
    LogInv numOfCpus (logStep s (.append c r)) (appendRecord area (c, r)) seq := by
  unfold NoWrap at hwrap
  unfold logStep
  rw [h.driver]
  refine ⟨rfl, fun c' => ?_, fun c' => ?_, fun c' => ?_⟩
  · by_cases hc : c' = c
    · subst hc
      simp only [Function.update_self]
      exact (h.ring c').append_self (by omega) r
    · simp only [Function.update_of_ne hc]
      exact (h.ring c').append_other hc r
  · by_cases hc : c' = c
    · subst hc
      simpa using hwrap
    · simpa [hc] using h.few c'
  · have := h.resume c'
    by_cases hc : c' = c
    · subst hc
      simp only [Function.update_self, List.length_append]
      omega
    · simpa [hc] using this

end LogInv

theorem stored_injective {q q' : Nat} (hq : q < 2 ^ 64) (hq' : q' < 2 ^ 64) {r r' : LogRecord}
    (h : r.stored q = r'.stored q') : q = q' := by
  rw [← seqNum_stored hq r, h, seqNum_stored hq' r']

/-- Which records of the CPU are reported, by number. -/
theorem stored_mem_take {hist : List LogRecord} (hfew : hist.length < 2 ^ 64) {m n q : Nat}
    (hq : q < hist.length) :
    LogRecord.stored q hist[q] ∈ (lastStored LogRecord.stored hist m).take n ↔
      hist.length - m ≤ q ∧ q < hist.length - m + n := by
  rw [mem_take_lastStored]
  constructor
  · rintro ⟨q', hq', hfirst, hlast, heq⟩
    have := stored_injective (by omega) (by omega) heq
    omega
  · rintro ⟨hfirst, hlast⟩
    exact ⟨q, hq, hfirst, hlast, rfl⟩

/-! ## Nothing is skipped -/

/-- From resume point `r` the dump of CPU `c` that ends in `d'` skips no record that is still in
the ring: each is reported, or the page is full and the new resume point is not beyond it. -/
def NothingSkipped (hist : List LogRecord) (r c : Nat) (d' : DumpState) : Prop :=
  ∀ q (hq : q < hist.length), r ≤ q → hist.length ≤ q + logsPerCpu →
    (c, LogRecord.stored q hist[q]) ∈ d'.lines ∨
      d'.full = true ∧ (d'.logRecordSeqNum c).toNat ≤ q

/-- The narrowed gap of head `h` and resume point `r` does not lose records. -/
def GapFits (h r : Nat) : Prop := h - r < 2 ^ 32 ∨ logsPerCpu ≤ (h - r) % 2 ^ 32

/-- The arithmetic of the dump of one CPU. -/
theorem nothingSkipped_iff_of_cpuDump {hist : List LogRecord} (hfew : hist.length < 2 ^ 64)
    {r n c : Nat} {d d' : DumpState}
    (h : CpuDump hist (pendingCount hist.length r) n c d d')
    (hlines : d'.lines = d.lines ++
      cpuLines c ((lastStored LogRecord.stored hist (pendingCount hist.length r)).take n))
    (hother : ∀ line ∈ d.lines, line.1 ≠ c) :
    NothingSkipped hist r c d' ↔ GapFits hist.length r := by
  have hmem : ∀ q (hq : q < hist.length), (c, LogRecord.stored q hist[q]) ∈ d'.lines ↔
      hist.length - pendingCount hist.length r ≤ q ∧
        q < hist.length - pendingCount hist.length r + n := by
    intro q hq
    rw [← stored_mem_take hfew hq, hlines, List.mem_append]
    constructor
    · rintro (hold | hnew)
      · exact absurd rfl (hother _ hold)
      · obtain ⟨e, he, heq⟩ := List.mem_map.mp hnew
        cases heq
        exact he
    · exact fun hnew => Or.inr (List.mem_map_of_mem hnew)
  have hle := pendingCount_le hist.length r
  have hm : pendingCount hist.length r = min ((hist.length - r) % 2 ^ 32) logsPerCpu := rfl
  unfold NothingSkipped GapFits
  simp only [hmem]
  generalize pendingCount hist.length r = m at h hle hm
  rw [logsPerCpu_eq] at hm ⊢
  constructor
  · intro hall
    by_contra hgap
    -- the oldest record in the ring is neither reported nor left for the next dump
    have hq := hall (hist.length - 203) (by omega) (by omega) (by omega)
    cases h with
    | all hfull hn hseq => simp only [hfull, Bool.false_eq_true] at hq; omega
    | cut hfull hn hseq => omega
    | exact hfull hn hle' hseq => omega
  · intro hgap q hq hr hrecent
    cases h with
    | all hfull hn hseq => omega
    | cut hfull hn hseq =>
      by_cases hdone : q < hist.length - m + n
      · exact Or.inl (by omega)
      · exact Or.inr ⟨hfull, by omega⟩
    | exact hfull hn hle' hseq =>
      by_cases hdone : q < hist.length - m + n
      · exact Or.inl (by omega)
      · exact Or.inr ⟨hfull, by omega⟩

/-- Every CPU that a dump comes to, in a state that satisfies the invariant. -/
theorem LogInv.dumpCpu_nothingSkipped {numOfCpus : U32} {s : LogSystem} {area : LogArea}
    {seq : Nat → U64} (h : LogInv numOfCpus s area seq) {c : Nat} (hc : c < numOfCpus.toNat)
    {d : DumpState} (hd : dumpCpus area c 0 (.start seq) = some d) (hfull : d.full = false) :
    ∃ d', dumpCpu area c d = some d' ∧
      (NothingSkipped (s.records c) (seq c).toNat c d' ↔
        GapFits (s.records c).length (seq c).toNat) := by
  have hlt := numOfCpus.isLt
  have hbefore := dumped_of_not_full (d := .start seq) (by omega) rfl
    (show 0 < maxConfigfsPageSize - 1 by decide) hd hfull
  have hseq : d.logRecordSeqNum c = seq c := by
    rw [hbefore.seq, if_neg (by omega)]
    rfl
  obtain ⟨d', n, hd', hcpu, hlines, -⟩ := dumpCpu_stored (h.ring c) (h.few c)
    (show c < 2 ^ 32 by omega) (d := d) (hseq ▸ h.resume c) hfull hbefore.room
  rw [hseq] at hcpu hlines
  refine ⟨d', hd', nothingSkipped_iff_of_cpuDump (h.few c) hcpu hlines fun line hline => ?_⟩
  rw [hbefore.lines] at hline
  have hcpus := mem_pendingLines_cpu (by simpa [DumpState.start] using hline)
  omega

/-! ## Dumps keep the invariant -/

namespace LogInv

variable {numOfCpus : U32} {s : LogSystem} {area : LogArea} {seq : Nat → U64}

/-- **A whole dump**: every CPU is dumped, or the page fills at CPU `i` after those before it. -/
theorem dumpCpus_stored (h : LogInv numOfCpus s area seq) :
    ∃ d', dumpCpus area numOfCpus.toNat 0 (.start seq) = some d' ∧
      (Dumped area 0 numOfCpus.toNat (.start seq) d' ∨
        ∃ i < numOfCpus.toNat, ∃ d₁ n, Dumped area 0 i (.start seq) d₁ ∧
          CpuDump (s.records i) (pendingCount (s.records i).length (seq i).toNat) n i d₁ d' ∧
          d'.full = true ∧
          d'.lines = d₁.lines ++ cpuLines i ((lastStored LogRecord.stored (s.records i)
            (pendingCount (s.records i).length (seq i).toNat)).take n) ∧
          ∀ c, c ≠ i → d'.logRecordSeqNum c = d₁.logRecordSeqNum c) := by
  have hlt := numOfCpus.isLt
  obtain ⟨d', hd', hcases⟩ := dumpCpus_cases area numOfCpus.toNat 0 (d := .start seq) (by omega)
    rfl (show 0 < maxConfigfsPageSize - 1 by decide)
  refine ⟨d', hd', ?_⟩
  rcases hcases with hdumped | ⟨i, hi, d₁, hdumped, hstop, hfull⟩
  · exact Or.inl hdumped
  · rw [Nat.zero_add] at hstop
    have hseq : d₁.logRecordSeqNum i = seq i := by
      rw [hdumped.seq, if_neg (by omega)]
      rfl
    obtain ⟨d₂, n, hd₂, hcpu, hlines, hother⟩ := dumpCpu_stored (h.ring i) (h.few i)
      (show i < 2 ^ 32 by omega) (d := d₁) (hseq ▸ h.resume i) hdumped.full hdumped.room
    rw [hstop, Option.some_inj] at hd₂
    subst hd₂
    rw [hseq] at hcpu hlines
    exact Or.inr ⟨i, hi, d₁, n, hdumped, hcpu, hfull, hlines, hother⟩

/-- The resume point of a dumped CPU. -/
theorem resume_dumped (h : LogInv numOfCpus s area seq) {i : Nat} {d : DumpState}
    (hd : Dumped area 0 i (.start seq) d) (c : Nat) :
    (d.logRecordSeqNum c).toNat = if c < i then (s.records c).length else (seq c).toNat := by
  rw [hd.seq]
  by_cases hc : c < i
  · rw [if_pos (by omega), if_pos hc, (h.ring c).toNat_head (h.few c)]
  · rw [if_neg (by omega), if_neg hc]
    rfl

/-- A dump moves resume points forward, not beyond the heads. -/
theorem resume_dump (h : LogInv numOfCpus s area seq) {d' : DumpState}
    (hd' : dumpCpus area numOfCpus.toNat 0 (.start seq) = some d') (c : Nat) :
    (seq c).toNat ≤ (d'.logRecordSeqNum c).toNat ∧
      (d'.logRecordSeqNum c).toNat ≤ (s.records c).length := by
  obtain ⟨d₂, hd₂, hcases⟩ := h.dumpCpus_stored
  rw [hd', Option.some_inj] at hd₂
  subst hd₂
  have hres := h.resume c
  rcases hcases with hdumped | ⟨i, hi, d₁, n, hdumped, hcpu, -, -, hother⟩
  · rw [h.resume_dumped hdumped]
    split <;> omega
  · by_cases hc : c = i
    · subst hc
      have hm := pendingCount_le (s.records c).length (seq c).toNat
      cases hcpu with
      | all hfull hn hseq => omega
      | cut hfull hn hseq => omega
      | exact hfull hn hle hseq => omega
    · rw [hother c hc, h.resume_dumped hdumped]
      split <;> omega

/-- The dump as a step of the system. -/
theorem logStep_dump (h : LogInv numOfCpus s area seq) {d' : DumpState}
    (hd' : dumpCpus area numOfCpus.toNat 0 (.start seq) = some d') :
    logStep s .dump =
      { s with
        driver := ⟨numOfCpus, .live d'.logRecordSeqNum, .live area, true⟩
        lines := s.lines ++ d'.lines } := by
  unfold logStep dumpLog
  rw [h.driver]
  simp only [Bool.not_true, Bool.or_self, Bool.false_eq_true, if_false, hd']

/-- **A dump.** -/
theorem dump (h : LogInv numOfCpus s area seq) {d' : DumpState}
    (hd' : dumpCpus area numOfCpus.toNat 0 (.start seq) = some d') :
    LogInv numOfCpus (logStep s .dump) area d'.logRecordSeqNum := by
  rw [h.logStep_dump hd']
  exact ⟨rfl, h.ring, h.few, fun c => (h.resume_dump hd' c).2⟩

/-- One action. -/
theorem step (h : LogInv numOfCpus s area seq) {a : LogAction} (ha : NoWrap s a) :
    ∃ area' seq', LogInv numOfCpus (logStep s a) area' seq' := by
  cases a with
  | append c r => exact ⟨_, _, h.append ha⟩
  | dump =>
    obtain ⟨d', hd', -⟩ := h.dumpCpus_stored
    exact ⟨_, _, h.dump hd'⟩

end LogInv

/-- **The invariant holds in every run** in which no head wraps. -/
theorem logInv_run {numOfCpus : U32} {actions : List LogAction}
    (hok : Steps logStep NoWrap (.init numOfCpus) actions) :
    ∃ area seq, LogInv numOfCpus (run logStep (.init numOfCpus) actions) area seq :=
  steps_inv (fun s => ∃ area seq, LogInv numOfCpus s area seq)
    (fun _ _ ⟨_, _, h⟩ ha => h.step ha) actions ⟨_, _, .init numOfCpus⟩ hok

/-- A dump leaves the area where it is. -/
theorem logDataGva_dumpLog {s : LogDriver} {allocated : Bool × Bool} {result : DumpResult}
    (h : dumpLog allocated s = some result) : result.driver.logDataGva = s.logDataGva := by
  unfold dumpLog at h
  split at h
  · cases h
    rfl
  · cases h
  · split at h
    · cases h
      rfl
    · split at h
      · split at h
        · cases h
        · cases h
          rfl
      · cases h
      · cases h

/-- The records among the actions. -/
def LogAction.appended : LogAction → Option (Nat × LogRecord)
  | append c r => some (c, r)
  | dump => none

/-- **The records after a run** are those before it and those appended. -/
theorem records_run (c : Nat) :
    ∀ (actions : List LogAction) {l : LogSystem}, (∃ area, l.driver.logDataGva = .live area) →
      (run logStep l actions).records c =
        l.records c ++ recordsOf c (actions.filterMap LogAction.appended)
  | [], l, _ => (List.append_nil _).symm
  | .dump :: actions, l, h => by
    have hdump : (logStep l .dump).records = l.records ∧
        (logStep l .dump).driver.logDataGva = l.driver.logDataGva := by
      unfold logStep
      simp only
      cases hresult : dumpLog (true, true) l.driver with
      | none => exact ⟨rfl, rfl⟩
      | some result => exact ⟨rfl, logDataGva_dumpLog hresult⟩
    rw [run_cons, records_run c actions (by rwa [hdump.2]), hdump.1]
    rfl
  | .append c' r :: actions, l, h => by
    obtain ⟨area, harea⟩ := h
    have hstep : logStep l (.append c' r) =
        { l with
          driver := { l.driver with logDataGva := .live (appendRecord area (c', r)) }
          records := Function.update l.records c' (l.records c' ++ [r]) } := by
      unfold logStep
      rw [harea]
    rw [run_cons, hstep, records_run c actions ⟨_, rfl⟩, List.filterMap_cons]
    unfold recordsOf LogAction.appended
    by_cases hc : c' = c
    · subst hc
      simp
    · simp [hc, Function.update_of_ne (Ne.symm hc)]

/-- A run of fewer than `2 ^ 64` actions wraps no head. -/
theorem steps_noWrap :
    ∀ (actions : List LogAction) {l : LogSystem},
      (∀ c, (l.records c).length + actions.length < 2 ^ 64) → Steps logStep NoWrap l actions
  | [], _, _ => trivial
  | .dump :: actions, l, h => by
    refine ⟨trivial, steps_noWrap actions fun c => ?_⟩
    have hrecords : (logStep l .dump).records = l.records := by
      unfold logStep
      simp only
      cases dumpLog (true, true) l.driver with
      | none => rfl
      | some result => rfl
    have := h c
    rw [hrecords]
    rw [List.length_cons] at this
    omega
  | .append c' r :: actions, l, h => by
    have hself := h c'
    rw [List.length_cons] at hself
    refine ⟨show (l.records c').length + 1 < 2 ^ 64 by omega, steps_noWrap actions fun c => ?_⟩
    have hother := h c
    rw [List.length_cons] at hother
    unfold logStep
    cases l.driver.logDataGva with
    | null => simp only; omega
    | freed => simp only; omega
    | live area =>
      simp only
      by_cases hc : c = c'
      · subst hc
        rw [Function.update_self, List.length_append, List.length_singleton]
        omega
      · rw [Function.update_of_ne hc]
        omega

/-- No gap loses records in fewer than `2 ^ 32` actions. -/
theorem gapFits_run (numOfCpus : U32) {actions : List LogAction} (hfew : actions.length < 2 ^ 32)
    (c r : Nat) : GapFits ((run logStep (.init numOfCpus) actions).records c).length r := by
  have hlive : ∃ area, (LogSystem.init numOfCpus).driver.logDataGva = .live area := ⟨_, rfl⟩
  have hnone : ((LogSystem.init numOfCpus).records c).length = 0 := rfl
  have hrecords := length_recordsOf_le c (actions.filterMap LogAction.appended)
  have happended := List.length_filterMap_le LogAction.appended actions
  rw [records_run c actions hlive, List.length_append]
  exact Or.inl (by omega)

/-- **When no surviving record is skipped.** In every state of a run in which no head wraps, let a
dump come to CPU `c`, with head `h` and resume point `r`. It skips no record that is still in the
ring if and only if `h - r` is less than `2 ^ 32` or its low half is at least `LOGS_PER_CPU`. -/
theorem nothing_skipped_iff {numOfCpus : U32} {actions : List LogAction}
    (hok : Steps logStep NoWrap (.init numOfCpus) actions) :
    let s := run logStep (.init numOfCpus) actions
    ∃ area seq, s.driver = ⟨numOfCpus, .live seq, .live area, true⟩ ∧
      ∀ c < numOfCpus.toNat,
        (getLastSeqNum area (getCpuLogBufferStart c)).toNat = (s.records c).length ∧
        (seq c).toNat ≤ (s.records c).length ∧
        ∀ d, dumpCpus area c 0 (.start seq) = some d → d.full = false →
          ∃ d', dumpCpu area c d = some d' ∧
            (NothingSkipped (s.records c) (seq c).toNat c d' ↔
              GapFits (s.records c).length (seq c).toNat) := by
  obtain ⟨area, seq, h⟩ := logInv_run hok
  exact ⟨area, seq, h.driver, fun c hc => ⟨(h.ring c).toNat_head (h.few c), h.resume c,
    fun d hd hfull => h.dumpCpu_nothingSkipped hc hd hfull⟩⟩

/-- A record with a long line. -/
def longRecord : LogRecord := ⟨.allOnes 64, .allOnes 32, .allOnes 64, .allOnes 64⟩

/-- More records of CPU 0 than a page takes, a dump, and records of both CPUs. -/
def pageAndMore : List LogAction :=
  (List.replicate 70 longRecord).map (.append 0) ++
    [.dump, .append 1 longRecord, .append 0 ⟨1, 2, 3, 4⟩, .append 1 ⟨5, 6, 7, 8⟩]

theorem steps_noWrap_pageAndMore : Steps logStep NoWrap (.init 2) pageAndMore :=
  steps_noWrap pageAndMore fun _ => show 0 + pageAndMore.length < 2 ^ 64 by decide

/-- A dump of either CPU, where the dump before has stopped within the records of CPU 0. -/
theorem nothing_skipped_iff_two :
    let s := run logStep (.init 2) pageAndMore
    ∃ area seq, s.driver = ⟨2, .live seq, .live area, true⟩ ∧
      ∀ c < (2 : U32).toNat,
        (getLastSeqNum area (getCpuLogBufferStart c)).toNat = (s.records c).length ∧
        (seq c).toNat ≤ (s.records c).length ∧
        ∀ d, dumpCpus area c 0 (.start seq) = some d → d.full = false →
          ∃ d', dumpCpu area c d = some d' ∧
            (NothingSkipped (s.records c) (seq c).toNat c d' ↔
              GapFits (s.records c).length (seq c).toNat) :=
  nothing_skipped_iff steps_noWrap_pageAndMore

/-- Appends to one CPU, nothing else. -/
theorem logInv_appends (numOfCpus : U32) (c : Nat) (hist : List LogRecord) :
    hist.length < 2 ^ 64 → ∃ area,
      LogInv numOfCpus (run logStep (.init numOfCpus) (hist.map (.append c))) area (fun _ => 0) ∧
      (run logStep (.init numOfCpus) (hist.map (.append c))).records c = hist := by
  induction hist using List.reverseRecOn with
  | nil => exact fun _ => ⟨_, .init numOfCpus, rfl⟩
  | append_singleton hist r ih =>
    intro hfew
    rw [List.length_append, List.length_singleton] at hfew
    obtain ⟨area, h, hrecords⟩ := ih (by omega)
    have hwrap : NoWrap (run logStep (.init numOfCpus) (hist.map (.append c))) (.append c r) := by
      change ((run logStep (.init numOfCpus) _).records c).length + 1 < 2 ^ 64
      rwa [hrecords]
    rw [List.map_append, List.map_singleton, run_append]
    refine ⟨_, h.append hwrap, ?_⟩
    simp only [run_cons, run_nil, logStep, h.driver, Function.update_self, hrecords]

/-- **Records are skipped.** After `2 ^ 32 + 5` appends to CPU 0 and no dump so far, a dump reads
five records and drops the other 198 that are still in the ring. -/
theorem records_skipped :
    let s := run logStep (.init 1) (List.replicate (2 ^ 32 + 5) (.append 0 ⟨0, 0, 0, 0⟩))
    ∃ area seq d', s.driver = ⟨1, .live seq, .live area, true⟩ ∧
      (s.records 0).length = 2 ^ 32 + 5 ∧ (seq 0).toNat = 0 ∧
      dumpCpu area 0 (.start seq) = some d' ∧
      ¬ NothingSkipped (s.records 0) (seq 0).toNat 0 d' := by
  obtain ⟨area, h, hrecords⟩ := logInv_appends 1 0 (List.replicate (2 ^ 32 + 5) ⟨0, 0, 0, 0⟩)
    (by rw [List.length_replicate]; decide)
  rw [List.map_replicate] at h hrecords
  obtain ⟨d', hd', hiff⟩ := h.dumpCpu_nothingSkipped (c := 0) (by decide) rfl rfl
  refine ⟨area, _, d', h.driver, by rw [hrecords, List.length_replicate], rfl, hd', ?_⟩
  rw [hiff, hrecords, List.length_replicate]
  unfold GapFits
  decide

end IkgtUsage
