import IkgtUsage.Driver.DumpText
import IkgtUsage.Lib.Loop
import IkgtUsage.Protocol.LogOrder
import Mathlib.Algebra.BigOperators.Group.Finset.Basic
import Mathlib.Algebra.Order.BigOperators.Group.Finset

/-!
# Reading the log until a page is not full

A page takes about fifty lines, a CPU keeps up to 203 records: a reader reads `log.txt` again as
long as the page says that it is full. `CpuReport` says what one dump does for each CPU, whether the
page fills before, at, or after it. Every full page takes a pending record off, so the reader comes
to an end, and what it has read then are exactly the records that were pending
and still in the ring (`reader_gets_pending`).
-/

namespace IkgtUsage

open Lib

/-! ## One dump, CPU by CPU -/

/-- What a dump does for a CPU with the records `hist` and the resume point `r`: it reports `k` of
the pending records and leaves the resume point `r'`. -/
inductive CpuReport (hist : List LogRecord) (r k r' : Nat) (full : Bool) : Prop
  /-- All of them. -/
  | all (hk : k = pendingCount hist.length r) (hr : r' = hist.length)
  /-- Those before the line that was cut. -/
  | cut (hfull : full = true) (hk : k < pendingCount hist.length r)
      (hr : r' = hist.length - pendingCount hist.length r + k)
  /-- Those up to the line that ended at the limit, at which the CPU resumes. -/
  | exact (hfull : full = true) (hpos : 0 < k) (hk : k ≤ pendingCount hist.length r)
      (hr : r' + 1 = hist.length - pendingCount hist.length r + k)
  /-- The page was full before. -/
  | later (hfull : full = true) (hk : k = 0) (hr : r' = r)

theorem mem_pendingLines {area : LogArea} {seq : Nat → U64} {i c : Nat} {e : LogEntry} :
    (c, e) ∈ pendingLines area seq 0 i ↔ c < i ∧ e ∈ pendingRecords area seq c := by
  unfold pendingLines cpuLines
  rw [List.mem_flatMap]
  constructor
  · rintro ⟨c', hc', hmem⟩
    obtain ⟨e', he', heq⟩ := List.mem_map.mp hmem
    obtain ⟨rfl, rfl⟩ := Prod.mk.inj heq
    exact ⟨by simpa using (List.mem_range'_1.mp hc').2, he'⟩
  · rintro ⟨hc, he⟩
    exact ⟨c, List.mem_range'_1.mpr ⟨Nat.zero_le c, by omega⟩, List.mem_map_of_mem he⟩

theorem mem_cpuLines {i c : Nat} {e : LogEntry} {entries : List LogEntry} :
    (c, e) ∈ cpuLines i entries ↔ c = i ∧ e ∈ entries := by
  unfold cpuLines
  rw [List.mem_map]
  constructor
  · rintro ⟨e', he', heq⟩
    obtain ⟨rfl, rfl⟩ := Prod.mk.inj heq
    exact ⟨rfl, he'⟩
  · rintro ⟨rfl, he⟩
    exact ⟨e, he, rfl⟩

namespace CpuReport

variable {hist : List LogRecord} {r k r' : Nat} {full : Bool}

/-- A gap that loses no records stays one. -/
theorem gapFits (h : CpuReport hist r k r' full) (hgap : GapFits hist.length r) :
    GapFits hist.length r' := by
  have hcount : pendingCount hist.length r ≤ logsPerCpu := Nat.min_le_right _ _
  unfold GapFits
  rw [logsPerCpu_eq] at hcount ⊢
  cases h with
  | all _ hr => omega
  | cut _ _ hr => omega
  | exact _ _ _ hr => omega
  | later _ _ hr => exact hr ▸ hgap

/-- A record that is pending and in the ring is reported, or the CPU resumes at or before it. -/
theorem reported_or_left (h : CpuReport hist r k r' full) (hgap : GapFits hist.length r) {q : Nat}
    (hq : q < hist.length) (hr : r ≤ q) (hrecent : hist.length ≤ q + logsPerCpu) :
    (hist.length - pendingCount hist.length r ≤ q ∧
      q < hist.length - pendingCount hist.length r + k) ∨ r' ≤ q := by
  have hm : pendingCount hist.length r = min ((hist.length - r) % 2 ^ 32) logsPerCpu := rfl
  unfold GapFits at hgap
  rw [logsPerCpu_eq] at *
  cases h with
  | all => omega
  | cut => omega
  | exact => omega
  | later => omega

/-- There is no more left than before. -/
theorem pendingCount_le (h : CpuReport hist r k r' full) :
    pendingCount hist.length r' ≤ pendingCount hist.length r := by
  have hm : pendingCount hist.length r = min ((hist.length - r) % 2 ^ 32) logsPerCpu := rfl
  have hm' : pendingCount hist.length r' = min ((hist.length - r') % 2 ^ 32) logsPerCpu := rfl
  rw [logsPerCpu_eq] at hm hm'
  cases h with
  | all => omega
  | cut => omega
  | exact => omega
  | later _ _ hr => rw [hr]

end CpuReport

namespace LogInv

variable {numOfCpus : U32} {s : LogSystem} {area : LogArea} {seq : Nat → U64}

/-- **One dump, for each CPU.** -/
theorem dump_cpu (h : LogInv numOfCpus s area seq) {d' : DumpState}
    (hd' : dumpCpus area numOfCpus.toNat 0 (.start seq) = some d') {c : Nat}
    (hc : c < numOfCpus.toNat) :
    ∃ k, CpuReport (s.records c) (seq c).toNat k (d'.logRecordSeqNum c).toNat d'.full ∧
      ∀ e, (c, e) ∈ d'.lines ↔ e ∈ (s.pending c).take k := by
  obtain ⟨d₂, hd₂, hcases⟩ := h.dumpCpus_stored
  rw [hd', Option.some_inj] at hd₂
  subst hd₂
  have hwhole : (s.pending c).take (pendingCount (s.records c).length (seq c).toNat) =
      s.pending c := by
    rw [h.pending_eq]
    refine List.take_of_length_le ?_
    rw [length_lastStored]
    omega
  rcases hcases with hdumped | ⟨i, hi, d₁, n, hdumped, hcpu, hfull, hlines, hother⟩
  · refine ⟨_, .all rfl ?_, fun e => ?_⟩
    · rw [h.resume_dumped hdumped, if_pos hc]
    · rw [hdumped.lines, DumpState.start, List.nil_append, mem_pendingLines,
        h.pendingRecords_eq, hwhole, and_iff_right hc]
  have hmem : ∀ e, (c, e) ∈ d'.lines ↔
      (c < i ∧ e ∈ s.pending c) ∨ (c = i ∧ e ∈ (s.pending c).take n) := by
    intro e
    rw [hlines, hdumped.lines, DumpState.start, List.nil_append, List.mem_append,
      mem_pendingLines, mem_cpuLines, h.pendingRecords_eq]
    refine or_congr_right (and_congr_right fun hci => ?_)
    rw [← hci, h.pending_eq]
  rcases Nat.lt_trichotomy c i with hlt | rfl | hgt
  · refine ⟨_, .all rfl ?_, fun e => ?_⟩
    · rw [hother c hlt.ne, h.resume_dumped hdumped, if_pos hlt]
    · rw [hmem, hwhole]
      exact ⟨fun hor => hor.elim And.right fun hand => absurd hand.1 hlt.ne,
        fun he => Or.inl ⟨hlt, he⟩⟩
  · refine ⟨n, ?_, fun e => ?_⟩
    · cases hcpu with
      | all hfull' => exact absurd (hfull.symm.trans hfull') (by decide)
      | cut _ hn hseq => exact .cut hfull hn hseq
      | exact _ hn hle hseq => exact .exact hfull hn hle hseq
    · rw [hmem]
      exact ⟨fun hor => hor.elim (fun hand => absurd hand.1 (lt_irrefl c)) And.right,
        fun he => Or.inr ⟨rfl, he⟩⟩
  · refine ⟨0, .later hfull rfl ?_, fun e => ?_⟩
    · rw [hother c hgt.ne', h.resume_dumped hdumped, if_neg hgt.not_gt]
    · rw [hmem, List.take_zero]
      exact ⟨fun hor => hor.elim (fun hand => absurd hand.1 hgt.not_gt)
        fun hand => absurd hand.1 hgt.ne', fun he => absurd he List.not_mem_nil⟩

/-- Every line is one of a CPU. -/
theorem cpu_of_line (h : LogInv numOfCpus s area seq) {d' : DumpState}
    (hd' : dumpCpus area numOfCpus.toNat 0 (.start seq) = some d') {c : Nat} {e : LogEntry}
    (hmem : (c, e) ∈ d'.lines) : c < numOfCpus.toNat := by
  obtain ⟨d₂, hd₂, hcases⟩ := h.dumpCpus_stored
  rw [hd', Option.some_inj] at hd₂
  subst hd₂
  rcases hcases with hdumped | ⟨i, hi, d₁, n, hdumped, -, -, hlines, -⟩
  · rw [hdumped.lines, DumpState.start, List.nil_append, mem_pendingLines] at hmem
    exact hmem.1
  · rw [hlines, hdumped.lines, DumpState.start, List.nil_append, List.mem_append,
      mem_pendingLines, mem_cpuLines] at hmem
    rcases hmem with ⟨hlt, -⟩ | ⟨rfl, -⟩
    · exact hlt.trans hi
    · exact hi

/-- **A full page takes something off.** -/
theorem full_page_reports (h : LogInv numOfCpus s area seq) {d' : DumpState}
    (hd' : dumpCpus area numOfCpus.toNat 0 (.start seq) = some d') (hfull : d'.full = true) :
    ∃ c < numOfCpus.toNat, pendingCount (s.records c).length (d'.logRecordSeqNum c).toNat <
      pendingCount (s.records c).length (seq c).toNat := by
  by_contra hnone
  simp only [not_exists, not_and, not_lt] at hnone
  obtain ⟨d₂, hd₂, hcases⟩ := h.dumpCpus_stored
  rw [hd', Option.some_inj] at hd₂
  subst hd₂
  rcases hcases with hdumped | ⟨i, hi, d₁, n, hdumped, hcpu, -, -, hother⟩
  · exact absurd (hfull.symm.trans hdumped.full) (by decide)
  -- the CPUs before the one at which the page fills had nothing to report
  have hbefore : ∀ c < i, pendingCount (s.records c).length (seq c).toNat = 0 := fun c hc => by
    have hc' := hnone c (hc.trans hi)
    rw [hother c hc.ne, h.resume_dumped hdumped, if_pos hc, pendingCount_self] at hc'
    omega
  have hpage : d₁.configfsPage.length = 0 := by
    rw [hdumped.page, DumpState.start, h.pendingLines_eq_nil hbefore]
    rfl
  have hline := length_first_line_le (show i < 2 ^ 32 by have := numOfCpus.isLt; omega)
    (lastStored LogRecord.stored (s.records i)
      (pendingCount (s.records i).length (seq i).toNat))
  -- so its own lines fill the page, and there are at least two
  have hleft := hnone i hi
  have hm' : pendingCount (s.records i).length (d'.logRecordSeqNum i).toNat =
    min (((s.records i).length - (d'.logRecordSeqNum i).toNat) % 2 ^ 32) logsPerCpu := rfl
  have hm : pendingCount (s.records i).length (seq i).toNat ≤ logsPerCpu := Nat.min_le_right _ _
  have hle := IkgtUsage.pendingCount_le (s.records i).length (seq i).toNat
  rw [logsPerCpu_eq] at hm hm'
  cases hcpu with
  | all hfull' => exact absurd (hfull.symm.trans hfull') (by decide)
  | cut _ hn hseq _ hover =>
    have hpos : n ≠ 0 := by
      rintro rfl
      rw [hpage, maxConfigfsPageSize_eq, Nat.zero_add, Nat.zero_add] at hover
      omega
    omega
  | exact _ hn hle' hseq hexact =>
    have hone : n ≠ 1 := by
      rintro rfl
      rw [hpage, maxConfigfsPageSize_eq] at hexact
      omega
    omega

end LogInv

/-! ## The reader -/

/-- A reader of `log.txt`: the system, and the lines read so far. -/
structure Reader where
  system : LogSystem
  read : List LogLine

/-- The page that a read of `log.txt` gets. -/
def LogSystem.page (s : LogSystem) : List Char :=
  match dumpLog (true, true) s.driver with
  | some result => result.configfsPage
  | none => []

/-- One pass of a reader that stops at the first page that is not full. -/
def readerBody (rd : Reader) : Reader ⊕ Reader :=
  match readPage rd.system.page with
  | none => .inl rd
  | some reading =>
    let rd : Reader := ⟨logStep rd.system .dump, rd.read ++ reading.lines⟩
    if reading.full = 0 then .inl rd else .inr rd

/-- Record number `q` of the CPU is `r`; it is pending, and still in the ring. -/
structure LogSystem.Due (s : LogSystem) (c q : Nat) (r : LogRecord) : Prop where
  cpu : c < s.driver.numOfCpus.toNat
  resume : s.resume c ≤ q
  record : (s.records c)[q]? = some r
  recent : (s.records c).length ≤ q + logsPerCpu

/-- What is left to report. -/
def LogSystem.left (s : LogSystem) : Nat :=
  ∑ c ∈ Finset.range s.driver.numOfCpus.toNat,
    pendingCount (s.records c).length (s.resume c)

/-- The invariant of a reader that started in `s₀`. -/
structure ReaderInv (numOfCpus : U32) (s₀ : LogSystem) (rd : Reader) : Prop where
  inv : ∃ area seq, LogInv numOfCpus rd.system area seq
  records : rd.system.records = s₀.records
  gapFits : ∀ c < numOfCpus.toNat, GapFits (s₀.records c).length (rd.system.resume c)
  forward : ∀ c, s₀.resume c ≤ rd.system.resume c
  due : ∀ line ∈ rd.read, ∃ c q r, s₀.Due c q r ∧ line = .of (c, r.stored q)
  left : ∀ c q r, s₀.Due c q r → .of (c, r.stored q) ∈ rd.read ∨ rd.system.resume c ≤ q

namespace LogInv

variable {numOfCpus : U32} {s : LogSystem} {area : LogArea} {seq : Nat → U64}

/-- **One pass of the reader.** -/
theorem readerBody_eq (h : LogInv numOfCpus s area seq) {d' : DumpState}
    (hd' : dumpCpus area numOfCpus.toNat 0 (.start seq) = some d') (read : List LogLine) :
    readerBody ⟨s, read⟩ =
      let rd : Reader := ⟨logStep s .dump, read ++ d'.lines.map LogLine.of⟩
      if d'.full then .inr rd else .inl rd := by
  have hpage : s.page = d'.finish := by
    unfold LogSystem.page dumpLog
    rw [h.driver]
    simp only [Bool.not_true, Bool.or_self, Bool.false_eq_true, if_false, hd']
  unfold readerBody
  rw [hpage, readPage_finish hd']
  cases d'.full with
  | false => rfl
  | true => rfl

/-- The resume points after a dump. -/
theorem resume_logStep (h : LogInv numOfCpus s area seq) {d' : DumpState}
    (hd' : dumpCpus area numOfCpus.toNat 0 (.start seq) = some d') (c : Nat) :
    (logStep s .dump).resume c = (d'.logRecordSeqNum c).toNat := (h.dump hd').resume_eq c

/-- The records after a dump. -/
theorem records_logStep (h : LogInv numOfCpus s area seq) {d' : DumpState}
    (hd' : dumpCpus area numOfCpus.toNat 0 (.start seq) = some d') :
    (logStep s .dump).records = s.records := by rw [h.logStep_dump hd']

/-- **A pass over a full page leaves less to report.** -/
theorem left_logStep_lt (h : LogInv numOfCpus s area seq) {d' : DumpState}
    (hd' : dumpCpus area numOfCpus.toNat 0 (.start seq) = some d') (hfull : d'.full = true) :
    (logStep s .dump).left < s.left := by
  have hcpus : (logStep s .dump).driver.numOfCpus = numOfCpus := by rw [(h.dump hd').driver]
  unfold LogSystem.left
  rw [hcpus, h.driver]
  simp only [h.resume_logStep hd', h.records_logStep hd', h.resume_eq]
  obtain ⟨c, hc, hlt⟩ := h.full_page_reports hd' hfull
  refine Finset.sum_lt_sum (fun c hc => ?_) ⟨c, Finset.mem_range.mpr hc, hlt⟩
  obtain ⟨k, hreport, -⟩ := h.dump_cpu hd' (Finset.mem_range.mp hc)
  exact hreport.pendingCount_le

/-- What a dump reports of a CPU, by number. -/
theorem mem_take_pending (h : LogInv numOfCpus s area seq) {c k : Nat} {e : LogEntry} :
    e ∈ (s.pending c).take k ↔ ∃ q r, (s.records c)[q]? = some r ∧
      (s.records c).length - pendingCount (s.records c).length (seq c).toNat ≤ q ∧
      q < (s.records c).length - pendingCount (s.records c).length (seq c).toNat + k ∧
      e = r.stored q := by
  rw [h.pending_eq, mem_take_lastStored]
  constructor
  · rintro ⟨q, hq, hfirst, hlast, rfl⟩
    exact ⟨q, _, List.getElem?_eq_getElem hq, hfirst, hlast, rfl⟩
  · rintro ⟨q, r, hr, hfirst, hlast, rfl⟩
    obtain ⟨hq, rfl⟩ := List.getElem?_eq_some_iff.mp hr
    exact ⟨q, hq, hfirst, hlast, rfl⟩

end LogInv

namespace ReaderInv

variable {numOfCpus : U32} {s₀ : LogSystem} {rd rd' : Reader}

theorem init {area : LogArea} {seq : Nat → U64} (h : LogInv numOfCpus s₀ area seq)
    (hgap : ∀ c < numOfCpus.toNat, GapFits (s₀.records c).length (s₀.resume c)) :
    ReaderInv numOfCpus s₀ ⟨s₀, []⟩ where
  inv := ⟨area, seq, h⟩
  records := rfl
  gapFits := hgap
  forward _ := le_refl _
  due _ hline := absurd hline List.not_mem_nil
  left _ _ _ hdue := Or.inr hdue.resume

/-- **A pass of the reader keeps the invariant.** -/
theorem dump (hcpus : s₀.driver.numOfCpus = numOfCpus) (h : ReaderInv numOfCpus s₀ rd)
    {area : LogArea} {seq : Nat → U64} (hinv : LogInv numOfCpus rd.system area seq)
    {d' : DumpState} (hd' : dumpCpus area numOfCpus.toNat 0 (.start seq) = some d') :
    ReaderInv numOfCpus s₀ ⟨logStep rd.system .dump, rd.read ++ d'.lines.map LogLine.of⟩ where
  inv := ⟨_, _, hinv.dump hd'⟩
  records := (hinv.records_logStep hd').trans h.records
  gapFits c hc := by
    obtain ⟨k, hreport, -⟩ := hinv.dump_cpu hd' hc
    have hgap := h.gapFits c hc
    rw [hinv.resume_eq, ← h.records] at hgap
    rw [hinv.resume_logStep hd', ← h.records]
    exact hreport.gapFits hgap
  forward c := by
    have hmono := (hinv.resume_dump hd' c).1
    rw [hinv.resume_logStep hd']
    exact (h.forward c).trans (hinv.resume_eq c ▸ hmono)
  due line hline := by
    rcases List.mem_append.mp hline with hold | hnew
    · exact h.due line hold
    obtain ⟨⟨c, e⟩, hmem, rfl⟩ := List.mem_map.mp hnew
    have hc := hinv.cpu_of_line hd' hmem
    obtain ⟨k, hreport, hiff⟩ := hinv.dump_cpu hd' hc
    obtain ⟨q, r, hr, hfirst, -, rfl⟩ := hinv.mem_take_pending.mp ((hiff e).mp hmem)
    have hresume := hinv.resume c
    have hforward := h.forward c
    rw [hinv.resume_eq] at hforward
    have hm := pendingCount_le (rd.system.records c).length (seq c).toNat
    have hring : pendingCount (rd.system.records c).length (seq c).toNat ≤ logsPerCpu :=
      Nat.min_le_right _ _
    refine ⟨c, q, r, ⟨hcpus ▸ hc, ?_, h.records ▸ hr, ?_⟩, rfl⟩
    · omega
    · rw [← h.records]
      omega
  left c q r hdue := by
    have hc : c < numOfCpus.toNat := hcpus ▸ hdue.cpu
    rcases h.left c q r hdue with hread | hleft
    · exact Or.inl (List.mem_append_left _ hread)
    obtain ⟨k, hreport, hiff⟩ := hinv.dump_cpu hd' hc
    have hgap := h.gapFits c hc
    have hrecord := hdue.record
    have hrecent := hdue.recent
    rw [← h.records] at hgap hrecord hrecent
    rw [hinv.resume_eq] at hgap hleft
    obtain ⟨hq, -⟩ := List.getElem?_eq_some_iff.mp hrecord
    rcases hreport.reported_or_left hgap hq hleft hrecent with ⟨hfirst, hlast⟩ | hstop
    · have hmem := (hiff _).mpr (hinv.mem_take_pending.mpr ⟨q, r, hrecord, hfirst, hlast, rfl⟩)
      exact Or.inl (List.mem_append_right _ (List.mem_map_of_mem hmem))
    · exact Or.inr (by rwa [hinv.resume_logStep hd'])

/-- **One pass of the reader**: it goes on with less to report, or ends with nothing pending. -/
theorem pass (hcpus : s₀.driver.numOfCpus = numOfCpus) (h : ReaderInv numOfCpus s₀ rd) :
    ∃ rd', ReaderInv numOfCpus s₀ rd' ∧
      ((readerBody rd = .inr rd' ∧ rd'.system.left < rd.system.left) ∨
        (readerBody rd = .inl rd' ∧
          ∀ c < numOfCpus.toNat, rd'.system.resume c = (s₀.records c).length)) := by
  obtain ⟨area, seq, hinv⟩ := h.inv
  obtain ⟨d', hd', -⟩ := hinv.dumpCpus_stored
  have hbody := hinv.readerBody_eq hd' rd.read
  refine ⟨_, h.dump hcpus hinv hd', ?_⟩
  cases hfull : d'.full with
  | true =>
    rw [hfull] at hbody
    exact Or.inl ⟨hbody, hinv.left_logStep_lt hd' hfull⟩
  | false =>
    rw [hfull] at hbody
    refine Or.inr ⟨hbody, fun c hc => ?_⟩
    -- the page is not full: every CPU is at its head
    obtain ⟨k, hreport, -⟩ := hinv.dump_cpu hd' hc
    change (logStep rd.system .dump).resume c = _
    rw [hinv.resume_logStep hd', ← h.records]
    cases hreport with
    | all _ hr => exact hr
    | cut hfull' => exact absurd (hfull'.symm.trans hfull) (by decide)
    | exact hfull' => exact absurd (hfull'.symm.trans hfull) (by decide)
    | later hfull' => exact absurd (hfull'.symm.trans hfull) (by decide)

end ReaderInv

/-! ## The whole reading -/

/-- **A reader comes to an end**, in any state that satisfies the invariant of the log. -/
theorem LogInv.reader_ends {numOfCpus : U32} {s : LogSystem} {area : LogArea} {seq : Nat → U64}
    (hinv : LogInv numOfCpus s area seq)
    (hgap : ∀ c < numOfCpus.toNat, GapFits (s.records c).length (s.resume c)) :
    ∃ rd, Ends readerBody ⟨s, []⟩ rd ∧
      (∀ line, line ∈ rd.read ↔ ∃ c q r, s.Due c q r ∧ line = .of (c, r.stored q)) ∧
      ∀ c < numOfCpus.toNat, rd.system.resume c = (s.records c).length := by
  have hcpus : s.driver.numOfCpus = numOfCpus := by rw [hinv.driver]
  have hinit : ReaderInv numOfCpus s ⟨s, []⟩ := .init hinv hgap
  refine ends_of_measure (fun rd => rd.system.left) ?_ ?_ _ hinit
  · intro rd rd' h hleave
    obtain ⟨rd₂, h', ⟨hbody, -⟩ | ⟨hbody, hend⟩⟩ := h.pass hcpus
    · rw [hleave] at hbody
      cases hbody
    · rw [hleave] at hbody
      cases hbody
      refine ⟨fun line => ⟨h'.due line, ?_⟩, hend⟩
      rintro ⟨c, q, r, hdue, rfl⟩
      obtain ⟨hq, -⟩ := List.getElem?_eq_some_iff.mp hdue.record
      have hresume := hend c (hcpus ▸ hdue.cpu)
      exact (h'.left c q r hdue).resolve_right (by omega)
  · intro rd rd' h hagain
    obtain ⟨rd₂, h', ⟨hbody, hlt⟩ | ⟨hbody, -⟩⟩ := h.pass hcpus
    · rw [hagain] at hbody
      cases hbody
      exact ⟨h', hlt⟩
    · rw [hagain] at hbody
      cases hbody

/-- **A reader gets what is pending.** In any state of a run in which no head wraps and no CPU has a
gap that loses records, a reader that reads `log.txt` until a page is not full comes to an end. It
has then read the lines of exactly the records that were pending and still in the ring, with their
numbers, and nothing is pending any more. -/
theorem reader_gets_pending {numOfCpus : U32} {actions : List LogAction}
    (hok : Steps logStep NoWrap (.init numOfCpus) actions)
    (hgap : ∀ c < numOfCpus.toNat,
      GapFits ((run logStep (.init numOfCpus) actions).records c).length
        ((run logStep (.init numOfCpus) actions).resume c)) :
    let s := run logStep (.init numOfCpus) actions
    ∃ rd, Ends readerBody ⟨s, []⟩ rd ∧
      (∀ line, line ∈ rd.read ↔ ∃ c q r, s.Due c q r ∧ line = .of (c, r.stored q)) ∧
      ∀ c < numOfCpus.toNat, rd.system.resume c = (s.records c).length := by
  intro s
  obtain ⟨area, seq, hinv⟩ := logInv_run hok
  exact hinv.reader_ends hgap

/-- What is more than a page is not reported by one dump. -/
theorem LogInv.dump_leaves {numOfCpus : U32} {s : LogSystem} {area : LogArea} {seq : Nat → U64}
    (h : LogInv numOfCpus s area seq)
    (hlong : maxConfigfsPageSize - 1 ≤ (linesText s.pendingLines).length) :
    ∃ c < numOfCpus.toNat, (logStep s .dump).resume c < (s.records c).length := by
  obtain ⟨d', hd', hdumped | ⟨i, hi, d₁, n, -, hcpu, hfull, -, -⟩⟩ := h.dumpCpus_stored
  · have hroom := hdumped.room
    rw [hdumped.page, DumpState.start, List.nil_append, h.pendingLines_eq] at hroom
    exact absurd hroom (not_lt.mpr hlong)
  refine ⟨i, hi, ?_⟩
  rw [h.resume_logStep hd']
  have hm := IkgtUsage.pendingCount_le (s.records i).length (seq i).toNat
  cases hcpu with
  | all hfull' => exact absurd (hfull.symm.trans hfull') (by decide)
  | cut _ hn hseq => omega
  | exact _ hn hle hseq => omega

/-- The dump of `pageAndMore` leaves records of CPU 0, and the reading gets them with those that
come after it. -/
theorem reader_gets_pending_two :
    let filled := run logStep (.init 2) (pageAndMore.take 70)
    let s := run logStep (.init 2) pageAndMore
    (∃ c < (2 : U32).toNat, (logStep filled .dump).resume c < (filled.records c).length) ∧
      ∃ rd, Ends readerBody ⟨s, []⟩ rd ∧
        (∀ line, line ∈ rd.read ↔ ∃ c q r, s.Due c q r ∧ line = .of (c, r.stored q)) ∧
        ∀ c < (2 : U32).toNat, rd.system.resume c = (s.records c).length := by
  have hfew : pageAndMore.length < 2 ^ 32 := by decide
  refine ⟨?_, reader_gets_pending steps_noWrap_pageAndMore fun c _ => gapFits_run 2 hfew c _⟩
  have hfilled : pageAndMore.take 70 = (List.replicate 70 longRecord).map (.append 0) :=
    List.take_left' (by rw [List.length_map, List.length_replicate])
  obtain ⟨area, h, hrecords⟩ := logInv_appends 2 0 (List.replicate 70 longRecord) (by decide)
  rw [← hfilled] at h hrecords
  have hpending : (run logStep (.init 2) (pageAndMore.take 70)).pending 0 =
      lastStored LogRecord.stored (List.replicate 70 longRecord) 70 := by
    rw [h.pending_eq, hrecords]
    rfl
  have htake := @h.take_pendingLines 2 _ _ _ 0 70 (by decide) (by rw [hrecords]; decide)
  refine h.dump_leaves (le_trans ?_ (length_linesText_take_le_all _
    ((pendingLines area (fun _ => 0) 0 0).length + 70)))
  rw [htake, hpending]
  change maxConfigfsPageSize - 1 ≤ (linesText (cpuLines 0
    ((lastStored LogRecord.stored (List.replicate 70 longRecord) 70).take 70))).length
  decide +kernel

end IkgtUsage
