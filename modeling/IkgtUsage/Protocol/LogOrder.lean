import IkgtUsage.Driver.DumpPage
import IkgtUsage.Protocol.LogDump

/-!
# The order of the reported records

For each CPU a dump reports consecutive numbers from the resume point on, and the new resume point
is beyond the last one reported, with one exception: a record whose line ends exactly at the page
limit is reported, the page counts as full, and the CPU resumes at that record
(`exact_fit_reported_twice`). Where no dump meets that case (`LogSystem.NoExactFit`) the numbers
reported for a CPU increase strictly over all dumps (`reported_increasing`).
-/

namespace IkgtUsage

open Lib

/-! ## Reported numbers -/

/-- The sequence numbers reported for CPU `c`, in order. -/
def seqNumsOf (c : Nat) (lines : List (Nat × LogEntry)) : List Nat :=
  (lines.filter fun line => line.1 = c).map fun line => line.2.seqNum.toNat

theorem seqNumsOf_append (c : Nat) (lines lines' : List (Nat × LogEntry)) :
    seqNumsOf c (lines ++ lines') = seqNumsOf c lines ++ seqNumsOf c lines' := by
  unfold seqNumsOf
  rw [List.filter_append, List.map_append]

theorem seqNumsOf_cpuLines (c c' : Nat) (entries : List LogEntry) :
    seqNumsOf c (cpuLines c' entries) =
      if c' = c then entries.map fun e => e.seqNum.toNat else [] := by
  unfold seqNumsOf cpuLines
  rw [List.filter_map, List.map_map]
  by_cases hc : c' = c
  · rw [if_pos hc, List.filter_eq_self.mpr (by simp [hc])]
    rfl
  · rw [if_neg hc, List.filter_eq_nil_iff.mpr (by simp [hc])]
    rfl

/-- The pending lines of the CPUs below `k`, as CPU `c` sees them. -/
theorem seqNumsOf_pendingLines (area : LogArea) (seq : Nat → U64) (c k : Nat) :
    seqNumsOf c (pendingLines area seq 0 k) =
      if c < k then (pendingRecords area seq c).map fun e => e.seqNum.toNat else [] := by
  induction k with
  | zero => rfl
  | succ k ih =>
    have hsplit : pendingLines area seq 0 (k + 1) =
        pendingLines area seq 0 k ++ cpuLines k (pendingRecords area seq k) := by
      unfold pendingLines
      rw [List.range'_concat, List.flatMap_append]
      simp
    rw [hsplit, seqNumsOf_append, ih, seqNumsOf_cpuLines]
    by_cases hc : c < k
    · rw [if_pos hc, if_neg (show ¬ k = c by omega), if_pos (show c < k + 1 by omega),
        List.append_nil]
    · by_cases heq : k = c
      · subst heq
        rw [if_neg hc, if_pos rfl, if_pos (show k < k + 1 by omega), List.nil_append]
      · rw [if_neg hc, if_neg heq, if_neg (show ¬ c < k + 1 by omega), List.nil_append]

/-- The numbers of the first `n` of the last `m` records. -/
theorem seqNums_take_lastStored {hist : List LogRecord} (hfew : hist.length < 2 ^ 64) {m n : Nat}
    (hm : m ≤ hist.length) (hn : n ≤ m) :
    ((lastStored LogRecord.stored hist m).take n).map (fun e => e.seqNum.toNat) =
      List.range' (hist.length - m) n := by
  refine List.ext_getElem ?_ fun i hi hi' => ?_
  · rw [List.length_map, List.length_take, length_lastStored, List.length_range']
    omega
  · rw [List.length_range'] at hi'
    rw [List.getElem_map, List.getElem_take, getElem_lastStored _ (by omega),
      seqNum_stored (by omega), List.getElem_range', Nat.one_mul]

/-! ## The exact fit -/

/-- The resume point of a CPU. -/
def LogSystem.resume (s : LogSystem) (c : Nat) : Nat :=
  match s.driver.logRecordSeqNum with
  | .live seq => (seq c).toNat
  | .null | .freed => 0

/-- The records the next dump reads of a CPU. -/
def LogSystem.pending (s : LogSystem) (c : Nat) : List LogEntry :=
  lastStored LogRecord.stored (s.records c)
    (pendingCount (s.records c).length (s.resume c))

/-- The lines the next dump writes if the page has room. -/
def LogSystem.pendingLines (s : LogSystem) : List (Nat × LogEntry) :=
  (List.range s.driver.numOfCpus.toNat).flatMap fun c => cpuLines c (s.pending c)

/-- No line of the next dump ends exactly at the page limit. -/
def LogSystem.NoExactFit (s : LogSystem) : Prop :=
  ∀ k, (linesText (s.pendingLines.take k)).length ≠ maxConfigfsPageSize - 1

/-- A short page has no line that ends at the limit. -/
theorem LogSystem.NoExactFit.of_length_lt {s : LogSystem}
    (h : (linesText s.pendingLines).length < maxConfigfsPageSize - 1) : s.NoExactFit :=
  fun k => ((length_linesText_take_le_all s.pendingLines k).trans_lt h).ne

/-- The actions after which no record is reported twice. -/
def ReportsOnce (s : LogSystem) : LogAction → Prop
  | .append c r => NoWrap s (.append c r)
  | .dump => s.NoExactFit

theorem ReportsOnce.noWrap {s : LogSystem} {a : LogAction} (h : ReportsOnce s a) : NoWrap s a := by
  cases a with
  | append c r => exact h
  | dump => trivial

theorem length_first_line_le {c : Nat} (hc : c < 2 ^ 32) (entries : List LogEntry) :
    (linesText (cpuLines c (entries.take 1))).length ≤ 94 := by
  cases entries with
  | nil => exact Nat.zero_le _
  | cons e rest =>
    rw [List.take_succ_cons, List.take_zero, linesText_cpuLines_cons]
    simpa [cpuLines] using length_formatRecord_le hc e

theorem pendingLines_append (area : LogArea) (seq : Nat → U64) (i k : Nat) :
    pendingLines area seq 0 (i + k) =
      pendingLines area seq 0 i ++ pendingLines area seq i k := by
  unfold IkgtUsage.pendingLines
  rw [← List.flatMap_append, ← List.range'_append_1, Nat.zero_add]

namespace LogInv

variable {numOfCpus : U32} {s : LogSystem} {area : LogArea} {seq : Nat → U64}

theorem resume_eq (h : LogInv numOfCpus s area seq) (c : Nat) : s.resume c = (seq c).toNat := by
  unfold LogSystem.resume
  rw [h.driver]

theorem pendingRecords_eq (h : LogInv numOfCpus s area seq) (c : Nat) :
    pendingRecords area seq c = s.pending c := by
  unfold LogSystem.pending
  rw [IkgtUsage.pendingRecords_eq (h.ring c) (h.few c) (h.resume c), h.resume_eq]

theorem pendingLines_eq (h : LogInv numOfCpus s area seq) :
    pendingLines area seq 0 numOfCpus.toNat = s.pendingLines := by
  unfold IkgtUsage.pendingLines LogSystem.pendingLines
  rw [h.driver, ← List.range_eq_range']
  simp only [h.pendingRecords_eq]

theorem pending_eq (h : LogInv numOfCpus s area seq) (c : Nat) :
    s.pending c = lastStored LogRecord.stored (s.records c)
      (pendingCount (s.records c).length (seq c).toNat) := by
  unfold LogSystem.pending
  rw [h.resume_eq]

/-- A prefix of the lines of the next dump that ends with the `n`-th line of CPU `i`. -/
theorem take_pendingLines (h : LogInv numOfCpus s area seq) {i n : Nat} (hi : i < numOfCpus.toNat)
    (hn : n ≤ pendingCount (s.records i).length (seq i).toNat) :
    s.pendingLines.take ((pendingLines area seq 0 i).length + n) =
      pendingLines area seq 0 i ++ cpuLines i ((s.pending i).take n) := by
  have hcount := pendingCount_le (s.records i).length (seq i).toNat
  have hcpus : numOfCpus.toNat = i + (1 + (numOfCpus.toNat - (i + 1))) := by omega
  have hsplit : s.pendingLines = pendingLines area seq 0 i ++
      (cpuLines i (s.pending i) ++
        pendingLines area seq (i + 1) (numOfCpus.toNat - (i + 1))) := by
    rw [← h.pendingLines_eq, ← h.pendingRecords_eq]
    conv_lhs => rw [hcpus]
    rw [pendingLines_append, IkgtUsage.pendingLines.eq_def area seq i, add_comm 1,
      List.range'_succ, List.flatMap_cons]
    rfl
  have hlen : n ≤ (cpuLines i (s.pending i)).length := by
    unfold cpuLines
    rw [List.length_map, h.pending_eq, length_lastStored]
    omega
  rw [hsplit, List.take_length_add_append, List.take_append_of_le_length hlen]
  unfold cpuLines
  rw [List.map_take]

/-- Its length, where the CPUs before `i` are dumped. -/
theorem length_take_pendingLines (h : LogInv numOfCpus s area seq) {i n : Nat}
    (hi : i < numOfCpus.toNat) (hn : n ≤ pendingCount (s.records i).length (seq i).toNat)
    {d₁ : DumpState} (hd₁ : Dumped area 0 i (.start seq) d₁) :
    (linesText (s.pendingLines.take ((pendingLines area seq 0 i).length + n))).length =
      d₁.configfsPage.length + (linesText (cpuLines i ((lastStored LogRecord.stored (s.records i)
        (pendingCount (s.records i).length (seq i).toNat)).take n))).length := by
  rw [h.take_pendingLines hi hn, linesText_append, List.length_append, hd₁.page, h.pending_eq]
  simp [DumpState.start]

/-- What the CPUs below `k` report once they are dumped. -/
theorem seqNumsOf_dumped (h : LogInv numOfCpus s area seq) {k : Nat} {d : DumpState}
    (hd : Dumped area 0 k (.start seq) d) (c : Nat) :
    seqNumsOf c d.lines =
      if c < k then
        List.range' ((s.records c).length - pendingCount (s.records c).length (seq c).toNat)
          (pendingCount (s.records c).length (seq c).toNat)
      else [] := by
  have hm := pendingCount_le (s.records c).length (seq c).toNat
  rw [hd.lines, DumpState.start, List.nil_append, seqNumsOf_pendingLines, h.pendingRecords_eq,
    h.pending_eq, ← seqNums_take_lastStored (h.few c) (by omega) (le_refl _),
    List.take_of_length_le (by rw [length_lastStored]; omega)]

/-- **What a dump reports of a CPU**: consecutive numbers between the old and the new resume
point. -/
theorem dump_reports (h : LogInv numOfCpus s area seq) (hexact : s.NoExactFit) {d' : DumpState}
    (hd' : dumpCpus area numOfCpus.toNat 0 (.start seq) = some d') (c : Nat) :
    ∃ a l, seqNumsOf c d'.lines = List.range' a l ∧ (seq c).toNat ≤ a ∧
      a + l ≤ (d'.logRecordSeqNum c).toNat := by
  have hres := h.resume c
  have hmono := h.resume_dump hd' c
  have hm := pendingCount_le (s.records c).length (seq c).toNat
  obtain ⟨d₂, hd₂, hcases⟩ := h.dumpCpus_stored
  rw [hd', Option.some_inj] at hd₂
  subst hd₂
  rcases hcases with hdumped | ⟨i, hi, d₁, n, hdumped, hcpu, -, hlines, hother⟩
  · have hseq := h.resume_dumped hdumped c
    rw [h.seqNumsOf_dumped hdumped]
    by_cases hc : c < numOfCpus.toNat
    · rw [if_pos hc] at hseq ⊢
      exact ⟨_, _, rfl, by omega, by omega⟩
    · rw [if_neg hc]
      exact ⟨(seq c).toNat, 0, rfl, le_refl _, by omega⟩
  · rw [hlines, seqNumsOf_append, seqNumsOf_cpuLines, h.seqNumsOf_dumped hdumped]
    by_cases hci : i = c
    · subst hci
      rw [if_neg (lt_irrefl i), if_pos rfl, List.nil_append,
        seqNums_take_lastStored (h.few i) (by omega) hcpu.le]
      refine ⟨_, _, rfl, by omega, ?_⟩
      cases hcpu with
      | all hfull hn hseq => omega
      | cut hfull hn hseq => omega
      | exact hfull hn hle hseq hfit =>
        -- the line that ends at the limit ends a prefix of the pending lines
        exact absurd ((h.length_take_pendingLines hi hle hdumped).trans hfit) (hexact _)
    · rw [if_neg hci, List.append_nil, hother c (Ne.symm hci)]
      have hseq := h.resume_dumped hdumped c
      by_cases hc : c < i
      · rw [if_pos hc] at hseq ⊢
        exact ⟨_, _, rfl, by omega, by omega⟩
      · rw [if_neg hc] at hseq ⊢
        exact ⟨(seq c).toNat, 0, rfl, le_refl _, by omega⟩

end LogInv

/-! ## Runs -/

/-- The reports so far for a CPU: increasing, and below its resume point. -/
structure OrderInv (c : Nat) (s : LogSystem) : Prop where
  increasing : (seqNumsOf c s.lines).Pairwise (· < ·)
  below : ∀ q ∈ seqNumsOf c s.lines, q < s.resume c

namespace OrderInv

variable {c : Nat} {numOfCpus : U32} {s : LogSystem} {area : LogArea} {seq : Nat → U64}

theorem init (c : Nat) (numOfCpus : U32) : OrderInv c (.init numOfCpus) :=
  ⟨.nil, fun _ hq => absurd hq List.not_mem_nil⟩

/-- An append reports nothing. -/
theorem append (ho : OrderInv c s) (h : LogInv numOfCpus s area seq) {c' : Nat} {r : LogRecord}
    (hwrap : NoWrap s (.append c' r)) : OrderInv c (logStep s (.append c' r)) := by
  have hlines : (logStep s (.append c' r)).lines = s.lines := by
    unfold logStep
    rw [h.driver]
  constructor
  · rw [hlines]
    exact ho.increasing
  · rw [hlines, (h.append hwrap).resume_eq, ← h.resume_eq]
    exact ho.below

/-- **A dump.** What it reports lies between the old and the new resume point. -/
theorem dump (ho : OrderInv c s) (h : LogInv numOfCpus s area seq) (hexact : s.NoExactFit) :
    OrderInv c (logStep s .dump) := by
  obtain ⟨d', hd', -⟩ := h.dumpCpus_stored
  obtain ⟨a, l, hseqs, hfirst, hlast⟩ := h.dump_reports hexact hd' c
  have hlines : seqNumsOf c (logStep s .dump).lines = seqNumsOf c s.lines ++ List.range' a l := by
    rw [h.logStep_dump hd', seqNumsOf_append, hseqs]
  have hbelow := ho.below
  rw [h.resume_eq] at hbelow
  constructor
  · rw [hlines, List.pairwise_append]
    refine ⟨ho.increasing, List.pairwise_lt_range', fun q hq q' hq' => ?_⟩
    have := hbelow q hq
    have := (List.mem_range'_1.mp hq').1
    omega
  · intro q hq
    rw [hlines] at hq
    rw [(h.dump hd').resume_eq]
    rcases List.mem_append.mp hq with hold | hnew
    · have := hbelow q hold
      have := (h.resume_dump hd' c).1
      omega
    · have := (List.mem_range'_1.mp hnew).2
      omega

/-- One action. -/
theorem step (ho : OrderInv c s) (h : LogInv numOfCpus s area seq) {a : LogAction}
    (ha : ReportsOnce s a) : OrderInv c (logStep s a) := by
  cases a with
  | append c' r => exact ho.append h ha
  | dump => exact ho.dump h ha

end OrderInv

/-- **No record is reported twice or out of order.** In a run in which no head wraps and no line of
a dump ends exactly at the page limit, the sequence numbers reported for a CPU increase strictly. -/
theorem reported_increasing {numOfCpus : U32} {actions : List LogAction}
    (hok : Steps logStep ReportsOnce (.init numOfCpus) actions) (c : Nat) :
    (seqNumsOf c (run logStep (.init numOfCpus) actions).lines).Pairwise (· < ·) := by
  have hinv : (∃ area seq, LogInv numOfCpus (run logStep (.init numOfCpus) actions) area seq) ∧
      OrderInv c (run logStep (.init numOfCpus) actions) := by
    refine steps_inv (fun s => (∃ area seq, LogInv numOfCpus s area seq) ∧ OrderInv c s) ?_ actions
      ⟨⟨_, _, .init numOfCpus⟩, .init c numOfCpus⟩ hok
    rintro s a ⟨⟨area, seq, h⟩, ho⟩ ha
    exact ⟨h.step ha.noWrap, ho.step h ha⟩
  exact hinv.2.increasing

/-- Two CPUs with records before each of two dumps. -/
def twoDumps : List LogAction :=
  [.append 0 ⟨1, 2, 3, 4⟩, .append 1 ⟨5, 6, 7, 8⟩, .append 0 ⟨9, 10, 11, 12⟩, .dump,
    .append 1 ⟨13, 14, 15, 16⟩, .append 0 ⟨17, 18, 19, 20⟩, .dump]

/-- The second dump goes on where the first one has ended. -/
theorem reported_increasing_two :
    let s := run logStep (.init 2) twoDumps
    (seqNumsOf 0 s.lines = [0, 1, 2] ∧ seqNumsOf 1 s.lines = [0, 1]) ∧
      (seqNumsOf 0 s.lines).Pairwise (· < ·) ∧ (seqNumsOf 1 s.lines).Pairwise (· < ·) := by
  intro s
  have hroom : ∀ n, n = 3 ∨ n = 6 → (run logStep (.init 2) (twoDumps.take n)).NoExactFit := by
    rintro n (rfl | rfl)
    · exact .of_length_lt (by decide +kernel)
    · exact .of_length_lt (by decide +kernel)
  have hok : Steps logStep ReportsOnce (.init 2) twoDumps :=
    ⟨show 0 + 1 < 2 ^ 64 by decide, show 0 + 1 < 2 ^ 64 by decide, show 1 + 1 < 2 ^ 64 by decide,
      hroom 3 (Or.inl rfl), show 1 + 1 < 2 ^ 64 by decide, show 2 + 1 < 2 ^ 64 by decide,
      hroom 6 (Or.inr rfl), trivial⟩
  exact ⟨by decide +kernel, reported_increasing hok 0, reported_increasing hok 1⟩

/-! ## What the exact fit does -/

namespace LogInv

variable {numOfCpus : U32} {s : LogSystem} {area : LogArea} {seq : Nat → U64}

/-- A dump with an exact fit reports a record and sets the CPU back to it; the CPUs before it are
at their heads. -/
theorem dump_exact_fit (h : LogInv numOfCpus s area seq) (hfit : ¬ s.NoExactFit) {d' : DumpState}
    (hd' : dumpCpus area numOfCpus.toNat 0 (.start seq) = some d') :
    ∃ i < numOfCpus.toNat, (d'.logRecordSeqNum i).toNat ∈ seqNumsOf i d'.lines ∧
      (d'.logRecordSeqNum i).toNat < (s.records i).length ∧
      (s.records i).length ≤ (d'.logRecordSeqNum i).toNat + logsPerCpu ∧
      ∀ c < i, (d'.logRecordSeqNum c).toNat = (s.records c).length := by
  unfold LogSystem.NoExactFit at hfit
  push Not at hfit
  obtain ⟨k, hk⟩ := hfit
  obtain ⟨d₂, hd₂, hcases⟩ := h.dumpCpus_stored
  rw [hd', Option.some_inj] at hd₂
  subst hd₂
  rcases hcases with hdumped | ⟨i, hi, d₁, n, hdumped, hcpu, hfull, hlines, hother⟩
  · -- the whole text is shorter than its prefix
    have hroom := hdumped.room
    rw [hdumped.page, DumpState.start, List.nil_append, h.pendingLines_eq] at hroom
    exact absurd ⟨k, hk⟩ (fits_of_length_lt hroom).2
  have hm := pendingCount_le (s.records i).length (seq i).toNat
  have hm' : pendingCount (s.records i).length (seq i).toNat ≤ logsPerCpu := Nat.min_le_right _ _
  cases hcpu with
  | all hfull' => exact absurd hfull (by rw [hfull']; decide)
  | cut hfull hn hseq hroom hover =>
    -- the prefix would end between two lines
    rw [← h.length_take_pendingLines hi hn.le hdumped] at hroom
    rw [← h.length_take_pendingLines hi (show n + 1 ≤ _ from hn) hdumped] at hover
    exact absurd ⟨k, hk⟩ (not_endsAtLimit_of_cut hroom hover)
  | exact hfull hn hle hseq _ =>
    refine ⟨i, hi, ?_, by omega, by omega, fun c hc => ?_⟩
    · rw [hlines, seqNumsOf_append, seqNumsOf_cpuLines, if_pos rfl,
        seqNums_take_lastStored (h.few i) (by omega) hle]
      exact List.mem_append_right _ (List.mem_range'_1.mpr ⟨by omega, by omega⟩)
    · rw [hother c (Nat.ne_of_lt hc), h.resume_dumped hdumped, if_pos hc]

/-- CPUs with nothing to report have no lines. -/
theorem pendingLines_eq_nil (h : LogInv numOfCpus s area seq) {k : Nat}
    (hnone : ∀ c < k, pendingCount (s.records c).length (seq c).toNat = 0) :
    pendingLines area seq 0 k = [] := by
  unfold IkgtUsage.pendingLines
  refine List.flatMap_eq_nil_iff.mpr fun c hc => ?_
  have hck := (List.mem_range'_1.mp hc).2
  rw [h.pendingRecords_eq, h.pending_eq, hnone c (by omega), lastStored_zero]
  rfl

/-- The first record that a dump comes to is reported. -/
theorem dump_reports_first (h : LogInv numOfCpus s area seq) {i : Nat} (hi : i < numOfCpus.toNat)
    (hbefore : ∀ c < i, (seq c).toNat = (s.records c).length)
    (hlt : (seq i).toNat < (s.records i).length)
    (hrecent : (s.records i).length ≤ (seq i).toNat + logsPerCpu) {d' : DumpState}
    (hd' : dumpCpus area numOfCpus.toNat 0 (.start seq) = some d') :
    (seq i).toNat ∈ seqNumsOf i d'.lines := by
  have hm : pendingCount (s.records i).length (seq i).toNat =
      (s.records i).length - (seq i).toNat := by
    unfold pendingCount
    rw [logsPerCpu_eq] at hrecent ⊢
    omega
  have hnone : ∀ c < i, pendingCount (s.records c).length (seq c).toNat = 0 := fun c hc => by
    rw [hbefore c hc, pendingCount_self]
  have hdone : ∀ {k d}, Dumped area 0 k (.start seq) d → i < k →
      (seq i).toNat ∈ seqNumsOf i d.lines := by
    intro k d hd hik
    rw [h.seqNumsOf_dumped hd, if_pos hik, hm]
    exact List.mem_range'_1.mpr ⟨by omega, by omega⟩
  obtain ⟨d₂, hd₂, hcases⟩ := h.dumpCpus_stored
  rw [hd', Option.some_inj] at hd₂
  subst hd₂
  rcases hcases with hdumped | ⟨k, hk, d₁, n, hdumped, hcpu, hfull, hlines, -⟩
  · exact hdone hdumped hi
  rw [hlines, seqNumsOf_append]
  rcases Nat.lt_trichotomy k i with hki | rfl | hik
  · -- a CPU with nothing to report does not fill the page
    rw [hnone k hki] at hcpu
    cases hcpu with
    | all hfull' => exact absurd hfull (by rw [hfull']; decide)
    | cut _ hn => exact absurd hn (Nat.not_lt_zero n)
    | exact _ hn hle => omega
  · have hn : 0 < n := by
      cases hcpu with
      | all _ hn => omega
      | exact _ hn => exact hn
      | cut _ hn _ _ hover =>
        -- one line fits on an empty page
        by_contra hzero
        have hempty := h.pendingLines_eq_nil hnone
        have hline := length_first_line_le (show k < 2 ^ 32 by have := numOfCpus.isLt; omega)
          (lastStored LogRecord.stored (s.records k)
            (pendingCount (s.records k).length (seq k).toNat))
        rw [hdumped.page, DumpState.start, hempty, linesText_nil, Nat.eq_zero_of_not_pos hzero,
          Nat.zero_add, List.append_nil, List.length_nil, Nat.zero_add, maxConfigfsPageSize_eq]
          at hover
        omega
    refine List.mem_append_right _ ?_
    rw [seqNumsOf_cpuLines, if_pos rfl, seqNums_take_lastStored (h.few k) (by omega) hcpu.le]
    exact List.mem_range'_1.mpr ⟨by omega, by omega⟩
  · exact List.mem_append_left _ (hdone hdumped hik)

/-- **After an exact fit the next dump reports a record again.** -/
theorem reported_again (h : LogInv numOfCpus s area seq) (hfit : ¬ s.NoExactFit) :
    ∃ c, ¬ (seqNumsOf c (run logStep s [.dump, .dump]).lines).Pairwise (· < ·) := by
  obtain ⟨d', hd', -⟩ := h.dumpCpus_stored
  obtain ⟨i, hi, hmem, hlt, hrecent, hbefore⟩ := h.dump_exact_fit hfit hd'
  have h' := h.dump hd'
  obtain ⟨d'', hd'', -⟩ := h'.dumpCpus_stored
  have hrecords : (logStep s .dump).records = s.records := by rw [h.logStep_dump hd']
  have hagain := h'.dump_reports_first hi (by rwa [hrecords]) (by rwa [hrecords])
    (by rwa [hrecords]) hd''
  refine ⟨i, fun hinc => ?_⟩
  rw [run_cons, run_cons, run_nil, h'.logStep_dump hd'', h.logStep_dump hd', seqNumsOf_append,
    seqNumsOf_append, List.pairwise_append] at hinc
  exact lt_irrefl _ (hinc.2.2 _ (List.mem_append_right _ hmem) _ hagain)

end LogInv

/-- **A record is reported twice.** The lines of these 66 records have 61 characters each, 4026
together: the first dump reports all of them, the second one the last of them again. -/
theorem exact_fit_reported_twice :
    let longReason : LogRecord := ⟨.allOnes 64, 10000, .allOnes 64, .allOnes 64⟩
    let shortReason : LogRecord := ⟨.allOnes 64, 1000, .allOnes 64, .allOnes 64⟩
    let records := List.replicate 10 longReason ++ List.replicate 56 shortReason
    ∃ c, ¬ (seqNumsOf c (run logStep (.init 1)
      (records.map (.append 0) ++ [.dump, .dump])).lines).Pairwise (· < ·) := by
  intro longReason shortReason records
  obtain ⟨area, h, hrecords⟩ := logInv_appends 1 0 records (by decide)
  rw [run_append]
  refine h.reported_again fun hexact => hexact 66 ?_
  have hlines : (run logStep (.init 1) (records.map (.append 0))).pendingLines =
      cpuLines 0 (lastStored LogRecord.stored records (pendingCount records.length 0)) := by
    rw [← h.pendingLines_eq, ← hrecords]
    exact (List.append_nil _).trans (congrArg (cpuLines 0)
      ((h.pendingRecords_eq 0).trans (h.pending_eq 0)))
  rw [hlines]
  decide +kernel

end IkgtUsage
