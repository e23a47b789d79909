import IkgtUsage.Driver.Log
import Mathlib.Data.Nat.Digits.Defs

/-!
# What one dump writes

These facts hold for any contents of the log area. A record line has at most 94 characters, so
`snprintf` never cuts it. A page takes the lines of the pending records in order until one does not
fit (`RecordsOutcome`): that line is cut, or it ends exactly at the limit. In both cases the page is
full and the CPU resumes at that record. As long as the page is not full, the dump so far is
determined (`Dumped`), and the `BUG_ON` is out of reach (`dumpCpus_cases`).
-/

namespace IkgtUsage

/-! ## Line lengths -/

theorem maxConfigfsPageSize_eq : maxConfigfsPageSize = 4027 := rfl

theorem length_formatDec_le {n k : Nat} (hk : 0 < k) (h : n < 10 ^ k) : (formatDec n).length ≤ k :=
  (Nat.length_toDigits_le_iff (by decide) hk).mpr h

theorem length_formatHex_le {n k : Nat} (hk : 0 < k) (h : n < 16 ^ k) :
    (formatHex n).length ≤ k := by
  unfold formatHex
  rw [List.length_map]
  exact (Nat.length_toDigits_le_iff (by decide) hk).mpr h

/-- A record line has at most 94 characters. -/
theorem length_formatRecord_le {cpuIndex : Nat} (hcpu : cpuIndex < 2 ^ 32) (e : LogEntry) :
    (formatRecord cpuIndex e).length ≤ 94 := by
  have hc : (formatDec cpuIndex).length ≤ 10 := length_formatDec_le (by decide) (by omega)
  have hs : (formatDec e.seqNum.toNat).length ≤ 20 :=
    length_formatDec_le (by decide) (by have := e.seqNum.isLt; omega)
  have hr : (formatDec e.reason.toNat).length ≤ 10 :=
    length_formatDec_le (by decide) (by have := e.reason.isLt; omega)
  have hq : (formatHex e.qualification.toNat).length ≤ 16 :=
    length_formatHex_le (by decide) (by have := e.qualification.isLt; omega)
  have hi : (formatHex e.rip.toNat).length ≤ 16 :=
    length_formatHex_le (by decide) (by have := e.rip.isLt; omega)
  have hg : (formatHex e.gva.toNat).length ≤ 16 :=
    length_formatHex_le (by decide) (by have := e.gva.isLt; omega)
  unfold formatRecord
  simp only [List.length_append, List.length_cons, List.length_nil]
  omega

theorem snprintf_formatRecord {cpuIndex : Nat} (hcpu : cpuIndex < 2 ^ 32) (e : LogEntry) :
    snprintf maxLogRecordLen (formatRecord cpuIndex e) = formatRecord cpuIndex e := by
  have := length_formatRecord_le hcpu e
  unfold snprintf maxLogRecordLen
  rw [List.take_of_length_le (by omega)]

/-- The text of record lines. -/
def linesText (lines : List (Nat × LogEntry)) : List Char :=
  lines.flatMap fun line => formatRecord line.1 line.2

@[simp] theorem linesText_nil : linesText [] = [] := rfl

theorem linesText_append (lines lines' : List (Nat × LogEntry)) :
    linesText (lines ++ lines') = linesText lines ++ linesText lines' := List.flatMap_append

theorem length_linesText_take_le (lines : List (Nat × LogEntry)) {j k : Nat} (h : j ≤ k) :
    (linesText (lines.take j)).length ≤ (linesText (lines.take k)).length := by
  have hsplit := List.take_append_drop j (lines.take k)
  rw [List.take_take, Nat.min_eq_left h] at hsplit
  rw [← hsplit, linesText_append, List.length_append]
  exact Nat.le_add_right _ _

/-- The first lines are no longer than all of them. -/
theorem length_linesText_take_le_all (lines : List (Nat × LogEntry)) (n : Nat) :
    (linesText (lines.take n)).length ≤ (linesText lines).length := by
  have h := length_linesText_take_le lines (Nat.le_max_left n lines.length)
  rwa [List.take_of_length_le (Nat.le_max_right n lines.length)] at h

/-! ## One line -/

/-- **Adding a line to a page**: it fits, ends exactly at the limit, or is cut. -/
theorem logAddMsgToConfigfs_eq {configfsPage : List Char} (msg : List Char)
    (hpage : configfsPage.length < maxConfigfsPageSize - 1) :
    logAddMsgToConfigfs configfsPage msg msg.length =
      if configfsPage.length + msg.length ≤ maxConfigfsPageSize - 1 then
        some (decide (configfsPage.length + msg.length = maxConfigfsPageSize - 1),
          configfsPage ++ msg)
      else
        some (true, configfsPage ++ msg.take (maxConfigfsPageSize - 1 - configfsPage.length) ++
          ['.', '.', '.', '\n']) := by
  unfold logAddMsgToConfigfs
  rw [if_neg (by omega)]
  by_cases hfit : configfsPage.length + msg.length ≤ maxConfigfsPageSize - 1
  · have hcopy : min msg.length (maxConfigfsPageSize - 1 - configfsPage.length) = msg.length := by
      omega
    simp only [hcopy, if_pos hfit, List.take_length, ne_eq, not_true_eq_false, if_false,
      List.length_append]
    by_cases hend : configfsPage.length + msg.length = maxConfigfsPageSize - 1
    · rw [if_pos (by omega), decide_eq_true hend]
    · rw [if_neg (by omega), decide_eq_false hend]
  · have hcopy : min msg.length (maxConfigfsPageSize - 1 - configfsPage.length) =
        maxConfigfsPageSize - 1 - configfsPage.length := by omega
    simp only [hcopy, if_neg hfit]
    rw [if_pos (by omega)]
    rfl

/-! ## The records of one CPU -/

/-- The lines of records of one CPU. -/
def cpuLines (cpuIndex : Nat) (entries : List LogEntry) : List (Nat × LogEntry) :=
  entries.map fun e => (cpuIndex, e)

theorem linesText_cpuLines_cons (cpuIndex : Nat) (e : LogEntry) (es : List LogEntry) :
    linesText (cpuLines cpuIndex (e :: es)) =
      formatRecord cpuIndex e ++ linesText (cpuLines cpuIndex es) := rfl

theorem cpuLines_cons (cpuIndex : Nat) (e : LogEntry) (es : List LogEntry) :
    cpuLines cpuIndex (e :: es) = (cpuIndex, e) :: cpuLines cpuIndex es := rfl

/-- What the loop over the records `results` of one CPU leaves. -/
inductive RecordsOutcome (cpuIndex : Nat) (results : List LogEntry) (d d' : DumpState) : Prop
  /-- All lines are on the page and there is room left. -/
  | all (hfull : d'.full = false)
      (hpage : d'.configfsPage = d.configfsPage ++ linesText (cpuLines cpuIndex results))
      (hroom : d'.configfsPage.length < maxConfigfsPageSize - 1)
      (hseq : d'.logRecordSeqNum = d.logRecordSeqNum)
      (hlines : d'.lines = d.lines ++ cpuLines cpuIndex results)
  /-- The line of `e` is cut. -/
  | cut (done rest : List LogEntry) (e : LogEntry) (hresults : results = done ++ e :: rest)
      (hfull : d'.full = true)
      (hroom : d.configfsPage.length + (linesText (cpuLines cpuIndex done)).length <
        maxConfigfsPageSize - 1)
      (hover : maxConfigfsPageSize - 1 <
        d.configfsPage.length + (linesText (cpuLines cpuIndex (done ++ [e]))).length)
      (hseq : d'.logRecordSeqNum = Function.update d.logRecordSeqNum cpuIndex e.seqNum)
      (hlines : d'.lines = d.lines ++ cpuLines cpuIndex done)
  /-- The line of `e` ends exactly at the limit. -/
  | exact (done rest : List LogEntry) (e : LogEntry) (hresults : results = done ++ e :: rest)
      (hfull : d'.full = true)
      (hexact : d.configfsPage.length + (linesText (cpuLines cpuIndex (done ++ [e]))).length =
        maxConfigfsPageSize - 1)
      (hseq : d'.logRecordSeqNum = Function.update d.logRecordSeqNum cpuIndex e.seqNum)
      (hlines : d'.lines = d.lines ++ cpuLines cpuIndex (done ++ [e]))

/-- The outcome of the records after `e`, once the line of `e` is on the page. -/
theorem RecordsOutcome.cons {cpuIndex : Nat} {e : LogEntry} {rest : List LogEntry}
    {d d₁ d' : DumpState} (h : RecordsOutcome cpuIndex rest d₁ d')
    (hpage₁ : d₁.configfsPage = d.configfsPage ++ formatRecord cpuIndex e)
    (hseq₁ : d₁.logRecordSeqNum = d.logRecordSeqNum)
    (hlines₁ : d₁.lines = d.lines ++ [(cpuIndex, e)]) :
    RecordsOutcome cpuIndex (e :: rest) d d' := by
  have hpage : ∀ es : List LogEntry,
      d₁.configfsPage.length + (linesText (cpuLines cpuIndex es)).length =
        d.configfsPage.length + (linesText (cpuLines cpuIndex (e :: es))).length := by
    intro es
    rw [hpage₁, linesText_cpuLines_cons, List.length_append, List.length_append, Nat.add_assoc]
  have hlines : ∀ es : List LogEntry,
      d₁.lines ++ cpuLines cpuIndex es = d.lines ++ cpuLines cpuIndex (e :: es) := by
    intro es
    rw [hlines₁, cpuLines_cons, List.append_assoc, List.singleton_append]
  cases h with
  | all hfull hpage' hroom hseq hlines' =>
    refine .all hfull ?_ hroom (hseq.trans hseq₁) (hlines'.trans (hlines _))
    rw [hpage', hpage₁, linesText_cpuLines_cons, List.append_assoc]
  | cut done rest' e' hresults hfull hroom hover hseq hlines' =>
    rw [hpage] at hroom hover
    rw [hseq₁] at hseq
    exact .cut (e :: done) rest' e' (congrArg (e :: ·) hresults) hfull hroom hover hseq
      (hlines'.trans (hlines _))
  | exact done rest' e' hresults hfull hexact hseq hlines' =>
    rw [hpage] at hexact
    rw [hseq₁] at hseq
    exact .exact (e :: done) rest' e' (congrArg (e :: ·) hresults) hfull hexact hseq
      (hlines'.trans (hlines _))

/-- The variables after a record whose whole line is on the page. -/
def DumpState.put (cpuIndex : Nat) (e : LogEntry) (d : DumpState) : DumpState :=
  { d with
    configfsPage := d.configfsPage ++ formatRecord cpuIndex e
    lines := d.lines ++ [(cpuIndex, e)] }

/-- The end of the loop at a record that fills the page. -/
def DumpState.stopAt (cpuIndex : Nat) (e : LogEntry) (d : DumpState) : DumpState :=
  { d with
    full := true
    logRecordSeqNum := Function.update d.logRecordSeqNum cpuIndex e.seqNum }

/-- **One record**: the loop goes on, ends with the line exactly at the limit, or cuts it. -/
theorem dumpRecords_cons {cpuIndex : Nat} (hcpu : cpuIndex < 2 ^ 32) (e : LogEntry)
    (rest : List LogEntry) {d : DumpState}
    (hroom : d.configfsPage.length < maxConfigfsPageSize - 1) :
    dumpRecords cpuIndex (e :: rest) d =
      if (d.put cpuIndex e).configfsPage.length < maxConfigfsPageSize - 1 then
        dumpRecords cpuIndex rest
          { d.put cpuIndex e with full := false, numOfLogsDumped := d.numOfLogsDumped + 1 }
      else if (d.put cpuIndex e).configfsPage.length = maxConfigfsPageSize - 1 then
        some ((d.put cpuIndex e).stopAt cpuIndex e)
      else
        some (DumpState.stopAt cpuIndex e
          { d with
            configfsPage := d.configfsPage ++
              (formatRecord cpuIndex e).take (maxConfigfsPageSize - 1 - d.configfsPage.length) ++
              ['.', '.', '.', '\n'] }) := by
  have hlen : (d.put cpuIndex e).configfsPage.length =
      d.configfsPage.length + (formatRecord cpuIndex e).length := List.length_append
  have hadd := logAddMsgToConfigfs_eq (formatRecord cpuIndex e) hroom
  rw [dumpRecords, hlen]
  simp only [snprintf_formatRecord hcpu]
  rcases Nat.lt_trichotomy (d.configfsPage.length + (formatRecord cpuIndex e).length)
    (maxConfigfsPageSize - 1) with hlt | heq | hgt
  · have hfits : d.fits (formatRecord cpuIndex e) = true := decide_eq_true hlt.le
    rw [if_pos hlt.le, decide_eq_false hlt.ne] at hadd
    rw [if_pos hlt]
    simp only [hadd, hfits, if_true, Bool.false_eq_true, if_false]
    rfl
  · have hfits : d.fits (formatRecord cpuIndex e) = true := decide_eq_true heq.le
    rw [if_pos heq.le, decide_eq_true heq] at hadd
    rw [if_neg heq.not_lt, if_pos heq]
    simp only [hadd, hfits, if_true]
    rfl
  · have hfits : d.fits (formatRecord cpuIndex e) = false := decide_eq_false (not_le.mpr hgt)
    rw [if_neg (not_le.mpr hgt)] at hadd
    rw [if_neg hgt.asymm, if_neg hgt.ne']
    simp only [hadd, hfits, if_true, Bool.false_eq_true, if_false]
    rfl

/-- **The records of one CPU.** -/
theorem dumpRecords_cases {cpuIndex : Nat} (hcpu : cpuIndex < 2 ^ 32) :
    ∀ (results : List LogEntry) {d : DumpState}, d.full = false →
      d.configfsPage.length < maxConfigfsPageSize - 1 →
      ∃ d', dumpRecords cpuIndex results d = some d' ∧ RecordsOutcome cpuIndex results d d'
  | [], d, hfull, hroom =>
    ⟨d, rfl, .all hfull (by simp [cpuLines]) hroom rfl (by simp [cpuLines])⟩
  | e :: rest, d, hfull, hroom => by
    rw [dumpRecords_cons hcpu e rest hroom]
    have hline : (d.put cpuIndex e).configfsPage.length =
        d.configfsPage.length + (linesText (cpuLines cpuIndex [e])).length := by
      simp [DumpState.put, linesText, cpuLines]
    split
    · rename_i hnext
      obtain ⟨d', hd', hout⟩ := dumpRecords_cases hcpu rest
        (d := { d.put cpuIndex e with full := false, numOfLogsDumped := d.numOfLogsDumped + 1 })
        rfl hnext
      exact ⟨d', hd', hout.cons rfl rfl rfl⟩
    · rename_i hfilled
      split
      · rename_i hend
        exact ⟨_, rfl, .exact [] rest e rfl rfl (hline ▸ hend) rfl rfl⟩
      · rename_i hover
        refine ⟨_, rfl, .cut [] rest e rfl rfl (by simpa [cpuLines] using hroom) ?_ rfl
          (by simp [cpuLines, DumpState.stopAt])⟩
        rw [List.nil_append]
        omega

/-! ## The CPUs of a dump -/

/-- The records a dump tries to write for a CPU. -/
def pendingRecords (area : LogArea) (logRecordSeqNum : Nat → U64) (cpuIndex : Nat) :
    List LogEntry :=
  let start := getCpuLogBufferStart cpuIndex
  let lastSeqNum := getLastSeqNum area start
  let numOfLogsToRead : U32 := (lastSeqNum - logRecordSeqNum cpuIndex).truncate 32
  if numOfLogsToRead = 0 ∨ lastSeqNum = 0 then []
  else readLogs area start lastSeqNum numOfLogsToRead

/-- The resume point of a CPU while it is dumped: its head. -/
def DumpState.resumeAtHead (area : LogArea) (cpuIndex : Nat) (d : DumpState) : DumpState :=
  { d with
    logRecordSeqNum := Function.update d.logRecordSeqNum cpuIndex
      (getLastSeqNum area (getCpuLogBufferStart cpuIndex)) }

theorem DumpState.resumeAtHead_self (area : LogArea) (cpuIndex : Nat) (d : DumpState) :
    (d.resumeAtHead area cpuIndex).logRecordSeqNum cpuIndex =
      getLastSeqNum area (getCpuLogBufferStart cpuIndex) := Function.update_self _ _ _

theorem DumpState.resumeAtHead_of_ne (area : LogArea) {cpuIndex c : Nat} (h : c ≠ cpuIndex)
    (d : DumpState) : (d.resumeAtHead area cpuIndex).logRecordSeqNum c = d.logRecordSeqNum c :=
  Function.update_of_ne h _ _

theorem dumpCpu_eq (area : LogArea) (cpuIndex : Nat) (d : DumpState) :
    dumpCpu area cpuIndex d =
      dumpRecords cpuIndex (pendingRecords area d.logRecordSeqNum cpuIndex)
        (d.resumeAtHead area cpuIndex) := by
  unfold dumpCpu pendingRecords
  simp only
  split
  · rfl
  · rfl

/-- **One CPU.** -/
theorem dumpCpu_cases {cpuIndex : Nat} (hcpu : cpuIndex < 2 ^ 32) (area : LogArea) {d : DumpState}
    (hfull : d.full = false) (hroom : d.configfsPage.length < maxConfigfsPageSize - 1) :
    ∃ d', dumpCpu area cpuIndex d = some d' ∧
      RecordsOutcome cpuIndex (pendingRecords area d.logRecordSeqNum cpuIndex)
        (d.resumeAtHead area cpuIndex) d' := by
  rw [dumpCpu_eq]
  exact dumpRecords_cases hcpu _ (d := d.resumeAtHead area cpuIndex) hfull hroom

/-- The pending lines of `count` CPUs from `cpuIndex` on. -/
def pendingLines (area : LogArea) (logRecordSeqNum : Nat → U64) (cpuIndex count : Nat) :
    List (Nat × LogEntry) :=
  (List.range' cpuIndex count).flatMap fun c => cpuLines c (pendingRecords area logRecordSeqNum c)

/-- Only the resume points of these CPUs matter. -/
theorem pendingLines_congr (area : LogArea) {seq seq' : Nat → U64} {cpuIndex count : Nat}
    (h : ∀ c, cpuIndex ≤ c → c < cpuIndex + count → seq c = seq' c) :
    pendingLines area seq cpuIndex count = pendingLines area seq' cpuIndex count := by
  refine List.flatMap_congr fun c hc => ?_
  obtain ⟨hle, hlt⟩ := List.mem_range'_1.mp hc
  unfold pendingRecords
  rw [h c hle hlt]

theorem pendingLines_succ (area : LogArea) (seq : Nat → U64) (cpuIndex count : Nat) :
    pendingLines area seq cpuIndex (count + 1) =
      cpuLines cpuIndex (pendingRecords area seq cpuIndex) ++
        pendingLines area seq (cpuIndex + 1) count := by
  unfold pendingLines
  rw [List.range'_succ, List.flatMap_cons]

/-- From `d` to `d'`, `count` CPUs from `cpuIndex` on were dumped and the page did not fill. -/
structure Dumped (area : LogArea) (cpuIndex count : Nat) (d d' : DumpState) : Prop where
  full : d'.full = false
  page : d'.configfsPage =
    d.configfsPage ++ linesText (pendingLines area d.logRecordSeqNum cpuIndex count)
  room : d'.configfsPage.length < maxConfigfsPageSize - 1
  seq : ∀ c, d'.logRecordSeqNum c =
    if cpuIndex ≤ c ∧ c < cpuIndex + count then getLastSeqNum area (getCpuLogBufferStart c)
    else d.logRecordSeqNum c
  lines : d'.lines = d.lines ++ pendingLines area d.logRecordSeqNum cpuIndex count

namespace Dumped

variable {area : LogArea} {cpuIndex count : Nat} {d d₁ d' : DumpState}

theorem refl (hfull : d.full = false) (hroom : d.configfsPage.length < maxConfigfsPageSize - 1) :
    Dumped area cpuIndex 0 d d :=
  ⟨hfull, by simp [pendingLines], hroom, fun c => by rw [if_neg (by omega)],
    by simp [pendingLines]⟩

/-- One CPU before the others. -/
theorem cons
    (hpage : d₁.configfsPage = d.configfsPage ++
      linesText (cpuLines cpuIndex (pendingRecords area d.logRecordSeqNum cpuIndex)))
    (hseq : d₁.logRecordSeqNum = Function.update d.logRecordSeqNum cpuIndex
      (getLastSeqNum area (getCpuLogBufferStart cpuIndex)))
    (hlines : d₁.lines = d.lines ++
      cpuLines cpuIndex (pendingRecords area d.logRecordSeqNum cpuIndex))
    (h : Dumped area (cpuIndex + 1) count d₁ d') :
    Dumped area cpuIndex (count + 1) d d' := by
  have hpending : pendingLines area d.logRecordSeqNum cpuIndex (count + 1) =
      cpuLines cpuIndex (pendingRecords area d.logRecordSeqNum cpuIndex) ++
        pendingLines area d₁.logRecordSeqNum (cpuIndex + 1) count := by
    rw [pendingLines_succ]
    congr 1
    refine pendingLines_congr area fun c hc _ => ?_
    rw [hseq, Function.update_of_ne (by omega)]
  refine ⟨h.full, ?_, h.room, fun c => ?_, ?_⟩
  · rw [h.page, hpage, hpending, linesText_append, List.append_assoc]
  · rw [h.seq, hseq]
    by_cases hc : c = cpuIndex
    · subst hc
      rw [if_neg (by omega), if_pos (by omega), Function.update_self]
    · rw [Function.update_of_ne hc]
      by_cases hin : cpuIndex + 1 ≤ c ∧ c < cpuIndex + 1 + count
      · rw [if_pos hin, if_pos (by omega)]
      · rw [if_neg hin, if_neg (by omega)]
  · rw [h.lines, hlines, hpending, List.append_assoc]

end Dumped

/-- **The CPU loop.** It dumps every CPU, or the page fills at one CPU after those before it were
dumped. -/
theorem dumpCpus_cases (area : LogArea) :
    ∀ (count cpuIndex : Nat) {d : DumpState}, cpuIndex + count ≤ 2 ^ 32 → d.full = false →
      d.configfsPage.length < maxConfigfsPageSize - 1 →
      ∃ d', dumpCpus area count cpuIndex d = some d' ∧
        (Dumped area cpuIndex count d d' ∨
          ∃ i < count, ∃ d₁, Dumped area cpuIndex i d d₁ ∧
            dumpCpu area (cpuIndex + i) d₁ = some d' ∧ d'.full = true)
  | 0, _, d, _, hfull, hroom => ⟨d, rfl, Or.inl (.refl hfull hroom)⟩
  | count + 1, cpuIndex, d, hcpus, hfull, hroom => by
    obtain ⟨d₁, hd₁, hout⟩ := dumpCpu_cases (show cpuIndex < 2 ^ 32 by omega) area hfull hroom
    unfold dumpCpus
    simp only [hd₁]
    by_cases hfull₁ : d₁.full = true
    · rw [if_pos hfull₁]
      exact ⟨d₁, rfl, Or.inr ⟨0, by omega, d, .refl hfull hroom, hd₁, hfull₁⟩⟩
    rw [if_neg hfull₁]
    cases hout with
    | cut done rest e hresults hfull' => exact absurd hfull' hfull₁
    | exact done rest e hresults hfull' => exact absurd hfull' hfull₁
    | all hfull' hpage hroom₁ hseq hlines =>
      obtain ⟨d', hd', hcases⟩ := dumpCpus_cases area count (cpuIndex + 1) (by omega) hfull' hroom₁
      refine ⟨d', hd', ?_⟩
      rcases hcases with hdumped | ⟨i, hi, d₂, hdumped, hstop, hfull₂⟩
      · exact Or.inl (.cons hpage hseq hlines hdumped)
      · refine Or.inr ⟨i + 1, by omega, d₂, .cons hpage hseq hlines hdumped, ?_, hfull₂⟩
        rwa [← add_assoc, add_right_comm]

/-- A loop that ends with room on the page has dumped every CPU. -/
theorem dumped_of_not_full {area : LogArea} {count cpuIndex : Nat} {d d' : DumpState}
    (hcpus : cpuIndex + count ≤ 2 ^ 32) (hfull : d.full = false)
    (hroom : d.configfsPage.length < maxConfigfsPageSize - 1)
    (hd' : dumpCpus area count cpuIndex d = some d') (hfull' : d'.full = false) :
    Dumped area cpuIndex count d d' := by
  obtain ⟨d₂, hd₂, hcases⟩ := dumpCpus_cases area count cpuIndex hcpus hfull hroom
  rw [hd', Option.some_inj] at hd₂
  subst hd₂
  rcases hcases with hdumped | ⟨-, -, -, -, -, hfull₂⟩
  · exact hdumped
  · rw [hfull'] at hfull₂
    cases hfull₂

/-- Every line of the pending records belongs to one of the CPUs. -/
theorem mem_pendingLines_cpu {area : LogArea} {seq : Nat → U64} {c k : Nat}
    {line : Nat × LogEntry} (h : line ∈ pendingLines area seq c k) :
    c ≤ line.1 ∧ line.1 < c + k := by
  unfold pendingLines at h
  obtain ⟨c', hc', hline⟩ := List.mem_flatMap.mp h
  obtain ⟨e, -, rfl⟩ := List.mem_map.mp hline
  exact List.mem_range'_1.mp hc'

end IkgtUsage
