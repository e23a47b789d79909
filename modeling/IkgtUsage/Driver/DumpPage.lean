import IkgtUsage.Driver.Dump

/-!
# What a dump page says about itself

A page is record lines, then perhaps the beginning of one more line and an ellipsis, then the
sentinel with three numbers: the bytes before it, the complete lines, and whether a line was cut.
`log_add_msg_to_configfs` answers 1 both where a line is cut and where it ends exactly at the limit,
and `dump_log` takes the answer for "cut": it does not count that line. `PageOutcome` says what a
dump leaves in the three cases; the sentinel is right in all but the exact fit
(`describesItself_iff`).
-/

namespace IkgtUsage

/-! ## The text of lines -/

theorem formatRecord_ne_nil (cpuIndex : Nat) (e : LogEntry) : formatRecord cpuIndex e ≠ [] := by
  unfold formatRecord
  simp

/-- Every line has a character. -/
theorem length_le_linesText (lines : List (Nat × LogEntry)) :
    lines.length ≤ (linesText lines).length := by
  induction lines with
  | nil => exact le_refl _
  | cons line lines ih =>
    have hline := List.length_pos_of_ne_nil (formatRecord_ne_nil line.1 line.2)
    have htext : linesText (line :: lines) = formatRecord line.1 line.2 ++ linesText lines := rfl
    rw [htext, List.length_append, List.length_cons]
    omega

theorem linesText_concat (lines : List (Nat × LogEntry)) (line : Nat × LogEntry) :
    linesText (lines ++ [line]) = linesText lines ++ formatRecord line.1 line.2 := by
  rw [linesText_append]
  simp [linesText]

/-! ## The outcome of a dump -/

/-- The page is the lines `lines`, with room for more. -/
structure DumpState.Open (lines : List (Nat × LogEntry)) (d : DumpState) : Prop where
  full : d.full = false
  page : d.configfsPage = linesText lines
  room : d.configfsPage.length < maxConfigfsPageSize - 1
  num : d.numOfLogsDumped.toNat = lines.length

/-- What a dump with the lines `pending` to write leaves. -/
inductive PageOutcome (pending : List (Nat × LogEntry)) (d : DumpState) : Prop
  /-- All lines are on the page. -/
  | all (h : d.Open pending)
  /-- The line of `line` is cut. -/
  | cut (done rest : List (Nat × LogEntry)) (line : Nat × LogEntry)
      (hpending : pending = done ++ line :: rest) (hfull : d.full = true)
      (hroom : (linesText done).length < maxConfigfsPageSize - 1)
      (hover : maxConfigfsPageSize - 1 < (linesText (done ++ [line])).length)
      (hpage : d.configfsPage = linesText done ++
        (formatRecord line.1 line.2).take (maxConfigfsPageSize - 1 - (linesText done).length) ++
        ['.', '.', '.', '\n'])
      (hnum : d.numOfLogsDumped.toNat = done.length)
  /-- The line of `line` ends exactly at the limit. -/
  | exact (done rest : List (Nat × LogEntry)) (line : Nat × LogEntry)
      (hpending : pending = done ++ line :: rest) (hfull : d.full = true)
      (hlimit : (linesText (done ++ [line])).length = maxConfigfsPageSize - 1)
      (hpage : d.configfsPage = linesText (done ++ [line]))
      (hnum : d.numOfLogsDumped.toNat = done.length)

/-- A page that is not full has all lines. -/
theorem PageOutcome.open {pending : List (Nat × LogEntry)} {d : DumpState}
    (h : PageOutcome pending d) (hfull : d.full = false) : d.Open pending := by
  cases h with
  | all h => exact h
  | cut done rest line hpending hfull' => exact absurd (hfull'.symm.trans hfull) (by decide)
  | exact done rest line hpending hfull' => exact absurd (hfull'.symm.trans hfull) (by decide)

/-- Lines after the one that filled the page make no difference. -/
theorem PageOutcome.append {pending : List (Nat × LogEntry)} {d : DumpState}
    (h : PageOutcome pending d) (hfull : d.full = true) (more : List (Nat × LogEntry)) :
    PageOutcome (pending ++ more) d := by
  cases h with
  | all h => exact absurd (h.full.symm.trans hfull) Bool.false_ne_true
  | cut done rest line hpending _ hroom hover hpage hnum =>
    refine .cut done (rest ++ more) line ?_ hfull hroom hover hpage hnum
    rw [hpending, List.append_assoc, List.cons_append]
  | exact done rest line hpending _ hlimit hpage hnum =>
    refine .exact done (rest ++ more) line ?_ hfull hlimit hpage hnum
    rw [hpending, List.append_assoc, List.cons_append]

/-- The records of one CPU, on a page with the lines `before`. -/
theorem dumpRecords_page {cpuIndex : Nat} (hcpu : cpuIndex < 2 ^ 32) :
    ∀ (results : List LogEntry) {d : DumpState} {before : List (Nat × LogEntry)}, d.Open before →
      ∃ d', dumpRecords cpuIndex results d = some d' ∧
        PageOutcome (before ++ cpuLines cpuIndex results) d'
  | [], d, before, h => ⟨d, rfl, .all (by rwa [cpuLines, List.map_nil, List.append_nil])⟩
  | e :: rest, d, before, h => by
    have hput : (d.put cpuIndex e).configfsPage = linesText (before ++ [(cpuIndex, e)]) := by
      rw [linesText_concat, ← h.page]
      rfl
    rw [dumpRecords_cons hcpu e rest h.room, cpuLines_cons]
    split
    · rename_i hnext
      -- the count does not wrap: there are no more lines than characters
      have hnum : (d.numOfLogsDumped + 1).toNat = (before ++ [(cpuIndex, e)]).length := by
        have hlines := length_le_linesText before
        have hroom := h.room
        rw [h.page, maxConfigfsPageSize_eq] at hroom
        have hnum := h.num
        rw [List.length_append, List.length_singleton]
        bv_omega
      obtain ⟨d', hd', hout⟩ := dumpRecords_page hcpu rest
        (d := { d.put cpuIndex e with full := false, numOfLogsDumped := d.numOfLogsDumped + 1 })
        ⟨rfl, hput, hnext, hnum⟩
      rw [List.append_assoc, List.singleton_append] at hout
      exact ⟨d', hd', hout⟩
    · rename_i hfilled
      rw [hput] at hfilled ⊢
      split
      · rename_i hlimit
        exact ⟨_, rfl, .exact before _ _ rfl rfl hlimit hput h.num⟩
      · rename_i hover
        refine ⟨_, rfl, .cut before _ _ rfl rfl (h.page ▸ h.room) (by omega) ?_ h.num⟩
        rw [← h.page]
        rfl

/-- The other CPUs keep their resume points. -/
theorem RecordsOutcome.seq_of_ne {cpuIndex c : Nat} {results : List LogEntry} {d d' : DumpState}
    (h : RecordsOutcome cpuIndex results d d') (hc : c ≠ cpuIndex) :
    d'.logRecordSeqNum c = d.logRecordSeqNum c := by
  cases h with
  | all _ _ _ hseq => rw [hseq]
  | cut _ _ _ _ _ _ _ hseq => rw [hseq, Function.update_of_ne hc]
  | exact _ _ _ _ _ _ hseq => rw [hseq, Function.update_of_ne hc]

/-- **The CPU loop**, on a page with the lines `before`. -/
theorem dumpCpus_page (area : LogArea) :
    ∀ (count cpuIndex : Nat) {d : DumpState} {before : List (Nat × LogEntry)},
      cpuIndex + count ≤ 2 ^ 32 → d.Open before →
      ∃ d', dumpCpus area count cpuIndex d = some d' ∧
        PageOutcome (before ++ pendingLines area d.logRecordSeqNum cpuIndex count) d'
  | 0, _, d, before, _, h =>
    ⟨d, rfl, .all (by rwa [pendingLines, List.range'_zero, List.flatMap_nil, List.append_nil])⟩
  | count + 1, cpuIndex, d, before, hcpus, h => by
    have hcpu : cpuIndex < 2 ^ 32 := by omega
    obtain ⟨d₁, hd₁, hout⟩ := dumpRecords_page hcpu
      (pendingRecords area d.logRecordSeqNum cpuIndex)
      (d := d.resumeAtHead area cpuIndex) ⟨h.full, h.page, h.room, h.num⟩
    rw [← dumpCpu_eq] at hd₁
    have hpending : before ++ pendingLines area d.logRecordSeqNum cpuIndex (count + 1) =
        before ++ cpuLines cpuIndex (pendingRecords area d.logRecordSeqNum cpuIndex) ++
          pendingLines area d.logRecordSeqNum (cpuIndex + 1) count := by
      rw [pendingLines_succ, List.append_assoc]
    unfold dumpCpus
    simp only [hd₁]
    rw [hpending]
    by_cases hfull₁ : d₁.full = true
    · rw [if_pos hfull₁]
      exact ⟨d₁, rfl, hout.append hfull₁ _⟩
    · rw [if_neg hfull₁]
      have hopen := hout.open (Bool.not_eq_true _ ▸ hfull₁)
      obtain ⟨d', hd', hout'⟩ := dumpCpus_page area count (cpuIndex + 1) (by omega) hopen
      -- the resume points of the CPUs to come have not moved
      have hseq : pendingLines area d₁.logRecordSeqNum (cpuIndex + 1) count =
          pendingLines area d.logRecordSeqNum (cpuIndex + 1) count := by
        obtain ⟨d₂, hd₂, hcases⟩ := dumpCpu_cases hcpu area h.full h.room
        rw [hd₁, Option.some_inj] at hd₂
        subst hd₂
        refine pendingLines_congr area fun c hc _ => ?_
        rw [hcases.seq_of_ne (by omega), d.resumeAtHead_of_ne area (by omega)]
      rw [hseq] at hout'
      exact ⟨d', hd', hout'⟩

/-! ## The page and its sentinel -/

/-- The sentinel with the numbers `o`, `n` and `f`. -/
def sentinelText (o n f : Nat) : List Char :=
  formatDec o ++ ',' :: formatDec n ++ ',' :: formatDec f ++ ['\n', 'E', 'O', 'F', '\n']

/-- The sentinel has at most 22 characters. -/
theorem length_formatSentinel_le {offset : Nat} (hoffset : offset < 10 ^ 4) (num : U32)
    (full : Bool) : (formatSentinel offset num full).length ≤ 22 := by
  have ho : (formatDec offset).length ≤ 4 := length_formatDec_le (by decide) hoffset
  have hn : (formatDec num.toNat).length ≤ 10 :=
    length_formatDec_le (by decide) (by have := num.isLt; omega)
  have hf : (formatDec full.toNat).length ≤ 1 :=
    length_formatDec_le (by decide) (by have := full.toNat_lt; omega)
  unfold formatSentinel
  simp only [List.length_append, List.length_cons, List.length_nil]
  omega

/-- The buffer of the sentinel holds all of it. -/
theorem snprintf_formatSentinel {offset : Nat} (hoffset : offset < 10 ^ 4) (num : U32)
    (full : Bool) : snprintf (maxSentinelSize - 1) (formatSentinel offset num full) =
      formatSentinel offset num full := by
  have hlen := length_formatSentinel_le hoffset num full
  unfold snprintf maxSentinelSize
  exact List.take_of_length_le (by omega)

/-- Some line of `pending` crosses the limit of the page: it is cut short. -/
def CutShort (pending : List (Nat × LogEntry)) : Prop :=
  ∃ n, (linesText (pending.take n)).length < maxConfigfsPageSize - 1 ∧
    maxConfigfsPageSize - 1 < (linesText (pending.take (n + 1))).length

/-- Some line of `pending` ends exactly at the limit of the page. -/
def EndsAtLimit (pending : List (Nat × LogEntry)) : Prop :=
  ∃ n, (linesText (pending.take n)).length = maxConfigfsPageSize - 1

/-- **A page describes itself**: complete lines, a proper prefix of the next line with an ellipsis
if and only if a record was cut short, and a sentinel that says so. -/
def DescribesItself (pending : List (Nat × LogEntry)) (page : List Char) : Prop :=
  ∃ (lines : List (Nat × LogEntry)) (part : List Char) (cut : Bool),
    page = linesText lines ++ part ++
      sentinelText (linesText lines ++ part).length lines.length cut.toNat ∧
    (cut = true ↔ CutShort pending) ∧
    (cut = true → ∃ line rest start, pending = lines ++ line :: rest ∧
      start <+: formatRecord line.1 line.2 ∧ start ≠ formatRecord line.1 line.2 ∧
      part = start ++ ['.', '.', '.', '\n']) ∧
    (cut = false → lines <+: pending ∧ part = [])

section Outcome

variable {pending : List (Nat × LogEntry)} {d : DumpState}

/-- The sentinel starts in the first 4030 bytes. -/
theorem PageOutcome.length_le (h : PageOutcome pending d) : d.configfsPage.length ≤ 4030 := by
  cases h with
  | all h =>
    have hroom := h.room
    rw [maxConfigfsPageSize_eq] at hroom
    omega
  | cut done rest line _ _ hroom _ hpage =>
    rw [maxConfigfsPageSize_eq] at hroom hpage
    have htake := List.length_take_le (4027 - 1 - (linesText done).length)
      (formatRecord line.1 line.2)
    rw [hpage]
    simp only [List.length_append, List.length_cons, List.length_nil]
    omega
  | exact done rest line _ _ hlimit hpage =>
    rw [hpage, hlimit, maxConfigfsPageSize_eq]
    omega

/-- `snprintf` does not cut the sentinel. -/
theorem DumpState.finish_eq (hlen : d.configfsPage.length ≤ 4030) :
    d.finish = d.configfsPage ++
      sentinelText d.configfsPage.length d.numOfLogsDumped.toNat d.full.toNat := by
  have hwhole := snprintf_formatSentinel (show d.configfsPage.length < 10 ^ 4 by omega)
    d.numOfLogsDumped d.full
  unfold DumpState.finish
  simp only [hwhole, List.take_length]
  rfl

theorem PageOutcome.finish_eq (h : PageOutcome pending d) :
    d.finish = d.configfsPage ++
      sentinelText d.configfsPage.length d.numOfLogsDumped.toNat d.full.toNat :=
  DumpState.finish_eq h.length_le

/-- Where all lines fit, none is cut and none ends at the limit. -/
theorem fits_of_length_lt (h : (linesText pending).length < maxConfigfsPageSize - 1) :
    ¬ CutShort pending ∧ ¬ EndsAtLimit pending := by
  constructor
  · rintro ⟨n, -, hover⟩
    have := length_linesText_take_le_all pending (n + 1)
    omega
  · rintro ⟨n, hlimit⟩
    have := length_linesText_take_le_all pending n
    omega

/-- A line that crosses the limit is the only one that meets it. -/
theorem not_endsAtLimit_of_cut {n : Nat}
    (hroom : (linesText (pending.take n)).length < maxConfigfsPageSize - 1)
    (hover : maxConfigfsPageSize - 1 < (linesText (pending.take (n + 1))).length) :
    ¬ EndsAtLimit pending := by
  rintro ⟨m, hlimit⟩
  rcases Nat.lt_or_ge n m with hlt | hge
  · have := length_linesText_take_le pending (show n + 1 ≤ m from hlt)
    omega
  · have := length_linesText_take_le pending hge
    omega

/-- Where a line ends at the limit, no line is cut. -/
theorem not_cutShort_of_endsAtLimit (h : EndsAtLimit pending) : ¬ CutShort pending :=
  fun ⟨_, hroom, hover⟩ => not_endsAtLimit_of_cut hroom hover h

/-- The last number of the sentinel can be read off the page. -/
theorem sentinelText_flag_ne (page page' : List Char) (o n o' n' : Nat) :
    page ++ sentinelText o n 1 ≠ page' ++ sentinelText o' n' 0 := by
  intro h
  have hone : formatDec 1 = ['1'] := rfl
  have hzero : formatDec 0 = ['0'] := rfl
  have hflag := congrArg (fun text => text.reverse[5]?) h
  simp [sentinelText, hone, hzero] at hflag

/-- A page on which a line ends at the limit says that a record was cut. -/
theorem not_describesItself_of_exact (hlimit : EndsAtLimit pending) (page : List Char)
    (o n : Nat) : ¬ DescribesItself pending (page ++ sentinelText o n 1) := by
  rintro ⟨lines, part, cut, hpage, hcut, -, -⟩
  cases cut with
  | true => exact not_cutShort_of_endsAtLimit hlimit (hcut.mp rfl)
  | false => exact sentinelText_flag_ne _ _ _ _ _ _ hpage

/-- The lines up to the next one. -/
theorem take_succ_of_eq {done rest : List (Nat × LogEntry)} {line : Nat × LogEntry}
    (h : pending = done ++ line :: rest) : pending.take (done.length + 1) = done ++ [line] := by
  rw [h, List.take_length_add_append]
  rfl

/-- **The page of a dump describes itself unless a line ends exactly at the limit.** -/
theorem PageOutcome.describesItself_iff (h : PageOutcome pending d) :
    DescribesItself pending d.finish ↔ ¬ EndsAtLimit pending := by
  rw [h.finish_eq]
  cases h with
  | all h =>
    obtain ⟨hcut, hlimit⟩ := fits_of_length_lt (h.page ▸ h.room)
    refine iff_of_true ⟨pending, [], false, ?_, iff_of_false (by decide) hcut,
      fun h => absurd h (by decide), fun _ => ⟨List.prefix_refl _, rfl⟩⟩ hlimit
    rw [List.append_nil, ← h.page, h.num, h.full]
  | cut done rest line hpending hfull hroom hover hpage hnum =>
    have hdone : pending.take done.length = done := by rw [hpending, List.take_left]
    have hnext : pending.take (done.length + 1) = done ++ [line] := take_succ_of_eq hpending
    have hcut : CutShort pending := ⟨done.length, by rwa [hdone], by rwa [hnext]⟩
    have hlimit : ¬ EndsAtLimit pending := fun h => not_cutShort_of_endsAtLimit h hcut
    rw [linesText_concat, List.length_append] at hover
    refine iff_of_true ⟨done, _, true, ?_, iff_of_true rfl hcut, fun _ => ⟨line, rest,
      (formatRecord line.1 line.2).take (maxConfigfsPageSize - 1 - (linesText done).length),
      hpending, List.take_prefix _ _, ?_, rfl⟩, fun h => absurd h (by decide)⟩ hlimit
    · rw [hpage, hnum, hfull, List.append_assoc (linesText done)]
    · -- the line is longer than what is left of the page
      intro hwhole
      have hlen := congrArg List.length hwhole
      rw [List.length_take] at hlen
      omega
  | exact done rest line hpending hfull hlimit hpage hnum =>
    have hnext : pending.take (done.length + 1) = done ++ [line] := take_succ_of_eq hpending
    have hends : EndsAtLimit pending := ⟨done.length + 1, by rw [hnext]; exact hlimit⟩
    rw [hfull]
    exact iff_of_false (not_describesItself_of_exact hends _ _ _) (not_not_intro hends)

end Outcome

/-! ## `dump_log` -/

/-- The lines a dump has to write. -/
def pendingOfDump (numOfCpus : U32) (logRecordSeqNum : Nat → U64) (area : LogArea) :
    List (Nat × LogEntry) :=
  pendingLines area logRecordSeqNum 0 numOfCpus.toNat

/-- A dump whose allocations succeed. -/
theorem dumpLog_page (numOfCpus : U32) (logRecordSeqNum : Nat → U64) (area : LogArea)
    (isLoggingRunning : Bool) :
    ∃ r d, dumpLog (true, true) ⟨numOfCpus, .live logRecordSeqNum, .live area, isLoggingRunning⟩ =
        some r ∧
      dumpCpus area numOfCpus.toNat 0 (.start logRecordSeqNum) = some d ∧
      r.configfsPage = d.finish ∧ PageOutcome (pendingOfDump numOfCpus logRecordSeqNum area) d := by
  have hopen : (DumpState.start logRecordSeqNum).Open [] :=
    ⟨rfl, rfl, show 0 < maxConfigfsPageSize - 1 by decide, rfl⟩
  obtain ⟨d, hd, hout⟩ := dumpCpus_page area numOfCpus.toNat 0
    (by have := numOfCpus.isLt; omega) hopen
  rw [List.nil_append] at hout
  refine ⟨⟨d.finish, ⟨numOfCpus, .live d.logRecordSeqNum, .live area, isLoggingRunning⟩, d.lines⟩,
    d, ?_, hd, rfl, hout⟩
  unfold dumpLog
  simp only [hd]
  rfl

/-- **The dump page describes itself** if and only if no line ends exactly at its limit. -/
theorem dumpLog_describesItself_iff (numOfCpus : U32) (logRecordSeqNum : Nat → U64)
    (area : LogArea) (isLoggingRunning : Bool) :
    let s : LogDriver := ⟨numOfCpus, .live logRecordSeqNum, .live area, isLoggingRunning⟩
    let pending := pendingOfDump numOfCpus logRecordSeqNum area
    ∃ r, dumpLog (true, true) s = some r ∧
      (DescribesItself pending r.configfsPage ↔ ¬ EndsAtLimit pending) := by
  obtain ⟨r, d, hr, -, hpage, hout⟩ := dumpLog_page numOfCpus logRecordSeqNum area isLoggingRunning
  exact ⟨r, hr, hpage ▸ hout.describesItself_iff⟩

/-- **A page that does not.** The buffer holds 66 records, whose lines have 61 characters each, 4026
together: all of them are on the page, and the sentinel says that one was cut. -/
theorem exact_fit_not_described :
    let area : LogArea := fun i =>
      if i = 0 then LogEntry.zero.withMetaHead 66
      else ⟨BitVec.ofNat 64 (i - 1), if i ≤ 10 then 10000 else 1000, 1, .allOnes 64, .allOnes 64,
        .allOnes 64⟩
    ¬ ∃ r, dumpLog (true, true) ⟨1, .live fun _ => 0, .live area, true⟩ = some r ∧
      DescribesItself (pendingOfDump 1 (fun _ => 0) area) r.configfsPage := by
  intro area
  rintro ⟨r, hr, hdescribes⟩
  obtain ⟨r', d, hr', -, hpage, hout⟩ := dumpLog_page 1 (fun _ => 0) area true
  rw [hr, Option.some_inj] at hr'
  rw [hr', hpage] at hdescribes
  refine hout.describesItself_iff.mp hdescribes ⟨66, ?_⟩
  decide +kernel

end IkgtUsage
