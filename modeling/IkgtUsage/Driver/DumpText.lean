import IkgtUsage.Driver.DumpPage
import IkgtUsage.Driver.Show

/-!
# Reading a dump page

`readPage` is what a reader of `log.txt` does with a page: it takes the record lines up to the first
line that is none, and then the three numbers of the sentinel. For any contents of the log area it
gets back what `dump_log` has printed (`readPage_dumpLog`): no record line runs into another one,
the beginning of a line that was cut is never taken for a record, and neither is the sentinel.
-/

namespace IkgtUsage

open Lib

/-! ## The reader -/

/-- The six numbers of a record line. -/
structure LogLine where
  cpuIndex : Nat
  seqNum : Nat
  reason : Nat
  qualification : Nat
  rip : Nat
  gva : Nat
  deriving DecidableEq, Repr

/-- The numbers that `formatRecord` prints. -/
def LogLine.of (line : Nat × LogEntry) : LogLine :=
  ⟨line.1, line.2.seqNum.toNat, line.2.reason.toNat, line.2.qualification.toNat,
    line.2.rip.toNat, line.2.gva.toNat⟩

/-- A number between separators. -/
def readField (base : Nat) (s : List Char) : Option Nat :=
  if s = [] then none else readNumeral digitValue base s 0

/-- A record line, without its newline. -/
def readLine (s : List Char) : Option LogLine :=
  match s.splitOn ',' with
  | [cpuIndex, seqNum, reason, qualification, rip, gva] => do
    let cpuIndex ← readField 10 cpuIndex
    let seqNum ← readField 10 seqNum
    let reason ← readField 10 reason
    let qualification ← readField 16 qualification
    let rip ← readField 16 rip
    let gva ← readField 16 gva
    some ⟨cpuIndex, seqNum, reason, qualification, rip, gva⟩
  | _ => none

/-- The record lines at the start, and the other lines. -/
def readLines : List (List Char) → List LogLine × List (List Char)
  | [] => ([], [])
  | s :: rest =>
    match readLine s with
    | some line => (line :: (readLines rest).1, (readLines rest).2)
    | none => ([], s :: rest)

/-- What a page says. -/
structure PageReading where
  lines : List LogLine
  offset : Nat
  numOfLogsDumped : Nat
  full : Nat
  deriving DecidableEq, Repr

/-- The sentinel, without `EOF`. -/
def readSentinel (lines : List LogLine) (s : List Char) : Option PageReading :=
  match s.splitOn ',' with
  | [offset, numOfLogsDumped, full] => do
    let offset ← readField 10 offset
    let numOfLogsDumped ← readField 10 numOfLogsDumped
    let full ← readField 10 full
    some ⟨lines, offset, numOfLogsDumped, full⟩
  | _ => none

/-- A page: the records at its start and the sentinel at its end. -/
def readPage (page : List Char) : Option PageReading :=
  let (lines, rest) := readLines (page.splitOn '\n')
  match rest.reverse with
  | [] :: ['E', 'O', 'F'] :: sentinel :: _ => readSentinel lines sentinel
  | _ => none

/-! ## One line -/

theorem readField_formatDec (n : Nat) : readField 10 (formatDec n) = some n := by
  unfold readField
  rw [formatDec_eq, if_neg (numeral_ne_nil n), readNumeral_numeral (by decide) readsDigits_dec]

theorem readField_formatHex (n : Nat) : readField 16 (formatHex n) = some n := by
  unfold readField
  rw [formatHex_eq, if_neg (numeral_ne_nil n), readNumeral_numeral (by decide) readsDigits_hex]

theorem notMem_formatDec {c : Char} (hc : digitValue c = none) (n : Nat) : c ∉ formatDec n := by
  rw [formatDec_eq]
  exact notMem_numeral (by decide) readsDigits_dec hc n

theorem notMem_formatHex {c : Char} (hc : digitValue c = none) (n : Nat) : c ∉ formatHex n := by
  rw [formatHex_eq]
  exact notMem_numeral (by decide) readsDigits_hex hc n

/-- A record line without its newline. -/
def recordFields (cpuIndex : Nat) (e : LogEntry) : List (List Char) :=
  [formatDec cpuIndex, formatDec e.seqNum.toNat, formatDec e.reason.toNat,
    formatHex e.qualification.toNat, formatHex e.rip.toNat, formatHex e.gva.toNat]

theorem formatRecord_eq (cpuIndex : Nat) (e : LogEntry) :
    formatRecord cpuIndex e = [','].intercalate (recordFields cpuIndex e) ++ ['\n'] := by
  simp [formatRecord, recordFields, List.intercalate]

/-- Only digits and commas. -/
theorem notMem_recordFields {c : Char} (hc : digitValue c = none) (cpuIndex : Nat) (e : LogEntry) :
    ∀ s ∈ recordFields cpuIndex e, c ∉ s := by
  simp only [recordFields, List.forall_mem_cons]
  exact ⟨notMem_formatDec hc _, notMem_formatDec hc _, notMem_formatDec hc _,
    notMem_formatHex hc _, notMem_formatHex hc _, notMem_formatHex hc _, by simp⟩

/-- **A record line reads back as its numbers.** -/
theorem readLine_recordFields (cpuIndex : Nat) (e : LogEntry) :
    readLine ([','].intercalate (recordFields cpuIndex e)) = some (.of (cpuIndex, e)) := by
  have hsplit : ([','].intercalate (recordFields cpuIndex e)).splitOn ',' =
      recordFields cpuIndex e :=
    List.splitOn_intercalate ',' (notMem_recordFields (by decide) cpuIndex e) (List.cons_ne_nil _ _)
  unfold readLine
  rw [hsplit]
  simp only [recordFields, readField_formatDec, readField_formatHex]
  rfl

/-- A field that can be read consists of digits. -/
theorem notMem_of_readField {base : Nat} {s : List Char} {n : Nat} (h : readField base s = some n)
    {c : Char} (hc : digitValue c = none) : c ∉ s := by
  unfold readField at h
  split at h
  · cases h
  · intro hmem
    obtain ⟨d, -, hd⟩ := value_of_readNumeral h c hmem
    rw [hc] at hd
    cases hd

/-- A record line consists of digits and commas. -/
theorem readLine_eq_none {s : List Char} {c : Char} (hmem : c ∈ s) (hc : digitValue c = none)
    (hcomma : c ≠ ',') : readLine s = none := by
  by_contra hsome
  obtain ⟨line, hline⟩ := Option.ne_none_iff_exists'.mp hsome
  have hfields : ∀ w ∈ s.splitOn ',', c ∉ w := by
    unfold readLine at hline
    split at hline
    · rename_i heq
      rw [heq]
      simp only [Option.bind_eq_bind, Option.bind_eq_some_iff] at hline
      obtain ⟨_, h1, _, h2, _, h3, _, h4, _, h5, _, h6, -⟩ := hline
      simp only [List.forall_mem_cons]
      exact ⟨notMem_of_readField h1 hc, notMem_of_readField h2 hc, notMem_of_readField h3 hc,
        notMem_of_readField h4 hc, notMem_of_readField h5 hc, notMem_of_readField h6 hc, by simp⟩
    · cases hline
  have htext := notMem_intercalate hcomma hfields
  rw [List.intercalate_splitOn] at htext
  exact htext hmem

/-! ## Lines -/

theorem newline_notMem (cpuIndex : Nat) (e : LogEntry) :
    '\n' ∉ [','].intercalate (recordFields cpuIndex e) :=
  notMem_intercalate (by decide) (notMem_recordFields (by decide) cpuIndex e)

/-- The lines of a text that starts with a record line. -/
theorem splitOn_formatRecord (cpuIndex : Nat) (e : LogEntry) (text : List Char) :
    (formatRecord cpuIndex e ++ text).splitOn '\n' =
      [','].intercalate (recordFields cpuIndex e) :: text.splitOn '\n' := by
  rw [formatRecord_eq, List.append_assoc, List.singleton_append]
  exact List.splitOn_append_cons_self_of_not_mem (newline_notMem cpuIndex e) text

/-- **The record lines at the start of a text are read.** -/
theorem readLines_linesText (text : List Char) (lines : List (Nat × LogEntry)) :
    readLines ((linesText lines ++ text).splitOn '\n') =
      (lines.map LogLine.of ++ (readLines (text.splitOn '\n')).1,
        (readLines (text.splitOn '\n')).2) := by
  induction lines with
  | nil => rfl
  | cons line lines ih =>
    have htext : linesText (line :: lines) = formatRecord line.1 line.2 ++ linesText lines := rfl
    rw [htext, List.append_assoc, splitOn_formatRecord, readLines, readLine_recordFields]
    simp only [ih]
    rfl

/-- Reading stops at a line that is no record. -/
theorem readLines_of_none {s : List Char} (h : readLine s = none) (rest : List (List Char)) :
    readLines (s :: rest) = ([], s :: rest) := by
  rw [readLines, h]

/-! ## The sentinel -/

/-- A sentinel line, without its newline. -/
def sentinelFields (o n f : Nat) : List (List Char) := [formatDec o, formatDec n, formatDec f]

theorem notMem_sentinelFields {c : Char} (hc : digitValue c = none) (o n f : Nat) :
    ∀ s ∈ sentinelFields o n f, c ∉ s := by
  simp only [sentinelFields, List.forall_mem_cons]
  exact ⟨notMem_formatDec hc _, notMem_formatDec hc _, notMem_formatDec hc _, by simp⟩

theorem splitOn_sentinelFields (o n f : Nat) :
    ([','].intercalate (sentinelFields o n f)).splitOn ',' = sentinelFields o n f :=
  List.splitOn_intercalate ',' (notMem_sentinelFields (by decide) o n f) (List.cons_ne_nil _ _)

/-- The lines of the sentinel. -/
theorem splitOn_sentinelText (o n f : Nat) :
    (sentinelText o n f).splitOn '\n' =
      [[','].intercalate (sentinelFields o n f), ['E', 'O', 'F'], []] := by
  have htext : sentinelText o n f =
      [','].intercalate (sentinelFields o n f) ++ '\n' :: ['E', 'O', 'F', '\n'] := by
    simp [sentinelText, sentinelFields, List.intercalate]
  have hnewline : '\n' ∉ [','].intercalate (sentinelFields o n f) :=
    notMem_intercalate (by decide) (notMem_sentinelFields (by decide) o n f)
  rw [htext, List.splitOn_append_cons_self_of_not_mem hnewline]
  rfl

/-- A sentinel is no record: it has three numbers. -/
theorem readLine_sentinel (o n f : Nat) :
    readLine ([','].intercalate (sentinelFields o n f)) = none := by
  unfold readLine
  rw [splitOn_sentinelFields]
  rfl

theorem readSentinel_sentinelFields (lines : List LogLine) (o n f : Nat) :
    readSentinel lines ([','].intercalate (sentinelFields o n f)) = some ⟨lines, o, n, f⟩ := by
  unfold readSentinel
  rw [splitOn_sentinelFields]
  simp only [sentinelFields, readField_formatDec]
  rfl

/-! ## The page -/

/-- A page that ends with the sentinel reads back. -/
theorem readPage_whole (lines : List (Nat × LogEntry)) (o n f : Nat) :
    readPage (linesText lines ++ sentinelText o n f) = some ⟨lines.map LogLine.of, o, n, f⟩ := by
  unfold readPage
  rw [readLines_linesText, splitOn_sentinelText, readLines_of_none (readLine_sentinel o n f),
    List.append_nil]
  exact readSentinel_sentinelFields _ o n f

/-- The beginning of a line, with an ellipsis, is no record. -/
theorem readPage_cut (lines : List (Nat × LogEntry)) (line : Nat × LogEntry) {start : List Char}
    (hstart : start <+: formatRecord line.1 line.2) (hne : start ≠ formatRecord line.1 line.2)
    (o n f : Nat) :
    readPage (linesText lines ++ (start ++ ['.', '.', '.', '\n']) ++ sentinelText o n f) =
      some ⟨lines.map LogLine.of, o, n, f⟩ := by
  -- what is there of the line does not reach its newline
  have hnewline : '\n' ∉ start ++ ['.', '.', '.'] := by
    rw [formatRecord_eq] at hstart hne
    rcases List.prefix_concat_iff.mp hstart with heq | hprefix
    · exact absurd heq hne
    · rw [List.mem_append, not_or]
      exact ⟨fun hmem => newline_notMem _ _ (List.IsPrefix.subset hprefix hmem), by decide⟩
  have hpart : readLine (start ++ ['.', '.', '.']) = none :=
    readLine_eq_none (c := '.') (by simp) (by decide) (by decide)
  have htext : start ++ ['.', '.', '.', '\n'] ++ sentinelText o n f =
      start ++ ['.', '.', '.'] ++ '\n' :: sentinelText o n f := by simp
  unfold readPage
  rw [List.append_assoc, readLines_linesText, htext,
    List.splitOn_append_cons_self_of_not_mem hnewline, splitOn_sentinelText,
    readLines_of_none hpart, List.append_nil]
  exact readSentinel_sentinelFields _ o n f

/-- The page holds the lines written in full, and perhaps the beginning of one more. -/
inductive PageText (d : DumpState) : Prop
  | whole (hpage : d.configfsPage = linesText d.lines)
  | cut (line : Nat × LogEntry) (start : List Char) (hfull : d.full = true)
      (hstart : start <+: formatRecord line.1 line.2) (hne : start ≠ formatRecord line.1 line.2)
      (hpage : d.configfsPage = linesText d.lines ++ (start ++ ['.', '.', '.', '\n']))

theorem PageText.of_not_full {d : DumpState} (h : PageText d) (hfull : d.full = false) :
    d.configfsPage = linesText d.lines := by
  cases h with
  | whole hpage => exact hpage
  | cut _ _ hfull' => exact absurd (hfull'.symm.trans hfull) (by decide)

/-- The records of one CPU. -/
theorem dumpRecords_text {cpuIndex : Nat} (hcpu : cpuIndex < 2 ^ 32) :
    ∀ (results : List LogEntry) {d d' : DumpState}, d.configfsPage = linesText d.lines →
      d.configfsPage.length < maxConfigfsPageSize - 1 →
      dumpRecords cpuIndex results d = some d' → PageText d'
  | [], d, d', hpage, _, hd' => by
    cases hd'
    exact .whole hpage
  | e :: rest, d, d', hpage, hroom, hd' => by
    have hput : (d.put cpuIndex e).configfsPage = linesText (d.put cpuIndex e).lines := by
      unfold DumpState.put
      simp only
      rw [linesText_concat, hpage]
    rw [dumpRecords_cons hcpu e rest hroom] at hd'
    split at hd'
    · rename_i hnext
      exact dumpRecords_text hcpu rest
        (d := { d.put cpuIndex e with full := false, numOfLogsDumped := d.numOfLogsDumped + 1 })
        hput hnext hd'
    · rename_i hfilled
      split at hd'
      · cases hd'
        exact .whole hput
      · rename_i hover
        cases hd'
        have hcut : d.configfsPage ++ (formatRecord cpuIndex e).take
              (maxConfigfsPageSize - 1 - d.configfsPage.length) ++ ['.', '.', '.', '\n'] =
            linesText d.lines ++ ((formatRecord cpuIndex e).take
              (maxConfigfsPageSize - 1 - d.configfsPage.length) ++ ['.', '.', '.', '\n']) := by
          rw [← hpage, List.append_assoc]
        refine .cut (cpuIndex, e) _ rfl (List.take_prefix _ _) (fun hwhole => ?_) hcut
        -- the line is longer than what is left of the page
        have hlen := congrArg List.length hwhole
        have hlong : (d.put cpuIndex e).configfsPage.length =
            d.configfsPage.length + (formatRecord cpuIndex e).length := List.length_append
        simp only [List.length_take] at hlen
        omega

/-- The CPU loop. -/
theorem dumpCpus_text (area : LogArea) :
    ∀ (count cpuIndex : Nat) {d d' : DumpState}, cpuIndex + count ≤ 2 ^ 32 → d.full = false →
      d.configfsPage = linesText d.lines →
      d.configfsPage.length < maxConfigfsPageSize - 1 →
      dumpCpus area count cpuIndex d = some d' → PageText d'
  | 0, _, d, d', _, _, hpage, _, hd' => by
    cases hd'
    exact .whole hpage
  | count + 1, cpuIndex, d, d', hcpus, hfull, hpage, hroom, hd' => by
    have hcpu : cpuIndex < 2 ^ 32 := by omega
    obtain ⟨d₁, hd₁, hout⟩ := dumpCpu_cases hcpu area hfull hroom
    have htext : PageText d₁ := by
      rw [dumpCpu_eq] at hd₁
      exact dumpRecords_text hcpu _ (d := d.resumeAtHead area cpuIndex) hpage hroom hd₁
    unfold dumpCpus at hd'
    simp only [hd₁] at hd'
    by_cases hfull₁ : d₁.full = true
    · rw [if_pos hfull₁] at hd'
      cases hd'
      exact htext
    · rw [if_neg hfull₁] at hd'
      cases hout with
      | cut _ _ _ _ hfull' => exact absurd hfull' hfull₁
      | exact _ _ _ _ hfull' => exact absurd hfull' hfull₁
      | all hfull' _ hroom₁ =>
        exact dumpCpus_text area count (cpuIndex + 1) (by omega) hfull'
          (htext.of_not_full hfull') hroom₁ hd'

/-- The page with its sentinel reads back. -/
theorem PageText.readPage {d : DumpState} (h : PageText d)
    (hlen : d.configfsPage.length ≤ 4030) :
    readPage d.finish = some ⟨d.lines.map LogLine.of, d.configfsPage.length,
      d.numOfLogsDumped.toNat, d.full.toNat⟩ := by
  rw [DumpState.finish_eq hlen]
  cases h with
  | whole hpage =>
    rw [hpage]
    exact readPage_whole d.lines _ _ _
  | cut line start _ hstart hne hpage =>
    rw [hpage]
    exact readPage_cut d.lines line hstart hne _ _ _

/-- What `dump_log` writes reads back. -/
theorem readPage_finish {numOfCpus : U32} {logRecordSeqNum : Nat → U64} {area : LogArea}
    {d : DumpState}
    (hd : dumpCpus area numOfCpus.toNat 0 (.start logRecordSeqNum) = some d) :
    readPage d.finish = some ⟨d.lines.map LogLine.of, d.configfsPage.length,
      d.numOfLogsDumped.toNat, d.full.toNat⟩ := by
  have hcpus : 0 + numOfCpus.toNat ≤ 2 ^ 32 := by
    have := numOfCpus.isLt
    omega
  have hempty : (DumpState.start logRecordSeqNum).Open [] :=
    ⟨rfl, rfl, show 0 < maxConfigfsPageSize - 1 by decide, rfl⟩
  obtain ⟨d', hd', hout⟩ := dumpCpus_page area numOfCpus.toNat 0 hcpus hempty
  rw [hd, Option.some_inj] at hd'
  subst hd'
  exact (dumpCpus_text area numOfCpus.toNat 0 hcpus rfl rfl hempty.room hd).readPage hout.length_le

/-- **A dump page reads back.** Whatever the log area holds and wherever the CPUs resume, a reader
of the page gets the numbers of exactly the records that were written in full, in their order, and
the three numbers that `dump_log` ends with. -/
theorem readPage_dumpLog (numOfCpus : U32) (logRecordSeqNum : Nat → U64) (area : LogArea)
    (isLoggingRunning : Bool) :
    ∃ r d, dumpLog (true, true) ⟨numOfCpus, .live logRecordSeqNum, .live area, isLoggingRunning⟩ =
        some r ∧
      dumpCpus area numOfCpus.toNat 0 (.start logRecordSeqNum) = some d ∧ r.lines = d.lines ∧
      readPage r.configfsPage = some ⟨r.lines.map LogLine.of, d.configfsPage.length,
        d.numOfLogsDumped.toNat, d.full.toNat⟩ := by
  obtain ⟨r, d, hr, hd, hpage, -⟩ := dumpLog_page numOfCpus logRecordSeqNum area isLoggingRunning
  have hlines : r.lines = d.lines := by
    unfold dumpLog at hr
    simp only [hd] at hr
    cases hr
    rfl
  refine ⟨r, d, hr, hd, hlines, ?_⟩
  rw [hpage, hlines]
  exact readPage_finish hd

end IkgtUsage
