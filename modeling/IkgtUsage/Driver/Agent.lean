import IkgtUsage.Driver.Configfs
import IkgtUsage.Driver.DumpPage

/-!
# `driver/main.c`, `driver/debug.c`: the module as a whole

`init_agent` sets up the log, tells the handler about it and registers the configfs tree; in a debug
build it first registers a sysctl file. It returns `1` where the log or the message fails. The
kernel keeps a module whose `init` returns a positive number, so the sysctl file is there then all
the same, and the tree is not.

Two things can stop the driver, a `BUG_ON` and a pointer to no memory. After a load in which both
allocations succeed nothing does, whatever the user does and whatever stands in the log area; else
exactly a write of `1000` to the sysctl file does (`agent_stops_iff`).

Left out: `exit_agent`, after which no code of the module runs.
-/

namespace IkgtUsage

/-! ## Loading -/

/-- What the kernel and the hypervisor answer while the module is loaded. -/
structure LoadAnswers where
  /-- `num_online_cpus()`. -/
  numOnlineCpus : U32
  /-- The two allocations of `init_log`. -/
  allocated : Bool × Bool
  /-- The address of the log area, where it is allocated. -/
  logDataGva : U64
  logDataGva_ne_zero : logDataGva ≠ 0
  /-- What the stack holds where `init_agent` leaves `msg` uninitialised. -/
  stack : PolicyUpdateRec
  /-- `ikgt_hypercall` returns `SUCCESS`. -/
  delivered : Bool
  /-- `configfs_register_subsystem` succeeds. -/
  registered : Bool
  /-- `register_sysctl_table` succeeds. -/
  sysctl : Bool

/-- What the kernel and the hypervisor answer where nothing fails: one CPU, an area at `0x1000`. -/
def LoadAnswers.cooperative : LoadAnswers :=
  ⟨1, (true, true), 0x1000, by decide, ⟨0, 0, 0, 0, 0, ⟨0, 0, 0⟩⟩, true, true, true⟩

/-- The module: the globals of `log.c`, the configfs tree if it is registered, whether the sysctl
file is, and `ikgt_agent_debug`. -/
structure Agent where
  log : LogDriver
  configfs : Option Configfs
  sysctl : Bool
  ikgtAgentDebug : U32

/-- The POLICY_INIT_LOG message of `init_agent`. -/
def initLogMessage (stack : PolicyUpdateRec) (logAddr : U64) (logSize : U32) : PolicyMessage :=
  ⟨CommandCode.policyInitLog.code, 1, { stack with
    resourceId := logAddr.truncate 32
    rAction := (logAddr >>> 32).truncate 32
    wAction := logSize }⟩

/-- What `init_agent` leaves, sends and returns. -/
structure LoadResult where
  agent : Agent
  sent : Option PolicyMessage
  ret : Nat

/-- `init_agent`. -/
def initAgent (debug : Bool) (answers : LoadAnswers) : LoadResult :=
  -- init_debug
  let sysctl := debug && answers.sysctl
  let log := initLog answers.numOnlineCpus answers.allocated .atLoad
  let logAddr := if answers.allocated.1 && answers.allocated.2 then answers.logDataGva else 0
  if logAddr = 0 then ⟨⟨log, none, sysctl, 0⟩, none, 1⟩
  else
    let msg := initLogMessage answers.stack logAddr (logAreaSize answers.numOnlineCpus)
    if !answers.delivered then ⟨⟨log, none, sysctl, 0⟩, some msg, 1⟩
    else
      -- init_configfs_setup: a failure is printed and not returned
      ⟨⟨log, if answers.registered then some .empty else none, sysctl, 0⟩, some msg, 0⟩

/-! ## The sysctl file -/

/-- `kstrtoul_from_user(s, count, 0, &value)`: it looks at 66 bytes at most. -/
def kstrtoulFromUser (s : List Char) : Option U64 := kstrtoul (s.take 66) 0

/-- The message of `ikgt_debug`. -/
def debugMessage (stack : PolicyUpdateRec) (parameter : U64) : PolicyMessage :=
  ⟨CommandCode.policyDebug.code, 1, { stack with
    resourceId := parameter.truncate 32
    rAction := (parameter >>> 32).truncate 32 }⟩

/-- Two members of the union that hold the halves of a number. -/
theorem append_halves (x : U64) : (x >>> 32).truncate 32 ++ x.truncate 32 = x := by
  apply BitVec.eq_of_getLsbD_eq
  intro i hi
  rw [BitVec.getLsbD_append]
  by_cases hlow : i < 32
  · simp [hlow]
  · have hend : i - 32 < 32 := by omega
    have hsum : 32 + (i - 32) = i := by omega
    simp [hlow, hend, hsum]

/-- A store to `meta.test`: the second eight bytes of the union. -/
def LogEntry.withMetaTest (e : LogEntry) (test : U64) : LogEntry :=
  { e with reason := test.truncate 32, valid := (test >>> 32).truncate 32 }

/-- `test_log`: it stores into the buffer of the first CPU, wherever `log_data_gva` points. -/
def testLog (s : LogDriver) : Option LogDriver :=
  match s.logDataGva with
  | .live area =>
    let start := getCpuLogBufferStart 0
    some { s with
      logDataGva := .live (Function.update area start ((area start).withMetaTest 0x1698)) }
  | .null | .freed => none

/-- `%d`. -/
def formatInt (n : U32) : List Char :=
  if n.msb then '-' :: formatDec (-n).toNat else formatDec n.toNat

/-! ## What the module does -/

/-- The log area was written to. -/
def LogDriver.withArea (s : LogDriver) (area : LogArea) : LogDriver :=
  match s.logDataGva with
  | .live _ => { s with logDataGva := .live area }
  | .null | .freed => s

/-- What happens to the module: an operation in its configfs tree, a read of the `log.txt` in a
directory, a read from a position or a write of the sysctl file, or the handler and the guest write
to the log area. -/
inductive AgentOp
  | configfs (op : CfgOp)
  | readLog (dir : List Char) (allocated : Bool × Bool)
  | readSysctl (ppos : Nat)
  | writeSysctl (buffer : List Char) (stack : PolicyUpdateRec)
  | logArea (area : LogArea)

/-- The module after an operation, the message sent and the text read. -/
structure AgentResult where
  agent : Agent
  sent : Option PolicyMessage
  text : List Char

namespace Agent

/-- An operation that finds no file, or does nothing. -/
def idle (a : Agent) : AgentResult := ⟨a, none, []⟩

/-- `ikgt_systl_debug` on a write. -/
def ikgtSystlDebug (a : Agent) (buffer : List Char) (stack : PolicyUpdateRec) :
    Option AgentResult :=
  if buffer = [] then some a.idle
  else
    match kstrtoulFromUser buffer with
    | none => some a.idle
    | some val =>
      let a := { a with ikgtAgentDebug := val.truncate 32 }
      if val = 1000 then
        match testLog a.log with
        | none => none
        | some log => some ⟨{ a with log := log }, none, []⟩
      else some ⟨a, some (debugMessage stack val), []⟩

/-- One operation: `none` where it stops the driver. -/
def exec (a : Agent) : AgentOp → Option AgentResult
  | .configfs op =>
    match a.configfs with
    | none => some a.idle
    | some fs =>
      let result := fs.exec op
      some ⟨{ a with configfs := some result.fs }, result.sent, []⟩
  | .readLog dir allocated =>
    match a.configfs with
    | none => some a.idle
    | some fs =>
      if fs.groups.lookup dir = some .log then
        match dumpLog allocated a.log with
        | none => none
        | some result => some ⟨{ a with log := result.driver }, none, result.configfsPage⟩
      else some a.idle
  | .readSysctl ppos =>
    if a.sysctl ∧ ppos = 0 then some ⟨a, none, formatInt a.ikgtAgentDebug ++ ['\n']⟩
    else some a.idle
  | .writeSysctl buffer stack => if a.sysctl then a.ikgtSystlDebug buffer stack else some a.idle
  | .logArea area => some ⟨{ a with log := a.log.withArea area }, none, []⟩

/-- A run of operations: `none` where one of them stops the driver. -/
def execAll : Agent → List AgentOp → Option Agent
  | a, [] => some a
  | a, op :: ops =>
    match a.exec op with
    | none => none
    | some result => result.agent.execAll ops

end Agent

/-! ## What stops the driver -/

/-- Both pointers of the log are live. -/
def LogDriver.Live (s : LogDriver) : Prop :=
  ∃ seq area, s.logRecordSeqNum = .live seq ∧ s.logDataGva = .live area

/-- A dump with live pointers comes to an end, and they stay live. -/
theorem LogDriver.Live.dumpLog {s : LogDriver} (h : s.Live) (allocated : Bool × Bool) :
    ∃ r, dumpLog allocated s = some r ∧ r.driver.Live := by
  obtain ⟨seq, area, hseq, harea⟩ := h
  obtain ⟨numOfCpus, logRecordSeqNum, logDataGva, isLoggingRunning⟩ := s
  simp only at hseq harea
  subst hseq harea
  have hempty : (DumpState.start seq).Open [] :=
    ⟨rfl, rfl, show 0 < maxConfigfsPageSize - 1 by decide, rfl⟩
  obtain ⟨d, hd, -⟩ := dumpCpus_page area numOfCpus.toNat 0
    (by have := numOfCpus.isLt; omega) hempty
  unfold IkgtUsage.dumpLog
  simp only [hd]
  split
  · exact ⟨_, rfl, seq, area, rfl, rfl⟩
  · exact ⟨_, rfl, d.logRecordSeqNum, area, rfl, rfl⟩

/-- The invariant of the module. `allocated` says whether the log was set up. -/
structure AgentInv (allocated sysctl : Bool) (a : Agent) : Prop where
  sysctl : a.sysctl = sysctl
  live : allocated = true → a.log.Live
  null : allocated = false → a.log.logDataGva = .null ∧ a.configfs = none

/-- The operation writes `1000` to the sysctl file. -/
def AgentOp.TestsLog : AgentOp → Prop
  | writeSysctl buffer _ => kstrtoulFromUser buffer = some 1000
  | _ => False

namespace AgentInv

variable {allocated sysctl : Bool} {a : Agent}

/-- **The invariant after the load.** -/
theorem init (debug : Bool) (answers : LoadAnswers) :
    AgentInv (answers.allocated.1 && answers.allocated.2) (debug && answers.sysctl)
      (initAgent debug answers).agent := by
  have hgva := answers.logDataGva_ne_zero
  unfold initAgent initLog
  cases h1 : answers.allocated.1 with
  | false => exact ⟨by simp, fun h => by simp at h, fun _ => ⟨by simp [LogDriver.atLoad], by simp⟩⟩
  | true =>
    cases h2 : answers.allocated.2 with
    | false => exact ⟨by simp, fun h => by simp at h, fun _ => ⟨by simp, by simp⟩⟩
    | true =>
      simp only [Bool.and_true, if_true, if_neg hgva, Bool.not_true, Bool.false_eq_true, if_false]
      split
      · exact ⟨rfl, fun _ => ⟨_, _, rfl, rfl⟩, fun h => by cases h⟩
      · exact ⟨rfl, fun _ => ⟨_, _, rfl, rfl⟩, fun h => by cases h⟩

/-- **One operation**: it stops the driver, or keeps the invariant. -/
theorem exec (h : AgentInv allocated sysctl a) (op : AgentOp) :
    (a.exec op = none ↔ allocated = false ∧ sysctl = true ∧ op.TestsLog) ∧
      ∀ result, a.exec op = some result → AgentInv allocated sysctl result.agent := by
  have hidle : (some a.idle = none ↔ allocated = false ∧ sysctl = true ∧ False) ∧
      ∀ result, some a.idle = some result → AgentInv allocated sysctl result.agent := by
    refine ⟨by simp, ?_⟩
    rintro result ⟨⟩
    exact h
  cases op with
  | configfs op =>
    unfold Agent.exec
    cases hfs : a.configfs with
    | none => exact hidle
    | some fs =>
      refine ⟨by simp [AgentOp.TestsLog], ?_⟩
      rintro result ⟨⟩
      refine ⟨h.sysctl, h.live, fun hno => ?_⟩
      have hnone := (h.null hno).2
      rw [hfs] at hnone
      cases hnone
  | readLog dir allocations =>
    unfold Agent.exec
    cases hfs : a.configfs with
    | none => exact hidle
    | some fs =>
      -- the tree is registered only after the log was set up
      have hallocated : allocated = true := by
        by_contra hno
        rw [Bool.not_eq_true] at hno
        have hnone := (h.null hno).2
        rw [hfs] at hnone
        cases hnone
      obtain ⟨r, hr, hlive⟩ := (h.live hallocated).dumpLog allocations
      simp only [hr]
      split
      · refine ⟨by simp [AgentOp.TestsLog], ?_⟩
        rintro result ⟨⟩
        exact ⟨h.sysctl, fun _ => hlive, fun hno => absurd (hallocated.symm.trans hno) (by decide)⟩
      · exact hidle
  | readSysctl ppos =>
    unfold Agent.exec
    simp only
    split
    · refine ⟨by simp [AgentOp.TestsLog], ?_⟩
      rintro result ⟨⟩
      exact h
    · exact hidle
  | writeSysctl buffer stack =>
    unfold Agent.exec Agent.ikgtSystlDebug AgentOp.TestsLog
    simp only [h.sysctl]
    cases sysctl with
    | false => simpa using hidle
    | true =>
      simp only [if_true, true_and]
      by_cases hbuffer : buffer = []
      · subst hbuffer
        have hnone : kstrtoulFromUser [] = none := by decide
        simpa [hnone] using hidle
      rw [if_neg hbuffer]
      cases hval : kstrtoulFromUser buffer with
      | none => simpa using hidle
      | some val =>
        simp only [Option.some_inj]
        by_cases htest : val = 1000
        · rw [if_pos htest, and_iff_left htest]
          unfold testLog
          cases allocated with
          | false =>
            simp only [(h.null rfl).1]
            exact ⟨by simp, fun result hresult => by cases hresult⟩
          | true =>
            obtain ⟨seq, area, hseq, harea⟩ := h.live rfl
            simp only [harea]
            refine ⟨by simp, ?_⟩
            rintro result ⟨⟩
            exact ⟨rfl, fun _ => ⟨seq, _, hseq, rfl⟩, fun hno => by cases hno⟩
        · rw [if_neg htest]
          refine ⟨⟨fun hstops => absurd hstops (Option.some_ne_none _),
            fun htests => absurd htests.2 htest⟩, ?_⟩
          rintro result ⟨⟩
          exact ⟨rfl, h.live, h.null⟩
  | logArea area =>
    unfold Agent.exec
    refine ⟨by simp [AgentOp.TestsLog], ?_⟩
    rintro result ⟨⟩
    refine ⟨h.sysctl, fun hyes => ?_, fun hno => ?_⟩
    · obtain ⟨seq, old, hseq, harea⟩ := h.live hyes
      exact ⟨seq, area, by simp [LogDriver.withArea, harea, hseq], by
        simp [LogDriver.withArea, harea]⟩
    · obtain ⟨hnull, hnone⟩ := h.null hno
      exact ⟨by simp [LogDriver.withArea, hnull], hnone⟩

/-- **A run of operations.** -/
theorem execAll : ∀ (ops : List AgentOp) {a : Agent}, AgentInv allocated sysctl a →
    (a.execAll ops = none ↔ allocated = false ∧ sysctl = true ∧ ∃ op ∈ ops, op.TestsLog)
  | [], _, _ => by simp [Agent.execAll]
  | op :: ops, a, h => by
    obtain ⟨hstops, hnext⟩ := h.exec op
    unfold Agent.execAll
    cases hexec : a.exec op with
    | none =>
      obtain ⟨hno, hsysctl, htests⟩ := hstops.mp hexec
      exact ⟨fun _ => ⟨hno, hsysctl, op, List.mem_cons_self, htests⟩, fun _ => rfl⟩
    | some result =>
      have hgoes : ¬ (allocated = false ∧ sysctl = true ∧ op.TestsLog) := by
        rw [← hstops, hexec]
        exact Option.some_ne_none _
      simp only [execAll ops (hnext result hexec), List.exists_mem_cons_iff]
      refine and_congr_right fun hno => and_congr_right fun hsysctl => ?_
      exact (or_iff_right fun htests => hgoes ⟨hno, hsysctl, htests⟩).symm

end AgentInv

/-- **What stops the driver.** After any load, whatever operations follow in whatever order, with
whatever the handler and the guest write to the log area in between: the driver comes to a `BUG_ON`
or uses a pointer to no memory if and only if it is a debug build with its sysctl file, an
allocation of `init_log` had failed, and one of the operations writes `1000` to the file. -/
theorem agent_stops_iff (debug : Bool) (answers : LoadAnswers) (ops : List AgentOp) :
    (initAgent debug answers).agent.execAll ops = none ↔
      (answers.allocated.1 && answers.allocated.2) = false ∧ (debug && answers.sysctl) = true ∧
        ∃ op ∈ ops, op.TestsLog :=
  (AgentInv.init debug answers).execAll ops

end IkgtUsage
