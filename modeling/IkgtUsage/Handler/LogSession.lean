import IkgtUsage.Lib.Run
import IkgtUsage.Handler.Frame
import IkgtUsage.Handler.LogPages

/-!
# The log session over starts, restarts and stops

`start_log` stores the address and the size of the message before the translations that may fail,
and puts the new pages to `PERMISSION_READ` without a look at the session that may be open.
`stop_log` lifts the permissions of the range it finds in these globals. `LogSessionOk` says that
globals and page permissions agree. A run of calls keeps it, and the calls that return early change
nothing, if and only if every `start_log` is `Harmless` in the state it is made in
(`log_session_iff`).
-/

namespace IkgtUsage

open Framework Lib

/-! ## Sessions -/

/-- The translations of the framework: guest virtual to guest physical, and guest physical to host
virtual in a view. -/
structure Translations where
  gvaToGpa : U64 → U64
  gpaToHva : U32 → U64 → U64

/-- The host translation of a guest address; `NULL` is `none`. -/
def Translations.hva (tr : Translations) (viewHandle : U32) (gva : U64) : Option U64 :=
  let hva := tr.gpaToHva viewHandle (tr.gvaToGpa gva)
  if hva = 0 then none else some hva

namespace HandlerState

/-- A page of `[g_log_gva, g_log_gva + g_log_size)`. -/
def IsLogPage (s : HandlerState) (page : U64) : Prop :=
  InPages s.gLogGva (pagesOf s.gLogSize) page

/-- A page that is left with `PERMISSION_READ`. -/
def Restricted (s : HandlerState) (page : U64) : Prop :=
  pagePermission page s.fw.calls = some permissionRead

instance (s : HandlerState) (page : U64) : Decidable (s.Restricted page) :=
  inferInstanceAs (Decidable (_ = _))

end HandlerState

/-- The globals and the page permissions agree. -/
structure LogSessionOk (tr : Translations) (s : HandlerState) : Prop where
  translated : s.gLogDataHva ≠ none →
    ∃ viewHandle, s.gLogDataHva = tr.hva viewHandle s.gLogGva
  opened : s.gLogDataHva ≠ none → ∀ page, s.Restricted page ↔ s.IsLogPage page
  closed : s.gLogDataHva = none → ∀ page, ¬ s.Restricted page

/-- A call of `start_log` or `stop_log`, with what the outside does during it. -/
inductive SessionCall
  | start (viewHandle : U32) (msg : LogMessage) (env : Surroundings)
  | stop (env : Surroundings)

/-- One call. -/
def sessionStep (s : HandlerState) : SessionCall → HandlerState
  | .start viewHandle msg env => startLog viewHandle msg (s.entered env)
  | .stop env => stopLog (s.entered env)

/-- Both translations of `start_log` succeed: they are its first two requests. -/
def Surroundings.Translates (env : Surroundings) : Prop :=
  env.outcome 0 = .success ∧ env.outcome 1 = .success

instance (env : Surroundings) : Decidable env.Translates :=
  inferInstanceAs (Decidable (_ ∧ _))

/-- The address is that of a page, translations are those of `tr`, and the requests of the page
permission updates succeed. The two translations of `start_log` may fail. -/
def SessionCall.Admitted (tr : Translations) : SessionCall → Prop
  | start _ msg env => msg.logAddr.toNat % page4KB = 0 ∧ env.gvaToGpa = tr.gvaToGpa ∧
      env.gpaToHva = tr.gpaToHva ∧ ∀ n, 2 ≤ n → env.outcome n = .success
  | stop env => ∀ n, env.outcome n = .success

/-- A `start_log` that returns early leaves the session globals alone. -/
def EarlyReturnKeeps (s : HandlerState) : SessionCall → Prop
  | .start viewHandle msg env =>
    msg.logAddr = 0 ∨ ¬ env.Translates →
      let s' := sessionStep s (.start viewHandle msg env)
      s'.gLogGva = s.gLogGva ∧ s'.gLogSize = s.gLogSize ∧ s'.gLogDataHva = s.gLogDataHva
  | .stop _ => True

/-- What a call should come to. -/
def KeepsSession (tr : Translations) (s : HandlerState) (call : SessionCall) : Prop :=
  LogSessionOk tr (sessionStep s call) ∧ EarlyReturnKeeps s call

/-- The message takes effect as a whole or brings nothing new. A `start_log` that goes through
covers the pages of the session that is open, and does not restrict any page without a host
address; one that fails says the address and the size that are stored. -/
def Harmless (tr : Translations) (s : HandlerState) : SessionCall → Prop
  | .start viewHandle msg env =>
    msg.logAddr = 0 ∨
      if env.Translates then
        (s.gLogDataHva ≠ none → ∀ page, s.IsLogPage page →
            InPages msg.logAddr (pagesOf msg.logSize) page) ∧
          (tr.hva viewHandle msg.logAddr = none → msg.logSize = 0)
      else msg.logAddr = s.gLogGva ∧ msg.logSize = s.gLogSize
  | .stop _ => True

/-! ## What the calls do -/

section

variable {tr : Translations} {s : HandlerState} {viewHandle : U32} {msg : LogMessage}
  {env : Surroundings}

theorem sessionStep_start_null (s : HandlerState) (viewHandle : U32) (env : Surroundings)
    (h : msg.logAddr = 0) :
    sessionStep s (.start viewHandle msg env) = s.entered env := if_pos h

/-- A translation fails: the address and the size are stored all the same. -/
theorem sessionStep_start_fails (s : HandlerState) (viewHandle : U32) (haddr : msg.logAddr ≠ 0)
    (hfails : ¬ env.Translates) :
    ∃ fw, sessionStep s (.start viewHandle msg env) =
        { s.entered env with gLogGva := msg.logAddr, gLogSize := msg.logSize, fw := fw } ∧
      fw.calls = s.fw.calls ∧ fw.addrinfoMaxCount = s.fw.addrinfoMaxCount := by
  change ∃ fw, startLog viewHandle msg (s.entered env) = _ ∧ _
  unfold startLog
  rw [if_neg haddr]
  simp only
  by_cases hgpa : (s.entered env).fw.nextOutcome = .success
  · have hhva : (s.entered env).fw.tick.nextOutcome ≠ .success := fun h => hfails ⟨hgpa, h⟩
    rw [if_neg (not_not_intro hgpa), if_pos hhva]
    exact ⟨_, rfl, rfl, rfl⟩
  · rw [if_pos hgpa]
    exact ⟨_, rfl, rfl, rfl⟩

/-- The translations succeed. -/
theorem sessionStep_start_succeeds
    (hadm : (SessionCall.start viewHandle msg env).Admitted tr)
    (hmax : s.fw.addrinfoMaxCount * page4KB + (page4KB - 1) < 2 ^ 32)
    (haddr : msg.logAddr ≠ 0) (htr : env.Translates) :
    ∃ fw, sessionStep s (.start viewHandle msg env) =
        { s.entered env with
          gLogGva := msg.logAddr
          gLogSize := msg.logSize
          gLogDataHva := tr.hva viewHandle msg.logAddr
          fw := fw } ∧
      fw.addrinfoMaxCount = s.fw.addrinfoMaxCount ∧
      (∀ page, InPages msg.logAddr (pagesOf msg.logSize) page →
        pagePermission page fw.calls = some permissionRead) ∧
      ∀ page, ¬ InPages msg.logAddr (pagesOf msg.logSize) page →
        pagePermission page fw.calls = pagePermission page s.fw.calls := by
  obtain ⟨halign, hgpa, hhva, hall⟩ := hadm
  have hupd := updates_utilMonitorMemoryEx msg.logSize permissionRead
    (s.entered env).fw.tick.tick hall halign hmax
  refine ⟨_, ?_, hupd.addrinfoMaxCount, hupd.updated, hupd.kept⟩
  have h0 : ¬ (s.entered env).fw.nextOutcome ≠ .success := not_not_intro htr.1
  have h1 : ¬ (s.entered env).fw.tick.nextOutcome ≠ .success := not_not_intro htr.2
  change startLog viewHandle msg (s.entered env) = _
  unfold startLog Translations.hva
  rw [if_neg haddr]
  simp only
  rw [if_neg h0, if_neg h1, ← hgpa, ← hhva]
  rfl

theorem sessionStep_stop_none (h : s.gLogDataHva = none) :
    sessionStep s (.stop env) = s.entered env := by
  have h' : (s.entered env).gLogDataHva = none := h
  change stopLog (s.entered env) = _
  unfold stopLog
  rw [h']

/-- The session ends, and the range of the globals is lifted. -/
theorem sessionStep_stop_some (hopen : s.gLogDataHva ≠ none) (hgva : s.gLogGva ≠ 0)
    (halign : s.gLogGva.toNat % page4KB = 0) (hall : ∀ n, env.outcome n = .success)
    (hmax : s.fw.addrinfoMaxCount * page4KB + (page4KB - 1) < 2 ^ 32) :
    ∃ fw, sessionStep s (.stop env) = { s.entered env with gLogDataHva := none, fw := fw } ∧
      fw.addrinfoMaxCount = s.fw.addrinfoMaxCount ∧
      (∀ page, s.IsLogPage page → pagePermission page fw.calls = some permissionRwx) ∧
      ∀ page, ¬ s.IsLogPage page →
        pagePermission page fw.calls = pagePermission page s.fw.calls := by
  have hupd := updates_utilMonitorMemoryEx s.gLogSize permissionRwx
    (s.entered env).fw (fun n _ => hall n) halign hmax
  refine ⟨_, ?_, hupd.addrinfoMaxCount, hupd.updated, hupd.kept⟩
  obtain ⟨hva, hsome⟩ := Option.ne_none_iff_exists'.mp hopen
  have hsome' : (s.entered env).gLogDataHva = some hva := hsome
  have hgva' : (s.entered env).gLogGva ≠ 0 := hgva
  change stopLog (s.entered env) = _
  unfold stopLog
  rw [hsome']
  simp only [if_pos hgva']
  rfl

end

/-! ## The invariant -/

/-- A consistent session in a framework whose updates fit into 32 bits. -/
structure SessionInv (tr : Translations) (s : HandlerState) : Prop where
  ok : LogSessionOk tr s
  gva : s.gLogDataHva ≠ none → s.gLogGva ≠ 0 ∧ s.gLogGva.toNat % page4KB = 0
  max : s.fw.addrinfoMaxCount * page4KB + (page4KB - 1) < 2 ^ 32

section

variable {tr : Translations} {s : HandlerState} {viewHandle : U32} {msg : LogMessage}
  {env : Surroundings}

theorem LogSessionOk.restricted_iff (h : LogSessionOk tr s) (page : U64) :
    s.Restricted page ↔ s.gLogDataHva ≠ none ∧ s.IsLogPage page := by
  by_cases hopen : s.gLogDataHva = none
  · exact ⟨fun hpage => absurd hpage (h.closed hopen page), fun hpage => absurd hopen hpage.1⟩
  · rw [h.opened hopen page]
    exact ⟨fun hpage => ⟨hopen, hpage⟩, And.right⟩

/-- Entering a call changes nothing that the invariant speaks of. -/
theorem SessionInv.entered (h : SessionInv tr s) : SessionInv tr (s.entered env) :=
  ⟨⟨h.ok.translated, h.ok.opened, h.ok.closed⟩, h.gva, h.max⟩

theorem pagesOf_pos {size : U32} (h : size ≠ 0) : 0 < pagesOf size := by
  have hpos : size.toNat ≠ 0 := fun hzero => h (BitVec.eq_of_toNat_eq hzero)
  unfold pagesOf page4KB
  omega

/-- A `start_log` whose translations fail keeps the session exactly if it says what is stored. -/
theorem keepsSession_start_fails (viewHandle : U32) (hinv : SessionInv tr s)
    (haddr : msg.logAddr ≠ 0) (hfails : ¬ env.Translates) :
    (KeepsSession tr s (.start viewHandle msg env) ↔
        msg.logAddr = s.gLogGva ∧ msg.logSize = s.gLogSize) ∧
      (KeepsSession tr s (.start viewHandle msg env) →
        SessionInv tr (sessionStep s (.start viewHandle msg env))) := by
  obtain ⟨fw, heq, hcalls, hcount⟩ :=
    sessionStep_start_fails s viewHandle haddr hfails
  have hstored : KeepsSession tr s (.start viewHandle msg env) →
      msg.logAddr = s.gLogGva ∧ msg.logSize = s.gLogSize := by
    rintro ⟨-, hkeeps⟩
    obtain ⟨hgva, hsize, -⟩ := hkeeps (Or.inr hfails)
    rw [heq] at hgva hsize
    exact ⟨hgva, hsize⟩
  have hsame : msg.logAddr = s.gLogGva ∧ msg.logSize = s.gLogSize →
      SessionInv tr (sessionStep s (.start viewHandle msg env)) := by
    rintro ⟨hgva, hsize⟩
    rw [heq, hgva, hsize]
    refine ⟨⟨hinv.ok.translated, fun hopen page => ?_, fun hclosed page => ?_⟩, hinv.gva, ?_⟩
    · rw [HandlerState.Restricted, hcalls]
      exact hinv.ok.opened hopen page
    · rw [HandlerState.Restricted, hcalls]
      exact hinv.ok.closed hclosed page
    · rw [hcount]
      exact hinv.max
  refine ⟨⟨hstored, fun hsaid => ⟨(hsame hsaid).ok, fun _ => ?_⟩⟩, fun h => hsame (hstored h)⟩
  simp only [heq]
  exact ⟨hsaid.1, hsaid.2, rfl⟩

/-- The pages after a `start_log` whose translations succeed: those of its range are restricted, and
no page is lifted. -/
theorem restricted_start_succeeds (hinv : SessionInv tr s)
    (hadm : (SessionCall.start viewHandle msg env).Admitted tr) (haddr : msg.logAddr ≠ 0)
    (htr : env.Translates) (page : U64) :
    (sessionStep s (.start viewHandle msg env)).Restricted page ↔
      InPages msg.logAddr (pagesOf msg.logSize) page ∨ s.Restricted page := by
  obtain ⟨fw, heq, -, hnew, hold⟩ := sessionStep_start_succeeds hadm hinv.max haddr htr
  rw [heq, HandlerState.Restricted]
  by_cases hpage : InPages msg.logAddr (pagesOf msg.logSize) page
  · exact ⟨fun _ => Or.inl hpage, fun _ => hnew page hpage⟩
  · rw [hold page hpage]
    exact ⟨Or.inr, fun h => h.resolve_left hpage⟩

/-- A range that covers the pages of the old session, and is empty where it has no host address. -/
theorem logSessionOk_start_succeeds (hinv : SessionInv tr s)
    (hadm : (SessionCall.start viewHandle msg env).Admitted tr) (haddr : msg.logAddr ≠ 0)
    (htr : env.Translates)
    (hcover : s.gLogDataHva ≠ none → ∀ page, s.IsLogPage page →
      InPages msg.logAddr (pagesOf msg.logSize) page)
    (hnull : tr.hva viewHandle msg.logAddr = none → msg.logSize = 0) :
    LogSessionOk tr (sessionStep s (.start viewHandle msg env)) := by
  have hrestricted := restricted_start_succeeds hinv hadm haddr htr
  obtain ⟨fw, heq, -⟩ := sessionStep_start_succeeds hadm hinv.max haddr htr
  have hcovered (page : U64) (hpage : InPages msg.logAddr (pagesOf msg.logSize) page ∨
      s.Restricted page) : InPages msg.logAddr (pagesOf msg.logSize) page := by
    rw [hinv.ok.restricted_iff] at hpage
    exact hpage.elim id fun hpage => hcover hpage.1 page hpage.2
  refine ⟨fun _ => ⟨viewHandle, by rw [heq]⟩, fun _ page => ?_, fun hclosed page hpage => ?_⟩
  · rw [hrestricted]
    exact ⟨fun hpage => by rw [heq]; exact hcovered page hpage,
      fun hpage => Or.inl (by rw [heq] at hpage; exact hpage)⟩
  · rw [heq] at hclosed
    have hempty : pagesOf msg.logSize = 0 := by
      rw [hnull hclosed]
      rfl
    have hin := hcovered page ((hrestricted page).mp hpage)
    rw [hempty] at hin
    exact not_inPages_zero _ _ hin

/-- A `start_log` whose translations succeed keeps the session exactly if its range covers the
pages of the old one, and is empty where it has no host address. -/
theorem keepsSession_start_succeeds (hinv : SessionInv tr s)
    (hadm : (SessionCall.start viewHandle msg env).Admitted tr) (haddr : msg.logAddr ≠ 0)
    (htr : env.Translates) :
    (KeepsSession tr s (.start viewHandle msg env) ↔
        (s.gLogDataHva ≠ none → ∀ page, s.IsLogPage page →
            InPages msg.logAddr (pagesOf msg.logSize) page) ∧
          (tr.hva viewHandle msg.logAddr = none → msg.logSize = 0)) ∧
      (KeepsSession tr s (.start viewHandle msg env) →
        SessionInv tr (sessionStep s (.start viewHandle msg env))) := by
  have hrestricted := restricted_start_succeeds hinv hadm haddr htr
  obtain ⟨fw, heq, hcount, -, -⟩ := sessionStep_start_succeeds hadm hinv.max haddr htr
  have hkeeps : EarlyReturnKeeps s (.start viewHandle msg env) := fun h =>
    absurd (h.resolve_left haddr) (not_not_intro htr)
  refine ⟨⟨fun h => ⟨fun hopen page hpage => ?_, fun hnull => ?_⟩, fun h =>
    ⟨logSessionOk_start_succeeds hinv hadm haddr htr h.1 h.2, hkeeps⟩⟩,
    fun h => ⟨h.1, fun _ => ?_, ?_⟩⟩
  · -- a page of the old session is still restricted, so it is one of the new range
    have hstill := (hrestricted page).mpr (Or.inr ((hinv.ok.opened hopen page).mpr hpage))
    by_cases hclosed : (sessionStep s (.start viewHandle msg env)).gLogDataHva = none
    · exact absurd hstill (h.1.closed hclosed page)
    · have hlog := (h.1.opened hclosed page).mp hstill
      rwa [heq] at hlog
  · -- the first page of the range would be restricted without a session
    by_contra hsize
    have hfirst : InPages msg.logAddr (pagesOf msg.logSize) msg.logAddr :=
      ⟨0, pagesOf_pos hsize, by simp⟩
    refine h.1.closed ?_ _ ((hrestricted _).mpr (Or.inl hfirst))
    rw [heq]
    exact hnull
  · rw [heq]
    exact ⟨haddr, hadm.1⟩
  · rw [heq]
    exact hcount ▸ hinv.max

/-- `stop_log` ends the session and lifts its pages. -/
theorem sessionInv_stop (hinv : SessionInv tr s) (hall : ∀ n, env.outcome n = .success) :
    SessionInv tr (sessionStep s (.stop env)) := by
  by_cases hopen : s.gLogDataHva = none
  · rw [sessionStep_stop_none hopen]
    exact hinv.entered
  · obtain ⟨hgva, halign⟩ := hinv.gva hopen
    obtain ⟨fw, heq, hcount, hlifted, hkept⟩ :=
      sessionStep_stop_some hopen hgva halign hall hinv.max
    rw [heq]
    refine ⟨⟨fun h => absurd rfl h, fun h => absurd rfl h, fun _ page hpage => ?_⟩,
      fun h => absurd rfl h, hcount ▸ hinv.max⟩
    rw [HandlerState.Restricted] at hpage
    by_cases hlog : s.IsLogPage page
    · have hboth := (hlifted page hlog).symm.trans hpage
      exact absurd hboth (by decide)
    · rw [hkept page hlog] at hpage
      exact hlog ((hinv.ok.opened hopen page).mp hpage)

/-- **One call.** It keeps the session exactly if it is harmless. -/
theorem keepsSession_iff (hinv : SessionInv tr s) {call : SessionCall} (hadm : call.Admitted tr) :
    (KeepsSession tr s call ↔ Harmless tr s call) ∧
      (KeepsSession tr s call → SessionInv tr (sessionStep s call)) := by
  cases call with
  | stop env =>
    have hnext := sessionInv_stop hinv hadm
    exact ⟨⟨fun _ => trivial, fun _ => ⟨hnext.ok, trivial⟩⟩, fun _ => hnext⟩
  | start viewHandle msg env =>
    by_cases haddr : msg.logAddr = 0
    · have heq := sessionStep_start_null s viewHandle env haddr
      have hnext : SessionInv tr (sessionStep s (.start viewHandle msg env)) := by
        rw [heq]
        exact hinv.entered
      refine ⟨⟨fun _ => Or.inl haddr, fun _ => ⟨hnext.ok, fun _ => ?_⟩⟩, fun _ => hnext⟩
      simp only [heq]
      exact ⟨rfl, rfl, rfl⟩
    · by_cases htr : env.Translates
      · obtain ⟨hiff, hnext⟩ := keepsSession_start_succeeds hinv hadm haddr htr
        refine ⟨hiff.trans ?_, hnext⟩
        rw [Harmless, or_iff_right haddr, if_pos htr]
      · obtain ⟨hiff, hnext⟩ :=
          keepsSession_start_fails viewHandle hinv haddr htr
        refine ⟨hiff.trans ?_, hnext⟩
        rw [Harmless, or_iff_right haddr, if_neg htr]

end

/-- **When the log session stays consistent.** For every run of `start_log` and `stop_log` calls
from a state without a session and without a restricted page: every call leaves the globals and the
page permissions in agreement, and changes no global if it returns early, if and only if every
`start_log` is harmless in the state it is made in. -/
theorem log_session_iff {tr : Translations} {s : HandlerState} (hclosed : s.gLogDataHva = none)
    (hfree : ∀ page, ¬ s.Restricted page)
    (hmax : s.fw.addrinfoMaxCount * page4KB + (page4KB - 1) < 2 ^ 32) (calls : List SessionCall)
    (hadm : ∀ call ∈ calls, call.Admitted tr) :
    Steps sessionStep (KeepsSession tr) s calls ↔ Steps sessionStep (Harmless tr) s calls := by
  have hinv : SessionInv tr s :=
    ⟨⟨fun h => absurd hclosed h, fun h => absurd hclosed h, fun _ => hfree⟩,
      fun h => absurd hclosed h, hmax⟩
  have hsteps : Steps sessionStep (fun _ call => call.Admitted tr) s calls :=
    steps_of_forall (fun _ _ h => h) calls hadm
  refine steps_congr (SessionInv tr) ?_ ?_ calls hinv hsteps
  · exact fun _ _ hinv hadm => (keepsSession_iff hinv hadm).1
  · exact fun _ _ hinv hadm => (keepsSession_iff hinv hadm).2

/-- Addresses translate to themselves. -/
def Translations.identity : Translations := ⟨id, fun _ gpa => gpa⟩

/-- A start, a stop and a start elsewhere. -/
theorem log_session_iff_start_stop_start :
    let calls : List SessionCall :=
      [.start 0 ⟨0x1000, 0x2000⟩ .cooperative, .stop .cooperative,
        .start 0 ⟨0x8000, 0x1000⟩ .cooperative]
    Steps sessionStep (KeepsSession .identity) (.boot .atBoot) calls ↔
      Steps sessionStep (Harmless .identity) (.boot .atBoot) calls :=
  log_session_iff rfl (fun _ h => absurd h.symm (Option.some_ne_none _)) (by decide) _ (by
    simp only [List.mem_cons, List.not_mem_nil, or_false]
    rintro call (rfl | rfl | rfl)
    · exact ⟨rfl, rfl, rfl, fun _ _ => rfl⟩
    · exact fun _ => rfl
    · exact ⟨rfl, rfl, rfl, fun _ _ => rfl⟩)

/-- The first request fails. -/
def Surroundings.firstFails : Surroundings :=
  { Surroundings.cooperative with
    outcome := fun n => if n = 0 then .error else .success }

/-- **A failed start and a restart break the session.** A failed start after a session leaves its
address and size behind; a restart elsewhere leaves the old page restricted, and `stop_log` does
not lift it. -/
theorem session_left_inconsistent :
    let s := sessionStep (.boot .atBoot) (.start 0 ⟨0x1000, 1⟩ .cooperative)
    ¬ KeepsSession .identity s (.start 0 ⟨0x8000, 1⟩ .firstFails) ∧
      ¬ LogSessionOk .identity
        (run sessionStep s [.start 0 ⟨0x8000, 1⟩ .cooperative, .stop .cooperative]) := by
  intro s
  refine ⟨fun h => ?_, fun h => ?_⟩
  · obtain ⟨hgva, -, -⟩ := h.2 (Or.inr (by decide))
    exact absurd hgva (by decide +kernel)
  · exact h.closed rfl 0x1000 (by decide +kernel)

end IkgtUsage
