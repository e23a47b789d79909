import IkgtUsage.Handler.ControlReg

/-!
# What the slot loop of a control register write computes

`crPolicyLoop` folds over the slots in order, flipping bits of a running value. On a table with
distinct ids its result has a description without a loop. A slot is `touched` when its bit differs
between the current and the new value: the access counts of exactly the touched slots go up
(`crPolicyLoop_slots`), the log flag is raised when one of them has LOG (`crPolicyLoop_log`), and
each bit of the value is decided by the one entry it belongs to (`crPolicyLoop_bit`).
-/

namespace IkgtUsage

open Lib

variable {k : ControlReg}

/-! ## Single bits -/

theorem twoPow_and_eq_zero_iff {n : Nat} (hn : n < 64) (x : U64) :
    BitVec.twoPow 64 n &&& x = 0 ↔ x.getLsbD n = false := by
  rw [BitVec.twoPow_and]
  cases hx : x.getLsbD n with
  | false => simp
  | true =>
    simp only [if_true, Bool.true_eq_false, iff_false]
    intro h
    have := congrArg (BitVec.getLsbD · n) h
    simp [hn] at this

theorem and_one_eq_zero_iff (x : U64) : x &&& 1 = 0 ↔ x.getLsbD 0 = false := by
  rw [BitVec.and_comm]
  exact twoPow_and_eq_zero_iff (n := 0) (by decide) x

/-- Flipping bit `n`. -/
theorem getLsbD_xor_twoPow {n : Nat} (hn : n < 64) (x : U64) (b : Nat) :
    (x ^^^ BitVec.twoPow 64 n).getLsbD b = if b = n then !x.getLsbD b else x.getLsbD b := by
  rw [BitVec.getLsbD_xor, BitVec.getLsbD_twoPow]
  by_cases hb : b = n
  · simp [hb, hn]
  · simp [hb, Ne.symm hb]

/-! ## One slot -/

/-- What an entry makes of a differing bit that the operand sets to `new`. -/
def PolicyEntry.filterBit (e : PolicyEntry) (new : Bool) : Bool :=
  if e.hasSticky then e.stickyVal.getLsbD 0
  else if e.wHasSkip then !new
  else new

/-- The slots `process_crx_policy` acts on: their bit is in `diff`. -/
def touched (k : ControlReg) (diff : U64) (e : PolicyEntry) : Bool :=
  e.resourceId ≠ resourceIdUnknown ∧ k.isEntry e = true ∧ k.resIdToMask e.resourceId &&& diff ≠ 0

@[simp] theorem processCrPolicy_diff (e : PolicyEntry) (ctx : PolicyCrCtx) :
    (processCrPolicy k e ctx).2.diff = ctx.diff := by
  unfold processCrPolicy
  simp only
  split_ifs <;> rfl

theorem processCrPolicy_entry (e : PolicyEntry) (ctx : PolicyCrCtx) :
    (processCrPolicy k e ctx).1 =
      if k.resIdToMask e.resourceId &&& ctx.diff = 0 then e else e.incAccessCount := by
  unfold processCrPolicy
  simp only
  split_ifs <;> rfl

theorem processCrPolicy_log (e : PolicyEntry) (ctx : PolicyCrCtx) :
    (processCrPolicy k e ctx).2.log =
      (ctx.log || (decide (k.resIdToMask e.resourceId &&& ctx.diff ≠ 0) && e.wHasLog)) := by
  unfold processCrPolicy
  simp only
  split_ifs <;> simp_all

/-- **One slot, bit by bit.** -/
theorem processCrPolicy_bit {e : PolicyEntry} (hentry : k.isEntry e = true) (ctx : PolicyCrCtx)
    (b : Nat) :
    (processCrPolicy k e ctx).2.newCrValue.getLsbD b =
      if k.BitOf b e.resourceId ∧ ctx.diff.getLsbD b = true then
        e.filterBit (ctx.newCrValue.getLsbD b)
      else ctx.newCrValue.getLsbD b := by
  obtain ⟨n, hn, hmask, hbit⟩ := ControlReg.exists_bitNo hentry
  have hnew : ctx.newCrValue &&& BitVec.twoPow 64 n = 0 ↔ ctx.newCrValue.getLsbD n = false := by
    rw [BitVec.and_comm]
    exact twoPow_and_eq_zero_iff hn _
  unfold processCrPolicy
  simp only [hmask, hbit, twoPow_and_eq_zero_iff hn, hnew, and_one_eq_zero_iff, ne_eq]
  by_cases hb : b = n
  · subst hb
    unfold PolicyEntry.filterBit
    cases ctx.diff.getLsbD b <;> cases e.hasSticky <;> cases e.wHasSkip <;> cases e.wHasLog <;>
      cases hv : ctx.newCrValue.getLsbD b <;> cases e.stickyVal.getLsbD 0 <;>
      simp [getLsbD_xor_twoPow hn, hv]
  · simp only [hb, false_and, if_false]
    split_ifs <;> simp [getLsbD_xor_twoPow hn, hb]

/-! ## The loop -/

/-- **The slots after the loop**: the access counts of the touched ones go up. -/
theorem crPolicyLoop_slots (slots : List PolicyEntry) (ctx : PolicyCrCtx) :
    (crPolicyLoop k slots ctx).1 =
      slots.map fun e => if touched k ctx.diff e then e.incAccessCount else e := by
  induction slots generalizing ctx with
  | nil => rfl
  | cons e rest ih =>
    simp only [crPolicyLoop, List.map_cons]
    split
    · rename_i hskip
      have hno : ¬ touched k ctx.diff e = true := by
        unfold touched
        rcases hskip with h | h <;> simp [h]
      rw [ih, if_neg hno]
    · rename_i hproc
      obtain ⟨hid, hentry⟩ := not_or.mp hproc
      have htouched : touched k ctx.diff e = true ↔
          ¬ k.resIdToMask e.resourceId &&& ctx.diff = 0 := by
        unfold touched
        simp [hid, hentry]
      rw [ih, processCrPolicy_diff, processCrPolicy_entry]
      by_cases hm : k.resIdToMask e.resourceId &&& ctx.diff = 0
      · rw [if_pos hm, if_neg (by rw [htouched]; exact not_not.mpr hm)]
      · rw [if_neg hm, if_pos (htouched.mpr hm)]

/-- **The log flag after the loop.** -/
theorem crPolicyLoop_log (slots : List PolicyEntry) (ctx : PolicyCrCtx) :
    (crPolicyLoop k slots ctx).2.log =
      (ctx.log || slots.any fun e => touched k ctx.diff e && e.wHasLog) := by
  induction slots generalizing ctx with
  | nil => simp [crPolicyLoop]
  | cons e rest ih =>
    simp only [crPolicyLoop, List.any_cons]
    split
    · rename_i hskip
      have hno : touched k ctx.diff e = false := by
        unfold touched
        rcases hskip with h | h <;> simp [h]
      rw [ih, hno, Bool.false_and, Bool.false_or]
    · rename_i hproc
      obtain ⟨hid, hentry⟩ := not_or.mp hproc
      have htouched : touched k ctx.diff e =
          decide (k.resIdToMask e.resourceId &&& ctx.diff ≠ 0) := by
        unfold touched
        simp [hid, hentry]
      rw [ih, processCrPolicy_diff, processCrPolicy_log, htouched, Bool.or_assoc]

/-- An entry that owns bit `b` is not skipped. -/
theorem not_skipped_of_bitOf {e : PolicyEntry} {b : Nat} (h : k.BitOf b e.resourceId) :
    ¬ (e.resourceId = resourceIdUnknown ∨ k.isEntry e = false) :=
  not_or.mpr ⟨h.ne_unknown, by rw [h.isEntry]; exact Bool.true_eq_false.mp⟩

/-- **The value after the loop, bit by bit.** Bit `b` is decided by the entry that owns it. -/
theorem crPolicyLoop_bit {slots : List PolicyEntry}
    (hd : Distinct PolicyEntry.resourceId resourceIdUnknown slots) (ctx : PolicyCrCtx) (b : Nat) :
    (crPolicyLoop k slots ctx).2.newCrValue.getLsbD b =
      match slots.find? fun e => k.BitOf b e.resourceId with
      | some e =>
        if ctx.diff.getLsbD b then e.filterBit (ctx.newCrValue.getLsbD b)
        else ctx.newCrValue.getLsbD b
      | none => ctx.newCrValue.getLsbD b := by
  induction slots generalizing ctx with
  | nil => rfl
  | cons e rest ih =>
    have hrest : Distinct PolicyEntry.resourceId resourceIdUnknown rest := by
      unfold Distinct at hd ⊢
      by_cases hfree : e.resourceId = resourceIdUnknown
      · rwa [usedKeys_cons_free hfree] at hd
      · rw [usedKeys_cons_used hfree] at hd
        exact (List.nodup_cons.mp hd).2
    rw [List.find?_cons]
    by_cases hb : k.BitOf b e.resourceId
    · -- the slot that owns the bit: no later slot does, by distinctness
      have hnone : (rest.find? fun e' => k.BitOf b e'.resourceId) = none := by
        rw [List.find?_eq_none]
        intro e' he' hb'
        have hid : e.resourceId = e'.resourceId := hb.unique (by simpa using hb')
        unfold Distinct at hd
        rw [usedKeys_cons_used hb.ne_unknown] at hd
        exact (List.nodup_cons.mp hd).1 (mem_usedKeys.mpr ⟨hb.ne_unknown, e', he', hid.symm⟩)
      simp only [crPolicyLoop, if_neg (not_skipped_of_bitOf hb), ih hrest, hnone, hb,
        processCrPolicy_bit hb.isEntry, decide_true, true_and]
    · simp only [crPolicyLoop, hb, decide_false]
      split
      · exact ih hrest ctx
      · rename_i hproc
        have hentry : k.isEntry e = true := by simpa using (not_or.mp hproc).2
        rw [ih hrest, processCrPolicy_diff, processCrPolicy_bit hentry,
          if_neg (fun h => hb h.1)]

/-- **The filtered value.** Where current and new value agree the bit stays; elsewhere the entry
that owns the bit decides: STICKY gives its value, SKIP the current one. -/
theorem filtered_bit {slots : List PolicyEntry}
    (hd : Distinct PolicyEntry.resourceId resourceIdUnknown slots) (cur new : U64) (log : Bool)
    (b : Nat) :
    (crPolicyLoop k slots ⟨new, cur, cur ^^^ new, log⟩).2.newCrValue.getLsbD b =
      match slots.find? fun e => k.BitOf b e.resourceId with
      | some e =>
        if cur.getLsbD b = new.getLsbD b then cur.getLsbD b
        else if e.hasSticky then e.stickyVal.getLsbD 0
        else if e.wHasSkip then cur.getLsbD b
        else new.getLsbD b
      | none => new.getLsbD b := by
  rw [crPolicyLoop_bit hd]
  cases slots.find? fun e => k.BitOf b e.resourceId with
  | none => rfl
  | some e =>
    simp only [BitVec.getLsbD_xor, PolicyEntry.filterBit]
    cases cur.getLsbD b <;> cases new.getLsbD b <;> simp

end IkgtUsage
