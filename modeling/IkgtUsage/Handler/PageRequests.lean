import IkgtUsage.Handler.Utils
import IkgtUsage.Lib.Loop

/-!
# The requests of a page permission change

`util_monitor_memory` makes three requests and one more for each page: two allocations, the
translations, one update. If all of them succeed it has made exactly one call, which names its
pages in order (`utilMonitorMemory_of_succeeds`); if one fails it returns a failure and has made no
call that succeeds (`utilMonitorMemory_of_not_succeeds`).

`util_monitor_memory_ex` is `util_monitor_memory` on the blocks of the range, up to the first
failure (`monitorMemoryBlocks_eq`). What the blocks are is arithmetic on the start, the size and
`IKGT_ADDRINFO_MAX_COUNT` only (`blocksOf`).
-/

namespace IkgtUsage

open Framework Lib

/-! ## Requests -/

namespace Framework

/-- The framework after `n` requests that change nothing else. -/
def skip (n : Nat) (fw : Framework) : Framework := { fw with requests := fw.requests + n }

/-- The framework after a call. -/
def record (call : ServiceCall) (status : IkgtStatus) (fw : Framework) : Framework :=
  { fw with calls := (call, status) :: fw.calls }

/-- The next `n` requests succeed. -/
def Succeeds (fw : Framework) (n : Nat) : Prop :=
  ∀ i < n, fw.env.outcome (fw.requests + i) = .success

instance (fw : Framework) (n : Nat) : Decidable (fw.Succeeds n) :=
  inferInstanceAs (Decidable (∀ i < n, fw.env.outcome (fw.requests + i) = .success))

variable {fw : Framework}

theorem skip_skip (m n : Nat) : (fw.skip m).skip n = fw.skip (m + n) := by
  unfold skip
  simp only [Nat.add_assoc]

theorem tick_skip (n : Nat) : fw.tick.skip n = fw.skip (n + 1) := by
  unfold skip tick
  simp only [Nat.add_comm n 1, Nat.add_assoc]

theorem callService_eq (call : ServiceCall) (fw : Framework) :
    callService call fw = (fw.nextOutcome, (fw.skip 1).record call fw.nextOutcome) := rfl

theorem succeeds_zero (fw : Framework) : fw.Succeeds 0 := fun _ h => absurd h (Nat.not_lt_zero _)

theorem succeeds_add {m n : Nat} :
    fw.Succeeds (m + n) ↔ fw.Succeeds m ∧ (fw.skip m).Succeeds n := by
  constructor
  · intro h
    refine ⟨fun i hi => h i (by omega), fun i hi => ?_⟩
    have := h (m + i) (by omega)
    rwa [← Nat.add_assoc] at this
  · rintro ⟨hm, hn⟩ i hi
    by_cases hlt : i < m
    · exact hm i hlt
    · have := hn (i - m) (by omega)
      change fw.env.outcome (fw.requests + m + (i - m)) = .success at this
      rwa [show fw.requests + m + (i - m) = fw.requests + i by omega] at this

theorem succeeds_succ {n : Nat} :
    fw.Succeeds (n + 1) ↔ fw.nextOutcome = .success ∧ fw.tick.Succeeds n := by
  rw [Nat.add_comm, succeeds_add]
  refine and_congr_left fun _ => ⟨fun h => h 0 Nat.one_pos, fun h i hi => ?_⟩
  rw [Nat.lt_one_iff.mp hi]
  exact h

theorem Succeeds.mono {m n : Nat} (h : fw.Succeeds n) (hle : m ≤ n) : fw.Succeeds m :=
  fun i hi => h i (hi.trans_le hle)

end Framework

/-! ## Rounding -/

/-- The page of an address, as `util_monitor_memory` rounds it. -/
def pageBase (startAddr : U64) : U64 := startAddr &&& ~~~(4096 - 1)

/-- The number of pages of a size, as `util_monitor_memory` counts them. -/
def pageCount (size : U32) : Nat := (pageAlign4K size >>> 12).toNat

/-- The pages that `size` bytes from the start of a page take. -/
def pagesOf (size : U32) : Nat := (size.toNat + (page4KB - 1)) / page4KB

/-- Clearing the low 12 bits and shifting them out is shifting them out. -/
theorem and_not_shift (x : U32) : (x &&& ~~~(4096 - 1)) >>> 12 = x >>> 12 := by
  have hmask : ∀ i < 32, 12 ≤ i → (~~~(4096 - 1) : U32).getLsbD i = true := by decide
  refine BitVec.eq_of_getLsbD_eq fun i hi => ?_
  rw [BitVec.getLsbD_ushiftRight, BitVec.getLsbD_ushiftRight, BitVec.getLsbD_and]
  by_cases hbit : 12 + i < 32
  · rw [hmask _ hbit (Nat.le_add_right 12 i), Bool.and_true]
  · rw [BitVec.getLsbD_of_ge x _ (Nat.le_of_not_lt hbit), Bool.false_and]

/-- The sum is taken in 32 bits. -/
theorem pageCount_eq_mod (size : U32) :
    pageCount size = (size.toNat + 4095) % 2 ^ 32 / page4KB := by
  have hsum : (size + 4096 - 1).toNat = (size.toNat + 4095) % 2 ^ 32 := by bv_omega
  unfold pageCount pageAlign4K page4KB
  rw [and_not_shift, BitVec.toNat_ushiftRight, hsum, Nat.shiftRight_eq_div_pow]

theorem pageCount_eq_pagesOf {size : U32} (h : size.toNat + 4095 < 2 ^ 32) :
    pageCount size = pagesOf size := by
  rw [pageCount_eq_mod, Nat.mod_eq_of_lt h]
  rfl

theorem pageBase_eq_shift (startAddr : U64) : pageBase startAddr = startAddr >>> 12 <<< 12 := by
  have hmask : ∀ i < 64, (~~~(4096 - 1) : U64).getLsbD i = decide (12 ≤ i) := by decide
  refine BitVec.eq_of_getLsbD_eq fun i hi => ?_
  unfold pageBase
  rw [BitVec.getLsbD_and, hmask i hi, BitVec.getLsbD_shiftLeft, BitVec.getLsbD_ushiftRight]
  by_cases hlow : 12 ≤ i
  · simp [hi, hlow, not_lt.mpr hlow, Nat.add_sub_cancel' hlow]
  · simp [hlow, Nat.lt_of_not_le hlow]

theorem toNat_pageBase (startAddr : U64) :
    (pageBase startAddr).toNat = startAddr.toNat / page4KB * page4KB := by
  have := startAddr.isLt
  rw [pageBase_eq_shift, BitVec.toNat_shiftLeft, BitVec.toNat_ushiftRight,
    Nat.shiftRight_eq_div_pow, Nat.shiftLeft_eq]
  unfold page4KB
  omega

/-- An aligned address stays. -/
theorem pageBase_eq_self {startAddr : U64} (h : startAddr.toNat % page4KB = 0) :
    pageBase startAddr = startAddr := by
  refine BitVec.eq_of_toNat_eq ?_
  rw [toNat_pageBase]
  unfold page4KB at *
  omega

/-! ## One block -/

/-- The items that ask for `permission` on `pages` pages from a page on. -/
def pageItems (gvaToGpa : U64 → U64) (permission : U32) : Nat → U64 → List PageItem
  | 0, _ => []
  | pages + 1, page =>
    ⟨page, gvaToGpa page, permission⟩ :: pageItems gvaToGpa permission pages (page + 4096)

/-- Nothing was updated: no call, or one that failed. -/
inductive NoUpdate (fw : Framework) : Framework → Prop
  | skip (n : Nat) : NoUpdate fw (fw.skip n)
  | failed (n : Nat) (items : List PageItem) {status : IkgtStatus} (h : status ≠ .success) :
      NoUpdate fw ((fw.skip n).record (.updatePagePermission items) status)

theorem NoUpdate.after_skip {fw fw' : Framework} {m : Nat} (h : NoUpdate (fw.skip m) fw') :
    NoUpdate fw fw' := by
  cases h with
  | skip n =>
    rw [skip_skip]
    exact .skip _
  | failed n items h =>
    rw [skip_skip]
    exact .failed _ items h

theorem translatePages_of_succeeds (permission : U32) :
    ∀ (pages : Nat) (startAddr : U64) (items : List PageItem) {fw : Framework},
      fw.Succeeds pages →
      translatePages permission pages startAddr items fw =
        (.success, items ++ pageItems fw.env.gvaToGpa permission pages startAddr, fw.skip pages)
  | 0, _, items, fw, _ => by
    rw [pageItems, List.append_nil]
    rfl
  | pages + 1, startAddr, items, fw, h => by
    obtain ⟨hnext, hrest⟩ := succeeds_succ.mp h
    rw [translatePages]
    simp only [hnext, if_true]
    rw [translatePages_of_succeeds permission pages _ _ hrest, tick_skip, List.append_assoc]
    rfl

theorem translatePages_of_not_succeeds (permission : U32) :
    ∀ (pages : Nat) (startAddr : U64) (items : List PageItem) {fw : Framework},
      ¬ fw.Succeeds pages →
      ∃ status items' n, translatePages permission pages startAddr items fw =
        (status, items', fw.skip n) ∧ status ≠ .success
  | 0, _, _, fw, h => absurd (succeeds_zero fw) h
  | pages + 1, startAddr, items, fw, h => by
    rw [translatePages]
    by_cases hnext : fw.nextOutcome = .success
    · have hrest : ¬ fw.tick.Succeeds pages := fun hrest => h (succeeds_succ.mpr ⟨hnext, hrest⟩)
      obtain ⟨status, items', n, heq, hfail⟩ :=
        translatePages_of_not_succeeds permission pages (startAddr + 4096)
          (items ++ [⟨startAddr, fw.env.gvaToGpa startAddr, permission⟩]) hrest
      refine ⟨status, items', n + 1, ?_, hfail⟩
      simp only [hnext, if_true]
      rw [heq, tick_skip]
    · refine ⟨fw.nextOutcome, items, 1, ?_, hnext⟩
      simp only [hnext, if_false]
      rfl

theorem updatePages_of_succeeds (permission : U32) (pages : Nat) (startAddr : U64)
    {fw : Framework} (h : fw.Succeeds (pages + 1)) :
    updatePages permission pages startAddr fw =
      (.success, (fw.skip (pages + 1)).record
        (.updatePagePermission (pageItems fw.env.gvaToGpa permission pages startAddr))
        .success) := by
  obtain ⟨hpages, hlast⟩ := succeeds_add.mp h
  have hnext : (fw.skip pages).nextOutcome = .success := hlast 0 Nat.one_pos
  unfold updatePages
  rw [translatePages_of_succeeds permission pages startAddr [] hpages]
  simp only [if_true, callService_eq, hnext, skip_skip, List.nil_append]

theorem updatePages_of_not_succeeds (permission : U32) (pages : Nat) (startAddr : U64)
    {fw : Framework} (h : ¬ fw.Succeeds (pages + 1)) :
    ∃ status fw', updatePages permission pages startAddr fw = (status, fw') ∧
      status ≠ .success ∧ NoUpdate fw fw' := by
  unfold updatePages
  by_cases hpages : fw.Succeeds pages
  · have hnext : (fw.skip pages).nextOutcome ≠ .success := by
      intro hnext
      refine h (succeeds_add.mpr ⟨hpages, fun i hi => ?_⟩)
      rw [Nat.lt_one_iff.mp hi]
      exact hnext
    rw [translatePages_of_succeeds permission pages startAddr [] hpages]
    simp only [if_true, callService_eq, skip_skip]
    exact ⟨_, _, rfl, hnext, .failed _ _ hnext⟩
  · obtain ⟨status, items, n, heq, hfail⟩ :=
      translatePages_of_not_succeeds permission pages startAddr [] hpages
    rw [heq]
    simp only [hfail, if_false]
    exact ⟨_, _, rfl, hfail, .skip n⟩

/-- `util_monitor_memory` once its size fits. -/
theorem utilMonitorMemory_eq (startAddr : U64) (size permission : U32) {fw : Framework}
    (hfits : pageCount size ≤ fw.addrinfoMaxCount) :
    utilMonitorMemory startAddr size permission fw =
      if ¬ fw.Succeeds 1 then (.allocateFailed, fw.skip 1)
      else if ¬ (fw.skip 1).Succeeds 1 then (.allocateFailed, fw.skip 2)
      else updatePages permission (pageCount size) (pageBase startAddr) (fw.skip 2) := by
  have hone (fw : Framework) : fw.Succeeds 1 ↔ fw.nextOutcome = .success := by
    rw [succeeds_succ]
    exact and_iff_left (succeeds_zero _)
  unfold utilMonitorMemory
  simp only [hone, ikgtMalloc]
  rw [if_neg (show ¬ fw.addrinfoMaxCount < (pageAlign4K size >>> 12).toNat from not_lt.mpr hfits)]
  by_cases hfirst : fw.nextOutcome = .success
  · by_cases hsecond : (fw.skip 1).nextOutcome = .success
    · simp [hfirst, hsecond, show fw.tick = fw.skip 1 from rfl,
        show (fw.skip 1).tick = fw.skip 2 from rfl, pageCount, pageBase]
    · simp [hfirst, hsecond, show fw.tick = fw.skip 1 from rfl,
        show (fw.skip 1).tick = fw.skip 2 from rfl]
  · simp [hfirst, show fw.tick = fw.skip 1 from rfl]

/-- The requests of a call of `util_monitor_memory`, one after the other. -/
theorem succeeds_requests {fw : Framework} {pages : Nat} :
    fw.Succeeds (pages + 3) ↔
      fw.Succeeds 1 ∧ (fw.skip 1).Succeeds 1 ∧ (fw.skip 2).Succeeds (pages + 1) := by
  rw [show pages + 3 = 1 + (1 + (pages + 1)) by omega, succeeds_add, succeeds_add, skip_skip]

/-- **`util_monitor_memory`** where its requests succeed: one call, for all its pages. -/
theorem utilMonitorMemory_of_succeeds (startAddr : U64) (size permission : U32) {fw : Framework}
    (hfits : pageCount size ≤ fw.addrinfoMaxCount) (h : fw.Succeeds (pageCount size + 3)) :
    utilMonitorMemory startAddr size permission fw =
      (.success, (fw.skip (pageCount size + 3)).record
        (.updatePagePermission
          (pageItems fw.env.gvaToGpa permission (pageCount size) (pageBase startAddr)))
        .success) := by
  obtain ⟨hfirst, hsecond, hpages⟩ := succeeds_requests.mp h
  rw [utilMonitorMemory_eq startAddr size permission hfits, if_neg (not_not_intro hfirst),
    if_neg (not_not_intro hsecond), updatePages_of_succeeds permission _ _ hpages, skip_skip,
    show 2 + (pageCount size + 1) = pageCount size + 3 by omega]
  rfl

/-- **`util_monitor_memory`** where a request fails: it fails, and nothing was updated. -/
theorem utilMonitorMemory_of_not_succeeds (startAddr : U64) (size permission : U32)
    {fw : Framework} (hfits : pageCount size ≤ fw.addrinfoMaxCount)
    (h : ¬ fw.Succeeds (pageCount size + 3)) :
    ∃ status fw', utilMonitorMemory startAddr size permission fw = (status, fw') ∧
      status ≠ .success ∧ NoUpdate fw fw' := by
  rw [utilMonitorMemory_eq startAddr size permission hfits]
  by_cases hfirst : fw.Succeeds 1
  swap
  · rw [if_pos hfirst]
    exact ⟨_, _, rfl, by decide, .skip 1⟩
  rw [if_neg (not_not_intro hfirst)]
  by_cases hsecond : (fw.skip 1).Succeeds 1
  swap
  · rw [if_pos hsecond]
    exact ⟨_, _, rfl, by decide, .skip 2⟩
  rw [if_neg (not_not_intro hsecond)]
  have hpages : ¬ (fw.skip 2).Succeeds (pageCount size + 1) := fun hpages =>
    h (succeeds_requests.mpr ⟨hfirst, hsecond, hpages⟩)
  obtain ⟨status, fw', heq, hfail, hnone⟩ :=
    updatePages_of_not_succeeds permission (pageCount size) (pageBase startAddr) hpages
  exact ⟨status, fw', heq, hfail, hnone.after_skip⟩

/-! ## The blocks of a range -/

/-- What one round of `util_monitor_memory_ex` gives to `util_monitor_memory`. -/
structure MemoryBlock where
  startAddr : U64
  size : U32
  deriving DecidableEq, Repr

namespace MemoryBlock

/-- The pages of a block. -/
def pages (b : MemoryBlock) : Nat := pageCount b.size

/-- The items of its update. -/
def items (gvaToGpa : U64 → U64) (permission : U32) (b : MemoryBlock) : List PageItem :=
  pageItems gvaToGpa permission b.pages (pageBase b.startAddr)

/-- The requests it makes if none fails. -/
def requests (b : MemoryBlock) : Nat := b.pages + 3

end MemoryBlock

theorem toNat_blockSize (maxCount : Nat) (size : U32) :
    (blockSize maxCount size).toNat =
      min size.toNat (ikgtMemoryMaxBlockSize maxCount).toNat := by
  unfold blockSize
  split
  · rename_i hlt
    exact (Nat.min_eq_left (Nat.le_of_lt (BitVec.lt_def.mp hlt))).symm
  · rename_i hge
    exact (Nat.min_eq_right (Nat.le_of_not_lt (mt BitVec.lt_def.mpr hge))).symm

/-- The product wraps. -/
theorem toNat_ikgtMemoryMaxBlockSize (maxCount : Nat) :
    (ikgtMemoryMaxBlockSize maxCount).toNat = maxCount * page4KB % 2 ^ 32 :=
  BitVec.toNat_ofNat _ _

/-- It does not wrap where the last page below the limit is left free. -/
theorem ikgtMemoryMaxBlockSize_ne_zero {maxCount : Nat} (hpos : 0 < maxCount)
    (hmax : maxCount * page4KB + (page4KB - 1) < 2 ^ 32) : ikgtMemoryMaxBlockSize maxCount ≠ 0 := by
  refine BitVec.toNat_ne.mpr ?_
  rw [toNat_ikgtMemoryMaxBlockSize, Nat.mod_eq_of_lt (Nat.lt_of_add_right_lt hmax)]
  exact Nat.mul_ne_zero hpos.ne' (by decide)

/-- The product fits. -/
theorem toNat_blockSize_of_fits {maxCount : Nat} (hmax : maxCount * page4KB < 2 ^ 32)
    (size : U32) : (blockSize maxCount size).toNat = min size.toNat (maxCount * page4KB) := by
  rw [toNat_blockSize, toNat_ikgtMemoryMaxBlockSize, Nat.mod_eq_of_lt hmax]

/-- The size left after the next block. -/
theorem toNat_sub_blockSize (maxCount : Nat) (size : U32) :
    (size - blockSize maxCount size).toNat = size.toNat - (blockSize maxCount size).toNat := by
  refine BitVec.toNat_sub_of_le (BitVec.le_def.mpr ?_)
  rw [toNat_blockSize]
  exact Nat.min_le_left _ _

/-- A block has no more pages than one update takes. -/
theorem pageCount_blockSize_le (maxCount : Nat) (size : U32) :
    pageCount (blockSize maxCount size) ≤ maxCount := by
  have hproduct := Nat.mod_le (maxCount * page4KB) (2 ^ 32)
  rw [pageCount_eq_mod, toNat_blockSize, toNat_ikgtMemoryMaxBlockSize]
  unfold page4KB at *
  omega

/-- The blocks of a range, at most `rounds` of them. -/
def blocksOf (maxCount : Nat) : Nat → U64 → U32 → List MemoryBlock
  | 0, _, _ => []
  | rounds + 1, startAddr, size =>
    if size = 0 then []
    else
      ⟨startAddr, blockSize maxCount size⟩ ::
        blocksOf maxCount rounds (startAddr + (blockSize maxCount size).zeroExtend 64)
          (size - blockSize maxCount size)

/-- `util_monitor_memory` on one block after the other, up to the first failure. -/
def monitorBlocks (permission : U32) :
    List MemoryBlock → IkgtStatus → Framework → IkgtStatus × Framework
  | [], status, fw => (status, fw)
  | b :: bs, _, fw =>
    let (status, fw) := utilMonitorMemory b.startAddr b.size permission fw
    if status = .success then monitorBlocks permission bs status fw else (status, fw)

theorem exists_size_of_mem_blocksOf {maxCount : Nat} :
    ∀ {rounds : Nat} {startAddr : U64} {size : U32} {b : MemoryBlock},
      b ∈ blocksOf maxCount rounds startAddr size → ∃ left, b.size = blockSize maxCount left
  | 0, _, _, _, h => absurd h List.not_mem_nil
  | rounds + 1, startAddr, size, b, h => by
    rw [blocksOf] at h
    split at h
    · exact absurd h List.not_mem_nil
    rcases List.mem_cons.mp h with rfl | h
    · exact ⟨size, rfl⟩
    · exact exists_size_of_mem_blocksOf h

/-- No block has more pages than one update takes. -/
theorem pages_le_of_mem_blocksOf {maxCount rounds : Nat} {startAddr : U64} {size : U32}
    {b : MemoryBlock} (h : b ∈ blocksOf maxCount rounds startAddr size) : b.pages ≤ maxCount := by
  obtain ⟨left, hleft⟩ := exists_size_of_mem_blocksOf h
  unfold MemoryBlock.pages
  rw [hleft]
  exact pageCount_blockSize_le maxCount left

/-- The requests of blocks if none fails. -/
def requestsOf (bs : List MemoryBlock) : Nat := (bs.map MemoryBlock.requests).sum

/-- The framework after blocks whose requests all succeed. -/
def afterBlocks (permission : U32) (bs : List MemoryBlock) (fw : Framework) : Framework :=
  { fw.skip (requestsOf bs) with
    calls := (bs.map fun b => (ServiceCall.updatePagePermission
      (b.items fw.env.gvaToGpa permission), IkgtStatus.success)).reverse ++ fw.calls }

theorem requestsOf_cons (b : MemoryBlock) (bs : List MemoryBlock) :
    requestsOf (b :: bs) = b.requests + requestsOf bs := by
  unfold requestsOf
  rw [List.map_cons, List.sum_cons]

theorem afterBlocks_cons (permission : U32) (b : MemoryBlock) (bs : List MemoryBlock)
    (fw : Framework) :
    afterBlocks permission (b :: bs) fw =
      afterBlocks permission bs ((fw.skip b.requests).record
        (.updatePagePermission (b.items fw.env.gvaToGpa permission)) .success) := by
  unfold afterBlocks
  rw [requestsOf_cons, ← skip_skip, List.map_cons, List.reverse_cons, List.append_assoc]
  rfl

/-- A block whose requests succeed, before other blocks. -/
theorem monitorBlocks_cons (permission : U32) (b : MemoryBlock) (bs : List MemoryBlock)
    (status : IkgtStatus) {fw : Framework} (hfits : b.pages ≤ fw.addrinfoMaxCount)
    (h : fw.Succeeds b.requests) :
    monitorBlocks permission (b :: bs) status fw =
      monitorBlocks permission bs .success ((fw.skip b.requests).record
        (.updatePagePermission (b.items fw.env.gvaToGpa permission)) .success) := by
  rw [monitorBlocks, utilMonitorMemory_of_succeeds b.startAddr b.size permission hfits h]
  rfl

/-- **Blocks whose requests all succeed.** -/
theorem monitorBlocks_of_succeeds (permission : U32) :
    ∀ (bs : List MemoryBlock) (status : IkgtStatus) {fw : Framework},
      (∀ b ∈ bs, b.pages ≤ fw.addrinfoMaxCount) → fw.Succeeds (requestsOf bs) →
      monitorBlocks permission bs status fw =
        (if bs = [] then status else .success, afterBlocks permission bs fw)
  | [], status, fw, _, _ => rfl
  | b :: bs, status, fw, hfits, h => by
    rw [requestsOf_cons, succeeds_add] at h
    have hrest := @monitorBlocks_of_succeeds permission bs .success
      ((fw.skip b.requests).record
        (.updatePagePermission (b.items fw.env.gvaToGpa permission)) .success)
      (fun b' hb' => hfits b' (List.mem_cons_of_mem b hb')) h.2
    rw [monitorBlocks_cons permission b bs status (hfits b List.mem_cons_self) h.1, hrest,
      afterBlocks_cons, if_neg (List.cons_ne_nil b bs), ite_self]

/-- **Blocks of which one fails.** Those before it are done, those after it are not begun. -/
theorem monitorBlocks_of_fails (permission : U32) :
    ∀ (k : Nat) (bs : List MemoryBlock) (status : IkgtStatus) {fw : Framework},
      (∀ b ∈ bs, b.pages ≤ fw.addrinfoMaxCount) → fw.Succeeds (requestsOf (bs.take k)) →
      ¬ fw.Succeeds (requestsOf (bs.take (k + 1))) →
      ∃ status' fw', monitorBlocks permission bs status fw = (status', fw') ∧
        status' ≠ .success ∧ NoUpdate (afterBlocks permission (bs.take k) fw) fw'
  | k, [], _, fw, _, _, hfail => by
    rw [List.take_nil] at hfail
    exact absurd (succeeds_zero fw) hfail
  | 0, b :: bs, status, fw, hfits, _, hfail => by
    have hb : ¬ fw.Succeeds b.requests := hfail
    obtain ⟨status', fw', heq, hstatus, hnone⟩ := utilMonitorMemory_of_not_succeeds b.startAddr
      b.size permission (hfits b List.mem_cons_self) hb
    refine ⟨status', fw', ?_, hstatus, hnone⟩
    rw [monitorBlocks, heq]
    exact if_neg hstatus
  | k + 1, b :: bs, status, fw, hfits, h, hfail => by
    rw [List.take_succ_cons, requestsOf_cons, succeeds_add] at h hfail
    rw [monitorBlocks_cons permission b bs status (hfits b List.mem_cons_self) h.1,
      List.take_succ_cons, afterBlocks_cons]
    exact monitorBlocks_of_fails permission k bs .success
      (fun b' hb' => hfits b' (List.mem_cons_of_mem b hb')) h.2 fun hrest => hfail ⟨h.1, hrest⟩

/-! ## The loop over the blocks -/

theorem NoUpdate.addrinfoMaxCount {fw fw' : Framework} (h : NoUpdate fw fw') :
    fw'.addrinfoMaxCount = fw.addrinfoMaxCount := by
  cases h with
  | skip => rfl
  | failed => rfl

theorem addrinfoMaxCount_utilMonitorMemory (startAddr : U64) (size permission : U32)
    {fw : Framework} (hfits : pageCount size ≤ fw.addrinfoMaxCount) :
    (utilMonitorMemory startAddr size permission fw).2.addrinfoMaxCount =
      fw.addrinfoMaxCount := by
  by_cases h : fw.Succeeds (pageCount size + 3)
  · rw [utilMonitorMemory_of_succeeds startAddr size permission hfits h]
    rfl
  · obtain ⟨status, fw', heq, -, hnone⟩ :=
      utilMonitorMemory_of_not_succeeds startAddr size permission hfits h
    rw [heq]
    exact hnone.addrinfoMaxCount

/-- One round. -/
theorem monitorMemoryBlocks_succ (permission : U32) (rounds : Nat) (startAddr : U64) {size : U32}
    (hsize : size ≠ 0) (status : IkgtStatus) (fw : Framework) :
    let blksize := blockSize fw.addrinfoMaxCount size
    let r := utilMonitorMemory startAddr blksize permission fw
    monitorMemoryBlocks permission (rounds + 1) startAddr size status fw =
      if r.1 = .success then
        monitorMemoryBlocks permission rounds (startAddr + blksize.zeroExtend 64)
          (size - blksize) r.1 r.2
      else r :=
  if_neg hsize

/-- **The loop of `util_monitor_memory_ex`** goes through the blocks of the range. -/
theorem monitorMemoryBlocks_eq (permission : U32) :
    ∀ (rounds : Nat) (startAddr : U64) (size : U32) (status : IkgtStatus) (fw : Framework),
      monitorMemoryBlocks permission rounds startAddr size status fw =
        monitorBlocks permission (blocksOf fw.addrinfoMaxCount rounds startAddr size) status fw
  | 0, _, _, _, _ => rfl
  | rounds + 1, startAddr, size, status, fw => by
    by_cases hsize : size = 0
    · rw [monitorMemoryBlocks, blocksOf, if_pos hsize, if_pos hsize]
      rfl
    · have hblocks : blocksOf fw.addrinfoMaxCount (rounds + 1) startAddr size =
          ⟨startAddr, blockSize fw.addrinfoMaxCount size⟩ ::
            blocksOf fw.addrinfoMaxCount rounds
              (startAddr + (blockSize fw.addrinfoMaxCount size).zeroExtend 64)
              (size - blockSize fw.addrinfoMaxCount size) := if_neg hsize
      have hcount := addrinfoMaxCount_utilMonitorMemory startAddr
        (blockSize fw.addrinfoMaxCount size) permission (pageCount_blockSize_le _ size)
      rw [monitorMemoryBlocks_succ permission rounds startAddr hsize, hblocks, monitorBlocks,
        monitorMemoryBlocks_eq permission rounds, hcount]

/-- The blocks that `util_monitor_memory_ex` goes through. -/
def rangeBlocks (maxCount : Nat) (startAddr : U64) (size : U32) : List MemoryBlock :=
  blocksOf maxCount size.toNat startAddr size

theorem utilMonitorMemoryEx_eq (startAddr : U64) (size permission : U32) (fw : Framework) :
    utilMonitorMemoryEx startAddr size permission fw =
      monitorBlocks permission (rangeBlocks fw.addrinfoMaxCount startAddr size) .error fw :=
  monitorMemoryBlocks_eq permission size.toNat startAddr size .error fw

/-- The variables of `util_monitor_memory_ex` in its `while` loop. -/
structure MemoryLoop where
  startAddr : U64
  size : U32
  status : IkgtStatus
  fw : Framework

/-- One pass of `while (size)`. -/
def MemoryLoop.pass (permission : U32) (l : MemoryLoop) : IkgtStatus × Framework ⊕ MemoryLoop :=
  if l.size = 0 then .inl (l.status, l.fw)
  else
    let blksize := blockSize l.fw.addrinfoMaxCount l.size
    let (status, fw) := utilMonitorMemory l.startAddr blksize permission l.fw
    if status = .success then
      .inr ⟨l.startAddr + blksize.zeroExtend 64, l.size - blksize, status, fw⟩
    else .inl (status, fw)

/-- A block that is not empty takes something off the size. -/
theorem toNat_sub_blockSize_lt {maxCount : Nat} (hmax : ikgtMemoryMaxBlockSize maxCount ≠ 0)
    {size : U32} (hsize : size ≠ 0) : (size - blockSize maxCount size).toNat < size.toNat := by
  have hne : size.toNat ≠ 0 := BitVec.toNat_ne.mp hsize
  have hmax' : (ikgtMemoryMaxBlockSize maxCount).toNat ≠ 0 := BitVec.toNat_ne.mp hmax
  rw [toNat_sub_blockSize, toNat_blockSize]
  omega

/-- `size` rounds are enough, unless the blocks are empty. -/
theorem monitorMemoryBlocks_ends (permission : U32) (rounds : Nat) (l : MemoryLoop)
    (hrounds : l.size.toNat ≤ rounds) (hmax : ikgtMemoryMaxBlockSize l.fw.addrinfoMaxCount ≠ 0) :
    Ends (MemoryLoop.pass permission) l
      (monitorMemoryBlocks permission rounds l.startAddr l.size l.status l.fw) := by
  induction rounds generalizing l with
  | zero =>
    have hzero : l.size = 0 := BitVec.eq_of_toNat_eq (Nat.le_zero.mp hrounds)
    exact .leave (if_pos hzero)
  | succ rounds ih =>
    by_cases hsize : l.size = 0
    · rw [monitorMemoryBlocks, if_pos hsize]
      exact .leave (if_pos hsize)
    have hlt := toNat_sub_blockSize_lt hmax hsize
    have hcount := addrinfoMaxCount_utilMonitorMemory l.startAddr
      (blockSize l.fw.addrinfoMaxCount l.size) permission (pageCount_blockSize_le _ l.size)
    rw [monitorMemoryBlocks_succ permission rounds l.startAddr hsize]
    have hpass : l.pass permission =
        let blksize := blockSize l.fw.addrinfoMaxCount l.size
        let r := utilMonitorMemory l.startAddr blksize permission l.fw
        if r.1 = .success then
          .inr ⟨l.startAddr + blksize.zeroExtend 64, l.size - blksize, r.1, r.2⟩
        else .inl r := if_neg hsize
    simp only at hpass ⊢
    split
    · rename_i hok
      rw [if_pos hok] at hpass
      refine .again hpass (ih _ (Nat.le_of_lt_succ (hlt.trans_le hrounds)) ?_)
      rw [hcount]
      exact hmax
    · rename_i hfail
      rw [if_neg hfail] at hpass
      exact .leave hpass

/-- **The loop of `util_monitor_memory_ex`** ends with the result of the rounds, unless the blocks
are empty. -/
theorem utilMonitorMemoryEx_ends (startAddr : U64) (size permission : U32) {fw : Framework}
    (hmax : ikgtMemoryMaxBlockSize fw.addrinfoMaxCount ≠ 0) :
    Ends (MemoryLoop.pass permission) ⟨startAddr, size, .error, fw⟩
      (utilMonitorMemoryEx startAddr size permission fw) :=
  monitorMemoryBlocks_ends permission size.toNat ⟨startAddr, size, .error, fw⟩ (Nat.le_refl _) hmax

/-! ## Empty blocks -/

theorem blockSize_of_empty {maxCount : Nat} (hmax : ikgtMemoryMaxBlockSize maxCount = 0)
    (size : U32) : blockSize maxCount size = 0 := by
  refine BitVec.eq_of_toNat_eq ?_
  rw [toNat_blockSize, hmax]
  exact Nat.min_zero _

theorem pages_eq_zero_of_empty {maxCount : Nat} (hmax : ikgtMemoryMaxBlockSize maxCount = 0)
    {startAddr : U64} {size : U32} {b : MemoryBlock}
    (h : b ∈ rangeBlocks maxCount startAddr size) : b.pages = 0 := by
  obtain ⟨left, hleft⟩ := exists_size_of_mem_blocksOf h
  unfold MemoryBlock.pages
  rw [hleft, blockSize_of_empty hmax]
  decide

namespace MemoryLoop

variable {l : MemoryLoop} (permission : U32)

/-- The next pass, over an empty block whose requests have succeeded. -/
def afterEmpty (l : MemoryLoop) : MemoryLoop :=
  { l with
    status := .success
    fw := (l.fw.skip 3).record (.updatePagePermission []) .success }

/-- A pass over an empty block: three requests, for no page. -/
theorem pass_of_empty (hmax : ikgtMemoryMaxBlockSize l.fw.addrinfoMaxCount = 0)
    (hsize : l.size ≠ 0) :
    if l.fw.Succeeds 3 then l.pass permission = .inr l.afterEmpty
    else ∃ r, l.pass permission = .inl r ∧ r.1 ≠ .success ∧ NoUpdate l.fw r.2 := by
  have hcount : pageCount 0 = 0 := by decide
  have hfits : pageCount 0 ≤ l.fw.addrinfoMaxCount := hcount ▸ Nat.zero_le _
  have hpass : l.pass permission =
      let r := utilMonitorMemory l.startAddr 0 permission l.fw
      if r.1 = .success then .inr ⟨l.startAddr, l.size, r.1, r.2⟩ else .inl r := by
    have hstay : l.startAddr + (0 : U32).zeroExtend 64 = l.startAddr := BitVec.add_zero _
    have hleft : l.size - 0 = l.size := BitVec.sub_zero _
    unfold pass
    rw [if_neg hsize, blockSize_of_empty hmax]
    simp only [hstay, hleft]
  split
  · rename_i hok
    rw [hpass, utilMonitorMemory_of_succeeds l.startAddr 0 permission hfits (hcount ▸ hok), hcount]
    rfl
  · rename_i hfail
    obtain ⟨status, fw, heq, hstatus, hnone⟩ :=
      utilMonitorMemory_of_not_succeeds l.startAddr 0 permission hfits (hcount ▸ hfail)
    rw [hpass, heq]
    exact ⟨_, if_neg hstatus, hstatus, hnone⟩

/-- The loop is left without an update. -/
theorem noUpdate_of_empty (hmax : ikgtMemoryMaxBlockSize l.fw.addrinfoMaxCount = 0)
    {r : IkgtStatus × Framework} (h : l.pass permission = .inl r) : NoUpdate l.fw r.2 := by
  by_cases hsize : l.size = 0
  · rw [pass, if_pos hsize] at h
    obtain rfl := Sum.inl.inj h
    exact .skip 0
  have hpass := pass_of_empty permission hmax hsize
  split at hpass
  · rw [h] at hpass
    cases hpass
  · obtain ⟨r', hr', -, hnone⟩ := hpass
    obtain rfl := Sum.inl.inj (h.symm.trans hr')
    exact hnone

/-- The loop goes on if the requests have succeeded. -/
theorem again_of_empty (hmax : ikgtMemoryMaxBlockSize l.fw.addrinfoMaxCount = 0)
    {l' : MemoryLoop} (h : l.pass permission = .inr l') : l.fw.Succeeds 3 ∧ l' = l.afterEmpty := by
  have hsize : l.size ≠ 0 := by
    intro hzero
    rw [pass, if_pos hzero] at h
    cases h
  have hpass := pass_of_empty permission hmax hsize
  split at hpass
  · rename_i hok
    exact ⟨hok, Sum.inr.inj (h.symm.trans hpass)⟩
  · obtain ⟨r, hr, -⟩ := hpass
    rw [h] at hr
    cases hr

/-- The blocks are empty and there is something to do, and no request will fail. -/
structure Stuck (l : MemoryLoop) : Prop where
  size : l.size ≠ 0
  empty : ikgtMemoryMaxBlockSize l.fw.addrinfoMaxCount = 0
  succeed : ∀ n, l.fw.requests ≤ n → l.fw.env.outcome n = .success

theorem Stuck.pass (h : l.Stuck) : ∃ l', l.pass permission = .inr l' ∧ l'.Stuck := by
  have hpass := pass_of_empty permission h.empty h.size
  have hok : l.fw.Succeeds 3 := fun i _ => h.succeed _ (Nat.le_add_right _ i)
  rw [if_pos hok] at hpass
  exact ⟨_, hpass, h.size, h.empty, fun n hn => h.succeed n (Nat.le_of_add_right_le hn)⟩

/-- The blocks are empty, and request `n` is still to come and will fail. -/
structure FailsAt (n : Nat) (l : MemoryLoop) : Prop where
  empty : ikgtMemoryMaxBlockSize l.fw.addrinfoMaxCount = 0
  later : l.fw.requests ≤ n
  fails : l.fw.env.outcome n ≠ .success

/-- A further pass makes some of the requests before it. -/
theorem FailsAt.pass {n : Nat} (h : l.FailsAt n) {l' : MemoryLoop}
    (hagain : l.pass permission = .inr l') :
    l'.FailsAt n ∧ n - l'.fw.requests < n - l.fw.requests := by
  obtain ⟨hok, rfl⟩ := again_of_empty permission h.empty hagain
  have hrequests : l.afterEmpty.fw.requests = l.fw.requests + 3 := rfl
  have hlater := h.later
  have hnext : l.fw.requests + 3 ≤ n := by
    by_contra hnow
    have hsucc := hok (n - l.fw.requests) (by omega)
    rw [Nat.add_sub_cancel' hlater] at hsucc
    exact h.fails hsucc
  exact ⟨⟨h.empty, hnext, h.fails⟩, by omega⟩

end MemoryLoop

/-- **When the loop of the source ends**: there is nothing to do, the blocks are not empty, or a
request fails. -/
theorem memoryLoop_ends_iff (permission : U32) (l : MemoryLoop) :
    (∃ r, Ends (MemoryLoop.pass permission) l r) ↔
      l.size = 0 ∨ ikgtMemoryMaxBlockSize l.fw.addrinfoMaxCount ≠ 0 ∨
        ∃ n, l.fw.requests ≤ n ∧ l.fw.env.outcome n ≠ .success := by
  constructor
  · rintro ⟨r, hr⟩
    by_contra hno
    have hstuck : l.Stuck := by
      simp only [not_or, not_not, not_exists, not_and] at hno
      exact ⟨hno.1, hno.2.1, hno.2.2⟩
    exact not_ends (fun _ h => h.pass permission) hstuck r hr
  · rintro (hsize | hmax | ⟨n, hn, hfail⟩)
    · exact ⟨_, .leave (if_pos hsize)⟩
    · exact ⟨_, monitorMemoryBlocks_ends permission _ l (Nat.le_refl _) hmax⟩
    · by_cases hempty : ikgtMemoryMaxBlockSize l.fw.addrinfoMaxCount = 0
      · have hfails : l.FailsAt n := ⟨hempty, hn, hfail⟩
        obtain ⟨r, hr, -⟩ := ends_of_measure (fun l : MemoryLoop => n - l.fw.requests)
          (fun _ _ _ _ => trivial) (fun _ _ h => h.pass permission) l hfails
        exact ⟨r, hr⟩
      · exact ⟨_, monitorMemoryBlocks_ends permission _ l (Nat.le_refl _) hempty⟩

/-! ## The pages of the blocks -/

/-- The pages before and the pages after. -/
theorem pageItems_add (gvaToGpa : U64 → U64) (permission : U32) (m n : Nat) (page : U64) :
    pageItems gvaToGpa permission (m + n) page =
      pageItems gvaToGpa permission m page ++
        pageItems gvaToGpa permission n (page + BitVec.ofNat 64 (m * page4KB)) := by
  induction m generalizing page with
  | zero => simp [pageItems]
  | succ m ih =>
    have hskip : page + BitVec.ofNat 64 ((m + 1) * page4KB) =
        page + 4096 + BitVec.ofNat 64 (m * page4KB) := by
      rw [Nat.succ_mul, Nat.add_comm, BitVec.ofNat_add, BitVec.add_assoc]
      rfl
    rw [Nat.succ_add, pageItems, pageItems, ih, hskip, List.cons_append]

theorem length_pageItems (gvaToGpa : U64 → U64) (permission : U32) (pages : Nat) (page : U64) :
    (pageItems gvaToGpa permission pages page).length = pages := by
  induction pages generalizing page with
  | zero => rfl
  | succ pages ih => rw [pageItems, List.length_cons, ih]

/-- Whole pages later is whole pages later in the page. -/
theorem pageBase_add (startAddr : U64) (n : Nat) :
    pageBase (startAddr + BitVec.ofNat 64 (n * page4KB)) =
      pageBase startAddr + BitVec.ofNat 64 (n * page4KB) := by
  refine BitVec.eq_of_toNat_eq ?_
  rw [toNat_pageBase, BitVec.toNat_add, BitVec.toNat_add, BitVec.toNat_ofNat, toNat_pageBase]
  unfold page4KB
  omega

theorem ofNat_toNat_zeroExtend (size : U32) :
    size.zeroExtend 64 = BitVec.ofNat 64 size.toNat := by
  refine BitVec.eq_of_toNat_eq ?_
  rw [BitVec.zeroExtend_eq_setWidth, BitVec.toNat_setWidth, BitVec.toNat_ofNat]

/-- **The blocks of a range name its pages**: as many as the size takes from a page's start, from
the page of the start on. The seams fall between pages wherever in its page the range starts. -/
theorem blocksOf_items (gvaToGpa : U64 → U64) (permission : U32) {maxCount : Nat}
    (hpos : 0 < maxCount) (hmax : maxCount * page4KB + (page4KB - 1) < 2 ^ 32) :
    ∀ (rounds : Nat) (startAddr : U64) (size : U32), size.toNat ≤ rounds →
      (blocksOf maxCount rounds startAddr size).flatMap (·.items gvaToGpa permission) =
        pageItems gvaToGpa permission (pagesOf size) (pageBase startAddr)
  | 0, startAddr, size, hrounds => by
    have hzero : pagesOf size = 0 := by unfold pagesOf page4KB; omega
    rw [hzero]
    rfl
  | rounds + 1, startAddr, size, hrounds => by
    rw [blocksOf]
    by_cases hsize : size = 0
    · rw [if_pos hsize, hsize]
      rfl
    have hblk := toNat_blockSize_of_fits (Nat.lt_of_add_right_lt hmax) size
    have hrest := toNat_sub_blockSize maxCount size
    have hlt := toNat_sub_blockSize_lt (ikgtMemoryMaxBlockSize_ne_zero hpos hmax) hsize
    have hcount : pageCount (blockSize maxCount size) = pagesOf (blockSize maxCount size) :=
      pageCount_eq_pagesOf (by unfold page4KB at *; omega)
    have hhead : MemoryBlock.items gvaToGpa permission ⟨startAddr, blockSize maxCount size⟩ =
        pageItems gvaToGpa permission (pagesOf (blockSize maxCount size)) (pageBase startAddr) := by
      rw [← hcount]
      rfl
    rw [if_neg hsize, List.flatMap_cons, hhead, blocksOf_items gvaToGpa permission hpos hmax
      rounds _ _ (by omega)]
    by_cases hlast : size.toNat ≤ maxCount * page4KB
    · -- the last block: nothing is left
      have heq : blockSize maxCount size = size := BitVec.eq_of_toNat_eq (by omega)
      rw [heq, BitVec.sub_self]
      exact List.append_nil _
    · -- a full block
      have hfull : (blockSize maxCount size).toNat = maxCount * page4KB := by omega
      have hpages : pagesOf (blockSize maxCount size) = maxCount := by
        unfold pagesOf page4KB at *
        omega
      have hcover : pagesOf size = maxCount + pagesOf (size - blockSize maxCount size) := by
        unfold pagesOf page4KB at *
        omega
      rw [ofNat_toNat_zeroExtend, hfull, pageBase_add, hpages, ← pageItems_add, ← hcover]

theorem rangeBlocks_items (gvaToGpa : U64 → U64) (permission : U32) {maxCount : Nat}
    (hpos : 0 < maxCount) (hmax : maxCount * page4KB + (page4KB - 1) < 2 ^ 32)
    (startAddr : U64) (size : U32) :
    (rangeBlocks maxCount startAddr size).flatMap (·.items gvaToGpa permission) =
      pageItems gvaToGpa permission (pagesOf size) (pageBase startAddr) :=
  blocksOf_items gvaToGpa permission hpos hmax size.toNat startAddr size (Nat.le_refl _)

theorem pages_le_of_mem_rangeBlocks {maxCount : Nat} {startAddr : U64} {size : U32}
    {b : MemoryBlock} (h : b ∈ rangeBlocks maxCount startAddr size) : b.pages ≤ maxCount :=
  pages_le_of_mem_blocksOf h

theorem rangeBlocks_ne_nil (maxCount : Nat) (startAddr : U64) {size : U32} (hsize : size ≠ 0) :
    rangeBlocks maxCount startAddr size ≠ [] := by
  have hne : size.toNat ≠ 0 := BitVec.toNat_ne.mp hsize
  obtain ⟨rounds, hrounds⟩ := Nat.exists_eq_succ_of_ne_zero hne
  unfold rangeBlocks
  rw [hrounds, blocksOf, if_neg hsize]
  exact List.cons_ne_nil _ _

/-- The requests of the blocks of a range all succeed. -/
theorem utilMonitorMemoryEx_of_succeeds (startAddr : U64) (size permission : U32) {fw : Framework}
    (h : fw.Succeeds (requestsOf (rangeBlocks fw.addrinfoMaxCount startAddr size))) :
    utilMonitorMemoryEx startAddr size permission fw =
      (if size = 0 then .error else .success,
        afterBlocks permission (rangeBlocks fw.addrinfoMaxCount startAddr size) fw) := by
  rw [utilMonitorMemoryEx_eq, monitorBlocks_of_succeeds permission _ .error
    (fun _ hb => pages_le_of_mem_rangeBlocks hb) h]
  by_cases hsize : size = 0
  · rw [if_pos hsize, hsize]
    rfl
  · rw [if_neg hsize, if_neg (rangeBlocks_ne_nil _ startAddr hsize)]

end IkgtUsage
