import IkgtUsage.Handler.LogPages

/-!
# The pages of a permission change

What `util_monitor_memory_ex` asks the framework for, on any range. The start is rounded down to
its page and the size up to whole pages, each on its own: a range that starts inside a page and
ends inside another one may lose its last page (`covers_range_iff`). The split into blocks is not
to blame: blocks of any length name the same pages (`same_pages_for_any_block_length`).

A failing request ends the loop, but the blocks before it have been updated by then
(`failed_change_iff`).
-/

namespace IkgtUsage

open Framework Lib

/-! ## What was asked for -/

/-- The items of a page permission update. -/
def ServiceCall.items : ServiceCall → List PageItem
  | .updatePagePermission items => items
  | _ => []

namespace Framework

/-- The calls made on the way from `fw` to `fw'`, oldest first. -/
def callsSince (fw fw' : Framework) : List ServiceCall :=
  ((fw'.calls.take (fw'.calls.length - fw.calls.length)).reverse).map (·.1)

/-- The pages whose permission they ask to change, in order. -/
def updatesSince (fw fw' : Framework) : List PageItem := (fw.callsSince fw').flatMap (·.items)

/-- The same framework with another `IKGT_ADDRINFO_MAX_COUNT`. -/
def withMaxCount (maxCount : Nat) (hpos : 0 < maxCount) (fw : Framework) : Framework :=
  { fw with addrinfoMaxCount := maxCount, addrinfoMaxCount_pos := hpos }

end Framework

theorem callsSince_afterBlocks (permission : U32) (bs : List MemoryBlock) (fw : Framework) :
    fw.callsSince (afterBlocks permission bs fw) =
      bs.map fun b => .updatePagePermission (b.items fw.env.gvaToGpa permission) := by
  unfold callsSince afterBlocks
  simp only [List.length_append, List.length_reverse, List.length_map, Nat.add_sub_cancel]
  rw [List.take_left' (by simp), List.reverse_reverse, List.map_map]
  rfl

/-- **All requests succeed**: the pages of the range, in order, whatever the blocks. -/
theorem utilMonitorMemoryEx_of_allSucceed (startAddr : U64) {size : U32} (permission : U32)
    {fw : Framework} (hall : fw.AllSucceed) (hsize : size ≠ 0)
    (hmax : fw.addrinfoMaxCount * page4KB + (page4KB - 1) < 2 ^ 32) :
    ∃ fw', utilMonitorMemoryEx startAddr size permission fw = (.success, fw') ∧
      fw.updatesSince fw' =
        pageItems fw.env.gvaToGpa permission (pagesOf size) (pageBase startAddr) ∧
      ∀ call ∈ fw.callsSince fw', call.items.length ≤ fw.addrinfoMaxCount := by
  have hcalls := callsSince_afterBlocks permission
    (rangeBlocks fw.addrinfoMaxCount startAddr size) fw
  refine ⟨afterBlocks permission (rangeBlocks fw.addrinfoMaxCount startAddr size) fw, ?_, ?_,
    fun call hcall => ?_⟩
  · rw [utilMonitorMemoryEx_of_succeeds startAddr size permission (hall.succeeds _),
      if_neg hsize]
  · rw [updatesSince, hcalls, List.flatMap_map,
      ← rangeBlocks_items fw.env.gvaToGpa permission fw.addrinfoMaxCount_pos hmax]
    rfl
  · rw [hcalls] at hcall
    obtain ⟨b, hb, rfl⟩ := List.mem_map.mp hcall
    have hlen : (b.items fw.env.gvaToGpa permission).length = b.pages := length_pageItems _ _ _ _
    exact hlen.le.trans (pages_le_of_mem_rangeBlocks hb)

/-! ## The pages of the range -/

/-- `page` is a 4 KB page that intersects `[startAddr, startAddr + size)`. -/
def Intersects (startAddr : U64) (size : U32) (page : U64) : Prop :=
  page.toNat % page4KB = 0 ∧ page.toNat < startAddr.toNat + size.toNat ∧
    startAddr.toNat < page.toNat + page4KB

instance (startAddr : U64) (size : U32) (page : U64) :
    Decidable (Intersects startAddr size page) :=
  inferInstanceAs (Decidable (_ ∧ _ ∧ _))

/-- Pages by their addresses, where the range does not wrap. -/
theorem inPages_iff {base : U64} (hbase : base.toNat % page4KB = 0) {pages : Nat}
    (hwrap : base.toNat + pages * page4KB ≤ 2 ^ 64) (page : U64) :
    InPages base pages page ↔ page.toNat % page4KB = 0 ∧ base.toNat ≤ page.toNat ∧
      page.toNat < base.toNat + pages * page4KB := by
  constructor
  · rintro ⟨i, hi, rfl⟩
    have hlt : i * page4KB + page4KB ≤ pages * page4KB := by
      rw [← Nat.succ_mul]
      exact Nat.mul_le_mul_right _ hi
    rw [BitVec.toNat_add, BitVec.toNat_ofNat]
    unfold page4KB at *
    omega
  · rintro ⟨halign, hle, hlt⟩
    refine ⟨(page.toNat - base.toNat) / page4KB, ?_, BitVec.eq_of_toNat_eq ?_⟩
    · unfold page4KB at *
      omega
    · have := page.isLt
      rw [BitVec.toNat_add, BitVec.toNat_ofNat]
      unfold page4KB at *
      omega

/-- **The pages from the start's on are the pages of the range** if and only if what the start and
the end stick out of whole pages fits into one page. -/
theorem inPages_iff_intersects {startAddr : U64} {size : U32} (hsize : size ≠ 0)
    (hwrap : startAddr.toNat + size.toNat ≤ 2 ^ 64) :
    (∀ page, InPages (pageBase startAddr) (pagesOf size) page ↔ Intersects startAddr size page) ↔
      startAddr.toNat % page4KB + (size.toNat - 1) % page4KB < page4KB := by
  have hne : size.toNat ≠ 0 := BitVec.toNat_ne.mp hsize
  have hbase := toNat_pageBase startAddr
  have hpages := @inPages_iff (pageBase startAddr) (by rw [hbase]; exact Nat.mul_mod_left _ _)
    (pagesOf size) (by rw [hbase]; unfold pagesOf page4KB; omega)
  rw [hbase] at hpages
  simp only [hpages, Intersects]
  constructor
  · intro h
    by_contra hover
    -- the page of the last byte
    have hlast := (h (pageBase (startAddr + (size - 1).zeroExtend 64))).mpr
    have hbyte : (startAddr + (size - 1).zeroExtend 64).toNat =
        startAddr.toNat + (size.toNat - 1) := by
      rw [ofNat_toNat_zeroExtend]
      bv_omega
    rw [toNat_pageBase, hbyte] at hlast
    unfold pagesOf page4KB at *
    omega
  · intro hfits page
    unfold pagesOf page4KB at *
    omega

/-- The pages for which the framework was asked to set the permission. -/
def Asked (permission : U32) (fw fw' : Framework) (page : U64) : Prop :=
  ∃ item ∈ fw.updatesSince fw', item.gva = page ∧ item.perms = permission

/-- The pages that are asked for where all requests succeed. -/
theorem asked_iff {permission : U32} {fw fw' : Framework} {gvaToGpa : U64 → U64} {pages : Nat}
    {base : U64} (h : fw.updatesSince fw' = pageItems gvaToGpa permission pages base) (page : U64) :
    Asked permission fw fw' page ↔ InPages base pages page := by
  unfold Asked
  rw [h, ← mem_gva_pageItems gvaToGpa permission, List.mem_map]
  refine exists_congr fun item => and_congr_right fun hitem => ?_
  exact and_iff_left (perms_of_mem_pageItems hitem)

/-- **A permission change covers its range** if and only if the start's offset in its page and the
bytes beyond the last whole page of the size fit into one page. -/
theorem covers_range_iff (startAddr : U64) {size : U32} (permission : U32) {fw : Framework}
    (hsize : 0 < size.toNat) (hwrap : startAddr.toNat + size.toNat ≤ 2 ^ 64)
    (hmax : fw.addrinfoMaxCount * page4KB ≤ 2 ^ 32 - page4KB) (hall : fw.AllSucceed) :
    let r := utilMonitorMemoryEx startAddr size permission fw
    (r.1 = .success ∧
        ∀ page, Asked permission fw r.2 page ↔ Intersects startAddr size page) ↔
      startAddr.toNat % page4KB + (size.toNat - 1) % page4KB < page4KB := by
  have hne : size ≠ 0 := by
    rintro rfl
    exact absurd hsize (by decide)
  obtain ⟨fw', heq, hupdates, -⟩ := utilMonitorMemoryEx_of_allSucceed startAddr permission hall hne
    (by unfold page4KB at *; omega)
  simp only [heq, true_and, asked_iff hupdates]
  exact inPages_iff_intersects hne hwrap

/-- A framework that takes two pages in a request. -/
def twoPages : Framework := .withMaxCount 2 (by decide) .atBoot

/-- A range that is covered: it begins and ends within a page, and takes two requests. -/
theorem covers_range_iff_three_pages :
    let r := utilMonitorMemoryEx 0x1010 0x2010 1 twoPages
    (twoPages.callsSince r.2).map (fun call => call.items.map PageItem.gva) =
        [[0x1000, 0x2000], [0x3000]] ∧
      ((r.1 = .success ∧ ∀ page, Asked 1 twoPages r.2 page ↔ Intersects 0x1010 0x2010 page) ↔
        (0x1010 : U64).toNat % page4KB + ((0x2010 : U32).toNat - 1) % page4KB < page4KB) :=
  ⟨by decide, covers_range_iff 0x1010 1 (by decide) (by decide) (by decide) fun _ _ => rfl⟩

/-- **The last page missed.** Two bytes on both sides of a page boundary: the framework is not
asked for the second page. -/
theorem last_page_missed :
    ¬ ((utilMonitorMemoryEx 0x1FFF 2 1 .atBoot).1 = .success ∧
      ∀ page, Asked 1 .atBoot (utilMonitorMemoryEx 0x1FFF 2 1 .atBoot).2 page ↔
        Intersects 0x1FFF 2 page) := by
  rintro ⟨-, h⟩
  obtain ⟨item, hitem, hgva, -⟩ := (h 0x2000).mpr (by decide)
  have hpages : Framework.atBoot.updatesSince (utilMonitorMemoryEx 0x1FFF 2 1 .atBoot).2 =
      [⟨0x1000, 0x1000, 1⟩] := by decide
  rw [hpages, List.mem_singleton] at hitem
  rw [hitem] at hgva
  exact absurd hgva (by decide)

/-! ## The split into blocks -/

/-- A range of at most `2 ^ 20` pages names each page once. -/
theorem nodup_gva_pageItems (gvaToGpa : U64 → U64) (permission : U32) {pages : Nat}
    (hpages : pages ≤ 2 ^ 20) (page : U64) :
    ((pageItems gvaToGpa permission pages page).map (·.gva)).Nodup := by
  induction pages generalizing page with
  | zero => exact List.nodup_nil
  | succ pages ih =>
    rw [pageItems, List.map_cons, List.nodup_cons, mem_gva_pageItems]
    refine ⟨?_, ih (by omega) (page + 4096)⟩
    rintro ⟨i, hi, heq⟩
    have hsum : (page + 4096 + BitVec.ofNat 64 (i * page4KB)).toNat =
        (page.toNat + (i + 1) * page4KB) % 2 ^ 64 := by
      rw [BitVec.toNat_add, BitVec.toNat_add, BitVec.toNat_ofNat]
      unfold page4KB
      change ((page.toNat + 4096) % 2 ^ 64 + i * 4096 % 2 ^ 64) % 2 ^ 64 = _
      omega
    have hpage : page.toNat = (page.toNat + (i + 1) * 4096) % 2 ^ 64 :=
      (congrArg BitVec.toNat heq).trans hsum
    have := page.isLt
    omega

theorem pagesOf_le (size : U32) : pagesOf size ≤ 2 ^ 20 := by
  have := size.isLt
  unfold pagesOf page4KB
  omega

/-- **The blocks do not matter.** For any two values of `IKGT_ADDRINFO_MAX_COUNT` the loop ends with
the same pages updated in the same order, each once; no update takes more pages than the limit; and
they are the pages of one call of `util_monitor_memory` that takes them all. -/
theorem same_pages_for_any_block_length (startAddr : U64) {size : U32} (permission : U32)
    {fw : Framework} (hsize : 0 < size.toNat) (hall : fw.AllSucceed) {N M : Nat} (hN : 0 < N)
    (hM : 0 < M) (hNmax : N * page4KB ≤ 2 ^ 32 - page4KB) (hMmax : M * page4KB ≤ 2 ^ 32 - page4KB) :
    ∃ items fwN fwM,
      Ends (MemoryLoop.pass permission) ⟨startAddr, size, .error, fw.withMaxCount N hN⟩
        (.success, fwN) ∧
      Ends (MemoryLoop.pass permission) ⟨startAddr, size, .error, fw.withMaxCount M hM⟩
        (.success, fwM) ∧
      (fw.withMaxCount N hN).updatesSince fwN = items ∧
      (fw.withMaxCount M hM).updatesSince fwM = items ∧
      (∀ item ∈ items, item.perms = permission) ∧ (items.map (·.gva)).Nodup ∧
      (∀ call ∈ (fw.withMaxCount N hN).callsSince fwN, call.items.length ≤ N) ∧
      (∀ call ∈ (fw.withMaxCount M hM).callsSince fwM, call.items.length ≤ M) ∧
      (size.toNat ≤ 2 ^ 32 - page4KB → ∀ K (hK : 0 < K), pagesOf size ≤ K →
        ∃ fwK, utilMonitorMemory startAddr size permission (fw.withMaxCount K hK) =
            (.success, fwK) ∧
          (fw.withMaxCount K hK).updatesSince fwK = items) := by
  have hne : size ≠ 0 := by
    rintro rfl
    exact absurd hsize (by decide)
  have hone {N : Nat} (hN : 0 < N) (hNmax : N * page4KB ≤ 2 ^ 32 - page4KB) :=
    @utilMonitorMemoryEx_of_allSucceed startAddr size permission (fw.withMaxCount N hN) hall hne
      (show N * page4KB + (page4KB - 1) < 2 ^ 32 by unfold page4KB at *; omega)
  obtain ⟨fwN, heqN, hitemsN, hlimitN⟩ := hone hN hNmax
  obtain ⟨fwM, heqM, hitemsM, hlimitM⟩ := hone hM hMmax
  have hends {N : Nat} (hN : 0 < N) (hNmax : N * page4KB ≤ 2 ^ 32 - page4KB) :=
    @utilMonitorMemoryEx_ends startAddr size permission (fw.withMaxCount N hN)
      (ikgtMemoryMaxBlockSize_ne_zero hN
        (show N * page4KB + (page4KB - 1) < 2 ^ 32 by unfold page4KB at *; omega))
  refine ⟨_, fwN, fwM, heqN ▸ hends hN hNmax, heqM ▸ hends hM hMmax, hitemsN, hitemsM,
    fun item hitem => perms_of_mem_pageItems hitem,
    nodup_gva_pageItems _ _ (pagesOf_le size) _, hlimitN, hlimitM, fun hmax K hK hfits => ?_⟩
  have hcount : pageCount size = pagesOf size :=
    pageCount_eq_pagesOf (by unfold page4KB at *; omega)
  refine ⟨_, @utilMonitorMemory_of_succeeds startAddr size permission (fw.withMaxCount K hK)
    (hcount ▸ hfits) (AllSucceed.succeeds hall _), ?_⟩
  rw [hcount]
  unfold updatesSince callsSince record
  simp [skip, withMaxCount, ServiceCall.items]

/-- Five pages, in blocks of one and of two. -/
theorem same_pages_for_blocks_of_one_and_two :
    ∃ items fwN fwM,
      Ends (MemoryLoop.pass 1)
        ⟨0x1FFF, 0x5000, .error, Framework.atBoot.withMaxCount 1 (by decide)⟩ (.success, fwN) ∧
      Ends (MemoryLoop.pass 1)
        ⟨0x1FFF, 0x5000, .error, Framework.atBoot.withMaxCount 2 (by decide)⟩ (.success, fwM) ∧
      (Framework.atBoot.withMaxCount 1 (by decide)).updatesSince fwN = items ∧
      (Framework.atBoot.withMaxCount 2 (by decide)).updatesSince fwM = items := by
  obtain ⟨items, fwN, fwM, hN, hM, hitemsN, hitemsM, -⟩ :=
    same_pages_for_any_block_length 0x1FFF 1 (show 0 < (0x5000 : U32).toNat by decide)
      (show Framework.atBoot.AllSucceed from fun _ _ => rfl) (show 0 < 1 by decide)
      (show 0 < 2 by decide) (by decide) (by decide)
  exact ⟨items, fwN, fwM, hN, hM, hitemsN, hitemsM⟩

/-! ## A request that fails -/

/-- The permission of a page after some calls, from its permission at boot. -/
def permissionIn (atBoot : U64 → U32) (page : U64) (calls : List (ServiceCall × IkgtStatus)) :
    U32 := (pagePermission page calls).getD (atBoot page)

theorem NoUpdate.pagePermission {fw fw' : Framework} (h : NoUpdate fw fw') (page : U64) :
    pagePermission page fw'.calls = pagePermission page fw.calls := by
  cases h with
  | skip => rfl
  | failed n items hfail => exact if_neg hfail

/-- The first of `n` steps at which the requests stop to succeed. -/
theorem Framework.exists_first_failure {fw : Framework} (f : Nat → Nat) (hzero : f 0 = 0) :
    ∀ n, ¬ fw.Succeeds (f n) → ∃ k < n, fw.Succeeds (f k) ∧ ¬ fw.Succeeds (f (k + 1))
  | 0, hfail => by
    rw [hzero] at hfail
    exact absurd (succeeds_zero fw) hfail
  | n + 1, hfail => by
    by_cases h : fw.Succeeds (f n)
    · exact ⟨n, Nat.lt_succ_self n, h, hfail⟩
    · obtain ⟨k, hk, hfirst⟩ := exists_first_failure f hzero n h
      exact ⟨k, hk.trans (Nat.lt_succ_self n), hfirst⟩

theorem requestsOf_take_mono (bs : List MemoryBlock) {m n : Nat} (h : m ≤ n) :
    requestsOf (bs.take m) ≤ requestsOf (bs.take n) := by
  have hsplit := List.take_append_drop m (bs.take n)
  rw [List.take_take, Nat.min_eq_left h] at hsplit
  rw [← hsplit]
  unfold requestsOf
  rw [List.map_append, List.sum_append]
  exact Nat.le_add_right _ _

/-- There is one first failure. -/
theorem first_failure_unique {fw : Framework} {bs : List MemoryBlock} {k k' : Nat}
    (h : fw.Succeeds (requestsOf (bs.take k)))
    (hfail : ¬ fw.Succeeds (requestsOf (bs.take (k + 1))))
    (h' : fw.Succeeds (requestsOf (bs.take k')))
    (hfail' : ¬ fw.Succeeds (requestsOf (bs.take (k' + 1)))) : k = k' := by
  rcases Nat.lt_trichotomy k k' with hlt | heq | hgt
  · exact absurd (h'.mono (requestsOf_take_mono bs hlt)) hfail
  · exact heq
  · exact absurd (h.mono (requestsOf_take_mono bs hgt)) hfail'

/-- **Where the first failure is in block `k`**, the blocks before it keep their update. -/
theorem utilMonitorMemoryEx_of_fails (startAddr : U64) (size permission : U32) {fw : Framework}
    {k : Nat}
    (h : fw.Succeeds (requestsOf ((rangeBlocks fw.addrinfoMaxCount startAddr size).take k)))
    (hfail : ¬ fw.Succeeds
      (requestsOf ((rangeBlocks fw.addrinfoMaxCount startAddr size).take (k + 1)))) :
    (utilMonitorMemoryEx startAddr size permission fw).1 ≠ .success ∧
      ∀ page, pagePermission page (utilMonitorMemoryEx startAddr size permission fw).2.calls =
        if InBlocks ((rangeBlocks fw.addrinfoMaxCount startAddr size).take k) page then
          some permission
        else pagePermission page fw.calls := by
  obtain ⟨status, fw', heq, hstatus, hnone⟩ := monitorBlocks_of_fails permission k _ .error
    (fun _ hb => pages_le_of_mem_rangeBlocks hb) h hfail
  rw [utilMonitorMemoryEx_eq, heq]
  refine ⟨hstatus, fun page => ?_⟩
  rw [hnone.pagePermission page]
  have hupd := updates_afterBlocks permission
    ((rangeBlocks fw.addrinfoMaxCount startAddr size).take k) fw
  split
  · rename_i hpage
    exact hupd.updated page hpage
  · rename_i hpage
    exact hupd.kept page hpage

/-- The rounds of the loop, in which a failed change changes nothing if and only if every page of
the blocks before the one with the first failing request had the permission already. -/
theorem utilMonitorMemoryEx_failed_iff (atBoot : U64 → U32) (startAddr : U64)
    (size permission : U32) (fw : Framework) :
    let r := utilMonitorMemoryEx startAddr size permission fw
    let blocks := rangeBlocks fw.addrinfoMaxCount startAddr size
    (r.1 ≠ .success →
        ∀ page, permissionIn atBoot page r.2.calls = permissionIn atBoot page fw.calls) ↔
      ∀ k, fw.Succeeds (requestsOf (blocks.take k)) →
        ¬ fw.Succeeds (requestsOf (blocks.take (k + 1))) →
        ∀ page, InBlocks (blocks.take k) page → permissionIn atBoot page fw.calls = permission := by
  intro r blocks
  by_cases hall : fw.Succeeds (requestsOf blocks)
  · -- no request fails: the change goes through, or there is nothing to change
    have heq : r = (if size = 0 then .error else .success, afterBlocks permission blocks fw) :=
      utilMonitorMemoryEx_of_succeeds startAddr size permission hall
    refine iff_of_true (fun hfail page => ?_) fun k _ hfail => ?_
    · by_cases hsize : size = 0
      · have hblocks : blocks = [] := by
          unfold blocks
          rw [hsize]
          rfl
        rw [heq, hblocks]
        rfl
      · rw [heq, if_neg hsize] at hfail
        exact absurd rfl hfail
    · refine absurd (hall.mono ?_) hfail
      have hle := requestsOf_take_mono blocks (Nat.le_max_left (k + 1) blocks.length)
      rwa [List.take_of_length_le (Nat.le_max_right (k + 1) blocks.length)] at hle
  · obtain ⟨k, -, hdone, hfail⟩ := exists_first_failure (fun k => requestsOf (blocks.take k)) rfl
      blocks.length (by rwa [List.take_length])
    obtain ⟨hstatus, hpages⟩ := utilMonitorMemoryEx_of_fails startAddr size permission hdone hfail
    have hiff (page : U64) :
        permissionIn atBoot page r.2.calls = permissionIn atBoot page fw.calls ↔
        (InBlocks (blocks.take k) page → permissionIn atBoot page fw.calls = permission) := by
      unfold permissionIn
      rw [hpages]
      by_cases hpage : InBlocks (blocks.take k) page
      · rw [if_pos hpage, Option.getD_some]
        exact ⟨fun h _ => h.symm, fun h => (h hpage).symm⟩
      · rw [if_neg hpage]
        exact iff_of_true rfl fun h => absurd h hpage
    constructor
    · intro h k' hdone' hfail' page hpage
      rw [← first_failure_unique hdone hfail hdone' hfail'] at hpage
      exact (hiff page).mp (h hstatus page) hpage
    · intro h _ page
      exact (hiff page).mpr (h k hdone hfail page)

/-- Empty blocks change no page, however many there are. -/
theorem pagePermission_of_empty {permission : U32} {l : MemoryLoop} {r : IkgtStatus × Framework}
    (h : Ends (MemoryLoop.pass permission) l r)
    (hmax : ikgtMemoryMaxBlockSize l.fw.addrinfoMaxCount = 0) (page : U64) :
    pagePermission page r.2.calls = pagePermission page l.fw.calls := by
  induction h with
  | leave hr => exact (MemoryLoop.noUpdate_of_empty permission hmax hr).pagePermission page
  | again hl' _ ih =>
    obtain ⟨-, rfl⟩ := MemoryLoop.again_of_empty permission hmax hl'
    exact ih hmax

/-- **A failed change changes nothing** if and only if every page of the blocks before the one with
the first failing request had the permission already. The loop is that of the source, which where
the blocks are empty may go on for ever. -/
theorem failed_change_iff (atBoot : U64 → U32) (startAddr : U64) (size permission : U32)
    (fw : Framework) :
    let blocks := rangeBlocks fw.addrinfoMaxCount startAddr size
    (∀ r, Ends (MemoryLoop.pass permission) ⟨startAddr, size, .error, fw⟩ r → r.1 ≠ .success →
        ∀ page, permissionIn atBoot page r.2.calls = permissionIn atBoot page fw.calls) ↔
      ∀ k, fw.Succeeds (requestsOf (blocks.take k)) →
        ¬ fw.Succeeds (requestsOf (blocks.take (k + 1))) →
        ∀ page, InBlocks (blocks.take k) page → permissionIn atBoot page fw.calls = permission := by
  intro blocks
  by_cases hmax : ikgtMemoryMaxBlockSize fw.addrinfoMaxCount = 0
  · refine iff_of_true (fun r hr _ page => ?_) fun k _ _ page hpage => ?_
    · unfold permissionIn
      rw [pagePermission_of_empty hr hmax]
    · obtain ⟨b, hb, hpage⟩ := hpage
      rw [pages_eq_zero_of_empty hmax (List.mem_of_mem_take hb)] at hpage
      exact absurd hpage (not_inPages_zero _ _)
  · rw [(utilMonitorMemoryEx_ends startAddr size permission hmax).forall_iff]
    exact utilMonitorMemoryEx_failed_iff atBoot startAddr size permission fw

/-- **A failed change that changes a page.** Two pages in blocks of one page; the allocation for
the second block fails when the first page is updated already. -/
theorem first_block_changed :
    let fw : Framework :=
      { Framework.atBoot with
        env := { Surroundings.cooperative with
          outcome := fun n => if n = 4 then .allocateFailed else .success }
        addrinfoMaxCount := 1
        addrinfoMaxCount_pos := by decide }
    ¬ ∀ r, Ends (MemoryLoop.pass 1) ⟨0x1000, 0x2000, .error, fw⟩ r → r.1 ≠ .success →
      ∀ page, permissionIn (fun _ => 7) page r.2.calls =
        permissionIn (fun _ => 7) page fw.calls := by
  intro fw h
  have hends : Ends (MemoryLoop.pass 1) ⟨0x1000, 0x2000, .error, fw⟩
      (utilMonitorMemoryEx 0x1000 0x2000 1 fw) :=
    utilMonitorMemoryEx_ends 0x1000 0x2000 1 (by decide)
  exact absurd (h _ hends (by decide) 0x1000) (by decide)

end IkgtUsage
