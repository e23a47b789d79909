import IkgtUsage.Handler.PageRequests

/-!
# The permissions that `util_monitor_memory_ex` leaves

The permission of a page is what the last successful update that names it asked for. A range of
`n` pages from an address is `InPages`; addresses are 64 bit numbers and the range may wrap.
`util_monitor_memory_ex` works in blocks; where every request succeeds, it gives its permission to
the pages of the range and leaves the others as they were (`updates_utilMonitorMemoryEx`).
-/

namespace IkgtUsage

open Framework

/-! ## The permission of a page -/

/-- What a service call sets the permission of a page to, if it names the page: its last item
counts. -/
def ServiceCall.permissionOf (page : U64) : ServiceCall → Option U32
  | updatePagePermission items => (items.reverse.find? (·.gva = page)).map (·.perms)
  | _ => none

/-- The permission of a page after some calls (newest first): failed ones change nothing. -/
def pagePermission (page : U64) : List (ServiceCall × IkgtStatus) → Option U32
  | [] => none
  | (call, status) :: calls =>
    if status = .success then (call.permissionOf page).or (pagePermission page calls)
    else pagePermission page calls

/-- `page` is one of the `n` pages from an address. -/
def InPages (startAddr : U64) (n : Nat) (page : U64) : Prop :=
  ∃ i < n, page = startAddr + BitVec.ofNat 64 (i * page4KB)

instance (startAddr : U64) (n : Nat) (page : U64) : Decidable (InPages startAddr n page) :=
  inferInstanceAs (Decidable (∃ i < n, page = startAddr + BitVec.ofNat 64 (i * page4KB)))

@[simp] theorem not_inPages_zero (startAddr page : U64) : ¬ InPages startAddr 0 page :=
  fun ⟨_, hi, _⟩ => absurd hi (Nat.not_lt_zero _)

/-- The first page and the rest. -/
theorem inPages_succ (startAddr : U64) (n : Nat) (page : U64) :
    InPages startAddr (n + 1) page ↔ page = startAddr ∨ InPages (startAddr + 4096) n page := by
  have hnext (i : Nat) : startAddr + BitVec.ofNat 64 ((i + 1) * page4KB) =
      startAddr + 4096 + BitVec.ofNat 64 (i * page4KB) := by
    rw [Nat.succ_mul, Nat.add_comm, BitVec.ofNat_add, BitVec.add_assoc]
    rfl
  constructor
  · rintro ⟨i, hi, rfl⟩
    cases i with
    | zero => exact Or.inl (by simp)
    | succ i => exact Or.inr ⟨i, Nat.lt_of_succ_lt_succ hi, hnext i⟩
  · rintro (rfl | ⟨i, hi, rfl⟩)
    · exact ⟨0, Nat.succ_pos n, by simp⟩
    · exact ⟨i + 1, Nat.succ_lt_succ hi, (hnext i).symm⟩

/-- The items of a range name its pages. -/
theorem mem_gva_pageItems (gvaToGpa : U64 → U64) (permission : U32) (pages : Nat)
    (startAddr page : U64) :
    page ∈ (pageItems gvaToGpa permission pages startAddr).map (·.gva) ↔
      InPages startAddr pages page := by
  induction pages generalizing startAddr with
  | zero => simp [pageItems]
  | succ pages ih => rw [pageItems, List.map_cons, List.mem_cons, ih, inPages_succ]

/-- They all ask for one permission. -/
theorem perms_of_mem_pageItems {gvaToGpa : U64 → U64} {permission : U32} {pages : Nat}
    {startAddr : U64} {item : PageItem}
    (h : item ∈ pageItems gvaToGpa permission pages startAddr) : item.perms = permission := by
  induction pages generalizing startAddr with
  | zero => exact absurd h List.not_mem_nil
  | succ pages ih =>
    rcases List.mem_cons.mp h with rfl | h
    · rfl
    · exact ih h

/-! ## Updates -/

/-- Every request from now on succeeds. -/
def Framework.AllSucceed (fw : Framework) : Prop :=
  ∀ n, fw.requests ≤ n → fw.env.outcome n = .success

/-- Going from `fw` to `fw'`, the pages with `P` get the permission; the others keep theirs. -/
structure Updates (permission : U32) (P : U64 → Prop) (fw fw' : Framework) : Prop where
  env : fw'.env = fw.env
  addrinfoMaxCount : fw'.addrinfoMaxCount = fw.addrinfoMaxCount
  requests : fw.requests ≤ fw'.requests
  updated : ∀ page, P page → pagePermission page fw'.calls = some permission
  kept : ∀ page, ¬ P page → pagePermission page fw'.calls = pagePermission page fw.calls

namespace Updates

variable {permission : U32} {P Q : U64 → Prop} {fw fw' fw'' : Framework}

theorem refl (permission : U32) (fw : Framework) : Updates permission (fun _ => False) fw fw :=
  ⟨rfl, rfl, Nat.le_refl _, fun _ h => h.elim, fun _ _ => rfl⟩

/-- The same pages, said in another way. -/
theorem congr (h : Updates permission P fw fw') (hiff : ∀ page, P page ↔ Q page) :
    Updates permission Q fw fw' :=
  ⟨h.env, h.addrinfoMaxCount, h.requests, fun page hq => h.updated page ((hiff page).mpr hq),
    fun page hq => h.kept page fun hp => hq ((hiff page).mp hp)⟩

/-- One update after another. -/
theorem trans (h : Updates permission P fw fw') (h' : Updates permission Q fw' fw'') :
    Updates permission (fun page => P page ∨ Q page) fw fw'' where
  env := h'.env.trans h.env
  addrinfoMaxCount := h'.addrinfoMaxCount.trans h.addrinfoMaxCount
  requests := Nat.le_trans h.requests h'.requests
  updated := by
    intro page hpage
    by_cases hq : Q page
    · exact h'.updated page hq
    · rw [h'.kept page hq]
      exact h.updated page (hpage.resolve_right hq)
  kept := by
    intro page hpage
    obtain ⟨hp, hq⟩ := not_or.mp hpage
    rw [h'.kept page hq, h.kept page hp]

/-- Requests that change nothing else. -/
theorem skip (permission : U32) (n : Nat) (fw : Framework) :
    Updates permission (fun _ => False) fw (fw.skip n) :=
  ⟨rfl, rfl, Nat.le_add_right _ _, fun _ h => h.elim, fun _ _ => rfl⟩

end Updates

theorem Framework.AllSucceed.succeeds {fw : Framework} (h : fw.AllSucceed) (n : Nat) :
    fw.Succeeds n := fun _ _ => h _ (Nat.le_add_right _ _)

/-- Items that all ask for one permission. -/
theorem permissionOf_updatePagePermission {permission : U32} {items : List PageItem}
    (hperms : ∀ item ∈ items, item.perms = permission) (page : U64) :
    (ServiceCall.updatePagePermission items).permissionOf page =
      if page ∈ items.map (·.gva) then some permission else none := by
  rw [ServiceCall.permissionOf]
  cases hfind : items.reverse.find? (·.gva = page) with
  | none =>
    rw [if_neg]
    · rfl
    · intro hpage
      obtain ⟨item, hitem, hgva⟩ := List.mem_map.mp hpage
      exact List.find?_eq_none.mp hfind item (List.mem_reverse.mpr hitem) (by simpa using hgva)
  | some item =>
    have hitem : item ∈ items := List.mem_reverse.mp (List.mem_of_find?_eq_some hfind)
    have hgva : item.gva = page := by simpa using List.find?_some hfind
    rw [if_pos (List.mem_map.mpr ⟨item, hitem, hgva⟩)]
    exact congrArg some (hperms item hitem)

/-- A call that succeeds gives its permission to its pages. -/
theorem updates_record (gvaToGpa : U64 → U64) (permission : U32) (pages : Nat) (startAddr : U64)
    (fw : Framework) :
    Updates permission (InPages startAddr pages) fw
      (fw.record (.updatePagePermission (pageItems gvaToGpa permission pages startAddr))
        .success) := by
  have hperms : ∀ item ∈ pageItems gvaToGpa permission pages startAddr,
      item.perms = permission := fun _ hitem => perms_of_mem_pageItems hitem
  have hcall (page : U64) := permissionOf_updatePagePermission hperms page
  simp only [mem_gva_pageItems] at hcall
  refine ⟨rfl, rfl, Nat.le_refl _, fun page hpage => ?_, fun page hpage => ?_⟩
  · unfold record
    rw [pagePermission, if_pos rfl, hcall, if_pos hpage]
    rfl
  · unfold record
    rw [pagePermission, if_pos rfl, hcall, if_neg hpage]
    rfl

/-! ## Blocks of a range -/

/-- `page` is one of the pages of the blocks. -/
def InBlocks (bs : List MemoryBlock) (page : U64) : Prop :=
  ∃ b ∈ bs, InPages (pageBase b.startAddr) b.pages page

instance (bs : List MemoryBlock) (page : U64) : Decidable (InBlocks bs page) :=
  inferInstanceAs (Decidable (∃ b ∈ bs, InPages (pageBase b.startAddr) b.pages page))

/-- The pages of blocks are those their items name. -/
theorem inBlocks_iff_mem (gvaToGpa : U64 → U64) (permission : U32) (bs : List MemoryBlock)
    (page : U64) :
    InBlocks bs page ↔ page ∈ (bs.flatMap (·.items gvaToGpa permission)).map (·.gva) := by
  rw [List.map_flatMap, List.mem_flatMap]
  refine exists_congr fun b => and_congr_right fun _ => ?_
  exact (mem_gva_pageItems gvaToGpa permission b.pages (pageBase b.startAddr) page).symm

/-- **Blocks whose requests all succeed** give their permission to their pages. -/
theorem updates_afterBlocks (permission : U32) :
    ∀ (bs : List MemoryBlock) (fw : Framework),
      Updates permission (InBlocks bs) fw (afterBlocks permission bs fw)
  | [], fw => (Updates.refl permission fw).congr fun page => by simp [InBlocks]
  | b :: bs, fw => by
    rw [afterBlocks_cons]
    have hblock := (Updates.skip permission b.requests fw).trans
      (updates_record fw.env.gvaToGpa permission b.pages (pageBase b.startAddr)
        (fw.skip b.requests))
    refine (hblock.trans (updates_afterBlocks permission bs _)).congr fun page => ?_
    simp [InBlocks]

/-- The blocks of a range are the range, from the page of its start on. -/
theorem inBlocks_rangeBlocks {maxCount : Nat} (hpos : 0 < maxCount)
    (hmax : maxCount * page4KB + (page4KB - 1) < 2 ^ 32) (startAddr : U64) (size : U32)
    (page : U64) :
    InBlocks (rangeBlocks maxCount startAddr size) page ↔
      InPages (pageBase startAddr) (pagesOf size) page := by
  rw [inBlocks_iff_mem id 0, rangeBlocks_items id 0 hpos hmax, mem_gva_pageItems]

/-- **`util_monitor_memory_ex`** gives the permission to the pages of the range. -/
theorem updates_utilMonitorMemoryEx {startAddr : U64} (size permission : U32) (fw : Framework)
    (hall : fw.AllSucceed) (halign : startAddr.toNat % page4KB = 0)
    (hmax : fw.addrinfoMaxCount * page4KB + (page4KB - 1) < 2 ^ 32) :
    Updates permission (InPages startAddr (pagesOf size)) fw
      (utilMonitorMemoryEx startAddr size permission fw).2 := by
  rw [utilMonitorMemoryEx_of_succeeds startAddr size permission (hall.succeeds _)]
  refine (updates_afterBlocks permission _ fw).congr fun page => ?_
  rw [inBlocks_rangeBlocks fw.addrinfoMaxCount_pos hmax, pageBase_eq_self halign]

end IkgtUsage
