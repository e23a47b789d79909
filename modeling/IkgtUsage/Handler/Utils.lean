import IkgtUsage.Handler.Framework

/-!
# `handler/utils.c`: register access, page permissions, monitoring

Each function allocates a parameter block before it calls the framework, so it makes two requests
where the call succeeds and one where the allocation fails.

`utilMonitorMemoryEx` splits a range into blocks of at most `IKGT_ADDRINFO_MAX_COUNT` pages. Unless
`IKGT_MEMORY_MAX_BLOCK_SIZE` is 0, its loop takes at least one byte off the size per block, so
`size` rounds are enough; the rounds are the recursion argument. The constant is 0 where the product
that it stands for does not fit 32 bits and wraps to it. Then all blocks are empty and only a
request that fails ends the loop of the source (`memoryLoop_ends_iff`), while the rounds here stop.
-/

namespace IkgtUsage

open Framework

/-! ## Guest registers -/

/-- `read_guest_reg(reg_id, &value)`: the value is `0` where the read fails. -/
def readGuestReg (regId : VmcsReg) (fw : Framework) : IkgtStatus × U64 × Framework :=
  let (allocated, fw) := ikgtMalloc fw
  if allocated then
    let (status, value, fw) := ikgtReadGuestRegisters regId fw
    (status, if status = .success then value else 0, fw)
  else (.error, 0, fw)

/-- `write_guest_reg(reg_id, value)`. -/
def writeGuestReg (regId : VmcsReg) (value : U64) (fw : Framework) : IkgtStatus × Framework :=
  let (allocated, fw) := ikgtMalloc fw
  if allocated then ikgtWriteGuestRegisters regId value fw
  else (.error, fw)

/-- `get_ikgt_vmcs_guest_reg_id` with `g_cpu_reg_id_map_table`: `none` is the error status. -/
def getIkgtVmcsGuestRegId : IkgtCpuReg → Option VmcsReg
  | .gp r => some (.gp r)
  | .cr0 => some .cr0
  | .cr3 => some .cr3
  | .cr4 => some .cr4
  | .unknown | .other _ => none

/-! ## Page permissions -/

/-- `PAGE_ALIGN_4K(x)`, in 32-bit arithmetic. -/
def pageAlign4K (x : U32) : U32 := (x + 4096 - 1) &&& ~~~(4096 - 1)

/-- The translation loop of `util_monitor_memory`: `pages` pages from `startAddr`, the items
collected so far in `items`. -/
def translatePages (permission : U32) :
    Nat → U64 → List PageItem → Framework → IkgtStatus × List PageItem × Framework
  | 0, _, items, fw => (.success, items, fw)
  | pages + 1, startAddr, items, fw =>
    let status := fw.nextOutcome
    if status = .success then
      translatePages permission pages (startAddr + 4096)
        (items ++ [⟨startAddr, fw.env.gvaToGpa startAddr, permission⟩]) fw.tick
    else (status, items, fw.tick)

/-- `util_monitor_memory` after its allocations: translate every page, then one update for all. -/
def updatePages (permission : U32) (pages : Nat) (startAddr : U64) (fw : Framework) :
    IkgtStatus × Framework :=
  let (status, items, fw) := translatePages permission pages startAddr [] fw
  if status = .success then callService (.updatePagePermission items) fw
  else (status, fw)

/-- `util_monitor_memory`. -/
def utilMonitorMemory (startAddr : U64) (size permission : U32) (fw : Framework) :
    IkgtStatus × Framework :=
  let startAddr := startAddr &&& ~~~(4096 - 1)
  let pages := (pageAlign4K size >>> 12).toNat
  if fw.addrinfoMaxCount < pages then (.error, fw)
  else
    let (allocated, fw) := ikgtMalloc fw
    if !allocated then (.allocateFailed, fw)
    else
      let (allocated, fw) := ikgtMalloc fw
      if !allocated then (.allocateFailed, fw)
      else updatePages permission pages startAddr fw

/-- `IKGT_MEMORY_MAX_BLOCK_SIZE`, in 32-bit arithmetic. -/
def ikgtMemoryMaxBlockSize (maxCount : Nat) : U32 := BitVec.ofNat 32 (maxCount * page4KB)

/-- The size of the next block, `min(size, IKGT_MEMORY_MAX_BLOCK_SIZE)`. -/
def blockSize (maxCount : Nat) (size : U32) : U32 :=
  if size < ikgtMemoryMaxBlockSize maxCount then size else ikgtMemoryMaxBlockSize maxCount

/-- The block loop of `util_monitor_memory_ex`: at most `rounds` blocks, `status` from the last. -/
def monitorMemoryBlocks (permission : U32) :
    Nat → U64 → U32 → IkgtStatus → Framework → IkgtStatus × Framework
  | 0, _, _, status, fw => (status, fw)
  | rounds + 1, startAddr, size, status, fw =>
    if size = 0 then (status, fw)
    else
      let blksize := blockSize fw.addrinfoMaxCount size
      let (status, fw) := utilMonitorMemory startAddr blksize permission fw
      if status = .success then
        monitorMemoryBlocks permission rounds (startAddr + blksize.zeroExtend 64)
          (size - blksize) status fw
      else (status, fw)

/-- `util_monitor_memory_ex`. -/
def utilMonitorMemoryEx (startAddr : U64) (size permission : U32) (fw : Framework) :
    IkgtStatus × Framework :=
  monitorMemoryBlocks permission size.toNat startAddr size .error fw

/-! ## Monitoring -/

/-- `util_monitor_cpu_events`: the mask is set for CR0 and CR4 only. -/
def utilMonitorCpuEvents (cpuBitmap0 cpuBitmap1 mask : U64) (reg : IkgtCpuReg) (enable : Bool)
    (fw : Framework) : IkgtStatus × Framework :=
  let (allocated, fw) := ikgtMalloc fw
  if allocated then
    let crxMask := if reg = .cr0 ∨ reg = .cr4 then mask else 0
    callService (.monitorCpuEvents reg crxMask cpuBitmap0 cpuBitmap1 enable) fw
  else (.allocateFailed, fw)

/-- `util_monitor_msr`. -/
def utilMonitorMsr (msrId : U32) (enable : Bool) (fw : Framework) : IkgtStatus × Framework :=
  let (allocated, fw) := ikgtMalloc fw
  if allocated then callService (.monitorMsrWrites msrId enable) fw
  else (.allocateFailed, fw)

end IkgtUsage
