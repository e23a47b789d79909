import IkgtUsage.Handler.Utils
import IkgtUsage.Handler.Table

/-!
# The state of the handler

One record holds the globals of the handler's modules, the response field of the event under way
and the framework. A handler function is a function on this state.

Left out: the event counters (`g_cr0_count` and the like), which only the debug dumps print.
-/

namespace IkgtUsage

open Framework

/-- `ikgt_event_info_t.response`. -/
inductive IkgtEventResponse
  | unspecified | allow | redirect
  deriving DecidableEq, Repr

/-- A call of `log_event`, by the fields of `event_info` it reads. -/
structure LogEventCall where
  threadId : U64
  rip : U64
  deriving DecidableEq, Repr

/-- The handler's globals, the response under way, the calls of `log_event` so far (newest first)
and the framework. -/
structure HandlerState where
  gBInitStatus : Bool
  gPolicyTable : Option PolicyTable
  gPolicyImmutable : Bool
  gLogDataHva : Option U64
  gLogSize : U32
  gLogGva : U64
  response : IkgtEventResponse
  logEvents : List LogEventCall
  fw : Framework

namespace HandlerState

/-- The slots `policy_get_entry_by_index` ranges over. There are none before `policy_initialize`;
no event is handled then. -/
def slots (s : HandlerState) : List PolicyEntry :=
  match s.gPolicyTable with
  | some t => t.policyEntry
  | none => []

/-- The slots after a loop that updates them in place. -/
def withSlots (s : HandlerState) (slots : List PolicyEntry) : HandlerState :=
  { s with gPolicyTable := s.gPolicyTable.map fun t => t.replaceSlots slots }

/-- The image of the handler before `handler_initialize`. -/
def boot (fw : Framework) : HandlerState where
  gBInitStatus := false
  gPolicyTable := none
  gPolicyImmutable := false
  gLogDataHva := none
  gLogSize := 0
  gLogGva := 0
  response := .unspecified
  logEvents := []
  fw := fw

end HandlerState

/-- `policy_initialize`. -/
def policyInitialize (s : HandlerState) : Bool × HandlerState :=
  match s.gPolicyTable with
  | some _ => (true, s)
  | none =>
    let (allocated, fw) := ikgtMalloc s.fw
    if allocated then (true, { s with gPolicyTable := some .initial, fw := fw })
    else (false, { s with fw := fw })

/-- `handler_initialize`: the number of CPUs is only printed. -/
def handlerInitialize (s : HandlerState) : HandlerState :=
  let (ok, s) := policyInitialize s
  { s with gBInitStatus := ok }

end IkgtUsage
