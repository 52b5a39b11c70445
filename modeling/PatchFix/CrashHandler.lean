import PatchFix.PatchRegistry

/-!
The two handlers that report hardware faults, `veh_handler` and `fault_filter_impl`, as the steps of
the report they make.
-/

namespace PatchFix

def exceptionAccessViolation : UInt32 := 0xC0000005
def exceptionStackOverflow : UInt32 := 0xC00000FD

def exceptionCodeNames : List (UInt32 × Text) := [
  (exceptionAccessViolation, "ACCESS_VIOLATION".toList),
  (0xC000008C, "ARRAY_BOUNDS_EXCEEDED".toList),
  (0x80000002, "DATATYPE_MISALIGNMENT".toList),
  (0xC000008D, "FLT_DENORMAL_OPERAND".toList),
  (0xC000008E, "FLT_DIVIDE_BY_ZERO".toList),
  (0xC000008F, "FLT_INEXACT_RESULT".toList),
  (0xC0000090, "FLT_INVALID_OPERATION".toList),
  (0xC0000091, "FLT_OVERFLOW".toList),
  (0xC0000092, "FLT_STACK_CHECK".toList),
  (0xC0000093, "FLT_UNDERFLOW".toList),
  (0xC000001D, "ILLEGAL_INSTRUCTION".toList),
  (0xC0000006, "IN_PAGE_ERROR".toList),
  (0xC0000094, "INT_DIVIDE_BY_ZERO".toList),
  (0xC0000095, "INT_OVERFLOW".toList),
  (0xC0000096, "PRIV_INSTRUCTION".toList),
  (exceptionStackOverflow, "STACK_OVERFLOW".toList)]

def exceptionCodeName (code : UInt32) : Text :=
  (exceptionCodeNames.lookup code).getD "UNKNOWN".toList

def isHardwareException (code : UInt32) : Bool :=
  exceptionCodeName code != "UNKNOWN".toList

def kMaxForeignFaults : UInt32 := 8

structure SharedDiagnostics where
  moduleBase : UInt64
  moduleEnd : UInt64
  foreignFaults : UInt32
  patches : PatchTable

namespace SharedDiagnostics

def isPluginAddress (address : UInt64) (shared : SharedDiagnostics) : Bool :=
  address ≥ shared.moduleBase && address < shared.moduleEnd

def isPatchedAddress (address : UInt64) (shared : SharedDiagnostics) : Bool :=
  (shared.patches.findPatch address).isSome || (shared.patches.findNearby address 64).isSome

end SharedDiagnostics

inductive ReportStep where
  | logCrashReportLightweight
  | logPatchAttribution
  | logCrashReport
  | writeMinidump
  deriving DecidableEq, Repr

/-- The steps of the report that `veh_handler` makes of a fault; none where it stays silent. -/
def vehHandler (code : UInt32) (rip : UInt64) (tlInVeh : Bool) (shared : SharedDiagnostics) :
    List ReportStep × SharedDiagnostics :=
  if !isHardwareException code then ([], shared)
  else if code = exceptionStackOverflow then ([], shared)
  else if tlInVeh then ([], shared)
  else if shared.isPluginAddress rip then ([.logCrashReportLightweight], shared)
  else if shared.isPatchedAddress rip then
    ([.logCrashReportLightweight, .logPatchAttribution], shared)
  else
    (if shared.foreignFaults < kMaxForeignFaults then [.logCrashReportLightweight] else [],
      { shared with foreignFaults := shared.foreignFaults + 1 })

/-- The steps of the report of `fault_filter_impl`, which executes the handler where there are any
and continues the search where there are none. -/
def faultFilterImpl (code : UInt32) (tlInFaultHandler : Bool) : List ReportStep :=
  if !isHardwareException code || code = exceptionStackOverflow then []
  else if tlInFaultHandler then []
  else [.logCrashReport, .writeMinidump]

def Reportable (code : UInt32) : Prop :=
  isHardwareException code = true ∧ code ≠ exceptionStackOverflow

theorem faultFilterImpl_eq_nil {code : UInt32} {tlInFaultHandler : Bool} :
    faultFilterImpl code tlInFaultHandler = [] ↔ (Reportable code → tlInFaultHandler = true) := by
  unfold faultFilterImpl Reportable
  by_cases hardware : isHardwareException code = true <;>
    by_cases overflow : code = exceptionStackOverflow <;>
    cases tlInFaultHandler <;> simp [hardware, overflow]

def SharedDiagnostics.Silent (rip : UInt64) (shared : SharedDiagnostics) : Prop :=
  shared.isPluginAddress rip = false ∧ shared.isPatchedAddress rip = false ∧
    kMaxForeignFaults ≤ shared.foreignFaults

theorem vehHandler_eq_nil {code : UInt32} {rip : UInt64} {tlInVeh : Bool}
    {shared : SharedDiagnostics} :
    (vehHandler code rip tlInVeh shared).1 = [] ↔
      (Reportable code → tlInVeh = true ∨ shared.Silent rip) := by
  unfold vehHandler Reportable SharedDiagnostics.Silent
  by_cases hardware : isHardwareException code = true
  · by_cases overflow : code = exceptionStackOverflow
    · simp [overflow]
    · cases tlInVeh <;> cases plugin : shared.isPluginAddress rip <;>
        cases patched : shared.isPatchedAddress rip <;> simp [hardware, overflow, UInt32.not_lt]
  · simp [hardware]

end PatchFix
