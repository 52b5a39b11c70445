import PatchFix.CrashHandler
import PatchFix.Library.X64Code
import PatchFix.StackWalker

/-!
The two reports of a fault, `log_crash_report` with its registers and stack and
`log_crash_report_lightweight`, and what can be read back from their lines.
-/

namespace PatchFix

open FieldText X64Code

structure ExceptionRecord where
  code : UInt32
  address : UInt64
  information : List UInt64

structure CrashContext where
  gpr : Gpr → UInt64
  rip : UInt64
  eflags : UInt32

def hex64 (number : UInt64) : Text := padded 16 16 number.toNat

def hex32 (number : UInt32) : Text := padded 16 8 number.toNat

def exceptionText (record : ExceptionRecord) : Text :=
  exceptionCodeName record.code ++ " (0x".toList ++ hex32 record.code ++ ") at ".toList

def accessTypeName (accessType : UInt64) : Text :=
  if accessType = 0 then "READ".toList
  else if accessType = 1 then "WRITE".toList
  else if accessType = 8 then "DEP (execute)".toList
  else "UNKNOWN".toList

def logAccessViolationDetail (record : ExceptionRecord) : List Text :=
  match record.information with
  | accessType :: faultAddr :: _ =>
      ["  Access violation: ".toList ++ accessTypeName accessType ++ " at address 0x".toList ++
        hex64 faultAddr]
  | _ => []

def fieldsText (gap : Text) (fields : List (Text × UInt64)) : Text :=
  fields.flatMap fun field => gap ++ field.1 ++ '=' :: hex64 field.2

def registerRows (context : CrashContext) : List (List (Text × UInt64)) :=
  [[("RAX".toList, context.gpr .rax), ("RBX".toList, context.gpr .rbx),
      ("RCX".toList, context.gpr .rcx), ("RDX".toList, context.gpr .rdx)],
    [("RSI".toList, context.gpr .rsi), ("RDI".toList, context.gpr .rdi),
      ("RBP".toList, context.gpr .rbp), ("RSP".toList, context.gpr .rsp)],
    [("R8 ".toList, context.gpr .r8), ("R9 ".toList, context.gpr .r9),
      ("R10".toList, context.gpr .r10), ("R11".toList, context.gpr .r11)],
    [("R12".toList, context.gpr .r12), ("R13".toList, context.gpr .r13),
      ("R14".toList, context.gpr .r14), ("R15".toList, context.gpr .r15)],
    [("RIP".toList, context.rip), ("RFLAGS".toList, context.eflags.toUInt64)]]

def logRegisters (context : CrashContext) : List Text :=
  (registerRows context).map (fieldsText "  ".toList)

def logCrashReport (contextName : Text) (record : ExceptionRecord) (context : CrashContext)
    (unwinder : Unwinder CrashContext) (source : SymbolSource) : List Text :=
  ["=== CRASH in ".toList ++ contextName ++ " ===".toList,
      "  Exception: ".toList ++ exceptionText record ++ "0x".toList ++ hex64 record.address] ++
    (if record.code = exceptionAccessViolation then logAccessViolationDetail record else []) ++
    logRegisters context ++ stackTrace unwinder source context ++
    ["=== END CRASH REPORT ===".toList]

def faultPlace (source : SymbolSource) (address : UInt64) : Text :=
  match source.modules address with
  | some ⟨base, some path⟩ =>
      finalComponent path ++ "+0x".toList ++ numeral 16 (address - base).toNat
  | _ => "0x".toList ++ hex64 address

def frameRegisters (context : CrashContext) : List (Text × UInt64) :=
  [("RIP".toList, context.rip), ("RSP".toList, context.gpr .rsp), ("RBP".toList, context.gpr .rbp)]

def logCrashReportLightweight (record : ExceptionRecord) (context : CrashContext)
    (source : SymbolSource) : List Text :=
  ["VEH: ".toList ++ exceptionText record ++ faultPlace source record.address,
    "VEH:".toList ++ fieldsText " ".toList (frameRegisters context)]

/-! Reading the lines back. -/

structure FaultReading where
  exceptionName : Text
  code : UInt32
  address : UInt64
  registers : List (Text × UInt64)
  deriving DecidableEq

structure CrashReading extends FaultReading where
  contextName : Text
  access : Option (Text × UInt64)
  frames : List UInt64
  deriving DecidableEq

def readHex (text : Text) : UInt64 := UInt64.ofNat (value 16 text)

def readException (text : Text) : Text × UInt32 × Text :=
  let (name, rest) := cut ' ' text
  (name, UInt32.ofNat (value 16 ((rest.drop 3).take 8)), rest.drop 16)

def isAccess (line : Text) : Bool := "  Access".toList.isPrefixOf line

def readAccess (line : Text) : Text × UInt64 :=
  let (before, address) := cutLast 'x' line
  ((before.drop 20).take (before.length - 33), readHex address)

def readFields (gap : Nat) : Nat → Text → List (Text × UInt64)
  | 0, _ => []
  | _ + 1, [] => []
  | fuel + 1, char :: text =>
      let (label, rest) := cut '=' ((char :: text).drop gap)
      (label, readHex (rest.take 16)) :: readFields gap fuel (rest.drop 16)

def readPlace (baseOf : Text → UInt64) (place : Text) : UInt64 :=
  if '+' ∈ place then
    let (moduleName, offset) := cutLast '+' place
    baseOf moduleName + readHex (offset.drop 2)
  else readHex (place.drop 2)

def readCrashReport (baseOf : Text → UInt64) : List Text → Option CrashReading
  | title :: exception :: rest =>
      let (name, code, place) := readException (exception.drop 13)
      let access := rest.head?.filter isAccess
      let rest := rest.drop access.toList.length
      some
        { contextName := (title.drop 13).take (title.length - 17)
          exceptionName := name
          code
          address := readHex (place.drop 2)
          access := access.map readAccess
          registers := (rest.take 5).flatMap fun line => readFields 2 line.length line
          frames := (((rest.drop 5).dropLast).drop 1).map (readFrameLine baseOf) }
  | _ => none

def readLightweight (baseOf : Text → UInt64) : List Text → Option FaultReading
  | [fault, registers] =>
      let (name, code, place) := readException (fault.drop 5)
      some
        { exceptionName := name
          code
          address := readPlace baseOf place
          registers := readFields 1 registers.length (registers.drop 4) }
  | _ => none

theorem readHex_hex64 (number : UInt64) : readHex (hex64 number) = number := by
  rw [readHex, hex64, value_padded (by decide) (by decide), UInt64.ofNat_toNat]

theorem readHex_numeral (number : UInt64) : readHex (numeral 16 number.toNat) = number := by
  rw [readHex, value_numeral (by decide) (by decide), UInt64.ofNat_toNat]

theorem hex64_length (number : UInt64) : (hex64 number).length = 16 :=
  padded_length (by decide) (by decide) number.toNat_lt

theorem hex32_length (number : UInt32) : (hex32 number).length = 8 :=
  padded_length (by decide) (by decide) number.toNat_lt

theorem exceptionCodeName_whole (code : UInt32) : ' ' ∉ exceptionCodeName code := by
  have all : ∀ entry ∈ exceptionCodeNames, ' ' ∉ entry.2 := by decide
  unfold exceptionCodeName
  cases found : exceptionCodeNames.lookup code with
  | none => decide
  | some name =>
      obtain ⟨before, after, table, _⟩ := List.lookup_eq_some_iff.mp found
      exact all (code, name) (by simp [table])

theorem readException_exceptionText (record : ExceptionRecord) (place : Text) :
    readException (exceptionText record ++ place) =
      (exceptionCodeName record.code, record.code, place) := by
  have opening : " (0x".toList = [' ', '(', '0', 'x'] := rfl
  have split : exceptionText record ++ place = exceptionCodeName record.code ++ ' ' ::
      (['(', '0', 'x'] ++ (hex32 record.code ++ (") at ".toList ++ place))) := by
    rw [exceptionText, opening]
    simp only [List.append_assoc, List.cons_append, List.nil_append]
  have code : UInt32.ofNat (value 16 (hex32 record.code)) = record.code := by
    rw [hex32, value_padded (by decide) (by decide), UInt32.ofNat_toNat]
  have past : (['(', '0', 'x'] ++ (hex32 record.code ++ (") at ".toList ++ place))).drop 16 =
      place := by
    have lead : (['(', '0', 'x'] ++ (hex32 record.code ++ ") at ".toList)).length = 16 := by
      simp [hex32_length]
    rw [← List.append_assoc (hex32 record.code), ← List.append_assoc, List.drop_left' lead]
  have brackets : ['(', '0', 'x'].length = 3 := rfl
  rw [split, readException, cut_append (exceptionCodeName_whole record.code)]
  simp only [past]
  rw [List.drop_left' brackets, List.take_left' (hex32_length record.code), code]

theorem readAccess_detail (accessType faultAddr : UInt64) :
    readAccess ("  Access violation: ".toList ++ accessTypeName accessType ++
      " at address 0x".toList ++ hex64 faultAddr) = (accessTypeName accessType, faultAddr) := by
  have marker : " at address 0x".toList = " at address 0".toList ++ ['x'] := rfl
  have split : "  Access violation: ".toList ++ accessTypeName accessType ++
      " at address 0x".toList ++ hex64 faultAddr =
        ("  Access violation: ".toList ++ (accessTypeName accessType ++ " at address 0".toList)) ++
          'x' :: hex64 faultAddr := by
    rw [marker]
    simp only [List.append_assoc, List.cons_append, List.nil_append]
  have digits : 'x' ∉ hex64 faultAddr := notMem_padded (by decide) (by decide) _ _ digit_ne_x
  have lead : "  Access violation: ".toList.length = 20 := rfl
  have inner : ("  Access violation: ".toList ++
      (accessTypeName accessType ++ " at address 0".toList)).length - 33 =
        (accessTypeName accessType).length := by
    simp
  rw [split, readAccess, cutLast_append digits]
  simp only [inner, List.drop_left' lead, List.take_left, readHex_hex64]

theorem readFields_fieldsText (gap : Text) (nonempty : gap ≠ []) {fields : List (Text × UInt64)}
    (whole : ∀ field ∈ fields, '=' ∉ field.1) {fuel : Nat} (enough : fields.length ≤ fuel) :
    readFields gap.length fuel (fieldsText gap fields) = fields := by
  induction fields generalizing fuel with
  | nil =>
      cases fuel with
      | zero => rfl
      | succ fuel => rfl
  | cons field fields ih =>
      cases fuel with
      | zero => simp at enough
      | succ fuel =>
          have rest := ih (fun other member => whole other (List.mem_cons_of_mem _ member))
            (Nat.le_of_succ_le_succ enough)
          have shape : fieldsText gap (field :: fields) =
              gap ++ (field.1 ++ '=' :: (hex64 field.2 ++ fieldsText gap fields)) := by
            simp [fieldsText]
          obtain ⟨char, more, spelled⟩ := List.exists_cons_of_ne_nil
            (show fieldsText gap (field :: fields) ≠ [] by simp [shape, nonempty])
          rw [spelled, readFields, ← spelled, shape, List.drop_left,
            cut_append (whole field List.mem_cons_self)]
          simp only [List.take_left' (hex64_length field.2), List.drop_left' (hex64_length field.2),
            readHex_hex64, rest]

theorem fields_length_le (gap : Text) (fields : List (Text × UInt64)) :
    fields.length ≤ (fieldsText gap fields).length := by
  induction fields with
  | nil => exact Nat.le_refl 0
  | cons field fields ih =>
      simp only [fieldsText, List.flatMap_cons, List.length_append, List.length_cons] at ih ⊢
      omega

theorem readFields_row (context : CrashContext) {row : List (Text × UInt64)}
    (member : row ∈ registerRows context) :
    readFields 2 (fieldsText "  ".toList row).length (fieldsText "  ".toList row) = row := by
  have labels : ∀ label ∈ ((registerRows context).flatten.map Prod.fst), '=' ∉ label := by
    show ∀ label ∈ ["RAX".toList, "RBX".toList, "RCX".toList, "RDX".toList, "RSI".toList,
      "RDI".toList, "RBP".toList, "RSP".toList, "R8 ".toList, "R9 ".toList, "R10".toList,
      "R11".toList, "R12".toList, "R13".toList, "R14".toList, "R15".toList, "RIP".toList,
      "RFLAGS".toList], '=' ∉ label
    decide
  have whole : ∀ field ∈ row, '=' ∉ field.1 := fun field inside =>
    labels field.1 (List.mem_map_of_mem (List.mem_flatten_of_mem member inside))
  exact readFields_fieldsText "  ".toList (by decide) whole (fields_length_le _ row)

theorem readRegisters (context : CrashContext) :
    ((logRegisters context).flatMap fun line => readFields 2 line.length line) =
      (registerRows context).flatten := by
  rw [logRegisters, List.flatMap_map]
  have rows : (registerRows context).flatMap (fun row =>
      readFields 2 (fieldsText "  ".toList row).length (fieldsText "  ".toList row)) =
        (registerRows context).flatMap id :=
    List.flatMap_congr fun row member => readFields_row context member
  rw [rows, List.flatMap_id]

def ExceptionRecord.access (record : ExceptionRecord) : Option (Text × UInt64) :=
  if record.code = exceptionAccessViolation then
    match record.information with
    | accessType :: faultAddr :: _ => some (accessTypeName accessType, faultAddr)
    | _ => none
  else none

def accessLines (record : ExceptionRecord) : List Text :=
  if record.code = exceptionAccessViolation then logAccessViolationDetail record else []

theorem accessLines_reads (record : ExceptionRecord) {later : List Text}
    (other : later.head?.filter isAccess = none) :
    ((accessLines record ++ later).head?.filter isAccess).map readAccess = record.access ∧
      (accessLines record ++ later).drop
        ((accessLines record ++ later).head?.filter isAccess).toList.length = later := by
  unfold accessLines ExceptionRecord.access logAccessViolationDetail
  split
  · split
    · next accessType faultAddr _ _ =>
        exact ⟨congrArg some (readAccess_detail accessType faultAddr), rfl⟩
    · rw [List.nil_append, other]
      exact ⟨rfl, rfl⟩
  · rw [List.nil_append, other]
    exact ⟨rfl, rfl⟩

theorem logRegisters_head (context : CrashContext) (later : List Text) :
    (logRegisters context ++ later).head?.filter isAccess = none := rfl

variable {source : SymbolSource} {baseOf : Text → UInt64}

theorem readPlace_faultPlace (readable : source.Readable baseOf) (address : UInt64) :
    readPlace baseOf (faultPlace source address) = address := by
  have prefixed : "0x".toList.length = 2 := rfl
  have absolute : readPlace baseOf ("0x".toList ++ hex64 address) = address := by
    have digits : '+' ∉ hex64 address := notMem_padded (by decide) (by decide) _ _ digit_ne_plus
    have unsigned : '+' ∉ "0x".toList ++ hex64 address := List.not_mem_append (by decide) digits
    rw [readPlace, if_neg unsigned, List.drop_left' prefixed, readHex_hex64]
  unfold faultPlace
  split
  · next base path found =>
      obtain ⟨_, same, based⟩ := readable.based address _ found
      obtain rfl := Option.some.inj same
      have plus : "+0x".toList = ['+', '0', 'x'] := rfl
      have digits : '+' ∉ ['0', 'x'] ++ numeral 16 (address - base).toNat :=
        List.not_mem_append (by decide) (notMem_numeral (by decide) (by decide) _ digit_ne_plus)
      have split : finalComponent path ++ "+0x".toList ++ numeral 16 (address - base).toNat =
          finalComponent path ++ '+' :: (['0', 'x'] ++ numeral 16 (address - base).toNat) := by
        rw [plus]
        simp only [List.append_assoc, List.cons_append, List.nil_append]
      have signed : '+' ∈ finalComponent path ++ '+' ::
          (['0', 'x'] ++ numeral 16 (address - base).toNat) := by simp
      rw [split, readPlace, if_pos signed, cutLast_append digits]
      simp only [List.cons_append, List.nil_append, List.drop_succ_cons, List.drop_zero,
        readHex_numeral, based]
      grind
  · exact absolute

theorem logCrashReportLightweight_reads (record : ExceptionRecord) (context : CrashContext)
    (readable : source.Readable baseOf) :
    readLightweight baseOf (logCrashReportLightweight record context source) = some
      { exceptionName := exceptionCodeName record.code
        code := record.code
        address := record.address
        registers := frameRegisters context } := by
  have head : "VEH: ".toList.length = 5 := rfl
  have label : "VEH:".toList.length = 4 := rfl
  have whole : ∀ field ∈ frameRegisters context, '=' ∉ field.1 := by
    simp [frameRegisters]
  have enough : (frameRegisters context).length ≤
      ("VEH:".toList ++ fieldsText " ".toList (frameRegisters context)).length :=
    (fields_length_le " ".toList _).trans (by rw [List.length_append]; exact Nat.le_add_left _ _)
  have registers := readFields_fieldsText " ".toList (by decide) whole enough
  rw [logCrashReportLightweight, readLightweight]
  simp only [List.append_assoc, List.drop_left' head, readException_exceptionText,
    readPlace_faultPlace readable, List.drop_left' label]
  exact congrArg some (congrArg _ registers)

theorem logCrashReport_reads (contextName : Text) (record : ExceptionRecord)
    (context : CrashContext) (unwinder : Unwinder CrashContext)
    (readable : source.Readable baseOf) :
    readCrashReport baseOf (logCrashReport contextName record context unwinder source) = some
      { contextName
        exceptionName := exceptionCodeName record.code
        code := record.code
        address := record.address
        access := record.access
        registers := (registerRows context).flatten
        frames := captureStack unwinder kMaxFrames context } := by
  have shape : logCrashReport contextName record context unwinder source =
      ("=== CRASH in ".toList ++ contextName ++ " ===".toList) ::
        ("  Exception: ".toList ++ exceptionText record ++ "0x".toList ++ hex64 record.address) ::
          (accessLines record ++ (logRegisters context ++
            (stackTrace unwinder source context ++ ["=== END CRASH REPORT ===".toList]))) := by
    simp [logCrashReport, accessLines]
  obtain ⟨access, rest⟩ := accessLines_reads record (logRegisters_head context
    (stackTrace unwinder source context ++ ["=== END CRASH REPORT ===".toList]))
  have title : "=== CRASH in ".toList.length = 13 := rfl
  have label : "  Exception: ".toList.length = 13 := rfl
  have prefixed : "0x".toList.length = 2 := rfl
  have rows : (logRegisters context).length = 5 := rfl
  have named : (("=== CRASH in ".toList ++ contextName ++ " ===".toList).drop 13).take
      (("=== CRASH in ".toList ++ contextName ++ " ===".toList).length - 17) = contextName := by
    have width : ("=== CRASH in ".toList ++ contextName ++ " ===".toList).length - 17 =
        contextName.length := by simp
    rw [width, List.append_assoc, List.drop_left' title, List.take_left]
  rw [shape, readCrashReport]
  simp only [named, access, rest]
  rw [List.append_assoc, List.append_assoc, List.drop_left' label, readException_exceptionText,
    List.take_left' rows, List.drop_left' rows, List.dropLast_concat, readRegisters, List.drop_one,
    stackTrace_frames unwinder context readable]
  simp only [List.drop_left' prefixed, readHex_hex64]

/-- Both reports of a fault read back as the whole of what they were made of. -/
theorem reports_read (contextName : Text) (record : ExceptionRecord) (context : CrashContext)
    (unwinder : Unwinder CrashContext) (readable : source.Readable baseOf) :
    readCrashReport baseOf (logCrashReport contextName record context unwinder source) = some
      { contextName
        exceptionName := exceptionCodeName record.code
        code := record.code
        address := record.address
        access := record.access
        registers := (registerRows context).flatten
        frames := captureStack unwinder kMaxFrames context } ∧
    readLightweight baseOf (logCrashReportLightweight record context source) = some
      { exceptionName := exceptionCodeName record.code
        code := record.code
        address := record.address
        registers := frameRegisters context } :=
  ⟨logCrashReport_reads contextName record context unwinder readable,
    logCrashReportLightweight_reads record context readable⟩

def nullWrite : ExceptionRecord := ⟨exceptionAccessViolation, 0x140001234, [1, 0]⟩

def crashedContext : CrashContext := ⟨fun _ => 0, 0x140001234, 0x10246⟩

def callerUnwinder : Unwinder CrashContext where
  rip := CrashContext.rip
  hasFunctionEntry := fun address => address == 0x140001234
  virtualUnwind := fun context => { context with rip := 0x140002000 }

theorem reports_read_nullWrite :
    readCrashReport (fun _ => 0x140000000) (logCrashReport "FPSUnlock".toList nullWrite
        crashedContext callerUnwinder crashedSource) = some
      { contextName := "FPSUnlock".toList
        exceptionName := exceptionCodeName nullWrite.code
        code := nullWrite.code
        address := nullWrite.address
        access := nullWrite.access
        registers := (registerRows crashedContext).flatten
        frames := captureStack callerUnwinder kMaxFrames crashedContext } ∧
    readLightweight (fun _ => 0x140000000)
        (logCrashReportLightweight nullWrite crashedContext crashedSource) = some
      { exceptionName := exceptionCodeName nullWrite.code
        code := nullWrite.code
        address := nullWrite.address
        registers := frameRegisters crashedContext } :=
  reports_read "FPSUnlock".toList nullWrite crashedContext callerUnwinder crashedSource_readable

end PatchFix
