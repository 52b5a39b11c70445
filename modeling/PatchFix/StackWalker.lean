import Mathlib.Logic.Function.Iterate
import PatchFix.CrashJournal
import PatchFix.Library.FieldText

/-!
The stack trace of a crash report: the walk over the thread's frames, what the system says of their
addresses, and the lines, from which the walked addresses can be read back.
-/

namespace PatchFix

open FieldText

def kMaxFrames : Nat := 64

def kMaxSymLen : Nat := 256

structure Unwinder (Context : Type) where
  rip : Context → UInt64
  hasFunctionEntry : UInt64 → Bool
  virtualUnwind : Context → Context

structure StackFrame where
  address : UInt64
  moduleBase : UInt64
  moduleOffset : UInt64
  moduleName : Text
  symbolName : Text
  symbolOffset : UInt64
  hasSymbol : Bool

structure ModuleInfo where
  base : UInt64
  path : Option Text

/-- The system at the crash. `symbols` finds nothing where dbghelp is missing, does not initialize
or is taken by another thread. -/
structure SymbolSource where
  modules : UInt64 → Option ModuleInfo
  symbols : UInt64 → Option (Text × UInt64)

section Walk

variable {Context : Type} (unwinder : Unwinder Context)

/-- `capture_stack`; the number is what is left of the buffer. -/
def captureStack : Nat → Context → List UInt64
  | 0, _ => []
  | left + 1, context =>
      if unwinder.rip context = 0 then []
      else if unwinder.hasFunctionEntry (unwinder.rip context) then
        unwinder.rip context :: captureStack left (unwinder.virtualUnwind context)
      else [unwinder.rip context]

structure Unwinder.Reaches (start : Context) (depth : Nat) (address : UInt64) : Prop where
  passed : ∀ earlier < depth,
    unwinder.rip (unwinder.virtualUnwind^[earlier] start) ≠ 0 ∧
      unwinder.hasFunctionEntry (unwinder.rip (unwinder.virtualUnwind^[earlier] start)) = true
  here : unwinder.rip (unwinder.virtualUnwind^[depth] start) = address
  nonzero : address ≠ 0

variable {unwinder}

theorem Unwinder.reaches_zero {start : Context} {address : UInt64} :
    unwinder.Reaches start 0 address ↔ unwinder.rip start = address ∧ address ≠ 0 := by
  constructor
  · rintro ⟨_, here, nonzero⟩
    exact ⟨here, nonzero⟩
  · rintro ⟨here, nonzero⟩
    exact ⟨fun _ before => absurd before (Nat.not_lt_zero _), here, nonzero⟩

theorem Unwinder.reaches_succ {start : Context} {depth : Nat} {address : UInt64} :
    unwinder.Reaches start (depth + 1) address ↔
      (unwinder.rip start ≠ 0 ∧ unwinder.hasFunctionEntry (unwinder.rip start) = true) ∧
        unwinder.Reaches (unwinder.virtualUnwind start) depth address := by
  constructor
  · rintro ⟨passed, here, nonzero⟩
    refine ⟨passed 0 (Nat.succ_pos depth), fun earlier before => ?_, here, nonzero⟩
    exact passed (earlier + 1) (Nat.succ_lt_succ before)
  · rintro ⟨first, passed, here, nonzero⟩
    refine ⟨fun earlier before => ?_, here, nonzero⟩
    cases earlier with
    | zero => exact first
    | succ earlier => exact passed earlier (Nat.lt_of_succ_lt_succ before)

theorem captureStack_getElem? (capacity depth : Nat) (start : Context) (address : UInt64) :
    (captureStack unwinder capacity start)[depth]? = some address ↔
      depth < capacity ∧ unwinder.Reaches start depth address := by
  induction capacity generalizing depth start with
  | zero => simp [captureStack]
  | succ capacity ih =>
      unfold captureStack
      by_cases ended : unwinder.rip start = 0
      · cases depth with
        | zero =>
            rw [if_pos ended, Unwinder.reaches_zero]
            constructor
            · rintro ⟨⟩
            · rintro ⟨_, here, nonzero⟩
              exact absurd (here.symm.trans ended) nonzero
        | succ depth => simp [ended, Unwinder.reaches_succ]
      · by_cases known : unwinder.hasFunctionEntry (unwinder.rip start) = true
        · cases depth with
          | zero =>
              simp only [if_neg ended, if_pos known, List.getElem?_cons_zero, Option.some.injEq,
                Unwinder.reaches_zero, Nat.zero_lt_succ, true_and]
              constructor
              · rintro rfl
                exact ⟨rfl, ended⟩
              · exact And.left
          | succ depth =>
              simp [ended, known, ih, Unwinder.reaches_succ]
        · cases depth with
          | zero =>
              simp only [if_neg ended, if_neg known, List.getElem?_cons_zero, Option.some.injEq,
                Unwinder.reaches_zero, Nat.zero_lt_succ, true_and]
              constructor
              · rintro rfl
                exact ⟨rfl, ended⟩
              · exact And.left
          | succ depth => simp [ended, known, Unwinder.reaches_succ]

end Walk

def StackFrame.at (address : UInt64) : StackFrame where
  address := address
  moduleBase := 0
  moduleOffset := 0
  moduleName := []
  symbolName := []
  symbolOffset := 0
  hasSymbol := false

def finalComponent (path : Text) : Text :=
  match rfind '\\' path with
  | some sep => path.drop (sep + 1)
  | none => path

def resolveModule (source : SymbolSource) (frame : StackFrame) : StackFrame :=
  match source.modules frame.address with
  | none => frame
  | some info =>
      let frame :=
        { frame with moduleBase := info.base, moduleOffset := frame.address - info.base }
      match info.path with
      | none => frame
      | some path => { frame with moduleName := finalComponent path }

def resolveSymbol (source : SymbolSource) (frame : StackFrame) : StackFrame :=
  match source.symbols frame.address with
  | none => frame
  | some (name, displacement) =>
      { frame with
        symbolName := name.take (kMaxSymLen - 1)
        symbolOffset := displacement
        hasSymbol := true }

def moduleText (frame : StackFrame) : Text :=
  frame.moduleName ++ "+0x".toList ++ numeral 16 frame.moduleOffset.toNat

def symbolText (frame : StackFrame) : Text :=
  " (".toList ++ frame.symbolName ++ " +0x".toList ++ numeral 16 frame.symbolOffset.toNat ++ [')']

def frameLine (index : Nat) (frame : StackFrame) : Text :=
  "    #".toList ++ padded 10 2 index ++ "  ".toList ++
    if frame.moduleBase ≠ 0 then
      if frame.hasSymbol then moduleText frame ++ symbolText frame else moduleText frame
    else "0x".toList ++ padded 16 16 frame.address.toNat

def logStackTrace (frames : List StackFrame) : List Text :=
  ("  Stack trace (".toList ++ numeral 10 frames.length ++ " frames):".toList) ::
    frames.mapIdx frameLine

def stackTrace {Context : Type} (unwinder : Unwinder Context) (source : SymbolSource)
    (context : Context) : List Text :=
  let frames := (captureStack unwinder kMaxFrames context).map StackFrame.at
  logStackTrace ((frames.map (resolveModule source)).map (resolveSymbol source))

/-- The address in a line, for a reader who knows where each module was. -/
def readFrameLine (baseOf : Text → UInt64) (line : Text) : UInt64 :=
  let line := if line.getLast? = some ')' then (cutLast '(' line).1.dropLast else line
  if '+' ∈ line then
    let (before, offset) := cutLast '+' line
    let moduleName := (cut ' ' (before.drop 5)).2.drop 1
    baseOf moduleName + UInt64.ofNat (value 16 (offset.drop 2))
  else UInt64.ofNat (value 16 (cut 'x' line).2)

/-- Every module has a path that gives its base away, and no symbol name has a bracket. -/
structure SymbolSource.Readable (source : SymbolSource) (baseOf : Text → UInt64) : Prop where
  based : ∀ address info, source.modules address = some info →
    ∃ path, info.path = some path ∧ baseOf (finalComponent path) = info.base
  plain : ∀ address name displacement, source.symbols address = some (name, displacement) →
    '(' ∉ name

theorem digit_ne_bracket : ∀ place < 16, digit place ≠ ')' := by decide

theorem digit_ne_x : ∀ place < 16, digit place ≠ 'x' := by decide

theorem digit_ne_plus : ∀ place < 16, digit place ≠ '+' := by decide

theorem moduleText_getLast (before : Text) (frame : StackFrame) :
    (before ++ moduleText frame).getLast? ≠ some ')' := by
  obtain ⟨place, bound, last⟩ :=
    numeral_getLast (by decide : 1 < 16) (by decide) frame.moduleOffset.toNat
  rw [moduleText, ← List.append_assoc, List.getLast?_append, last, Option.some_or, ne_eq,
    Option.some.injEq]
  exact digit_ne_bracket place bound

theorem readFrameLine_module {baseOf : Text → UInt64} (index : Nat) (frame : StackFrame)
    {address : UInt64} (based : baseOf frame.moduleName = frame.moduleBase)
    (offset : frame.moduleOffset = address - frame.moduleBase) :
    readFrameLine baseOf ("    #".toList ++ padded 10 2 index ++ "  ".toList ++ moduleText frame) =
      address := by
  have lead : "    #".toList.length = 5 := rfl
  have spaces : "  ".toList = [' ', ' '] := rfl
  have plus : "+0x".toList = ['+', '0', 'x'] := rfl
  have hex : '+' ∉ numeral 16 frame.moduleOffset.toNat :=
    notMem_numeral (by decide) (by decide) _ (by decide)
  have digits : '+' ∉ ['0', 'x'] ++ numeral 16 frame.moduleOffset.toNat := by simp [hex]
  have number : ' ' ∉ padded 10 2 index := notMem_padded (by decide) (by decide) _ _ (by decide)
  have split : "    #".toList ++ padded 10 2 index ++ "  ".toList ++ moduleText frame =
      ("    #".toList ++ (padded 10 2 index ++ ' ' :: ' ' :: frame.moduleName)) ++
        '+' :: (['0', 'x'] ++ numeral 16 frame.moduleOffset.toNat) := by
    rw [moduleText, spaces, plus]
    simp only [List.append_assoc, List.cons_append, List.nil_append]
  have signed : '+' ∈ "    #".toList ++ padded 10 2 index ++ "  ".toList ++ moduleText frame := by
    rw [split]
    simp
  rw [readFrameLine, if_neg (moduleText_getLast _ frame)]
  simp only [if_pos signed]
  rw [split, cutLast_append digits]
  simp only [List.drop_left' lead, cut_append number, List.drop_succ_cons, List.drop_zero,
    List.cons_append, List.nil_append, based, offset,
    value_numeral (by decide : 1 < 16) (by decide), UInt64.ofNat_toNat]
  grind

theorem readFrameLine_symbol (baseOf : Text → UInt64) (line : Text) (frame : StackFrame)
    (plain : '(' ∉ frame.symbolName) (unclosed : line.getLast? ≠ some ')') :
    readFrameLine baseOf (line ++ symbolText frame) = readFrameLine baseOf line := by
  have bracket : " (".toList = [' ', '('] := rfl
  have digits : '(' ∉ numeral 16 frame.symbolOffset.toNat :=
    notMem_numeral (by decide) (by decide) _ (by decide)
  have inside : '(' ∉ frame.symbolName ++ " +0x".toList ++
      numeral 16 frame.symbolOffset.toNat ++ [')'] := by
    simp [plain, digits]
  have split : line ++ symbolText frame = (line ++ [' ']) ++ '(' ::
      (frame.symbolName ++ " +0x".toList ++ numeral 16 frame.symbolOffset.toNat ++ [')']) := by
    rw [symbolText, bracket]
    simp only [List.append_assoc, List.cons_append, List.nil_append]
  have closed : (line ++ symbolText frame).getLast? = some ')' := by
    unfold symbolText
    rw [← List.append_assoc, List.getLast?_concat]
  rw [readFrameLine, if_pos closed, split, cutLast_append inside, List.dropLast_concat,
    readFrameLine, if_neg unclosed]

theorem readFrameLine_address (baseOf : Text → UInt64) (index : Nat) (address : UInt64) :
    readFrameLine baseOf ("    #".toList ++ padded 10 2 index ++ "  ".toList ++
      ("0x".toList ++ padded 16 16 address.toNat)) = address := by
  have spaces : "  ".toList = [' ', ' '] := rfl
  have prefixed : "0x".toList = ['0', 'x'] := rfl
  have lead : 'x' ∉ "    #".toList ++ padded 10 2 index ++ [' ', ' ', '0'] := by
    simp [notMem_padded (by decide : 1 < 10) (by decide) 2 index digit_ne_x]
  have split : "    #".toList ++ padded 10 2 index ++ "  ".toList ++
      ("0x".toList ++ padded 16 16 address.toNat) =
        ("    #".toList ++ padded 10 2 index ++ [' ', ' ', '0']) ++
          'x' :: padded 16 16 address.toNat := by
    rw [spaces, prefixed]
    simp only [List.append_assoc, List.cons_append, List.nil_append]
  have unclosed : ("    #".toList ++ padded 10 2 index ++ "  ".toList ++
      ("0x".toList ++ padded 16 16 address.toNat)).getLast? ≠ some ')' := by
    obtain ⟨place, bound, last⟩ :=
      padded_getLast (by decide : 1 < 16) (by decide) 16 address.toNat
    rw [← List.append_assoc, List.getLast?_append, last, Option.some_or, ne_eq, Option.some.injEq]
    exact digit_ne_bracket place bound
  have unsigned : '+' ∉ "    #".toList ++ padded 10 2 index ++ "  ".toList ++
      ("0x".toList ++ padded 16 16 address.toNat) := by
    simp [notMem_padded (by decide : 1 < 10) (by decide) 2 index digit_ne_plus,
      notMem_padded (by decide : 1 < 16) (by decide) 16 address.toNat digit_ne_plus]
  rw [readFrameLine, if_neg unclosed]
  simp only [if_neg unsigned]
  rw [split, cut_append lead, value_padded (by decide) (by decide), UInt64.ofNat_toNat]

variable {source : SymbolSource} {baseOf : Text → UInt64}

theorem resolveSymbol_line (index : Nat) (frame : StackFrame) (address : UInt64)
    (readable : source.Readable baseOf)
    (read : readFrameLine baseOf (frameLine index frame) = address)
    (unresolved : frame.hasSymbol = false) :
    readFrameLine baseOf (frameLine index (resolveSymbol source frame)) = address := by
  unfold resolveSymbol
  split
  · exact read
  · next name displacement found =>
      have plain : '(' ∉ name.take (kMaxSymLen - 1) := fun member =>
        readable.plain _ _ _ found (List.mem_of_mem_take member)
      unfold frameLine at read ⊢
      by_cases located : frame.moduleBase ≠ 0
      · simp only [if_pos located, unresolved, Bool.false_eq_true, if_false] at read
        simp only [if_pos located, if_true]
        rw [← List.append_assoc, readFrameLine_symbol baseOf _ _ plain (moduleText_getLast _ _)]
        exact read
      · simpa only [if_neg located] using read

theorem readFrameLine_resolved (readable : source.Readable baseOf) (index : Nat)
    (address : UInt64) :
    readFrameLine baseOf
      (frameLine index (resolveSymbol source (resolveModule source (.at address)))) = address := by
  cases found : source.modules address with
  | none =>
      have kept : resolveModule source (.at address) = .at address := by
        simp [resolveModule, StackFrame.at, found]
      rw [kept]
      apply resolveSymbol_line index _ address readable _ rfl
      exact readFrameLine_address baseOf index address
  | some info =>
      obtain ⟨path, told, based⟩ := readable.based address info found
      have resolved : resolveModule source (.at address) =
          { StackFrame.at address with
            moduleBase := info.base
            moduleOffset := address - info.base
            moduleName := finalComponent path } := by
        simp [resolveModule, StackFrame.at, found, told]
      rw [resolved]
      apply resolveSymbol_line index _ address readable _ rfl
      unfold frameLine
      by_cases located : info.base ≠ 0
      · simp only [if_pos located, StackFrame.at, Bool.false_eq_true, if_false]
        exact readFrameLine_module index _ based rfl
      · simp only [if_neg located]
        exact readFrameLine_address baseOf index address

theorem stackTrace_frames {Context : Type} (unwinder : Unwinder Context) (context : Context)
    (readable : source.Readable baseOf) :
    (stackTrace unwinder source context).tail.map (readFrameLine baseOf) =
      captureStack unwinder kMaxFrames context := by
  apply List.ext_getElem?
  intro depth
  simp [stackTrace, logStackTrace, List.map_map, Function.comp_def,
    readFrameLine_resolved readable]

/-- The addresses in the lines of a report are those of the walk: each frame that can be reached by
unwinding, in order, up to the size of the buffer. -/
theorem stackTrace_reads {Context : Type} (unwinder : Unwinder Context) (context : Context)
    (readable : source.Readable baseOf) (depth : Nat) (address : UInt64) :
    ((stackTrace unwinder source context).tail.map (readFrameLine baseOf))[depth]? = some address ↔
      depth < kMaxFrames ∧ unwinder.Reaches context depth address := by
  rw [stackTrace_frames unwinder context readable]
  exact captureStack_getElem? kMaxFrames depth context address

def crashedUnwinder : Unwinder Nat where
  rip := fun depth => [0x140001234, 0x140002000].getD depth 0
  hasFunctionEntry := fun _ => true
  virtualUnwind := (· + 1)

def crashedSource : SymbolSource where
  modules := fun _ => some ⟨0x140000000, some "C:\\Game\\ACC.exe".toList⟩
  symbols := fun address => some ("Renderer::Present".toList, address &&& 0xFFF)

theorem crashedSource_readable : crashedSource.Readable fun _ => 0x140000000 := by
  constructor
  · rintro _ _ ⟨⟩
    exact ⟨_, rfl, rfl⟩
  · rintro _ _ _ ⟨⟩
    decide

theorem stackTrace_reads_crashed :
    ((stackTrace crashedUnwinder crashedSource 0).tail.map
        (readFrameLine fun _ => 0x140000000))[1]? = some 0x140002000 ↔
      1 < kMaxFrames ∧ crashedUnwinder.Reaches 0 1 0x140002000 :=
  stackTrace_reads crashedUnwinder 0 crashedSource_readable 1 0x140002000

end PatchFix
