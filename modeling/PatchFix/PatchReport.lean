import PatchFix.Library.FieldText
import PatchFix.PatchNearby
import PatchFix.PatchOriginals

/-!
The lines `log_patch_attribution` writes about a fault at a patched address, and what a reader can
take from them: which hook patched it first, what the memory held before that, what it holds now.
-/

namespace PatchFix

open FieldText

def patchTypeName : PatchType → Text
  | .midHook => "mid_hook".toList
  | .byteWrite => "byte_write".toList

def patchedLine (patch : PatchEntry) : Text :=
  "VEH: >>> Address patched by hook '".toList ++ patch.hookName ++ "' (".toList ++
    patchTypeName patch.type ++ ", ".toList ++ numeral 10 patch.size.toNat ++
    " bytes at 0x".toList ++ numeral 16 patch.base.toNat ++ [')']

def suspectLine (distance : UInt64) (patch : PatchEntry) : Text :=
  "VEH: >>> Suspect: address is ".toList ++ numeral 10 distance.toNat ++
    " bytes from hook '".toList ++ patch.hookName ++ "' patch site (0x".toList ++
    numeral 16 patch.base.toNat ++ ", ".toList ++ numeral 10 patch.size.toNat ++ " bytes)".toList

def formatHex (data : List UInt8) : Text :=
  data.zipIdx.foldl (fun result entry =>
    let result := if 0 < entry.2 then result ++ [' '] else result
    result ++ byteText entry.1) []

/-- `log_patch_bytes`; `readable` says whether `ReadProcessMemory` succeeds on a range. -/
def logPatchBytes (readable : UInt64 → Nat → Bool) (image : ByteImage.Image) (patch : PatchEntry) :
    List Text :=
  let copySize := min patch.originalBytes.length 64
  ["VEH: >>> Original: ".toList ++ formatHex patch.originalBytes,
    if readable patch.base copySize then
      "VEH: >>> Current:  ".toList ++ formatHex (ByteImage.read image patch.base copySize)
    else "VEH: >>> Current:  <unreadable>".toList]

def attributionLines (readable : UInt64 → Nat → Bool) (rip : UInt64) (process : Process) :
    List Text :=
  match logPatchAttribution rip process.patches with
  | .patched patch => patchedLine patch :: logPatchBytes readable process.image patch
  | .suspect distance patch => [suspectLine distance patch]
  | .unattributed => []

structure PatchReading where
  hookName : Text
  type : Text
  size : Nat
  base : Nat
  original : List UInt8
  current : Option (List UInt8)
  deriving DecidableEq

def readPatchedLine (line : Text) : Text × Text × Nat × Nat :=
  let (hookName, rest) := cut '\'' (cut '\'' line).2
  let (type, rest) := cut ',' (cut '(' rest).2
  let (size, rest) := cut ' ' (rest.drop 1)
  let (base, _) := cut ')' (cut 'x' rest).2
  (hookName, type, value 10 size, value 16 base)

def readBytesLine (line : Text) : Option (List UInt8) :=
  let bytes := line.drop 19
  if bytes.head? = some '<' then none else some (spacedBytes bytes)

def readReport : List Text → Option PatchReading
  | [patched, original, current] =>
      let (hookName, type, size, base) := readPatchedLine patched
      (readBytesLine original).map fun original =>
        { hookName, type, size, base, original, current := readBytesLine current }
  | _ => none

theorem formatHex_eq (data : List UInt8) :
    formatHex data = [' '].intercalate (data.map byteText) := by
  have rest (data : List UInt8) (position : Nat) (positive : 0 < position) (result : Text) :
      (data.zipIdx position).foldl (fun result entry =>
          let result := if 0 < entry.2 then result ++ [' '] else result
          result ++ byteText entry.1) result =
        result ++ data.flatMap fun byte => ' ' :: byteText byte := by
    induction data generalizing position result with
    | nil => simp
    | cons byte data ih =>
        rw [List.zipIdx_cons, List.foldl_cons, ih (position + 1) (by omega)]
        simp [positive]
  cases data with
  | nil => rfl
  | cons byte data =>
      rw [formatHex, List.zipIdx_cons, List.foldl_cons, rest data 1 (by decide)]
      induction data generalizing byte with
      | nil => simp
      | cons next data ih => simpa [List.intercalate] using ih next

theorem patchedLine_fields (patch : PatchEntry) :
    patchedLine patch =
      "VEH: >>> Address patched by hook ".toList ++ '\'' :: (patch.hookName ++ '\'' :: ([' '] ++
        '(' :: (patchTypeName patch.type ++ ',' :: ' ' :: (numeral 10 patch.size.toNat ++ ' ' ::
          ("bytes at 0".toList ++ 'x' :: (numeral 16 patch.base.toNat ++ [')'])))))) := by
  have opening : "VEH: >>> Address patched by hook '".toList =
      "VEH: >>> Address patched by hook ".toList ++ ['\''] := rfl
  have bracket : "' (".toList = ['\'', ' ', '('] := rfl
  have comma : ", ".toList = [',', ' '] := rfl
  have marker : " bytes at 0x".toList = ' ' :: ("bytes at 0".toList ++ ['x']) := rfl
  unfold patchedLine
  rw [opening, bracket, comma, marker]
  simp only [List.append_assoc, List.cons_append, List.nil_append]

theorem readPatchedLine_patchedLine {patch : PatchEntry} (unquoted : '\'' ∉ patch.hookName) :
    readPatchedLine (patchedLine patch) =
      (patch.hookName, patchTypeName patch.type, patch.size.toNat, patch.base.toNat) := by
  have typed : ',' ∉ patchTypeName patch.type := by
    cases patch.type <;> decide
  have sized : ' ' ∉ numeral 10 patch.size.toNat :=
    notMem_numeral (by decide) (by decide) _ (by decide)
  have based : ')' ∉ numeral 16 patch.base.toNat :=
    notMem_numeral (by decide) (by decide) _ (by decide)
  have opening : '\'' ∉ "VEH: >>> Address patched by hook ".toList := by simp
  have marker : 'x' ∉ "bytes at 0".toList := by simp
  have bracket : '(' ∉ [' '] := by decide
  rw [patchedLine_fields, readPatchedLine]
  simp only [cut_append opening, cut_append unquoted, cut_append bracket, cut_append typed,
    List.drop_succ_cons, List.drop_zero, cut_append sized, cut_append marker, cut_append based]
  rw [value_numeral (by decide) (by decide), value_numeral (by decide) (by decide)]

theorem formatHex_head (data : List UInt8) : (formatHex data).head? ≠ some '<' := by
  rw [formatHex_eq]
  cases data with
  | nil => simp
  | cons byte data =>
      have other : ∀ place < 16, digit place ≠ '<' := by decide
      have bound : byte.toNat < 256 := byte.toNat_lt
      have first : ([' '].intercalate ((byte :: data).map byteText)).head? =
          some (digit (byte.toNat / 16)) := by
        cases data <;> simp [List.intercalate, byteText]
      rw [first, ne_eq, Option.some.injEq]
      exact other _ (by omega)

theorem readBytesLine_formatHex {label : Text} (width : label.length = 19) (data : List UInt8) :
    readBytesLine (label ++ formatHex data) = some data := by
  rw [readBytesLine, List.drop_left' width, if_neg (formatHex_head data), formatHex_eq,
    spacedBytes_intercalate]

theorem readBytesLine_current (readable : Bool) (data : List UInt8) :
    readBytesLine (if readable then "VEH: >>> Current:  ".toList ++ formatHex data
      else "VEH: >>> Current:  <unreadable>".toList) = if readable then some data else none := by
  cases readable with
  | true => exact readBytesLine_formatHex rfl data
  | false => rfl

/-! Runs of writes, each with what the system answers it. -/

structure Attempt where
  request : NamedCall
  system : System

namespace Attempt

variable (attempt : Attempt) (process : Process)

def address : UInt64 := attempt.request.call.address

def bytes : List UInt8 := attempt.request.call.bytes

def perform : Bool × Process :=
  attempt.request.call.perform attempt.system
    { process with currentHookName := attempt.request.hookName }

def entry (before : Process) : PatchEntry :=
  PatchEntry.make attempt.address (UInt64.ofNat attempt.bytes.length)
    (ByteImage.read before.image attempt.address attempt.bytes.length)
    attempt.request.hookName .byteWrite

end Attempt

def runAttempts (start : Process) (attempts : List Attempt) : Process :=
  attempts.foldl (fun process attempt => (attempt.perform process).2) start

def Patches (start : Process) (attempts done : List Attempt) (attempt : Attempt) : Prop :=
  (∃ rest, attempts = done ++ attempt :: rest) ∧
    (attempt.perform (runAttempts start done)).1 = true

structure FirstPatch (start : Process) (attempts done : List Attempt) (attempt : Attempt) :
    Prop where
  patches : Patches start attempts done attempt
  first : ∀ before earlier, Patches start done before earlier → earlier.address ≠ attempt.address

section Attempts

variable {start process : Process} {attempts done : List Attempt} {attempt last : Attempt}

theorem patches_concat :
    Patches start (attempts ++ [last]) done attempt ↔
      Patches start attempts done attempt ∨
        (done = attempts ∧ attempt = last ∧
          (last.perform (runAttempts start attempts)).1 = true) := by
  constructor
  · rintro ⟨⟨rest, split⟩, granted⟩
    rcases TransitionRun.concat_eq_append_cons.mp split with ⟨rfl, rfl, -⟩ | ⟨front, -, earlier⟩
    · exact Or.inr ⟨rfl, rfl, granted⟩
    · exact Or.inl ⟨⟨front, earlier⟩, granted⟩
  · rintro (⟨⟨rest, rfl⟩, granted⟩ | ⟨rfl, rfl, granted⟩)
    · exact ⟨⟨rest ++ [last], by simp⟩, granted⟩
    · exact ⟨⟨[], rfl⟩, granted⟩

theorem firstPatch_concat :
    FirstPatch start (attempts ++ [last]) done attempt ↔
      FirstPatch start attempts done attempt ∨
        (done = attempts ∧ attempt = last ∧
          (last.perform (runAttempts start attempts)).1 = true ∧
          ∀ before earlier, Patches start attempts before earlier →
            earlier.address ≠ last.address) := by
  constructor
  · rintro ⟨patches, first⟩
    rcases patches_concat.mp patches with old | ⟨rfl, rfl, granted⟩
    · exact Or.inl ⟨old, first⟩
    · exact Or.inr ⟨rfl, rfl, granted, first⟩
  · rintro (⟨patches, first⟩ | ⟨rfl, rfl, granted, first⟩)
    · exact ⟨patches_concat.mpr (Or.inl patches), first⟩
    · exact ⟨patches_concat.mpr (Or.inr ⟨rfl, rfl, granted⟩), first⟩

theorem runAttempts_concat :
    runAttempts start (attempts ++ [last]) = (last.perform (runAttempts start attempts)).2 :=
  List.foldl_concat _ _ _ _

theorem perform_refused (refused : (attempt.perform process).1 = false) :
    (attempt.perform process).2.patches = process.patches := by
  rcases run : attempt.perform process with ⟨granted, after⟩
  rw [run] at refused
  subst refused
  rw [Attempt.perform, WriteCall.perform_eq_patch] at run
  rw [(Mem.patch_refused attempt.system run).2]

theorem perform_granted (granted : (attempt.perform process).1 = true) :
    (attempt.perform process).2.patches =
      process.patches.registerPatch attempt.address (UInt64.ofNat attempt.bytes.length)
        (ByteImage.read process.image attempt.address attempt.bytes.length)
        attempt.request.hookName .byteWrite := by
  rcases run : attempt.perform process with ⟨written, after⟩
  rw [run] at granted
  subst granted
  have named : { process with currentHookName := attempt.request.hookName }.currentHookName ≠ [] :=
    attempt.request.named
  exact (WriteCall.perform_success named run).2

structure Recorded (start : Process) (attempts : List Attempt) (table : PatchTable) : Prop where
  entries : ∀ entry, entry ∈ table.entries ↔
    ∃ done attempt, FirstPatch start attempts done attempt ∧
      entry = attempt.entry (runAttempts start done)
  bases : ∀ base, (∃ entry ∈ table.entries, entry.base = base) ↔
    ∃ done attempt, Patches start attempts done attempt ∧ attempt.address = base

theorem Recorded.refused {table : PatchTable} (held : Recorded start attempts table)
    (refused : (last.perform (runAttempts start attempts)).1 = false) :
    Recorded start (attempts ++ [last]) table := by
  constructor
  · intro entry
    simp only [firstPatch_concat, refused, Bool.false_eq_true, false_and, and_false, or_false]
    exact held.entries entry
  · intro base
    simp only [patches_concat, refused, Bool.false_eq_true, and_false, or_false]
    exact held.bases base

theorem Recorded.granted {table : PatchTable} (held : Recorded start attempts table)
    (granted : (last.perform (runAttempts start attempts)).1 = true) :
    Recorded start (attempts ++ [last])
      (table.registerPatch last.address (UInt64.ofNat last.bytes.length)
        (ByteImage.read (runAttempts start attempts).image last.address last.bytes.length)
        last.request.hookName .byteWrite) := by
  have free : (∀ other ∈ table.entries, other.base ≠ last.address) ↔
      ∀ before earlier, Patches start attempts before earlier →
        earlier.address ≠ last.address := by
    simpa using not_congr (held.bases last.address)
  constructor
  · intro entry
    rw [PatchTable.mem_registerPatch, held.entries entry, free]
    simp only [firstPatch_concat, granted, true_and]
    constructor
    · rintro (⟨done, attempt, first, same⟩ | ⟨same, unused⟩)
      · exact ⟨done, attempt, Or.inl first, same⟩
      · exact ⟨attempts, last, Or.inr ⟨rfl, rfl, unused⟩, same⟩
    · rintro ⟨done, attempt, first | ⟨rfl, rfl, unused⟩, same⟩
      · exact Or.inl ⟨done, attempt, first, same⟩
      · exact Or.inr ⟨same, unused⟩
  · intro base
    simp only [PatchTable.mem_registerPatch, patches_concat, granted, and_true]
    constructor
    · rintro ⟨entry, old | ⟨rfl, -⟩, same⟩
      · obtain ⟨done, attempt, patches, here⟩ := (held.bases base).mp ⟨entry, old, same⟩
        exact ⟨done, attempt, Or.inl patches, here⟩
      · exact ⟨attempts, last, Or.inr ⟨rfl, rfl⟩, same⟩
    · rintro ⟨done, attempt, old | ⟨rfl, rfl⟩, same⟩
      · obtain ⟨entry, member, here⟩ := (held.bases base).mpr ⟨done, attempt, old, same⟩
        exact ⟨entry, Or.inl member, here⟩
      · by_cases unused : ∀ other ∈ table.entries, other.base ≠ attempt.address
        · exact ⟨_, Or.inr ⟨rfl, unused⟩, same⟩
        · push Not at unused
          obtain ⟨entry, member, here⟩ := unused
          exact ⟨entry, Or.inl member, here.trans same⟩

theorem runAttempts_recorded (fresh : start.patches = PatchTable.empty)
    (attempts : List Attempt) :
    Recorded start attempts (runAttempts start attempts).patches := by
  induction attempts using List.reverseRecOn with
  | nil =>
      have none (done : List Attempt) (attempt : Attempt) : ¬Patches start [] done attempt := by
        rintro ⟨⟨rest, split⟩, -⟩
        simp at split
      have empty : (runAttempts start []).patches.entries = [] := congrArg PatchTable.entries fresh
      constructor
      · intro entry
        rw [empty]
        constructor
        · intro member
          contradiction
        · rintro ⟨done, attempt, first, -⟩
          exact absurd first.patches (none done attempt)
      · intro base
        rw [empty]
        constructor
        · rintro ⟨entry, member, -⟩
          contradiction
        · rintro ⟨done, attempt, patches, -⟩
          exact absurd patches (none done attempt)
  | append_singleton attempts last ih =>
      rw [runAttempts_concat]
      cases granted : (last.perform (runAttempts start attempts)).1 with
      | false =>
          rw [perform_refused granted]
          exact ih.refused granted
      | true =>
          rw [perform_granted granted]
          exact ih.granted granted

/-- The patch at the fault: the first at its base, and the last base up to the fault that any
attempt patched; the fault is before its end. -/
structure Blamed (start : Process) (attempts : List Attempt) (rip : UInt64) (done : List Attempt)
    (attempt : Attempt) : Prop where
  first : FirstPatch start attempts done attempt
  starts : attempt.address ≤ rip
  ends : rip < attempt.address + UInt64.ofNat attempt.bytes.length
  last : ∀ before other, Patches start attempts before other → other.address ≤ rip →
    other.address ≤ attempt.address

theorem findPatch_eq_some_blamed (fresh : start.patches = PatchTable.empty)
    (attempts : List Attempt) (rip : UInt64) (patch : PatchEntry) :
    (runAttempts start attempts).patches.findPatch rip = some patch ↔
      ∃ done attempt, Blamed start attempts rip done attempt ∧
        patch = attempt.entry (runAttempts start done) := by
  have recorded := runAttempts_recorded fresh attempts
  rw [PatchTable.findPatch_eq_some_iff]
  constructor
  · rintro ⟨⟨member, -, last⟩, starts, ends⟩
    obtain ⟨done, attempt, first, rfl⟩ := (recorded.entries patch).mp member
    refine ⟨done, attempt, ⟨first, starts, ends, fun before other patches below => ?_⟩, rfl⟩
    obtain ⟨entry, there, same⟩ := (recorded.bases other.address).mpr ⟨before, other, patches, rfl⟩
    have placed : entry.start = other.address.toNat := congrArg UInt64.toNat same
    have order := last entry there (placed.le.trans (UInt64.le_iff_toNat_le.mp below))
    exact UInt64.le_iff_toNat_le.mpr (placed.ge.trans order)
  · rintro ⟨done, attempt, blamed, rfl⟩
    refine ⟨⟨(recorded.entries _).mpr ⟨done, attempt, blamed.first, rfl⟩,
      UInt64.le_iff_toNat_le.mp blamed.starts, fun other member below => ?_⟩, blamed.starts,
      blamed.ends⟩
    obtain ⟨before, earlier, patches, same⟩ := (recorded.bases other.base).mp ⟨other, member, rfl⟩
    have order := blamed.last before earlier patches
      (by rw [same]; exact UInt64.le_iff_toNat_le.mpr below)
    rw [same] at order
    exact UInt64.le_iff_toNat_le.mp order

end Attempts

def Attempt.reading (readable : UInt64 → Nat → Bool) (before final : Process) (attempt : Attempt) :
    PatchReading :=
  let count := min 64 attempt.bytes.length
  { hookName := attempt.request.hookName
    type := "byte_write".toList
    size := attempt.bytes.length
    base := attempt.address.toNat
    original := ByteImage.read before.image attempt.address count
    current :=
      if readable attempt.address count then
        some (ByteImage.read final.image attempt.address count)
      else none }

theorem readReport_entry (readable : UInt64 → Nat → Bool) (before final : Process)
    {attempt : Attempt} (unquoted : '\'' ∉ attempt.request.hookName) :
    readReport (patchedLine (attempt.entry before) ::
        logPatchBytes readable final.image (attempt.entry before)) =
      some (attempt.reading readable before final) := by
  have sized : (attempt.entry before).size.toNat = attempt.bytes.length :=
    (UInt64.toNat_ofNat').trans (Nat.mod_eq_of_lt attempt.request.call.bytes_length_lt)
  have original : (attempt.entry before).originalBytes =
      ByteImage.read before.image attempt.address (min 64 attempt.bytes.length) := by
    show (ByteImage.read _ _ _).take 64 = _
    rw [ByteImage.read_take]
  have copied : min (attempt.entry before).originalBytes.length 64 =
      min 64 attempt.bytes.length := by
    rw [original, ByteImage.read_length]
    omega
  have quoted : '\'' ∉ (attempt.entry before).hookName := unquoted
  simp only [logPatchBytes, copied, readReport, readPatchedLine_patchedLine quoted, sized]
  rw [readBytesLine_formatHex rfl, original, readBytesLine_current]
  rfl

theorem readReport_unfound {readable : UInt64 → Nat → Bool} {rip : UInt64} {final : Process}
    (missing : final.patches.findPatch rip = none) :
    readReport (attributionLines readable rip final) = none := by
  unfold attributionLines logPatchAttribution
  rw [missing]
  cases final.patches.findNearby rip 64 with
  | none => rfl
  | some patch => rfl

/-- The lines about a fault read back as a patch exactly where one is to blame, and then as the hook
that patched first at its base, the bytes that were there before and those at the fault. -/
theorem attributionLines_read {start : Process} {attempts : List Attempt}
    (readable : UInt64 → Nat → Bool) (fresh : start.patches = PatchTable.empty)
    (unquoted : ∀ attempt ∈ attempts, '\'' ∉ attempt.request.hookName) (rip : UInt64)
    (reading : PatchReading) :
    readReport (attributionLines readable rip (runAttempts start attempts)) = some reading ↔
      ∃ done attempt, Blamed start attempts rip done attempt ∧
        reading = attempt.reading readable (runAttempts start done)
          (runAttempts start attempts) := by
  have blame := findPatch_eq_some_blamed fresh attempts rip
  have read {done : List Attempt} {attempt : Attempt} (blamed : Blamed start attempts rip done
      attempt) : readReport (attributionLines readable rip (runAttempts start attempts)) =
        some (attempt.reading readable (runAttempts start done) (runAttempts start attempts)) := by
    obtain ⟨⟨rest, split⟩, -⟩ := blamed.first.patches
    have member : attempt ∈ attempts := by simp [split]
    have found := (blame _).mpr ⟨done, attempt, blamed, rfl⟩
    simp only [attributionLines, logPatchAttribution, found]
    exact readReport_entry readable _ _ (unquoted attempt member)
  constructor
  · intro reads
    cases found : (runAttempts start attempts).patches.findPatch rip with
    | none =>
        rw [readReport_unfound found] at reads
        contradiction
    | some patch =>
        obtain ⟨done, attempt, blamed, -⟩ := (blame patch).mp found
        refine ⟨done, attempt, blamed, ?_⟩
        exact Option.some.inj (reads.symm.trans (read blamed))
  · rintro ⟨done, attempt, blamed, rfl⟩
    exact read blamed

/-! The writes of `LanguageUnlock`, the first of them refused once before. -/

def refusedNop : Attempt where
  request := ⟨"LanguageUnlock".toList, List.cons_ne_nil _ _, .nop 0x140001000 9⟩
  system := { virtualProtect := fun _ _ _ _ => none, ntProtect := fun _ _ _ _ => none }

def grantedNop : Attempt := { refusedNop with system := granting }

def grantedRet : Attempt where
  request := ⟨"LanguageUnlock".toList, List.cons_ne_nil _ _, .ret 0x140001005 0⟩
  system := granting

def languageUnlockAttempts : List Attempt := [refusedNop, grantedNop, grantedRet]

theorem languageUnlock_blamed :
    Blamed untouched languageUnlockAttempts 0x140001003 [refusedNop] grantedNop where
  first :=
    { patches := ⟨⟨[grantedRet], rfl⟩, rfl⟩
      first := by
        rintro before earlier ⟨⟨rest, split⟩, granted⟩
        cases before with
        | nil =>
            obtain ⟨rfl, -⟩ := List.cons.inj split
            contradiction
        | cons first before => simp at split }
  starts := by decide
  ends := by decide
  last := by
    rintro before other ⟨⟨rest, split⟩, -⟩ below
    have member : other ∈ languageUnlockAttempts := by simp [split]
    simp only [languageUnlockAttempts, List.mem_cons, List.not_mem_nil, or_false] at member
    rcases member with rfl | rfl | rfl
    · decide
    · decide
    · exact absurd below (by decide)

theorem attributionLines_read_languageUnlock :
    readReport (attributionLines (fun _ _ => true) 0x140001003
        (runAttempts untouched languageUnlockAttempts)) =
      some (grantedNop.reading (fun _ _ => true) (runAttempts untouched [refusedNop])
        (runAttempts untouched languageUnlockAttempts)) := by
  have unquoted : ∀ attempt ∈ languageUnlockAttempts, '\'' ∉ attempt.request.hookName := by
    decide
  exact (attributionLines_read _ rfl unquoted _ _).mpr
    ⟨[refusedNop], grantedNop, languageUnlock_blamed, rfl⟩

end PatchFix
