import PatchFix.Library.PartialFold
import PatchFix.MemWrite

/-!
What the patch registry records: a run of writes, and when the recorded bytes are the ones the
image held before the run.
-/

namespace PatchFix

inductive WriteCall where
  | write (address size : UInt64) (data : Vector UInt8 size.toNat)
  | writeValue (width : Nat) (representable : width < 2 ^ 64) (address : UInt64)
      (value : Vector UInt8 width)
  | nop (address count : UInt64)
  | ret (address : UInt64) (pop : UInt16)

namespace WriteCall

def perform (system : System) : WriteCall → Process → Bool × Process
  | write address size data => Mem.write system address size data
  | writeValue _ _ address value => Mem.writeValue system address value
  | nop address count => Mem.nop system address count
  | ret address pop => Mem.ret system address pop

def address : WriteCall → UInt64
  | write address _ _ => address
  | writeValue _ _ address _ => address
  | nop address _ => address
  | ret address _ => address

def bytes : WriteCall → List UInt8
  | write _ _ data => data.toList
  | writeValue _ _ _ value => value.toList
  | nop _ count => List.replicate count.toNat Mem.opNop
  | ret _ pop =>
      if pop = 0 then [Mem.opRet] else [Mem.opRetn, pop.toUInt8, (pop >>> 8).toUInt8]

def size (call : WriteCall) : UInt64 := UInt64.ofNat call.bytes.length

/-- The four functions differ in the bytes they store. -/
theorem perform_eq_patch (system : System) (call : WriteCall) (process : Process) :
    call.perform system process = Mem.patch system call.address call.size
      (fun image => ByteImage.overlay image call.address call.bytes) process := by
  cases call with
  | write address size data =>
      simp [perform, Mem.write, WriteCall.address, WriteCall.size, bytes]
  | writeValue width representable address value =>
      simp [perform, Mem.writeValue, WriteCall.address, WriteCall.size, bytes]
  | nop address count =>
      simp [perform, Mem.nop, WriteCall.address, WriteCall.size, bytes]
  | ret address pop =>
      by_cases plain : pop = 0
      · simp [perform, Mem.ret, Mem.writeValue, WriteCall.address, WriteCall.size, bytes, plain]
      · have joined : ∀ image, ByteImage.overlay (ByteImage.overlay image address [Mem.opRetn])
            (address + 1) [pop.toUInt8, (pop >>> 8).toUInt8] =
              ByteImage.overlay image address [Mem.opRetn, pop.toUInt8, (pop >>> 8).toUInt8] :=
          fun image => ByteImage.overlay_append image address (by simp) (List.cons_ne_nil _ _)
        simp [perform, Mem.ret, WriteCall.address, WriteCall.size, bytes, plain, joined]

theorem bytes_length_lt (call : WriteCall) : call.bytes.length < 2 ^ 64 := by
  cases call with
  | write address size data => simpa [bytes] using size.toNat_lt
  | writeValue width representable address value => simpa [bytes] using representable
  | nop address count => simpa [bytes] using count.toNat_lt
  | ret address pop =>
      by_cases plain : pop = 0
      · simp [bytes, plain]
      · simp [bytes, plain]

@[simp] theorem toNat_size (call : WriteCall) : call.size.toNat = call.bytes.length := by
  rw [size, UInt64.toNat_ofNat', Nat.mod_eq_of_lt call.bytes_length_lt]

theorem perform_image (system : System) (call : WriteCall) (process : Process) :
    (call.perform system process).2.image =
      if (call.perform system process).1 then
        ByteImage.overlay process.image call.address call.bytes
      else process.image := by
  have performed := call.perform_eq_patch system process
  generalize call.perform system process = result at performed
  obtain ⟨written, after⟩ := result
  cases written with
  | true =>
      have stored := Mem.patch_image system performed.symm
      exact stored
  | false => exact congrArg Process.image (Mem.patch_refused system performed.symm).2

theorem read_perform (system : System) {call : WriteCall} (process : Process) {count : Nat}
    (length : call.bytes.length = count) :
    ByteImage.read (call.perform system process).2.image call.address count =
      if (call.perform system process).1 then call.bytes
      else ByteImage.read process.image call.address count := by
  rw [perform_image, ← length]
  split
  · exact ByteImage.read_overlay _ _ (Nat.le_of_lt call.bytes_length_lt)
  · rfl

theorem read_perform_apart (system : System) {call : WriteCall} (process : Process) {count : Nat}
    (length : call.bytes.length = count) {other : UInt64} {otherCount : Nat}
    (apart : ByteImage.Apart call.address count other otherCount) :
    ByteImage.read (call.perform system process).2.image other otherCount =
      ByteImage.read process.image other otherCount := by
  rw [perform_image]
  split
  · exact ByteImage.read_overlay_apart (length ▸ apart)
  · rfl

theorem perform_success {system : System} {call : WriteCall} {process after : Process}
    (named : process.currentHookName ≠ []) (run : call.perform system process = (true, after)) :
    after.image = ByteImage.overlay process.image call.address call.bytes ∧
      after.patches = process.patches.registerPatch call.address
        (UInt64.ofNat call.bytes.length)
        (ByteImage.read process.image call.address call.bytes.length)
        process.currentHookName .byteWrite := by
  rw [perform_eq_patch] at run
  have result := Mem.patch_success system named run
  rwa [toNat_size] at result

end WriteCall

structure NamedCall where
  hookName : Text
  named : hookName ≠ []
  call : WriteCall

def performNamed (system : System) (process : Process) (request : NamedCall) : Option Process :=
  match request.call.perform system { process with currentHookName := request.hookName } with
  | (true, after) => some after
  | (false, _) => none

def performAll (system : System) (start : Process) (requests : List NamedCall) : Option Process :=
  requests.foldlM (performNamed system) start

def NamedCall.footprint (request : NamedCall) : UInt64 × List UInt8 :=
  (request.call.address, request.call.bytes)

def PatchEntry.Pristine (image : ByteImage.Image) (entry : PatchEntry) : Prop :=
  entry.originalBytes = ByteImage.read image entry.base entry.originalBytes.length

theorem make_pristine_iff {initial image : ByteImage.Image} {base size : UInt64} {count : Nat}
    {hookName : Text} {type : PatchType} :
    (PatchEntry.make base size (ByteImage.read image base count) hookName type).Pristine initial ↔
      ByteImage.read image base (min 64 count) = ByteImage.read initial base (min 64 count) := by
  simp only [PatchEntry.Pristine, PatchEntry.make, ByteImage.read_take, ByteImage.read_length]

/-- No earlier request put a foreign byte where the request will read its originals. -/
def ReadsInitial (image : ByteImage.Image) (done : List NamedCall) (request : NamedCall) : Prop :=
  ∀ index < min 64 request.call.bytes.length, ∀ byte,
    ByteImage.lastByte (done.map NamedCall.footprint)
        (request.call.address + UInt64.ofNat index) = some byte →
      byte = image (request.call.address + UInt64.ofNat index)

def FirstUsesReadInitial (image : ByteImage.Image) (requests : List NamedCall) : Prop :=
  ∀ done request rest, requests = done ++ request :: rest →
    (∀ earlier ∈ done, earlier.call.address ≠ request.call.address) →
      ReadsInitial image done request

theorem firstUses_concat {image : ByteImage.Image} {done : List NamedCall} {request : NamedCall} :
    FirstUsesReadInitial image (done ++ [request]) ↔
      FirstUsesReadInitial image done ∧
        ((∀ earlier ∈ done, earlier.call.address ≠ request.call.address) →
          ReadsInitial image done request) := by
  constructor
  · intro all
    refine ⟨?_, all done request [] rfl⟩
    intro before first rest split
    exact all before first (rest ++ [request]) (by simp [split])
  · rintro ⟨earlier, last⟩ before first rest split
    rcases List.eq_nil_or_concat rest with rfl | ⟨front, final, rfl⟩
    · obtain ⟨rfl, same⟩ := List.append_inj' split rfl
      cases same
      exact last
    · have shorter : done = before ++ first :: front := by
        have regrouped : done ++ [request] = (before ++ first :: front) ++ [final] := by
          simpa using split
        exact (List.append_inj' regrouped rfl).1
      exact earlier before first front shorter

structure RecordInvariant (start : Process) (done : List NamedCall) (process : Process) :
    Prop where
  image : process.image = (done.map NamedCall.footprint).foldl
    (fun current write => ByteImage.overlay current write.1 write.2) start.image
  bases : ∀ base, (∃ entry ∈ process.patches.entries, entry.base = base) ↔
    ∃ request ∈ done, request.call.address = base
  pristine : (∀ entry ∈ process.patches.entries, entry.Pristine start.image) ↔
    FirstUsesReadInitial start.image done

theorem recordInvariant_start {start : Process} (fresh : start.patches = PatchTable.empty) :
    RecordInvariant start [] start := by
  constructor
  · rfl
  · simp [fresh, PatchTable.empty]
  · simp [fresh, PatchTable.empty, FirstUsesReadInitial]

theorem RecordInvariant.reads_iff {start process : Process} {done : List NamedCall}
    (invariant : RecordInvariant start done process) (request : NamedCall) :
    ByteImage.read process.image request.call.address (min 64 request.call.bytes.length) =
        ByteImage.read start.image request.call.address (min 64 request.call.bytes.length) ↔
      ReadsInitial start.image done request := by
  rw [ByteImage.read_eq_iff, invariant.image]
  constructor
  · intro same index bound byte found
    have here := same index bound
    rw [ByteImage.overlays_apply, found] at here
    exact here
  · intro initial index bound
    rw [ByteImage.overlays_apply]
    cases found : ByteImage.lastByte (done.map NamedCall.footprint)
        (request.call.address + UInt64.ofNat index) with
    | none => rfl
    | some byte => exact initial index bound byte found

theorem performNamed_effect {system : System} {process after : Process} {request : NamedCall}
    (run : performNamed system process request = some after) :
    after.image = ByteImage.overlay process.image request.call.address request.call.bytes ∧
      after.patches = process.patches.registerPatch request.call.address
        (UInt64.ofNat request.call.bytes.length)
        (ByteImage.read process.image request.call.address request.call.bytes.length)
        request.hookName .byteWrite := by
  unfold performNamed at run
  split at run
  · next result performed =>
      cases run
      exact WriteCall.perform_success request.named performed
  · cases run

theorem RecordInvariant.next {system : System} {start process after : Process}
    {done : List NamedCall} {request : NamedCall}
    (invariant : RecordInvariant start done process)
    (run : performNamed system process request = some after) :
    RecordInvariant start (done ++ [request]) after := by
  obtain ⟨image, patches⟩ := performNamed_effect run
  constructor
  · rw [image, invariant.image]
    simp [NamedCall.footprint]
  · intro base
    simp only [patches, PatchTable.mem_registerPatch, List.mem_append, List.mem_singleton,
      or_and_right, exists_or, exists_eq_left, invariant.bases]
    constructor
    · rintro (earlier | ⟨entry, ⟨rfl, _⟩, rfl⟩)
      · exact Or.inl earlier
      · exact Or.inr rfl
    · rintro (earlier | rfl)
      · exact Or.inl earlier
      · by_cases used : ∃ earlier ∈ done, earlier.call.address = request.call.address
        · exact Or.inl used
        · refine Or.inr ⟨_, ⟨rfl, ?_⟩, rfl⟩
          intro other member same
          exact used ((invariant.bases _).mp ⟨other, member, same⟩)
  · have unused : (∀ other ∈ process.patches.entries, other.base ≠ request.call.address) ↔
        ∀ earlier ∈ done, earlier.call.address ≠ request.call.address := by
      simpa using not_congr (invariant.bases request.call.address)
    have recorded : (PatchEntry.make request.call.address
        (UInt64.ofNat request.call.bytes.length)
        (ByteImage.read process.image request.call.address request.call.bytes.length)
        request.hookName .byteWrite).Pristine start.image ↔
          ReadsInitial start.image done request := by
      rw [← invariant.reads_iff, make_pristine_iff]
    rw [firstUses_concat, ← invariant.pristine, ← recorded, ← unused, patches]
    simp only [PatchTable.mem_registerPatch]
    constructor
    · intro all
      exact ⟨fun entry member => all entry (Or.inl member),
        fun free => all _ (Or.inr ⟨rfl, free⟩)⟩
    · rintro ⟨old, added⟩ entry (member | ⟨rfl, free⟩)
      · exact old entry member
      · exact added free

/-- Over every run of successful calls, each recorded byte is the initial one if and only if no
call reads its originals where an earlier, overlapping call left another byte. -/
theorem originals_pristine_iff {system : System} {start final : Process}
    {requests : List NamedCall} (fresh : start.patches = PatchTable.empty)
    (run : performAll system start requests = some final) :
    (∀ entry ∈ final.patches.entries, entry.Pristine start.image) ↔
      FirstUsesReadInitial start.image requests := by
  have invariant : RecordInvariant start requests final :=
    PartialFold.foldlM_invariant (RecordInvariant start) run (recordInvariant_start fresh)
      fun _ _ _ _ _ _ held stepped => held.next stepped
  exact invariant.pristine

def granting : System where
  virtualProtect := fun protections _ _ _ => some (0x20, protections)
  ntProtect := fun protections _ _ _ => some (0x20, protections)

def untouched : Process where
  image := fun _ => 0x48
  protections := fun _ => 0x20
  method := .virtualProtect
  patches := PatchTable.empty
  currentHookName := []

def languageUnlockWrites : List NamedCall :=
  [⟨"LanguageUnlock".toList, by decide, .nop 0x140001000 9⟩,
    ⟨"LanguageUnlock".toList, by decide, .ret 0x140001005 0⟩]

theorem languageUnlock_recorded :
    (performAll granting untouched languageUnlockWrites).map (fun final =>
        final.patches.entries.map fun entry => (entry.base, entry.originalBytes)) =
      some [(0x140001000, List.replicate 9 0x48), (0x140001005, [0x90])] := by
  rfl

theorem originals_pristine_iff_languageUnlock :
    ∃ final, performAll granting untouched languageUnlockWrites = some final ∧
      ((∀ entry ∈ final.patches.entries, entry.Pristine untouched.image) ↔
        FirstUsesReadInitial untouched.image languageUnlockWrites) := by
  obtain ⟨final, run, _⟩ := Option.map_eq_some_iff.mp languageUnlock_recorded
  exact ⟨final, run, originals_pristine_iff rfl run⟩

theorem languageUnlock_records_nop :
    ∃ final, performAll granting untouched languageUnlockWrites = some final ∧
      ¬ ∀ entry ∈ final.patches.entries, entry.Pristine untouched.image := by
  obtain ⟨final, run, entries⟩ := Option.map_eq_some_iff.mp languageUnlock_recorded
  have listed : ((0x140001005, [0x90]) : UInt64 × List UInt8) ∈
      final.patches.entries.map fun entry => (entry.base, entry.originalBytes) := by
    rw [entries]
    exact List.mem_cons_of_mem _ List.mem_cons_self
  obtain ⟨entry, member, same⟩ := List.mem_map.mp listed
  obtain ⟨base, bytes⟩ := Prod.mk.inj same
  refine ⟨final, run, fun pristine => ?_⟩
  have initial := pristine entry member
  rw [PatchEntry.Pristine, base, bytes] at initial
  exact absurd initial (by decide)

end PatchFix
