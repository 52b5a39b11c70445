import PatchFix.BranchTarget
import PatchFix.Library.X64Code
import PatchFix.MakeHook
import PatchFix.RegistryInstall

/-!
Syndicate's `LanguageUnlock`: the three language bitfields of the game after its install, over any
number of times that the game loads them again.
-/

namespace PatchFix.Syndicate

open ByteImage LittleEndian RelativeAddress X64Code

inductive Language where
  | none | english | french | spanish | polish | german | chineseTrad | chineseSimp | hungarian
  | italian | japanese | czech | korean | russian | dutch | danish | norwegian | swedish
  | portuguese | brazil | finnish | arabic | mexican | locTest
  deriving DecidableEq, Repr

namespace Language

def toUnderlying : Language → UInt32
  | none => 0
  | english => 1
  | french => 2
  | spanish => 3
  | polish => 4
  | german => 5
  | chineseTrad => 6
  | chineseSimp => 7
  | hungarian => 8
  | italian => 9
  | japanese => 10
  | czech => 11
  | korean => 12
  | russian => 13
  | dutch => 14
  | danish => 15
  | norwegian => 16
  | swedish => 17
  | portuguese => 18
  | brazil => 19
  | finnish => 20
  | arabic => 21
  | mexican => 22
  | locTest => 23

end Language

def bit (language : Language) : UInt32 := 1 <<< language.toUnderlying

def Language.In (language : Language) (mask : UInt32) : Prop := mask &&& bit language ≠ 0

instance (language : Language) (mask : UInt32) : Decidable (language.In mask) :=
  inferInstanceAs (Decidable (_ ≠ _))

def kAllMenu : UInt32 :=
  bit .english ||| bit .french ||| bit .spanish ||| bit .polish ||| bit .german |||
    bit .chineseTrad ||| bit .chineseSimp ||| bit .hungarian ||| bit .italian ||| bit .japanese |||
    bit .czech ||| bit .korean ||| bit .russian ||| bit .dutch ||| bit .danish |||
    bit .norwegian ||| bit .swedish ||| bit .brazil ||| bit .finnish ||| bit .arabic |||
    bit .mexican

def kAllSubtitle : UInt32 := kAllMenu

def kAllAudio : UInt32 :=
  bit .english ||| bit .french ||| bit .spanish ||| bit .german ||| bit .italian |||
    bit .japanese ||| bit .russian ||| bit .brazil ||| bit .arabic ||| bit .mexican

structure LanguageConfig where
  unlockAll : Bool
  includeLoctest : Bool

structure LanguageMasks where
  menu : UInt32
  subtitle : UInt32
  audio : UInt32
  deriving DecidableEq, Repr

def LanguageConfig.effective (cfg : LanguageConfig) : LanguageMasks :=
  let loctest := if cfg.includeLoctest then bit .locTest else 0
  ⟨kAllMenu ||| loctest, kAllSubtitle ||| loctest, kAllAudio ||| loctest⟩

structure LanguageGlobals where
  menu : UInt64
  subtitle : UInt64
  audio : UInt64

def LanguageGlobals.ofCode (code : Image) (langBfWrite : UInt64) : LanguageGlobals where
  menu := X64.readRel code (langBfWrite + 2) .dword
  subtitle := X64.readRel code (langBfWrite + 0x18) .dword
  audio := X64.readRel code (langBfWrite + 8) .dword

def kBfWriteFallbackOffset : UInt64 := 0x121

def langBfWriteOf (langSetup : UInt64) (langBfWrite : Option UInt64) : UInt64 :=
  langBfWrite.getD (langSetup + kBfWriteFallbackOffset)

def LanguageGlobals.write (globals : LanguageGlobals) (masks : LanguageMasks) (memory : Image) :
    Image :=
  overlay (overlay (overlay memory globals.menu (encode 4 masks.menu.toNat))
    globals.subtitle (encode 4 masks.subtitle.toNat)) globals.audio (encode 4 masks.audio.toNat)

def dword (memory : Image) (address : UInt64) : UInt32 :=
  UInt32.ofNat (decode (ByteImage.read memory address 4))

def LanguageGlobals.read (globals : LanguageGlobals) (memory : Image) : LanguageMasks where
  menu := dword memory globals.menu
  subtitle := dword memory globals.subtitle
  audio := dword memory globals.audio

structure UnlockProcess where
  memory : Image
  callback : Option LanguageMasks

def installLanguageUnlock (code : Image) (langSetup : UInt64) (langBfWrite : Option UInt64)
    (cfg : LanguageConfig) (creation : HookCreation) (memory : Image) :
    InstallOutcome × UnlockProcess :=
  if !cfg.unlockAll then (.succeeded, ⟨memory, none⟩)
  else
    let globals := LanguageGlobals.ofCode code (langBfWriteOf langSetup langBfWrite)
    let written := globals.write cfg.effective memory
    match creation with
    | .created => (.succeeded, ⟨written, some cfg.effective⟩)
    | .refused => (.failed, ⟨written, none⟩)
    | .raised => (.faulted, ⟨written, none⟩)

def langBitfieldPatch (masks : LanguageMasks) (gpr : Gpr → UInt64) : Gpr → UInt64 :=
  Function.update (Function.update (Function.update gpr .rdi masks.menu.toUInt64)
    .rsi masks.subtitle.toUInt64) .rbx masks.audio.toUInt64

/-! The game's own code. -/

def storeBitfield (code : Image) (gpr : Gpr → UInt64) (rip : UInt64) (memory : Image) :
    Option Image :=
  ((Machine.arriving gpr memory rip).step code).map Machine.memory

/-- The three stores that the hook is placed at, without what the game does between them. -/
def storeBitfields (code : Image) (langBfWrite : UInt64) (gpr : Gpr → UInt64)
    (memory : Image) : Option Image := do
  let menu ← storeBitfield code gpr langBfWrite memory
  let audio ← storeBitfield code gpr (langBfWrite + 6) menu
  storeBitfield code gpr (langBfWrite + 0x16) audio

def loadBitfields (code : Image) (langBfWrite : UInt64) (process : UnlockProcess)
    (gpr : Gpr → UInt64) : UnlockProcess :=
  let stored := match process.callback with
    | some masks => langBitfieldPatch masks gpr
    | none => gpr
  { process with
    memory := (storeBitfields code langBfWrite stored process.memory).getD process.memory }

/-- `mov [menu], edi`, `mov [audio], ebx` and, further on, `mov [subtitle], esi`. -/
structure StoresBitfields (code : Image) (langBfWrite : UInt64) : Prop where
  menu : At code langBfWrite [0x89, 0x3D]
  audio : At code (langBfWrite + 6) [0x89, 0x1D]
  subtitle : At code (langBfWrite + 0x16) [0x89, 0x35]

structure LanguageGlobals.Apart (globals : LanguageGlobals) : Prop where
  menuSubtitle : ByteImage.Apart globals.menu 4 globals.subtitle 4
  menuAudio : ByteImage.Apart globals.menu 4 globals.audio 4
  subtitleAudio : ByteImage.Apart globals.subtitle 4 globals.audio 4

def masksOf (gpr : Gpr → UInt64) : LanguageMasks where
  menu := (gpr .rdi).toUInt32
  subtitle := (gpr .rsi).toUInt32
  audio := (gpr .rbx).toUInt32

theorem dword_overlay (memory : Image) (address : UInt64) (value : UInt32) :
    dword (overlay memory address (encode 4 value.toNat)) address = value := by
  have written : ByteImage.read (overlay memory address (encode 4 value.toNat)) address
      (encode 4 value.toNat).length = encode 4 value.toNat :=
    read_overlay memory address (by rw [encode_length]; decide)
  rw [encode_length] at written
  rw [dword, written, decode_encode value.toNat_lt, UInt32.ofNat_toNat]

theorem dword_overlay_apart {memory : Image} {start other : UInt64} (value : UInt32)
    (apart : Apart start 4 other 4) :
    dword (overlay memory start (encode 4 value.toNat)) other = dword memory other := by
  rw [dword, read_overlay_apart (by rwa [encode_length]), dword]

variable {code : Image} {langBfWrite : UInt64}

theorem LanguageGlobals.Apart.read_write {globals : LanguageGlobals} (apart : globals.Apart)
    (masks : LanguageMasks) (memory : Image) :
    globals.read (globals.write masks memory) = masks := by
  simp only [LanguageGlobals.read, LanguageGlobals.write, dword_overlay,
    dword_overlay_apart _ apart.menuSubtitle.symm, dword_overlay_apart _ apart.menuAudio.symm,
    dword_overlay_apart _ apart.subtitleAudio.symm]

theorem storeBitfield_placed (gpr : Gpr → UInt64) {rip : UInt64} {modrm : UInt8}
    (placed : At code rip [0x89, modrm]) (relative : modField modrm = 0 ∧ rmField modrm = 5)
    (memory : Image) :
    storeBitfield code gpr rip memory =
      some (overlay memory (X64.readRel code (rip + 2) .dword)
        (encode 4 (gpr (.ofNumber (regField modrm))).toUInt32.toNat)) := by
  have next : rip + 2 + UInt64.ofNat X64.OperandSize.dword.bytes = rip + 6 := UInt64.add_assoc ..
  have decodes (disp rest : List UInt8) (width : disp.length = 4) :
      decodeBytes ([0x89, modrm] ++ disp ++ rest) =
        some (.storeDword disp (.ofNumber (regField modrm)), 6) := by
    show onRipRelative modrm (disp ++ rest) 6 (fun src disp => .storeDword disp (.ofNumber src)) = _
    rw [onRipRelative, if_pos relative, List.take_left' width]
  have here : At code (Machine.arriving gpr memory rip).rip [0x89, modrm] := placed
  have stepped := here.stepRip _ (Nat.le_of_ble_eq_true rfl) decodes
  rw [storeBitfield, stepped, Option.map_some, X64.readRel, next]
  rfl

/-- The addresses that the install reads out of the code are those the game stores to. -/
theorem StoresBitfields.read (stores : StoresBitfields code langBfWrite)
    (apart : (LanguageGlobals.ofCode code langBfWrite).Apart) (gpr : Gpr → UInt64)
    (memory : Image) :
    ∃ stored, storeBitfields code langBfWrite gpr memory = some stored ∧
      (LanguageGlobals.ofCode code langBfWrite).read stored = masksOf gpr := by
  have audioAt : langBfWrite + 6 + 2 = langBfWrite + 8 := UInt64.add_assoc ..
  have subtitleAt : langBfWrite + 0x16 + 2 = langBfWrite + 0x18 := UInt64.add_assoc ..
  have menu := storeBitfield_placed gpr stores.menu (by decide)
  have audio := storeBitfield_placed gpr stores.audio (by decide)
  have subtitle := storeBitfield_placed gpr stores.subtitle (by decide)
  rw [audioAt] at audio
  rw [subtitleAt] at subtitle
  simp only [storeBitfields, menu, audio, subtitle, Option.bind_eq_bind, Option.bind_some]
  refine ⟨_, rfl, ?_⟩
  have menuAudio := apart.menuAudio.symm
  have menuSubtitle := apart.menuSubtitle.symm
  have subtitleAudio := apart.subtitleAudio
  simp only [LanguageGlobals.ofCode] at menuAudio menuSubtitle subtitleAudio
  simp only [LanguageGlobals.read, LanguageGlobals.ofCode, dword_overlay,
    dword_overlay_apart _ menuSubtitle, dword_overlay_apart _ menuAudio,
    dword_overlay_apart _ subtitleAudio]
  rfl

theorem masksOf_patched (masks : LanguageMasks) (gpr : Gpr → UInt64) :
    masksOf (langBitfieldPatch masks gpr) = masks := by
  simp [masksOf, langBitfieldPatch]

theorem loadBitfields_read (stores : StoresBitfields code langBfWrite)
    (apart : (LanguageGlobals.ofCode code langBfWrite).Apart) (process : UnlockProcess)
    (gpr : Gpr → UInt64) :
    (LanguageGlobals.ofCode code langBfWrite).read
        (loadBitfields code langBfWrite process gpr).memory =
      process.callback.getD (masksOf gpr) := by
  cases placed : process.callback with
  | none =>
      obtain ⟨stored, ran, left⟩ := stores.read apart gpr process.memory
      simp [loadBitfields, placed, ran, left]
  | some masks =>
      obtain ⟨stored, ran, left⟩ := stores.read apart (langBitfieldPatch masks gpr) process.memory
      simp [loadBitfields, placed, ran, left, masksOf_patched]

theorem foldl_loadBitfields (stores : StoresBitfields code langBfWrite)
    (apart : (LanguageGlobals.ofCode code langBfWrite).Apart) (process : UnlockProcess)
    (loads : List (Gpr → UInt64)) :
    (loads.foldl (loadBitfields code langBfWrite) process).callback = process.callback ∧
      (LanguageGlobals.ofCode code langBfWrite).read
          (loads.foldl (loadBitfields code langBfWrite) process).memory =
        (loads.getLast?.map fun gpr => process.callback.getD (masksOf gpr)).getD
          ((LanguageGlobals.ofCode code langBfWrite).read process.memory) := by
  induction loads using List.reverseRecOn with
  | nil => exact ⟨rfl, rfl⟩
  | append_singleton loads gpr ih =>
      rw [List.foldl_append, List.foldl_cons, List.foldl_nil, loadBitfields_read stores apart, ih.1]
      exact ⟨ih.1, by simp⟩

def LanguageConfig.Unlocks (cfg : LanguageConfig) (language : Language) : Prop :=
  language ∉ [.none, .portuguese, .locTest] ∨ (language = .locTest ∧ cfg.includeLoctest = true)

theorem LanguageConfig.in_effective (cfg : LanguageConfig) (language : Language) :
    (language.In cfg.effective.menu ↔ cfg.Unlocks language) ∧
      (language.In cfg.effective.subtitle ↔ cfg.Unlocks language) := by
  obtain ⟨unlockAll, includeLoctest⟩ := cfg
  unfold LanguageConfig.Unlocks
  cases unlockAll <;> cases includeLoctest <;> cases language <;> decide

def storesCode : Image :=
  overlay (fun _ => 0x90) 0x140001000
    [0x89, 0x3D, 0x00, 0x10, 0x00, 0x00, 0x89, 0x1D, 0x1A, 0x10, 0x00, 0x00, 0x89, 0x05, 0x00,
      0x20, 0x00, 0x00, 0x8B, 0x44, 0x24, 0x20, 0x89, 0x35, 0xFA, 0x0F, 0x00, 0x00]

theorem storesCode_stores : StoresBitfields storesCode 0x140001000 where
  menu := by unfold At; decide
  audio := by unfold At; decide
  subtitle := by unfold At; decide

theorem storesCode_apart : (LanguageGlobals.ofCode storesCode 0x140001000).Apart where
  menuSubtitle := by unfold ByteImage.Apart; decide
  menuAudio := by unfold ByteImage.Apart; decide
  subtitleAudio := by unfold ByteImage.Apart; decide

end PatchFix.Syndicate
