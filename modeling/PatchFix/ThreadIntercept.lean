import PatchFix.PeSections

/-! The sections that the packer left in the game and the threads that start in them. -/

namespace PatchFix

open ByteImage

structure VmpSections where
  vmp : List PeSection
  text : Option PeSection

namespace VmpSections

def textName : List UInt8 := [0x2E, 0x74, 0x65, 0x78, 0x74]

def sort (vmpPrefix : List UInt8) (found : VmpSections) (info : PeSection) : VmpSections :=
  if vmpPrefix.isPrefixOf info.name then { found with vmp := found.vmp ++ [info] }
  else if info.name = textName then { found with text := some info }
  else found

def hasVmp (sections : VmpSections) : Bool := !sections.vmp.isEmpty

def containsVmp (addr : UInt64) (sections : VmpSections) : Bool :=
  sections.vmp.any fun info => info.contains addr

end VmpSections

def findVmpSections (image : Image) (mainModule hModule : UInt64) (vmpPrefix : List UInt8) :
    VmpSections :=
  (PeSection.enumerateSections image mainModule hModule).foldl (VmpSections.sort vmpPrefix)
    { vmp := [], text := none }

def isVmpThread (image : Image) (memory : MemoryMap) (sections : VmpSections) (start : UInt64) :
    Bool :=
  if sections.containsVmp start then true
  else
    match memory.query start with
    | none => false
    | some region =>
        if region.protect &&& MemoryRegion.execMask = 0 then false
        else
          match X64.branchTarget image start with
          | none => false
          | some target => sections.containsVmp target

variable {image : Image} {memory : MemoryMap} {mainModule hModule : UInt64}
variable {vmpPrefix : List UInt8}

theorem foldl_sort (found : VmpSections) (infos : List PeSection) :
    (infos.foldl (VmpSections.sort vmpPrefix) found).vmp =
      found.vmp ++ infos.filter fun info => vmpPrefix.isPrefixOf info.name := by
  induction infos generalizing found with
  | nil => simp
  | cons info infos ih =>
      rw [List.foldl_cons, ih, VmpSections.sort]
      by_cases packer : vmpPrefix.isPrefixOf info.name = true
      · rw [if_pos packer, List.filter_cons, if_pos packer]
        simp
      · rw [if_neg packer, List.filter_cons, if_neg packer]
        split
        · rfl
        · rfl

/-- An address in one of the image's sections whose names start with the prefix. -/
def InPacker (image : Image) (mainModule hModule : UInt64) (vmpPrefix : List UInt8)
    (addr : UInt64) : Prop :=
  ∃ info ∈ PeSection.enumerateSections image mainModule hModule,
    vmpPrefix <+: info.name ∧ info.base ≤ addr ∧ addr < info.endAddress

theorem containsVmp_iff (addr : UInt64) :
    (findVmpSections image mainModule hModule vmpPrefix).containsVmp addr = true ↔
      InPacker image mainModule hModule vmpPrefix addr := by
  rw [VmpSections.containsVmp, findVmpSections, foldl_sort]
  simp [InPacker, SectionInfo.contains]

theorem isVmpThread_eq (sections : VmpSections) (start : UInt64) :
    isVmpThread image memory sections start = true ↔
      sections.containsVmp start = true ∨
        ∃ region, memory.query start = some region ∧
          region.protect &&& MemoryRegion.execMask ≠ 0 ∧
          ∃ target, X64.branchTarget image start = some target ∧
            sections.containsVmp target = true := by
  unfold isVmpThread
  cases inside : sections.containsVmp start with
  | true => simp
  | false =>
      cases memory.query start with
      | none => simp
      | some region =>
          by_cases executable : region.protect &&& MemoryRegion.execMask = 0
          · simp [executable]
          · cases X64.branchTarget image start with
            | none => simp [executable]
            | some target => simp [executable]

/-- A thread is the packer's when it starts in the packer's sections or at a branch into them. -/
theorem isVmpThread_iff (image : Image) (memory : MemoryMap) (mainModule hModule : UInt64)
    (vmpPrefix : List UInt8) (start : UInt64) :
    isVmpThread image memory (findVmpSections image mainModule hModule vmpPrefix) start = true ↔
      InPacker image mainModule hModule vmpPrefix start ∨
        ∃ region, memory.query start = some region ∧
          region.protect &&& MemoryRegion.execMask ≠ 0 ∧
          ∃ target, (X64.RelativeBranch image start target ∨
              X64.IndirectBranch image start target) ∧
            InPacker image mainModule hModule vmpPrefix target := by
  simp only [isVmpThread_eq, containsVmp_iff, X64.branchTarget_eq_some]

end PatchFix
