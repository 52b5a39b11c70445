import PatchFix.BranchTarget
import PatchFix.PeTranslation
import PatchFix.TextRange

/-!
`win32::enumerate_sections` over a loaded image and the sections that `vmp::detail` picks of them,
next to the table that `rva_to_file_offset` reads of the same image's file.
-/

namespace PatchFix

open ByteImage LittleEndian RelativeAddress

structure PeSection extends SectionInfo where
  name : List UInt8
  characteristics : UInt32
  deriving DecidableEq

def SectionInfo.contains (addr : UInt64) (info : SectionInfo) : Bool :=
  info.base ≤ addr && addr < info.endAddress

namespace PeSection

def imageDosSignature : Nat := 0x5A4D
def imageNtSignature : Nat := 0x00004550
def shortNameSize : Nat := 8

def field (image : Image) (addr : UInt64) (width : Nat) : Nat := decode (read image addr width)

def ofHeader (image : Image) (base header : UInt64) : PeSection where
  name := (read image header shortNameSize).takeWhile fun char => char != 0
  base := base + UInt64.ofNat (field image (header + 12) 4)
  size := UInt64.ofNat (field image (header + 8) 4)
  characteristics := UInt32.ofNat (field image (header + 36) 4)

def ntHeaders (image : Image) (base : UInt64) : UInt64 :=
  displace base (signed 4 (field image (base + 0x3C) 4))

def firstSection (image : Image) (nt : UInt64) : UInt64 :=
  nt + 24 + UInt64.ofNat (field image (nt + 20) 2)

def enumerateLoaded (image : Image) (base : UInt64) : List PeSection :=
  if field image base 2 ≠ imageDosSignature then []
  else
    let nt := ntHeaders image base
    if field image nt 4 ≠ imageNtSignature then []
    else
      (List.range (field image (nt + 6) 2)).map fun index =>
        ofHeader image base (firstSection image nt + UInt64.ofNat (40 * index))

/-- `enumerate_sections`; `mainModule` is what `GetModuleHandleA(nullptr)` returns. -/
def enumerateSections (image : Image) (mainModule hModule : UInt64) : List PeSection :=
  enumerateLoaded image (if hModule ≠ 0 then hModule else mainModule)

end PeSection

/-! The two tables of one image: the one in memory and the one in the file. -/

section Agreement

variable {image : Image} {base : UInt64}

def Mapped (image : Image) (base : UInt64) (file : List UInt8) (extent : Nat) : Prop :=
  extent ≤ file.length ∧ read image base extent = file.take extent

theorem Mapped.read_eq {file : List UInt8} {extent : Nat} (mapped : Mapped image base file extent)
    {position width : Nat} (inside : position + width ≤ extent) :
    read image (base + UInt64.ofNat position) width = (file.drop position).take width :=
  calc read image (base + UInt64.ofNat position) width
    _ = (read image (base + UInt64.ofNat position) (extent - position)).take width := by
        rw [read_take, Nat.min_eq_left (by omega)]
    _ = ((file.take extent).drop position).take width := by rw [← read_drop, mapped.2]
    _ = (file.drop position).take width := by
        rw [List.drop_take, List.take_take, Nat.min_eq_left (by omega)]

theorem Mapped.field {file : List UInt8} {extent : Nat} (mapped : Mapped image base file extent)
    {position width : Nat} (inside : position + width ≤ extent) :
    PeSection.field image (base + UInt64.ofNat position) width = readAt file position width := by
  rw [PeSection.field, mapped.read_eq inside, readAt]

open PeFile in
theorem sectionsFrom_eq_map {bytes : List UInt8} {entry count : Nat}
    (inside : entry + count * sectionSize ≤ bytes.length) :
    sectionsFrom bytes sectionSize entry count =
      (List.range count).map fun index => sectionAt bytes (entry + index * sectionSize) := by
  induction count generalizing entry with
  | zero => rfl
  | succ count ih =>
      rw [Nat.add_mul, Nat.one_mul] at inside
      have next (index : Nat) : entry + (index + 1) * sectionSize =
          entry + sectionSize + index * sectionSize := by
        rw [Nat.add_mul, Nat.one_mul]
        omega
      rw [sectionsFrom, if_pos (by omega), ih (by omega), List.range_succ_eq_map, List.map_cons,
        List.map_map, Nat.zero_mul, Nat.add_zero]
      simp only [Function.comp_def, Nat.succ_eq_add_one, next]

theorem toUInt64_ofNat {value : Nat} (bound : value < 256 ^ 4) :
    (UInt32.ofNat value).toUInt64 = UInt64.ofNat value := by
  apply UInt64.toNat_inj.mp
  rw [UInt32.toNat_toUInt64, UInt32.toNat_ofNat', UInt64.toNat_ofNat',
    Nat.mod_eq_of_lt (by omega), Nat.mod_eq_of_lt (by omega)]

end Agreement

theorem countP_of_apart {Entry : Type} {holds : Entry → Prop} [DecidablePred holds]
    {entries : List Entry}
    (apart : entries.Pairwise fun first second => holds first → ¬holds second) :
    entries.countP (fun entry => holds entry) =
      if ∃ entry ∈ entries, holds entry then 1 else 0 := by
  induction entries with
  | nil => simp
  | cons entry entries ih =>
      obtain ⟨first, rest⟩ := List.pairwise_cons.mp apart
      by_cases here : holds entry
      · have elsewhere : ¬∃ other ∈ entries, holds other := by
          rintro ⟨other, member, there⟩
          exact first other member here there
        simp [here, ih rest, elsewhere]
      · simp [here, ih rest]

namespace PeFile

def SectionHeader.loaded (base : UInt64) (header : SectionHeader) : SectionInfo where
  base := base + header.virtRva.toUInt64
  size := header.virtSz.toUInt64

namespace PeImage

def tableStart (file : PeImage) : Nat := file.peOffset + coffHeaderSize + file.optLen

def tableEnd (file : PeImage) : Nat := file.tableStart + file.count * sectionSize

/-- An entry of the table, moved by the base: its name ends at the first zero or after eight
characters. -/
def entrySection (file : PeImage) (base : UInt64) (index : Nat) : PeSection :=
  let entry := file.tableStart + index * sectionSize
  { toSectionInfo := (sectionAt file.span.bytes entry).loaded base
    name := ((file.span.bytes.drop entry).take 8).takeWhile fun char => char != 0
    characteristics := UInt32.ofNat (LittleEndian.readAt file.span.bytes (entry + 36) 4) }

/-- The headers are in memory at the base, and the address space does not end inside the image. -/
structure LoadedAt (file : PeImage) (image : Image) (base : UInt64) : Prop where
  mapped : Mapped image base file.span.bytes file.tableEnd
  header : 0x40 ≤ file.tableEnd
  dos : LittleEndian.readAt file.span.bytes 0 2 = PeSection.imageDosSignature
  nt : LittleEndian.readAt file.span.bytes file.peOffset 4 = PeSection.imageNtSignature
  placed : file.peOffset < 2 ^ 31
  room : base.toNat + 2 ^ 32 < 2 ^ 64

theorem readAt_of_fieldAt {bytes : List UInt8} {position width value : Nat}
    (read : fieldAt bytes position width = some value) :
    LittleEndian.readAt bytes position width = value := by
  unfold fieldAt at read
  split at read
  · exact Option.some.inj read
  · contradiction

section Loaded

variable {file : PeImage} {image : Image} {base : UInt64}

theorem LoadedAt.ntHeaders (loaded : file.LoadedAt image base) :
    PeSection.ntHeaders image base = base + UInt64.ofNat file.peOffset := by
  have lfanew : PeSection.field image (base + 0x3C) 4 = file.peOffset := by
    rw [← readAt_of_fieldAt file.peField]
    exact loaded.mapped.field loaded.header
  have plain : signed 4 file.peOffset = file.peOffset := by
    have placed := loaded.placed
    apply Int.bmod_eq_of_le
    · omega
    · norm_num
      omega
  rw [PeSection.ntHeaders, lfanew, plain, displace, ofInt_natCast]

theorem LoadedAt.ntField (loaded : file.LoadedAt image base) {place width : Nat}
    (inside : place + width ≤ coffHeaderSize) :
    PeSection.field image (base + UInt64.ofNat file.peOffset + UInt64.ofNat place) width =
      LittleEndian.readAt file.span.bytes (file.peOffset + place) width := by
  rw [UInt64.add_assoc, ← UInt64.ofNat_add]
  apply loaded.mapped.field
  unfold tableEnd tableStart
  omega

theorem LoadedAt.firstSection (loaded : file.LoadedAt image base) :
    PeSection.firstSection image (base + UInt64.ofNat file.peOffset) =
      base + UInt64.ofNat file.tableStart := by
  have optional : PeSection.field image (base + UInt64.ofNat file.peOffset + 20) 2 =
      file.optLen := by
    rw [← readAt_of_fieldAt file.optField]
    exact loaded.ntField (by decide : 20 + 2 ≤ coffHeaderSize)
  rw [PeSection.firstSection, optional, tableStart, UInt64.ofNat_add, UInt64.ofNat_add,
    UInt64.add_assoc, UInt64.add_assoc, UInt64.add_assoc]
  rfl

theorem LoadedAt.read_entry (loaded : file.LoadedAt image base) {index place width : Nat}
    (listed : index < file.count) (inside : place + width ≤ 40) :
    read image
        (base + UInt64.ofNat file.tableStart + UInt64.ofNat (40 * index) + UInt64.ofNat place)
        width =
      (file.span.bytes.drop (file.tableStart + index * sectionSize + place)).take width := by
  have stride : sectionSize = 40 := rfl
  rw [UInt64.add_assoc, UInt64.add_assoc, ← UInt64.ofNat_add, ← UInt64.ofNat_add,
    Nat.mul_comm 40, ← stride, ← Nat.add_assoc]
  apply loaded.mapped.read_eq
  unfold tableEnd
  rw [stride]
  omega

/-- What is read of a section in memory is what its entry in the file says. -/
theorem LoadedAt.ofHeader (loaded : file.LoadedAt image base) {index : Nat}
    (listed : index < file.count) :
    PeSection.ofHeader image base
        (base + UInt64.ofNat file.tableStart + UInt64.ofNat (40 * index)) =
      file.entrySection base index := by
  have name := loaded.read_entry listed (show 0 + 8 ≤ 40 by decide)
  have virtSz := congrArg decode (loaded.read_entry listed (show 8 + 4 ≤ 40 by decide))
  have virtRva := congrArg decode (loaded.read_entry listed (show 12 + 4 ≤ 40 by decide))
  have characteristics :=
    congrArg decode (loaded.read_entry listed (show 36 + 4 ≤ 40 by decide))
  rw [show UInt64.ofNat 0 = 0 by rfl, UInt64.add_zero, Nat.add_zero] at name
  unfold PeSection.ofHeader entrySection SectionHeader.loaded sectionAt
  simp only [toUInt64_ofNat (readAt_lt _ _ _), PeSection.mk.injEq, SectionInfo.mk.injEq]
  refine ⟨⟨?_, ?_⟩, ?_, ?_⟩
  · exact congrArg (fun rva => base + UInt64.ofNat rva) virtRva
  · exact congrArg UInt64.ofNat virtSz
  · exact congrArg (List.takeWhile fun char => char != 0) name
  · exact congrArg UInt32.ofNat characteristics

theorem LoadedAt.sections_eq (loaded : file.LoadedAt image base) :
    PeSection.enumerateLoaded image base =
      (List.range file.count).map (file.entrySection base) := by
  have dos : PeSection.field image base 2 = PeSection.imageDosSignature := by
    have inside : 0 + 2 ≤ file.tableEnd := le_trans (by decide) loaded.header
    have first := loaded.mapped.field inside
    rw [← loaded.dos, ← first]
    simp
  have nt : PeSection.field image (base + UInt64.ofNat file.peOffset) 4 =
      PeSection.imageNtSignature := by
    rw [← loaded.nt]
    apply loaded.mapped.field
    unfold tableEnd tableStart coffHeaderSize
    omega
  have count : PeSection.field image (base + UInt64.ofNat file.peOffset + 6) 2 = file.count := by
    rw [← readAt_of_fieldAt file.countField]
    exact loaded.ntField (by decide : 6 + 2 ≤ coffHeaderSize)
  rw [PeSection.enumerateLoaded, if_neg (not_not.mpr dos), loaded.ntHeaders,
    if_neg (not_not.mpr nt), count, loaded.firstSection]
  apply List.map_congr_left
  intro index member
  exact loaded.ofHeader (List.mem_range.mp member)

theorem sections_loaded (file : PeImage) (base : UInt64) :
    ((List.range file.count).map (file.entrySection base)).map PeSection.toSectionInfo =
      file.sections.map (SectionHeader.loaded base) := by
  have listed : file.sections = (List.range file.count).map fun index =>
      sectionAt file.span.bytes (file.tableStart + index * sectionSize) := by
    have whole := sectionsFrom_eq_map file.tableInside
    simpa only [sections, listedSections, sectionTable, file.peField, id, file.countField,
      file.optField, tableStart] using whole
  rw [listed, List.map_map, List.map_map]
  rfl

theorem LoadedAt.contains_iff (loaded : file.LoadedAt image base) {header : SectionHeader}
    (member : header ∈ file.sections) (addr : UInt64) :
    (header.loaded base).contains addr = true ↔ header.Holds (addr - base).toNat := by
  have room := loaded.room
  have unwrapped := file.unwrapped header member
  have rva := header.virtRva.toNat_lt
  have addrBound := addr.toNat_lt
  have start : (base + header.virtRva.toUInt64).toNat = base.toNat + header.virtRva.toNat := by
    rw [UInt64.toNat_add, UInt32.toNat_toUInt64, Nat.mod_eq_of_lt (by omega)]
  have stop : (base + header.virtRva.toUInt64 + header.virtSz.toUInt64).toNat =
      base.toNat + header.virtRva.toNat + header.virtSz.toNat := by
    rw [UInt64.toNat_add, start, UInt32.toNat_toUInt64, Nat.mod_eq_of_lt (by omega)]
  have distance : (addr - base).toNat = (addr.toNat + (2 ^ 64 - base.toNat)) % 2 ^ 64 := by
    rw [UInt64.toNat_sub, Nat.add_comm]
  simp only [SectionInfo.contains, SectionInfo.endAddress, SectionHeader.loaded, Bool.and_eq_true,
    decide_eq_true_eq, UInt64.le_iff_toNat_le, UInt64.lt_iff_toNat_lt, start, stop,
    SectionHeader.Holds, distance]
  omega

/-- The sections in memory are the entries of the file's table, moved by the base, and no two of
them share an address: an address is in one of them exactly when an entry holds its RVA. -/
theorem LoadedAt.enumerated (loaded : file.LoadedAt image base)
    {mainModule hModule : UInt64} (based : (if hModule ≠ 0 then hModule else mainModule) = base) :
    PeSection.enumerateSections image mainModule hModule =
        (List.range file.count).map (file.entrySection base) ∧
      ∀ addr, (PeSection.enumerateSections image mainModule hModule).countP
          (fun info => info.contains addr) =
        if ∃ header ∈ file.sections, header.Holds (addr - base).toNat then 1 else 0 := by
  rw [PeSection.enumerateSections, based, loaded.sections_eq]
  refine ⟨rfl, fun addr => ?_⟩
  have counted := congrArg (List.countP fun info => info.contains addr)
    (sections_loaded file base)
  rw [List.countP_map] at counted
  conv_rhs at counted => rw [List.countP_map]
  have inside : file.sections.countP
      ((fun info => info.contains addr) ∘ SectionHeader.loaded base) =
        file.sections.countP fun header => header.Holds (addr - base).toNat := by
    apply List.countP_congr
    intro header member
    simpa using loaded.contains_iff member addr
  refine counted.trans (inside.trans (countP_of_apart ?_))
  exact file.apart.imp fun apart => apart (addr - base).toNat

end Loaded

end PeImage

def packedBytes : List UInt8 :=
  encode 2 PeSection.imageDosSignature ++ List.replicate 58 0 ++ encode 4 0x40 ++
    encode 4 PeSection.imageNtSignature ++ List.replicate 2 0 ++ encode 2 1 ++
    List.replicate 16 0 ++ [0x2E, 0x55, 0x42, 0x58, 0x30, 0, 0, 0] ++ encode 4 0x2000 ++
    encode 4 0x1000 ++ List.replicate 24 0

theorem packed_sections :
    listedSections packedBytes sectionSize = [⟨0x2000, 0x1000, 0, 0⟩] := by
  decide +kernel

def packedImage : PeImage where
  span := { bytes := packedBytes, bounded := by decide +kernel }
  peOffset := 0x40
  count := 1
  optLen := 0
  peField := by decide +kernel
  countField := by decide +kernel
  optField := by decide +kernel
  tableInside := by decide +kernel
  apart := by
    rw [packed_sections]
    exact List.pairwise_singleton _ _
  unwrapped := by
    rw [packed_sections]
    decide

def packedBase : UInt64 := 0x140000000

def packedMemory : Image := overlay (fun _ => 0) packedBase packedBytes

theorem packed_loaded : packedImage.LoadedAt packedMemory packedBase where
  mapped := by
    have length : packedImage.tableEnd = packedBytes.length := by decide +kernel
    have fits : packedBytes.length ≤ 2 ^ 64 := by decide +kernel
    refine ⟨length.le, ?_⟩
    rw [length, packedMemory, read_overlay _ _ fits]
    exact List.take_length.symm
  header := by decide +kernel
  dos := by decide +kernel
  nt := by decide +kernel
  placed := by decide
  room := by decide

theorem packed_enumerated :
    PeSection.enumerateSections packedMemory packedBase 0 =
        [⟨⟨0x140001000, 0x2000⟩, [0x2E, 0x55, 0x42, 0x58, 0x30], 0⟩] ∧
      ∀ addr, (PeSection.enumerateSections packedMemory packedBase 0).countP
          (fun info => info.contains addr) =
        if ∃ header ∈ packedImage.sections, header.Holds (addr - packedBase).toNat then 1
        else 0 := by
  have based : (if (0 : UInt64) ≠ 0 then 0 else packedBase) = packedBase := rfl
  obtain ⟨sections, counted⟩ := packed_loaded.enumerated based
  refine ⟨sections.trans ?_, counted⟩
  decide +kernel

end PeFile

end PatchFix
