import PatchFix.Library.SpanAccess

/-!
`rva_to_file_offset` with every read that it makes of the image, in the widths of its operands, and
the same translation over unbounded numbers.
-/

namespace PatchFix.PeFile

open SpanAccess

def readAt (image : Span) (offset : UInt64) (width : Nat) : Traced (Option Nat) :=
  if image.size < offset + UInt64.ofNat width then pure none
  else do
    let value ← load image offset.toNat width
    pure (some value)

structure SectionHeader where
  virtSz : UInt32
  virtRva : UInt32
  rawSz : UInt32
  rawPtr : UInt32
  deriving DecidableEq, Repr

namespace SectionHeader

def span (header : SectionHeader) : UInt32 := max header.virtSz header.rawSz

def covers (rva : UInt32) (header : SectionHeader) : Bool :=
  header.virtRva ≤ rva && rva < header.virtRva + header.span

def fileOffset (rva : UInt32) (header : SectionHeader) : UInt64 :=
  (header.rawPtr + (rva - header.virtRva)).toUInt64

end SectionHeader

def coffHeaderSize : Nat := 24
def sectionSize : Nat := 40

def readSection (image : Span) (entry : UInt64) : Traced (Option SectionHeader) := do
  let virtSz ← readAt image (entry + 8) 4
  let virtRva ← readAt image (entry + 12) 4
  let rawSz ← readAt image (entry + 16) 4
  let rawPtr ← readAt image (entry + 20) 4
  pure do
    let virtSz ← virtSz
    let virtRva ← virtRva
    let rawSz ← rawSz
    let rawPtr ← rawPtr
    some
      { virtSz := UInt32.ofNat virtSz
        virtRva := UInt32.ofNat virtRva
        rawSz := UInt32.ofNat rawSz
        rawPtr := UInt32.ofNat rawPtr }

def sectionLoop (image : Span) (rva : UInt32) (table : UInt64) :
    Nat → Nat → Traced (Option UInt64)
  | _, 0 => pure none
  | index, remaining + 1 => do
      let header ← readSection image (table + UInt64.ofNat index * UInt64.ofNat sectionSize)
      match header with
      | none => pure none
      | some header =>
          if header.covers rva then pure (some (header.fileOffset rva))
          else sectionLoop image rva table (index + 1) remaining

def rvaToFileOffset (image : Span) (rva : UInt32) : Traced (Option UInt64) := do
  let peOffset ← readAt image 0x3C 4
  match peOffset with
  | none => pure none
  | some peOffset =>
      -- these two sums are of 32 bits, the table's of 64
      let sectionCount ← readAt image (UInt32.ofNat peOffset + 6).toUInt64 2
      let optHeaderLen ← readAt image (UInt32.ofNat peOffset + 20).toUInt64 2
      match sectionCount, optHeaderLen with
      | some count, some optLen =>
          let table := UInt64.ofNat peOffset + UInt64.ofNat coffHeaderSize + UInt64.ofNat optLen
          sectionLoop image rva table 0 count
      | _, _ => pure none

/-! The tables that the bytes hold. -/

def fieldAt (bytes : List UInt8) (position width : Nat) : Option Nat :=
  if position + width ≤ bytes.length then some (LittleEndian.readAt bytes position width) else none

def sectionAt (bytes : List UInt8) (entry : Nat) : SectionHeader where
  virtSz := UInt32.ofNat (LittleEndian.readAt bytes (entry + 8) 4)
  virtRva := UInt32.ofNat (LittleEndian.readAt bytes (entry + 12) 4)
  rawSz := UInt32.ofNat (LittleEndian.readAt bytes (entry + 16) 4)
  rawPtr := UInt32.ofNat (LittleEndian.readAt bytes (entry + 20) 4)

/-- The sections of a table up to the first of which `extent` bytes are not in the image. -/
def sectionsFrom (bytes : List UInt8) (extent : Nat) : Nat → Nat → List SectionHeader
  | _, 0 => []
  | entry, count + 1 =>
      if entry + extent ≤ bytes.length then
        sectionAt bytes entry :: sectionsFrom bytes extent (entry + sectionSize) count
      else []

/-- The sections when the header's fields are looked for at the given places. -/
def sectionTable (bytes : List UInt8) (extent : Nat) (place : Nat → Nat) : List SectionHeader :=
  match fieldAt bytes 0x3C 4 with
  | none => []
  | some peOffset =>
      match fieldAt bytes (place (peOffset + 6)) 2, fieldAt bytes (place (peOffset + 20)) 2 with
      | some count, some optLen =>
          sectionsFrom bytes extent (peOffset + coffHeaderSize + optLen) count
      | _, _ => []

/-- The bytes of an entry up to the end of its last field that is read. -/
def fieldsExtent : Nat := 24

/-- The sections that `rva_to_file_offset` goes through. -/
def walkedSections (bytes : List UInt8) : List SectionHeader :=
  sectionTable bytes fieldsExtent fun position => position % 2 ^ 32

section Reads

variable (image : Span)

theorem readAt_spec {offset : UInt64} {width : Nat} (small : offset.toNat + width < 2 ^ 64) :
    (readAt image offset width).Safe image ∧
      (readAt image offset width).value = fieldAt image.bytes offset.toNat width := by
  have size : (UInt64.ofNat width).toNat = width :=
    UInt64.toNat_ofNat_of_lt' (show _ < 2 ^ 64 by omega)
  have outside : image.size < offset + UInt64.ofNat width ↔
      ¬offset.toNat + width ≤ image.bytes.length := by
    rw [UInt64.lt_iff_toNat_lt, add_toNat (by rwa [size]), size, Span.size_toNat, Nat.not_le]
  unfold readAt fieldAt
  by_cases inside : offset.toNat + width ≤ image.bytes.length
  · rw [if_neg (by simpa [outside] using inside), if_pos inside]
    simpa [load, Operation.Safe] using inside
  · rw [if_pos (outside.mpr inside), if_neg inside]
    exact ⟨Traced.safe_pure _ _, rfl⟩

theorem readField_spec {entry : UInt64} (small : entry.toNat < 2 ^ 34) (place : UInt64)
    (field : place.toNat ≤ 20) :
    (readAt image (entry + place) 4).Safe image ∧
      (readAt image (entry + place) 4).value =
        fieldAt image.bytes (entry.toNat + place.toNat) 4 := by
  have sum : (entry + place).toNat = entry.toNat + place.toNat := add_toNat (by omega)
  rw [← sum]
  exact readAt_spec image (by omega)

theorem fieldAt_inside {bytes : List UInt8} {position width : Nat}
    (inside : position + width ≤ bytes.length) :
    fieldAt bytes position width = some (LittleEndian.readAt bytes position width) :=
  if_pos inside

theorem fieldAt_outside {bytes : List UInt8} {position width : Nat}
    (outside : bytes.length < position + width) : fieldAt bytes position width = none :=
  if_neg (Nat.not_le.mpr outside)

theorem readSection_spec {entry : UInt64} (small : entry.toNat < 2 ^ 34) :
    (readSection image entry).Safe image ∧
      (readSection image entry).value =
        if entry.toNat + fieldsExtent ≤ image.bytes.length then
          some (sectionAt image.bytes entry.toNat)
        else none := by
  obtain ⟨virtSzSafe, virtSz⟩ := readField_spec image small 8 (by decide)
  obtain ⟨virtRvaSafe, virtRva⟩ := readField_spec image small 12 (by decide)
  obtain ⟨rawSzSafe, rawSz⟩ := readField_spec image small 16 (by decide)
  obtain ⟨rawPtrSafe, rawPtr⟩ := readField_spec image small 20 (by decide)
  simp only [readSection, Traced.safe_bind, Traced.safe_pure, Traced.value_bind,
    Traced.value_pure, virtSzSafe, virtRvaSafe, rawSzSafe, rawPtrSafe, virtSz, virtRva, rawSz,
    rawPtr, and_self, true_and]
  have places : (8 : UInt64).toNat = 8 ∧ (12 : UInt64).toNat = 12 ∧ (16 : UInt64).toNat = 16 ∧
      (20 : UInt64).toNat = 20 := by decide
  have extent : fieldsExtent = 24 := rfl
  simp only [places]
  by_cases inside : entry.toNat + fieldsExtent ≤ image.bytes.length
  · rw [if_pos inside, fieldAt_inside (by omega), fieldAt_inside (by omega),
      fieldAt_inside (by omega), fieldAt_inside (by omega)]
    rfl
  · have past : fieldAt image.bytes (entry.toNat + 20) 4 = none := fieldAt_outside (by omega)
    rw [if_neg inside, past]
    simp

theorem sectionLoop_spec (rva : UInt32) (table : UInt64) {index remaining : Nat}
    (small : table.toNat + (index + remaining) * sectionSize < 2 ^ 34) :
    (sectionLoop image rva table index remaining).Safe image ∧
      (sectionLoop image rva table index remaining).value =
        ((sectionsFrom image.bytes fieldsExtent (table.toNat + index * sectionSize)
          remaining).find? (SectionHeader.covers rva)).map (SectionHeader.fileOffset rva) := by
  induction remaining generalizing index with
  | zero => exact ⟨Traced.safe_pure _ _, rfl⟩
  | succ remaining ih =>
      have stride : sectionSize = 40 := rfl
      rw [stride] at small ih ⊢
      have size : (UInt64.ofNat 40).toNat = 40 := by decide
      have count : (UInt64.ofNat index).toNat = index :=
        UInt64.toNat_ofNat_of_lt' (show _ < 2 ^ 64 by omega)
      have product : (UInt64.ofNat index * UInt64.ofNat 40).toNat = index * 40 := by
        rw [UInt64.toNat_mul, count, size, Nat.mod_eq_of_lt (by omega)]
      have entry : (table + UInt64.ofNat index * UInt64.ofNat 40).toNat =
          table.toNat + index * 40 := by
        rw [add_toNat (by omega), product]
      have next : table.toNat + index * 40 + 40 = table.toNat + (index + 1) * 40 := by omega
      obtain ⟨safe, read⟩ := readSection_spec image (show
        (table + UInt64.ofNat index * UInt64.ofNat 40).toNat < 2 ^ 34 by omega)
      obtain ⟨restSafe, rest⟩ := @ih (index + 1) (by omega)
      rw [sectionLoop, sectionsFrom, stride]
      simp only [Traced.safe_bind, Traced.value_bind, safe, read, entry, true_and, next]
      by_cases inside : table.toNat + index * 40 + fieldsExtent ≤ image.bytes.length
      · simp only [if_pos inside, List.find?_cons]
        cases covered : (sectionAt image.bytes (table.toNat + index * 40)).covers rva with
        | true => exact ⟨Traced.safe_pure _ _, rfl⟩
        | false => exact ⟨restSafe, rest⟩
      · simp only [if_neg inside]
        exact ⟨Traced.safe_pure _ _, rfl⟩

theorem fieldAt_lt {bytes : List UInt8} {position width value : Nat}
    (read : fieldAt bytes position width = some value) : value < 256 ^ width := by
  unfold fieldAt at read
  split at read
  · obtain rfl := Option.some.inj read
    exact LittleEndian.readAt_lt bytes position width
  · contradiction

theorem place_toNat {peOffset : Nat} (bound : peOffset < 2 ^ 32) (place : UInt32) :
    (UInt32.ofNat peOffset + place).toUInt64.toNat = (peOffset + place.toNat) % 2 ^ 32 := by
  rw [UInt32.toNat_toUInt64, UInt32.toNat_add, UInt32.toNat_ofNat', Nat.mod_eq_of_lt bound]

theorem readPlace_spec {peOffset : Nat} (bound : peOffset < 2 ^ 32) (place : UInt32) :
    (readAt image (UInt32.ofNat peOffset + place).toUInt64 2).Safe image ∧
      (readAt image (UInt32.ofNat peOffset + place).toUInt64 2).value =
        fieldAt image.bytes ((peOffset + place.toNat) % 2 ^ 32) 2 := by
  rw [← place_toNat bound]
  exact readAt_spec image (by rw [place_toNat bound]; omega)

theorem table_toNat {peOffset optLen : Nat} (peBound : peOffset < 2 ^ 32)
    (optBound : optLen < 2 ^ 16) :
    (UInt64.ofNat peOffset + UInt64.ofNat coffHeaderSize + UInt64.ofNat optLen).toNat =
      peOffset + coffHeaderSize + optLen := by
  have header : (UInt64.ofNat coffHeaderSize).toNat = 24 := by decide
  have first : (UInt64.ofNat peOffset).toNat = peOffset :=
    UInt64.toNat_ofNat_of_lt' (show _ < 2 ^ 64 by omega)
  have second : (UInt64.ofNat optLen).toNat = optLen :=
    UInt64.toNat_ofNat_of_lt' (show _ < 2 ^ 64 by omega)
  have sum := add_toNat (show (UInt64.ofNat peOffset).toNat +
    (UInt64.ofNat coffHeaderSize).toNat < 2 ^ 64 by omega)
  rw [add_toNat (by omega), sum, header, first, second]
  rfl

theorem rvaToFileOffset_spec (rva : UInt32) :
    (rvaToFileOffset image rva).Safe image ∧
      (rvaToFileOffset image rva).value =
        ((walkedSections image.bytes).find? (SectionHeader.covers rva)).map
          (SectionHeader.fileOffset rva) := by
  obtain ⟨peSafe, peRead⟩ := readAt_spec image (show (0x3C : UInt64).toNat + 4 < 2 ^ 64 by decide)
  have start : (0x3C : UInt64).toNat = 0x3C := by decide
  rw [start] at peRead
  simp only [rvaToFileOffset, Traced.safe_bind, Traced.value_bind, peSafe, peRead, true_and,
    walkedSections, sectionTable]
  cases peField : fieldAt image.bytes 0x3C 4 with
  | none => exact ⟨Traced.safe_pure _ _, rfl⟩
  | some peOffset =>
      have peBound := fieldAt_lt peField
      obtain ⟨countSafe, countRead⟩ := readPlace_spec image peBound 6
      obtain ⟨optSafe, optRead⟩ := readPlace_spec image peBound 20
      have places : (6 : UInt32).toNat = 6 ∧ (20 : UInt32).toNat = 20 := by decide
      rw [places.1] at countRead
      rw [places.2] at optRead
      simp only [Traced.safe_bind, Traced.value_bind, countSafe, optSafe, countRead, optRead,
        true_and]
      cases countField : fieldAt image.bytes ((peOffset + 6) % 2 ^ 32) 2 with
      | none => exact ⟨Traced.safe_pure _ _, rfl⟩
      | some count =>
          cases optField : fieldAt image.bytes ((peOffset + 20) % 2 ^ 32) 2 with
          | none => exact ⟨Traced.safe_pure _ _, rfl⟩
          | some optLen =>
              have countBound := fieldAt_lt countField
              have optBound := fieldAt_lt optField
              have table := table_toNat peBound optBound
              obtain ⟨safe, walk⟩ := sectionLoop_spec image rva
                (UInt64.ofNat peOffset + UInt64.ofNat coffHeaderSize + UInt64.ofNat optLen)
                (show _ + (0 + count) * sectionSize < 2 ^ 34 by
                  rw [table, coffHeaderSize, sectionSize]; omega)
              rw [table, Nat.zero_mul, Nat.add_zero] at walk
              exact ⟨safe, walk⟩

end Reads

end PatchFix.PeFile
