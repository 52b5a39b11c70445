import Mathlib.Data.Nat.ModEq
import PatchFix.PeFile

/-!
`rva_to_file_offset` against the walk over unbounded numbers, and against the section whose virtual
extent holds the RVA.
-/

namespace PatchFix.PeFile

open SpanAccess

namespace SectionHeader

def widened (header : SectionHeader) : Nat := max header.virtSz.toNat header.rawSz.toNat

def Owns (rva : Nat) (header : SectionHeader) : Prop :=
  header.virtRva.toNat ≤ rva ∧ rva < header.virtRva.toNat + header.widened

instance (rva : Nat) : DecidablePred (Owns rva) := fun _ => inferInstanceAs (Decidable (_ ∧ _))

def OwnsBelow (rva : Nat) (header : SectionHeader) : Prop :=
  header.Owns rva ∧ header.virtRva.toNat + header.widened < 2 ^ 32

instance (rva : Nat) : DecidablePred (OwnsBelow rva) :=
  fun _ => inferInstanceAs (Decidable (_ ∧ _))

def offsetOf (rva : Nat) (header : SectionHeader) : Nat :=
  header.rawPtr.toNat + (rva - header.virtRva.toNat)

theorem span_toNat (header : SectionHeader) : header.span.toNat = header.widened := by
  change (if header.virtSz ≤ header.rawSz then header.rawSz else header.virtSz).toNat = _
  rw [widened, Nat.max_def]
  split
  · next below => rw [if_pos (UInt32.le_iff_toNat_le.mp below)]
  · next above => rw [if_neg (mt UInt32.le_iff_toNat_le.mpr above)]

theorem covers_iff {rva : UInt32} {header : SectionHeader} :
    header.covers rva = true ↔ header.OwnsBelow rva.toNat := by
  have width : header.widened < 2 ^ 32 := by
    rw [← span_toNat]
    exact UInt32.toNat_lt _
  have position := rva.toNat_lt
  rw [covers, Bool.and_eq_true, decide_eq_true_iff, decide_eq_true_iff, UInt32.le_iff_toNat_le,
    UInt32.lt_iff_toNat_lt, UInt32.toNat_add, span_toNat, OwnsBelow, Owns]
  omega

theorem fileOffset_toNat {rva : UInt32} {header : SectionHeader}
    (above : header.virtRva.toNat ≤ rva.toNat) :
    (header.fileOffset rva).toNat = header.offsetOf rva.toNat % 2 ^ 32 := by
  rw [fileOffset, UInt32.toNat_toUInt64, UInt32.toNat_add,
    UInt32.toNat_sub_of_le _ _ (UInt32.le_iff_toNat_le.mpr above), offsetOf]

end SectionHeader

/-! The walk over unbounded numbers; `extent` bytes of an entry must be in the image. -/

def referenceWalk (bytes : List UInt8) (extent rva : Nat) : Nat → Nat → Option Nat
  | _, 0 => none
  | entry, count + 1 =>
      if bytes.length < entry + extent then none
      else if (sectionAt bytes entry).Owns rva then some ((sectionAt bytes entry).offsetOf rva)
      else referenceWalk bytes extent rva (entry + sectionSize) count

def referenceOffset (bytes : List UInt8) (extent rva : Nat) : Option Nat := do
  let peOffset ← fieldAt bytes 0x3C 4
  let count ← fieldAt bytes (peOffset + 6) 2
  let optLen ← fieldAt bytes (peOffset + 20) 2
  referenceWalk bytes extent rva (peOffset + coffHeaderSize + optLen) count

def listedSections (bytes : List UInt8) (extent : Nat) : List SectionHeader :=
  sectionTable bytes extent id

theorem referenceWalk_eq (bytes : List UInt8) (extent rva entry count : Nat) :
    referenceWalk bytes extent rva entry count =
      ((sectionsFrom bytes extent entry count).find? (SectionHeader.Owns rva)).map
        (SectionHeader.offsetOf rva) := by
  induction count generalizing entry with
  | zero => rfl
  | succ count ih =>
      rw [referenceWalk, sectionsFrom]
      by_cases inside : entry + extent ≤ bytes.length
      · rw [if_neg (Nat.not_lt.mpr inside), if_pos inside, ih, List.find?_cons]
        by_cases owns : (sectionAt bytes entry).Owns rva
        · simp [owns]
        · simp [owns]
      · rw [if_pos (Nat.not_le.mp inside), if_neg inside]
        rfl

theorem referenceOffset_eq (bytes : List UInt8) (extent rva : Nat) :
    referenceOffset bytes extent rva =
      ((listedSections bytes extent).find? (SectionHeader.Owns rva)).map
        (SectionHeader.offsetOf rva) := by
  simp only [referenceOffset, listedSections, sectionTable, id]
  cases fieldAt bytes 0x3C 4 with
  | none => rfl
  | some peOffset =>
      cases count : fieldAt bytes (peOffset + 6) 2 with
      | none => simp [count]
      | some count =>
          cases opt : fieldAt bytes (peOffset + 20) 2 with
          | none => simp [*]
          | some optLen => simp [*, referenceWalk_eq]

theorem find?_covers (rva : UInt32) (sections : List SectionHeader) :
    sections.find? (SectionHeader.covers rva) =
      sections.find? (SectionHeader.OwnsBelow rva.toNat) := by
  congr 1
  funext header
  rw [Bool.eq_iff_iff, SectionHeader.covers_iff, decide_eq_true_iff]

theorem value_toNat (image : Span) (rva : UInt32) :
    (rvaToFileOffset image rva).value.map UInt64.toNat =
      ((walkedSections image.bytes).find? (SectionHeader.OwnsBelow rva.toNat)).map fun header =>
        header.offsetOf rva.toNat % 2 ^ 32 := by
  rw [(rvaToFileOffset_spec image rva).2, find?_covers, Option.map_map]
  cases found : (walkedSections image.bytes).find? (SectionHeader.OwnsBelow rva.toNat) with
  | none => rfl
  | some header =>
      have owns : header.OwnsBelow rva.toNat := by simpa using List.find?_some found
      exact congrArg some (SectionHeader.fileOffset_toNat owns.1.1)

/-! The first section of a list with a property, and the offset that it leads to. -/

def FirstLeads (hit : SectionHeader → Prop) (rva offset : Nat) (sections : List SectionHeader) :
    Prop :=
  ∃ before taken after, sections = before ++ taken :: after ∧ (∀ header ∈ before, ¬hit header) ∧
    hit taken ∧ taken.offsetOf rva ≡ offset [MOD 2 ^ 32]

section FirstLeads

variable {hit : SectionHeader → Prop} [DecidablePred hit] {rva offset : Nat}
  {header : SectionHeader} {sections before after : List SectionHeader}

theorem firstLeads_iff : FirstLeads hit rva offset sections ↔
    ∃ taken, sections.find? hit = some taken ∧ taken.offsetOf rva ≡ offset [MOD 2 ^ 32] := by
  simp only [FirstLeads, List.find?_eq_some_iff_append, decide_eq_true_iff, Bool.not_eq_true',
    decide_eq_false_iff_not]
  constructor
  · rintro ⟨before, taken, after, table, missed, hits, same⟩
    exact ⟨taken, ⟨hits, before, after, table, missed⟩, same⟩
  · rintro ⟨taken, ⟨hits, before, after, table, missed⟩, same⟩
    exact ⟨before, taken, after, table, missed, hits, same⟩

theorem firstLeads_cons_of_pos (hits : hit header) :
    FirstLeads hit rva offset (header :: sections) ↔
      header.offsetOf rva ≡ offset [MOD 2 ^ 32] := by
  simp [firstLeads_iff, hits]

theorem firstLeads_cons_of_neg (missed : ¬hit header) :
    FirstLeads hit rva offset (header :: sections) ↔ FirstLeads hit rva offset sections := by
  simp [firstLeads_iff, missed]

theorem firstLeads_append_of_neg (missed : ∀ header ∈ before, ¬hit header) :
    FirstLeads hit rva offset (before ++ after) ↔ FirstLeads hit rva offset after := by
  induction before with
  | nil => rfl
  | cons header before ih =>
      rw [List.cons_append, firstLeads_cons_of_neg (missed header (by simp)),
        ih fun later member => missed later (by simp [member])]

theorem firstLeads_append : FirstLeads hit rva offset (before ++ after) ↔
    FirstLeads hit rva offset before ∨
      (∀ header ∈ before, ¬hit header) ∧ FirstLeads hit rva offset after := by
  induction before with
  | nil => simp [firstLeads_iff]
  | cons header before ih =>
      by_cases hits : hit header
      · simp [firstLeads_cons_of_pos hits, hits]
      · simp [firstLeads_cons_of_neg hits, hits, ih]

theorem firstLeads_congr {other : SectionHeader → Prop} [DecidablePred other]
    (same : ∀ header ∈ sections, hit header ↔ other header) :
    FirstLeads hit rva offset sections ↔ FirstLeads other rva offset sections := by
  induction sections with
  | nil => simp [firstLeads_iff]
  | cons header sections ih =>
      have rest := ih fun later member => same later (by simp [member])
      have first := same header (by simp)
      by_cases hits : hit header
      · rw [firstLeads_cons_of_pos hits, firstLeads_cons_of_pos (first.mp hits)]
      · rw [firstLeads_cons_of_neg hits, firstLeads_cons_of_neg (mt first.mpr hits), rest]

end FirstLeads

theorem wraps_to_iff {taken owner : Nat} :
    taken % 2 ^ 32 = owner ↔ owner < 2 ^ 32 ∧ taken ≡ owner [MOD 2 ^ 32] := by
  constructor
  · rintro rfl
    exact ⟨Nat.mod_lt _ (by decide), (Nat.mod_modEq _ _).symm⟩
  · rintro ⟨fits, same⟩
    calc taken % 2 ^ 32 = owner % 2 ^ 32 := same
      _ = owner := Nat.mod_eq_of_lt fits

theorem value_eq_some_iff (image : Span) (rva : UInt32) (offset : Nat) :
    (rvaToFileOffset image rva).value.map UInt64.toNat = some offset ↔ offset < 2 ^ 32 ∧
      FirstLeads (SectionHeader.OwnsBelow rva.toNat) rva.toNat offset
        (walkedSections image.bytes) := by
  rw [value_toNat, Option.map_eq_some_iff, firstLeads_iff]
  constructor
  · rintro ⟨taken, found, same⟩
    obtain ⟨fits, congruent⟩ := wraps_to_iff.mp same
    exact ⟨fits, taken, found, congruent⟩
  · rintro ⟨fits, taken, found, congruent⟩
    exact ⟨taken, found, wraps_to_iff.mpr ⟨fits, congruent⟩⟩

theorem value_eq_none_iff (image : Span) (rva : UInt32) :
    (rvaToFileOffset image rva).value.map UInt64.toNat = none ↔
      ∀ header ∈ walkedSections image.bytes, ¬header.OwnsBelow rva.toNat := by
  rw [value_toNat, Option.map_eq_none_iff, List.find?_eq_none]
  simp

/-! The table that the header's fields lead to. -/

theorem sectionsFrom_inside {bytes : List UInt8} {extent entry count : Nat}
    (narrow : extent ≤ sectionSize) (inside : entry + count * sectionSize ≤ bytes.length) :
    sectionsFrom bytes extent entry count = sectionsFrom bytes sectionSize entry count := by
  induction count generalizing entry with
  | zero => rfl
  | succ count ih =>
      rw [Nat.add_mul, Nat.one_mul] at inside
      rw [sectionsFrom, sectionsFrom, if_pos (by omega), if_pos (by omega), ih (by omega)]

theorem sectionsFrom_outside {bytes : List UInt8} {extent entry : Nat} (count : Nat)
    (outside : bytes.length < entry + extent) : sectionsFrom bytes extent entry count = [] := by
  cases count with
  | zero => rfl
  | succ count => rw [sectionsFrom, if_neg (by omega)]

theorem sectionsFrom_cut (bytes : List UInt8) (extent rest entry count : Nat) :
    sectionsFrom bytes (extent + rest) entry count <+: sectionsFrom bytes extent entry count := by
  induction count generalizing entry with
  | zero => exact List.prefix_rfl
  | succ count ih =>
      rw [sectionsFrom, sectionsFrom]
      by_cases inside : entry + (extent + rest) ≤ bytes.length
      · rw [if_pos inside, if_pos (by omega)]
        exact (List.prefix_cons_inj _).mpr (ih _)
      · rw [if_neg inside]
        exact List.nil_prefix

theorem listedSections_cut (bytes : List UInt8) (extent rest : Nat) :
    listedSections bytes (extent + rest) <+: listedSections bytes extent := by
  simp only [listedSections, sectionTable, id]
  cases fieldAt bytes 0x3C 4 with
  | none => exact List.prefix_rfl
  | some peOffset =>
      cases countField : fieldAt bytes (peOffset + 6) 2 with
      | none => simp [countField]
      | some count =>
          cases optField : fieldAt bytes (peOffset + 20) 2 with
          | none => simp [countField, optField]
          | some optLen =>
              simpa only [countField, optField] using
                sectionsFrom_cut bytes extent rest _ count

/-- The sums of `e_lfanew` with a place of the header stay below 2 ^ 32, or the buffer does. -/
def HeaderSumsFit (bytes : List UInt8) : Prop :=
  bytes.length ≤ 2 ^ 32 ∨
    ∀ peOffset, fieldAt bytes 0x3C 4 = some peOffset → peOffset + 20 < 2 ^ 32

theorem walkedSections_of_fit {bytes : List UInt8} (fit : HeaderSumsFit bytes) :
    walkedSections bytes = listedSections bytes fieldsExtent := by
  simp only [walkedSections, listedSections, sectionTable, id]
  cases peField : fieldAt bytes 0x3C 4 with
  | none => rfl
  | some peOffset =>
      by_cases below : peOffset + 20 < 2 ^ 32
      · have places : (peOffset + 6) % 2 ^ 32 = peOffset + 6 ∧
            (peOffset + 20) % 2 ^ 32 = peOffset + 20 := by omega
        simp only [places]
      · have short : bytes.length ≤ 2 ^ 32 := fit.resolve_right fun all => below (all _ peField)
        -- wherever the length of the optional header is read, the table starts past the buffer
        have empty : ∀ optLen count,
            sectionsFrom bytes fieldsExtent (peOffset + coffHeaderSize + optLen) count = [] := by
          intro optLen count
          refine sectionsFrom_outside count ?_
          have header : coffHeaderSize = 24 := rfl
          omega
        simp only [empty]
        split <;> split <;> rfl

structure DecodesExactly (image : Span) (extent : Nat) (rva : UInt32) : Prop where
  inside : (rvaToFileOffset image rva).Safe image
  agrees : (rvaToFileOffset image rva).value.map UInt64.toNat =
    referenceOffset image.bytes extent rva.toNat

theorem decodesExactly_iff_agrees (image : Span) (extent : Nat) (rva : UInt32) :
    DecodesExactly image extent rva ↔ (rvaToFileOffset image rva).value.map UInt64.toNat =
      referenceOffset image.bytes extent rva.toNat :=
  ⟨DecodesExactly.agrees, fun agrees => ⟨(rvaToFileOffset_spec image rva).1, agrees⟩⟩

/-- The first owner of the RVA in one list leads where the first that ends below 2 ^ 32 leads in
another, or there is neither. -/
inductive OwnersAgree (rva : Nat) (listed walked : List SectionHeader) : Prop
  | unowned (none : ∀ header ∈ listed, ¬header.Owns rva)
      (missed : ∀ header ∈ walked, ¬header.OwnsBelow rva)
  | owned {before owner after} (table : listed = before ++ owner :: after)
      (first : ∀ header ∈ before, ¬header.Owns rva) (owns : owner.Owns rva)
      (offset : owner.offsetOf rva < 2 ^ 32)
      (reached : FirstLeads (SectionHeader.OwnsBelow rva) rva (owner.offsetOf rva) walked)

theorem agrees_iff (image : Span) (extent : Nat) (rva : UInt32) :
    (rvaToFileOffset image rva).value.map UInt64.toNat =
        referenceOffset image.bytes extent rva.toNat ↔
      OwnersAgree rva.toNat (listedSections image.bytes extent) (walkedSections image.bytes) := by
  rw [referenceOffset_eq]
  constructor
  · intro agrees
    cases found : (listedSections image.bytes extent).find? (SectionHeader.Owns rva.toNat) with
    | none =>
        rw [found] at agrees
        exact .unowned (by simpa using found) ((value_eq_none_iff image rva).mp agrees)
    | some owner =>
        rw [found] at agrees
        obtain ⟨offset, reached⟩ := (value_eq_some_iff image rva _).mp agrees
        obtain ⟨owns, before, after, table, first⟩ := List.find?_eq_some_iff_append.mp found
        exact .owned table (by simpa using first) (by simpa using owns) offset reached
  · intro agree
    cases agree with
    | unowned none missed =>
        rw [List.find?_eq_none.mpr (by simpa using none)]
        exact (value_eq_none_iff image rva).mpr missed
    | owned table first owns offset reached =>
        rw [List.find?_eq_some_iff_append.mpr
          ⟨by simpa using owns, _, _, table, by simpa using first⟩]
        exact (value_eq_some_iff image rva _).mpr ⟨offset, reached⟩

/-- What decoding needs of the table, whose last entries may be cut off by the buffer's end. An
owner whose end reaches 2 ^ 32 is missed, which shows unless the next one leads to its offset. -/
inductive OwnerFits (rva : Nat) (whole cut : List SectionHeader) : Prop
  | unowned (none : ∀ header ∈ whole, ¬header.Owns rva)
      (missed : ∀ header ∈ cut, ¬header.OwnsBelow rva)
  | owned {before owner after} (table : whole = before ++ owner :: after)
      (first : ∀ header ∈ before, ¬header.Owns rva) (owns : owner.Owns rva)
      (offset : owner.offsetOf rva < 2 ^ 32)
      (reached : owner.virtRva.toNat + owner.widened < 2 ^ 32 ∨
        FirstLeads (SectionHeader.OwnsBelow rva) rva (owner.offsetOf rva) (after ++ cut))

theorem firstLeads_owner_iff {rva : Nat} {owner : SectionHeader}
    {before after : List SectionHeader} (first : ∀ header ∈ before, ¬header.Owns rva)
    (owns : owner.Owns rva) :
    FirstLeads (SectionHeader.OwnsBelow rva) rva (owner.offsetOf rva)
        (before ++ owner :: after) ↔
      owner.virtRva.toNat + owner.widened < 2 ^ 32 ∨
        FirstLeads (SectionHeader.OwnsBelow rva) rva (owner.offsetOf rva) after := by
  rw [firstLeads_append_of_neg fun header member below => first header member below.1]
  by_cases below : owner.virtRva.toNat + owner.widened < 2 ^ 32
  · have hits : owner.OwnsBelow rva := ⟨owns, below⟩
    simp only [firstLeads_cons_of_pos hits, Nat.ModEq.refl, below, true_or]
  · have missed : ¬owner.OwnsBelow rva := fun both => below both.2
    simp only [firstLeads_cons_of_neg missed, below, false_or]

theorem ownersAgree_iff {rva : Nat} {whole cut : List SectionHeader} :
    OwnersAgree rva whole (whole ++ cut) ↔ OwnerFits rva whole cut := by
  constructor
  · intro agree
    cases agree with
    | unowned none missed =>
        exact .unowned none fun header member => missed header (by simp [member])
    | owned table first owns offset reached =>
        rw [table, List.append_assoc, List.cons_append, firstLeads_owner_iff first owns] at reached
        exact .owned table first owns offset reached
  · intro fits
    cases fits with
    | unowned none missed =>
        refine .unowned none fun header member below => ?_
        rcases List.mem_append.mp member with whole | cut
        · exact none header whole below.1
        · exact missed header cut below
    | owned table first owns offset reached =>
        refine .owned table first owns offset ?_
        rw [table, List.append_assoc, List.cons_append, firstLeads_owner_iff first owns]
        exact reached

/-- The sections whose fields are in the buffer and whose entries, of `extent` bytes, are not. -/
def cutSections (bytes : List UInt8) (extent : Nat) : List SectionHeader :=
  (listedSections bytes fieldsExtent).drop (listedSections bytes extent).length

/-- Either the header's sums fit and the owner does, or the buffer is larger than 2 ^ 32 bytes and
the places that the sums wrap to hold a table which leads to the owner's offset. -/
def TableFits (bytes : List UInt8) (extent rva : Nat) : Prop :=
  HeaderSumsFit bytes ∧ OwnerFits rva (listedSections bytes extent) (cutSections bytes extent) ∨
    ¬HeaderSumsFit bytes ∧ OwnersAgree rva (listedSections bytes extent) (walkedSections bytes)

theorem decodesExactly_iff (image : Span) (rest : Nat) (rva : UInt32) :
    DecodesExactly image (fieldsExtent + rest) rva ↔
      TableFits image.bytes (fieldsExtent + rest) rva.toNat := by
  rw [decodesExactly_iff_agrees, agrees_iff, TableFits]
  by_cases fit : HeaderSumsFit image.bytes
  · have table : walkedSections image.bytes = listedSections image.bytes (fieldsExtent + rest) ++
        cutSections image.bytes (fieldsExtent + rest) :=
      (walkedSections_of_fit fit).trans
        (List.prefix_iff_eq_append.mp (listedSections_cut _ _ _)).symm
    simp only [table, ownersAgree_iff, fit, true_and, not_true_eq_false, false_and, or_false]
  · simp only [fit, false_and, not_false_eq_true, true_and, false_or]

def fileOf (sections : List SectionHeader) : List UInt8 :=
  List.replicate 0x3C 0 ++ LittleEndian.encode 4 0x40 ++ List.replicate 6 0 ++
    LittleEndian.encode 2 sections.length ++ List.replicate 16 0 ++
    sections.flatMap fun header =>
      List.replicate 8 0 ++ LittleEndian.encode 4 header.virtSz.toNat ++
        LittleEndian.encode 4 header.virtRva.toNat ++ LittleEndian.encode 4 header.rawSz.toNat ++
        LittleEndian.encode 4 header.rawPtr.toNat ++ List.replicate 16 0

def endWraps : Span where
  bytes := fileOf [⟨0x1000, 0x1000, 0xFFFFF000, 0x400⟩]
  bounded := by decide +kernel

theorem endWraps_missed : ¬∀ image rva, DecodesExactly image sectionSize rva := by
  intro claimed
  exact absurd (claimed endWraps 0x1000).agrees (by decide +kernel)

/-! Images whose sections are apart in memory. -/

def SectionHeader.Holds (rva : Nat) (header : SectionHeader) : Prop :=
  header.virtRva.toNat ≤ rva ∧ rva < header.virtRva.toNat + header.virtSz.toNat

instance (rva : Nat) : DecidablePred (SectionHeader.Holds rva) :=
  fun _ => inferInstanceAs (Decidable (_ ∧ _))

/-- Raw data that end below 2 ^ 32 reach past the section's place in memory and over the RVA. -/
def SectionHeader.ReachesOver (rva : Nat) (header : SectionHeader) : Prop :=
  header.virtRva.toNat + header.virtSz.toNat ≤ rva ∧
    rva < header.virtRva.toNat + header.rawSz.toNat ∧
      header.virtRva.toNat + header.rawSz.toNat < 2 ^ 32

instance (rva : Nat) : DecidablePred (SectionHeader.ReachesOver rva) :=
  fun _ => inferInstanceAs (Decidable (_ ∧ _))

/-- An image with its headers and section table in the buffer, and its sections apart. -/
structure PeImage where
  span : Span
  peOffset : Nat
  count : Nat
  optLen : Nat
  peField : fieldAt span.bytes 0x3C 4 = some peOffset
  countField : fieldAt span.bytes (peOffset + 6) 2 = some count
  optField : fieldAt span.bytes (peOffset + 20) 2 = some optLen
  tableInside : peOffset + coffHeaderSize + optLen + count * sectionSize ≤ span.bytes.length
  apart : (listedSections span.bytes sectionSize).Pairwise fun first second =>
    ∀ rva, first.Holds rva → ¬second.Holds rva
  unwrapped : ∀ header ∈ listedSections span.bytes sectionSize,
    header.virtRva.toNat + header.virtSz.toNat ≤ 2 ^ 32

namespace PeImage

def sections (image : PeImage) : List SectionHeader := listedSections image.span.bytes sectionSize

/-- The walk is over the image's own sections where the header's fields start below 2 ^ 32. -/
theorem walkedSections_eq (image : PeImage) (below : image.peOffset + 20 < 2 ^ 32) :
    walkedSections image.span.bytes = image.sections := by
  rw [walkedSections_of_fit (.inr fun peOffset field => by
    obtain rfl := Option.some.inj (image.peField.symm.trans field)
    exact below)]
  simp only [sections, listedSections, sectionTable, image.peField, id, image.countField,
    image.optField]
  exact sectionsFrom_inside (by decide) image.tableInside

def TranslatesThroughOwner (image : PeImage) (rva : UInt32) : Prop :=
  ∀ header ∈ image.sections, header.Holds rva.toNat →
    (rvaToFileOffset image.span rva).value.map UInt64.toNat = some (header.offsetOf rva.toNat)

/-- No section before the owner reaches over the RVA with its raw data, or the first that does lies
in the file as the owner does; and the owner is not itself missed for an end of 2 ^ 32 or more,
unless the first that reaches over the RVA after it lies in the file as it does. -/
def OwnerVisible (image : PeImage) (rva : Nat) : Prop :=
  ∀ before owner after, image.sections = before ++ owner :: after → owner.Holds rva →
    owner.offsetOf rva < 2 ^ 32 ∧
      (FirstLeads (SectionHeader.ReachesOver rva) rva (owner.offsetOf rva) before ∨
        (∀ header ∈ before, ¬header.ReachesOver rva) ∧
          (owner.virtRva.toNat + owner.widened < 2 ^ 32 ∨
            FirstLeads (SectionHeader.ReachesOver rva) rva (owner.offsetOf rva) after))

/-- The places that the header's sums wrap to hold a table which leads to the owner's offset. -/
def WrappedAlike (image : PeImage) (rva : Nat) : Prop :=
  ∀ owner ∈ image.sections, owner.Holds rva → owner.offsetOf rva < 2 ^ 32 ∧
    FirstLeads (SectionHeader.OwnsBelow rva) rva (owner.offsetOf rva)
      (walkedSections image.span.bytes)

theorem ownsBelow_iff_reachesOver {rva : Nat} {header : SectionHeader}
    (apart : ¬header.Holds rva) : header.OwnsBelow rva ↔ header.ReachesOver rva := by
  simp only [SectionHeader.Holds, SectionHeader.OwnsBelow, SectionHeader.Owns,
    SectionHeader.widened, SectionHeader.ReachesOver] at *
  omega

theorem others_apart (image : PeImage) {rva : Nat} {before after : List SectionHeader}
    {owner : SectionHeader} (table : image.sections = before ++ owner :: after)
    (holds : owner.Holds rva) :
    (∀ header ∈ before, ¬header.Holds rva) ∧ ∀ header ∈ after, ¬header.Holds rva := by
  have apart := image.apart
  rw [← sections, table, List.pairwise_append, List.pairwise_cons] at apart
  obtain ⟨-, ⟨later, -⟩, earlier⟩ := apart
  constructor
  · intro header member held
    exact earlier header member owner (by simp) rva held holds
  · intro header member
    exact later header member rva holds

theorem firstLeads_sections_iff (image : PeImage) {rva : Nat} {before after : List SectionHeader}
    {owner : SectionHeader} (table : image.sections = before ++ owner :: after)
    (holds : owner.Holds rva) :
    FirstLeads (SectionHeader.OwnsBelow rva) rva (owner.offsetOf rva) image.sections ↔
      FirstLeads (SectionHeader.ReachesOver rva) rva (owner.offsetOf rva) before ∨
        (∀ header ∈ before, ¬header.ReachesOver rva) ∧
          (owner.virtRva.toNat + owner.widened < 2 ^ 32 ∨
            FirstLeads (SectionHeader.ReachesOver rva) rva (owner.offsetOf rva) after) := by
  obtain ⟨earlier, later⟩ := image.others_apart table holds
  have earlierOver (header) (member : header ∈ before) :
      header.OwnsBelow rva ↔ header.ReachesOver rva :=
    ownsBelow_iff_reachesOver (earlier header member)
  have laterOver (header) (member : header ∈ after) :
      header.OwnsBelow rva ↔ header.ReachesOver rva :=
    ownsBelow_iff_reachesOver (later header member)
  have owns : owner.Owns rva :=
    ⟨holds.1, Nat.lt_of_lt_of_le holds.2 (Nat.add_le_add_left (Nat.le_max_left _ _) _)⟩
  have fromOwner : FirstLeads (SectionHeader.OwnsBelow rva) rva (owner.offsetOf rva)
      ([] ++ owner :: after) ↔ _ := firstLeads_owner_iff (by simp) owns
  rw [List.nil_append] at fromOwner
  rw [table, firstLeads_append, fromOwner, firstLeads_congr earlierOver,
    firstLeads_congr laterOver]
  have none : (∀ header ∈ before, ¬header.OwnsBelow rva) ↔
      ∀ header ∈ before, ¬header.ReachesOver rva :=
    forall₂_congr fun header member => not_congr (earlierOver header member)
  rw [none]

theorem value_eq_owner_iff (image : PeImage) {rva : UInt32}
    (sums : image.peOffset + 20 < 2 ^ 32) {before after : List SectionHeader}
    {owner : SectionHeader} (table : image.sections = before ++ owner :: after)
    (holds : owner.Holds rva.toNat) :
    (rvaToFileOffset image.span rva).value.map UInt64.toNat = some (owner.offsetOf rva.toNat) ↔
      owner.offsetOf rva.toNat < 2 ^ 32 ∧
        (FirstLeads (SectionHeader.ReachesOver rva.toNat) rva.toNat (owner.offsetOf rva.toNat)
            before ∨
          (∀ header ∈ before, ¬header.ReachesOver rva.toNat) ∧
            (owner.virtRva.toNat + owner.widened < 2 ^ 32 ∨
              FirstLeads (SectionHeader.ReachesOver rva.toNat) rva.toNat
                (owner.offsetOf rva.toNat) after)) := by
  rw [value_eq_some_iff, image.walkedSections_eq sums, image.firstLeads_sections_iff table holds]

theorem translatesThroughOwner_iff (image : PeImage) (rva : UInt32) :
    image.TranslatesThroughOwner rva ↔
      image.peOffset + 20 < 2 ^ 32 ∧ image.OwnerVisible rva.toNat ∨
        2 ^ 32 ≤ image.peOffset + 20 ∧ image.WrappedAlike rva.toNat := by
  by_cases sums : image.peOffset + 20 < 2 ^ 32
  · simp only [sums, true_and, Nat.not_le.mpr sums, false_and, or_false]
    constructor
    · intro reached before owner after table holds
      exact (image.value_eq_owner_iff sums table holds).mp
        (reached owner (by simp [table]) holds)
    · intro visible owner member holds
      obtain ⟨before, after, table⟩ := List.append_of_mem member
      exact (image.value_eq_owner_iff sums table holds).mpr (visible before owner after table holds)
  · simp only [TranslatesThroughOwner, value_eq_some_iff, sums, false_and, Nat.not_lt.mp sums,
      true_and, false_or, WrappedAlike]

end PeImage

def overlapping : List SectionHeader :=
  [⟨0x1000, 0x1000, 0x3000, 0x400⟩, ⟨0x1000, 0x2000, 0x200, 0x3400⟩]

theorem overlapping_sections : listedSections (fileOf overlapping) sectionSize = overlapping := by
  decide +kernel

def overlappingImage : PeImage where
  span := { bytes := fileOf overlapping, bounded := by decide +kernel }
  peOffset := 0x40
  count := 2
  optLen := 0
  peField := by decide +kernel
  countField := by decide +kernel
  optField := by decide +kernel
  tableInside := by decide +kernel
  apart := by
    rw [overlapping_sections, overlapping, List.pairwise_pair]
    intro rva first second
    have last : rva < 0x2000 := first.2
    have start : 0x2000 ≤ rva := second.1
    omega
  unwrapped := by
    rw [overlapping_sections]
    decide

theorem overlapping_captured : ¬∀ (image : PeImage) rva, image.TranslatesThroughOwner rva := by
  intro claimed
  have owned := claimed overlappingImage 0x2000 ⟨0x1000, 0x2000, 0x200, 0x3400⟩
    (by decide +kernel) (by decide)
  exact absurd owned (by decide +kernel)

end PatchFix.PeFile
