import Mathlib.Algebra.GroupWithZero.Nat
import PatchFix.Library.LittleEndian

/-!
The `FILE_NOTIFY_INFORMATION` records of one completion and `FileWatcher::records_name_our_file`.
The conversion of a reported name is a parameter: a path, or an exception.
-/

namespace PatchFix

open LittleEndian

variable {Path : Type} [DecidableEq Path]
variable (convert : List UInt16 → Option Path) (fileName : Path)

def recordHeaderSize : Nat := 16
def fileNameOffset : Nat := 12

def recordsLoop (records : List UInt8) (offset : Nat) : Bool :=
  if offset + recordHeaderSize ≤ records.length then
    let nextEntryOffset := readAt records offset 4
    let fileNameLength := readAt records (offset + 8) 4
    let nameEnd := fileNameOffset + fileNameLength
    if offset + nameEnd > records.length then false
    else
      let name := units ((records.drop (offset + fileNameOffset)).take (fileNameLength / 2 * 2))
      match convert name with
      | none => false
      | some path =>
          if path = fileName then true
          else if nextEntryOffset = 0 then false
          else recordsLoop records (offset + nextEntryOffset)
  else false
termination_by records.length - offset
decreasing_by
  simp only [recordHeaderSize] at *
  omega

def recordsNameOurFile (records : List UInt8) : Bool := recordsLoop convert fileName records 0

def nextEntryOffset (records : List UInt8) (offset : Nat) : Nat := readAt records offset 4

def fileNameLength (records : List UInt8) (offset : Nat) : Nat := readAt records (offset + 8) 4

def reportedName (records : List UInt8) (offset : Nat) : List UInt16 :=
  units ((records.drop (offset + fileNameOffset)).take (fileNameLength records offset / 2 * 2))

def HoldsRecord (records : List UInt8) (offset : Nat) : Prop :=
  offset + fileNameOffset + fileNameLength records offset ≤ records.length

instance (records : List UInt8) (offset : Nat) : Decidable (HoldsRecord records offset) :=
  inferInstanceAs (Decidable (_ ≤ _))

structure ChangeRecord where
  action : UInt32
  name : List UInt16
  padding : List UInt8

namespace ChangeRecord

def size (record : ChangeRecord) : Nat :=
  fileNameOffset + 2 * record.name.length + record.padding.length

def encodeHeader (nextEntryOffset : Nat) (record : ChangeRecord) : List UInt8 :=
  encode 4 nextEntryOffset ++ encode 4 record.action.toNat ++ encode 4 (2 * record.name.length)

def encodeRecord (nextEntryOffset : Nat) (record : ChangeRecord) : List UInt8 :=
  record.encodeHeader nextEntryOffset ++ encodeUnits record.name ++ record.padding

def encodeAll : List ChangeRecord → List UInt8
  | [] => []
  | [record] => record.encodeRecord 0
  | record :: rest => record.encodeRecord record.size ++ encodeAll rest

@[simp] theorem encodeHeader_length (nextEntryOffset : Nat) (record : ChangeRecord) :
    (record.encodeHeader nextEntryOffset).length = fileNameOffset := by
  simp [encodeHeader, fileNameOffset]

@[simp] theorem encodeRecord_length (nextEntryOffset : Nat) (record : ChangeRecord) :
    (record.encodeRecord nextEntryOffset).length = record.size := by
  simp [encodeRecord, size, Nat.add_assoc]

theorem encodeAll_length (records : List ChangeRecord) :
    (encodeAll records).length = (records.map size).sum := by
  induction records with
  | nil => rfl
  | cons record rest ih =>
      cases rest with
      | nil => simp [encodeAll]
      | cons next rest => simp [encodeAll, ih]

theorem encodeAll_nonempty {records : List ChangeRecord} (nonempty : records ≠ []) :
    (encodeAll records).length ≠ 0 := by
  obtain ⟨record, rest, rfl⟩ := List.exists_cons_of_ne_nil nonempty
  rw [encodeAll_length, List.map_cons, List.sum_cons, size, fileNameOffset]
  omega

structure ReadBack (records : List UInt8) (offset nextEntryOffset : Nat)
    (record : ChangeRecord) : Prop where
  fits : offset + record.size ≤ records.length
  next : readAt records offset 4 = nextEntryOffset
  length : readAt records (offset + 8) 4 = 2 * record.name.length
  name : units ((records.drop (offset + fileNameOffset)).take (2 * record.name.length)) =
    record.name

theorem readBack (before after : List UInt8) {record : ChangeRecord} {nextEntryOffset : Nat}
    (nextBound : nextEntryOffset < 256 ^ 4) (nameBound : 2 * record.name.length < 256 ^ 4) :
    ReadBack (before ++ (record.encodeRecord nextEntryOffset ++ after)) before.length
      nextEntryOffset record := by
  constructor
  · simp
  · have field := readAt_append before (encode 4 record.action.toNat ++
      encode 4 (2 * record.name.length) ++ encodeUnits record.name ++ record.padding ++ after)
      rfl nextBound
    simpa [encodeRecord, encodeHeader] using field
  · have placed : before.length + 8 =
        (before ++ encode 4 nextEntryOffset ++ encode 4 record.action.toNat).length := by simp
    have field := readAt_append (before ++ encode 4 nextEntryOffset ++
      encode 4 record.action.toNat) (encodeUnits record.name ++ record.padding ++ after) placed
      nameBound
    simpa [encodeRecord, encodeHeader] using field
  · have header : before.length + fileNameOffset =
        (before ++ record.encodeHeader nextEntryOffset).length := by simp
    have body : before ++ (record.encodeRecord nextEntryOffset ++ after) =
        (before ++ record.encodeHeader nextEntryOffset) ++
          (encodeUnits record.name ++ (record.padding ++ after)) := by
      simp [encodeRecord]
    rw [body, header, List.drop_left, List.take_left' (encodeUnits_length record.name),
      units_encodeUnits]

end ChangeRecord

/-- Of a search that stops at the first item that does not pass: it gets to an item at the head, or
past the head to one in the rest. -/
theorem exists_reached_cons {Item : Type} {found passes : Item → Prop}
    {room : Item → List Item → Prop} {head : Item} {rest : List Item} :
    (∃ before item after, head :: rest = before ++ item :: after ∧ found item ∧
      (∀ earlier ∈ before, passes earlier) ∧ room item after) ↔
    (found head ∧ room head rest) ∨
      (passes head ∧ ∃ before item after, rest = before ++ item :: after ∧ found item ∧
        (∀ earlier ∈ before, passes earlier) ∧ room item after) := by
  constructor
  · rintro ⟨before, item, after, split, isFound, passed, hasRoom⟩
    cases before with
    | nil =>
        obtain ⟨rfl, rfl⟩ := List.cons.inj split
        exact Or.inl ⟨isFound, hasRoom⟩
    | cons first before =>
        obtain ⟨rfl, tail⟩ := List.cons.inj split
        exact Or.inr ⟨passed head List.mem_cons_self, before, item, after, tail, isFound,
          fun earlier member => passed earlier (List.mem_cons_of_mem _ member), hasRoom⟩
  · rintro (⟨isFound, hasRoom⟩ | ⟨passesHead, before, item, after, rfl, isFound, passed, hasRoom⟩)
    · exact ⟨[], head, rest, rfl, isFound, by simp, hasRoom⟩
    · refine ⟨head :: before, item, after, rfl, isFound, ?_, hasRoom⟩
      rw [List.forall_mem_cons]
      exact ⟨passesHead, passed⟩

/-- The loop gets to a record of the watched file: the names before it convert, and a record at the
end has the room of a whole header structure. -/
def NamesFile (records : List ChangeRecord) : Prop :=
  ∃ before record after, records = before ++ record :: after ∧
    convert record.name = some fileName ∧
    (∀ earlier ∈ before, convert earlier.name ≠ none) ∧
    (after = [] → recordHeaderSize ≤ record.size)

variable {convert fileName}

omit [DecidableEq Path] in
theorem namesFile_cons {record : ChangeRecord} {rest : List ChangeRecord} :
    NamesFile convert fileName (record :: rest) ↔
      (convert record.name = some fileName ∧ (rest = [] → recordHeaderSize ≤ record.size)) ∨
        (convert record.name ≠ none ∧ NamesFile convert fileName rest) :=
  exists_reached_cons

theorem recordsLoop_step {records : List UInt8} {offset : Nat}
    (holds : HoldsRecord records offset) (room : offset + recordHeaderSize ≤ records.length) :
    recordsLoop convert fileName records offset = true ↔
      convert (reportedName records offset) = some fileName ∨
        (convert (reportedName records offset) ≠ none ∧ nextEntryOffset records offset ≠ 0 ∧
          recordsLoop convert fileName records
            (offset + nextEntryOffset records offset) = true) := by
  have inside : ¬offset + (fileNameOffset + fileNameLength records offset) > records.length := by
    rw [HoldsRecord, Nat.add_assoc] at holds
    exact Nat.not_lt.mpr holds
  rw [recordsLoop, if_pos room, ← nextEntryOffset, ← fileNameLength, if_neg inside, ← reportedName]
  cases converted : convert (reportedName records offset) with
  | none => simp [converted]
  | some path => simp [converted]

theorem recordsLoop_record {records : List UInt8} {offset nextEntryOffset : Nat}
    {record : ChangeRecord} (read : record.ReadBack records offset nextEntryOffset)
    (room : offset + recordHeaderSize ≤ records.length) :
    recordsLoop convert fileName records offset = true ↔
      convert record.name = some fileName ∨ (convert record.name ≠ none ∧ nextEntryOffset ≠ 0 ∧
        recordsLoop convert fileName records (offset + nextEntryOffset) = true) := by
  have length : fileNameLength records offset = 2 * record.name.length := read.length
  have whole : 2 * record.name.length / 2 * 2 = 2 * record.name.length := by omega
  have holds : HoldsRecord records offset := by
    have fits := read.fits
    rw [ChangeRecord.size] at fits
    rw [HoldsRecord, length]
    omega
  have name : reportedName records offset = record.name := by
    rw [reportedName, length, whole, read.name]
  rw [recordsLoop_step holds room, name, PatchFix.nextEntryOffset, read.next]

theorem recordsLoop_noRoom {records : List UInt8} {offset : Nat}
    (noRoom : ¬offset + recordHeaderSize ≤ records.length) :
    recordsLoop convert fileName records offset = false := by
  rw [recordsLoop, if_neg noRoom]

omit [DecidableEq Path] in
theorem NamesFile.nonempty {records : List ChangeRecord}
    (named : NamesFile convert fileName records) : records ≠ [] := by
  obtain ⟨before, record, after, rfl, _⟩ := named
  simp

omit [DecidableEq Path] in
theorem not_namesFile_nil : ¬NamesFile convert fileName [] := fun named => named.nonempty rfl

theorem recordsLoop_encode_last {record : ChangeRecord} {before : List UInt8}
    (bound : (before ++ ChangeRecord.encodeAll [record]).length < 256 ^ 4) :
    recordsLoop convert fileName (before ++ ChangeRecord.encodeAll [record]) before.length = true ↔
      NamesFile convert fileName [record] := by
  rw [namesFile_cons]
  rw [ChangeRecord.encodeAll, List.length_append, ChangeRecord.encodeRecord_length] at bound
  have nameBound : 2 * record.name.length < 256 ^ 4 := by
    rw [ChangeRecord.size] at bound
    omega
  have read := ChangeRecord.readBack before [] (by decide : 0 < 256 ^ 4) nameBound
  rw [List.append_nil] at read
  rw [ChangeRecord.encodeAll]
  by_cases room : recordHeaderSize ≤ record.size
  · rw [recordsLoop_record read (by simpa using room)]
    simp [room, not_namesFile_nil]
  · rw [recordsLoop_noRoom (by simpa using room)]
    simp [room, not_namesFile_nil]

theorem recordsLoop_encode {records : List ChangeRecord} {before : List UInt8}
    (bound : (before ++ ChangeRecord.encodeAll records).length < 256 ^ 4) :
    recordsLoop convert fileName (before ++ ChangeRecord.encodeAll records) before.length = true ↔
      NamesFile convert fileName records := by
  induction records generalizing before with
  | nil =>
      have noRoom : ¬before.length + recordHeaderSize ≤
          (before ++ ChangeRecord.encodeAll []).length := by
        simp [ChangeRecord.encodeAll, recordHeaderSize]
      simp [recordsLoop_noRoom noRoom, not_namesFile_nil]
  | cons record rest ih =>
      cases rest with
      | nil => exact recordsLoop_encode_last bound
      | cons next rest =>
          have layout : before ++ ChangeRecord.encodeAll (record :: next :: rest) =
              before ++ (record.encodeRecord record.size ++
                ChangeRecord.encodeAll (next :: rest)) := rfl
          have follows : fileNameOffset ≤ (ChangeRecord.encodeAll (next :: rest)).length := by
            rw [ChangeRecord.encodeAll_length, List.map_cons, List.sum_cons, ChangeRecord.size]
            omega
          have regrouped : before ++ (record.encodeRecord record.size ++
              ChangeRecord.encodeAll (next :: rest)) =
              (before ++ record.encodeRecord record.size) ++
                ChangeRecord.encodeAll (next :: rest) := (List.append_assoc _ _ _).symm
          have tail := @ih (before ++ record.encodeRecord record.size)
            (by rwa [← regrouped, ← layout])
          rw [← regrouped, List.length_append, ChangeRecord.encodeRecord_length] at tail
          rw [layout] at bound ⊢
          simp only [List.length_append, ChangeRecord.encodeRecord_length] at bound
          have large : fileNameOffset + 2 * record.name.length ≤ record.size :=
            Nat.le_add_right _ _
          have read := ChangeRecord.readBack before (ChangeRecord.encodeAll (next :: rest))
            (by omega : record.size < 256 ^ 4) (by omega : 2 * record.name.length < 256 ^ 4)
          simp only [fileNameOffset] at follows large
          have room : before.length + recordHeaderSize ≤ (before ++
              (record.encodeRecord record.size ++
                ChangeRecord.encodeAll (next :: rest))).length := by
            simp only [List.length_append, ChangeRecord.encodeRecord_length, recordHeaderSize]
            omega
          rw [namesFile_cons, recordsLoop_record read room, tail]
          have nonzero : record.size ≠ 0 := by omega
          simp [nonzero]

theorem recordsNameOurFile_encodeAll {records : List ChangeRecord}
    (bound : (ChangeRecord.encodeAll records).length < 256 ^ 4) :
    recordsNameOurFile convert fileName (ChangeRecord.encodeAll records) = true ↔
      NamesFile convert fileName records :=
  @recordsLoop_encode _ _ _ _ records [] bound

end PatchFix
