import PatchFix.ChangeRecords
import PatchFix.Library.SpanAccess

/-! `records_name_our_file` in the arithmetic of `std::size_t`, with every access that it makes. -/

namespace PatchFix

open SpanAccess

variable {Path : Type} [DecidableEq Path]
variable (convert : List UInt16 → Option Path) (fileName : Path)

/-- The units that the conversion is given; their number is cast to `int`. -/
def loadName (records : Span) (offset : UInt64) (fileNameLength : Nat) :
    Traced (List UInt16) := do
  let count ← .record (.toInt (UInt64.ofNat fileNameLength / 2))
    (UInt64.ofNat fileNameLength / 2).toNat
  let name ← loadBytes records (offset.toNat + fileNameOffset) (count * 2)
  pure (LittleEndian.units name)

def followNext (records : Span) (offset : UInt64) (goOn : UInt64 → Traced (Option Bool)) :
    Traced (Option Bool) := do
  let next ← load records offset.toNat 4
  if next = 0 then pure (some false)
  else
    let following ← addSize offset (UInt64.ofNat next)
    goOn following

def scanRecords (records : Span) : Nat → UInt64 → Traced (Option Bool)
  | 0, _ => pure none
  | fuel + 1, offset => do
      let headerEnd ← addSize offset (UInt64.ofNat recordHeaderSize)
      if headerEnd ≤ records.size then
        let length ← load records (offset.toNat + 8) 4
        let nameEnd ← addSize (UInt64.ofNat fileNameOffset) (UInt64.ofNat length)
        let recordEnd ← addSize offset nameEnd
        if records.size < recordEnd then pure (some false)
        else
          let name ← loadName records offset length
          match convert name with
          | none => pure (some false)
          | some path =>
              if path = fileName then pure (some true)
              else followNext records offset (scanRecords records fuel)
      else pure (some false)

/-- Whatever the bytes are, the loop ends within one pass for each byte, and no access leaves the
buffer and no computation wraps. -/
structure ScanIsSafe (records : Span) : Prop where
  returns : (scanRecords convert fileName records (records.bytes.length + 1) 0).value =
    some (recordsNameOurFile convert fileName records.bytes)
  safe : ∀ fuel, (scanRecords convert fileName records fuel 0).Safe records

variable {convert fileName} {records : Span} {offset : UInt64}

theorem header_inside_iff (records : Span) (small : offset.toNat < 2 ^ 63 + 2 ^ 32) :
    offset.toNat + (UInt64.ofNat recordHeaderSize).toNat < 2 ^ 64 ∧
      (offset + UInt64.ofNat recordHeaderSize ≤ records.size ↔
        offset.toNat + recordHeaderSize ≤ records.bytes.length) := by
  have width : (UInt64.ofNat recordHeaderSize).toNat = 16 := rfl
  have safe : offset.toNat + (UInt64.ofNat recordHeaderSize).toNat < 2 ^ 64 := by omega
  refine ⟨safe, ?_⟩
  rw [UInt64.le_iff_toNat_le, add_toNat safe, Span.size_toNat]
  exact Iff.rfl

theorem name_outside_iff (records : Span) {length : Nat} (small : offset.toNat < 2 ^ 63 + 2 ^ 32)
    (bound : length < 256 ^ 4) :
    let nameEnd := UInt64.ofNat fileNameOffset + UInt64.ofNat length
    (UInt64.ofNat fileNameOffset).toNat + (UInt64.ofNat length).toNat < 2 ^ 64 ∧
      offset.toNat + nameEnd.toNat < 2 ^ 64 ∧
      (records.size < offset + nameEnd ↔
        offset.toNat + (fileNameOffset + length) > records.bytes.length) := by
  have start : (UInt64.ofNat fileNameOffset).toNat = 12 := rfl
  have width : (UInt64.ofNat length).toNat = length :=
    UInt64.toNat_ofNat_of_lt' (show _ < 2 ^ 64 by omega)
  have inner : (UInt64.ofNat fileNameOffset).toNat + (UInt64.ofNat length).toNat < 2 ^ 64 := by
    omega
  have outer : offset.toNat + (UInt64.ofNat fileNameOffset + UInt64.ofNat length).toNat <
      2 ^ 64 := by
    rw [add_toNat inner]
    omega
  refine ⟨inner, outer, ?_⟩
  rw [UInt64.lt_iff_toNat_lt, add_toNat outer, add_toNat inner, width, Span.size_toNat]
  exact Iff.rfl

theorem loadName_spec {length : Nat} (bound : length < 256 ^ 4)
    (inside : offset.toNat + (fileNameOffset + length) ≤ records.bytes.length) :
    (loadName records offset length).Safe records ∧
      (loadName records offset length).value =
        LittleEndian.units ((records.bytes.drop (offset.toNat + fileNameOffset)).take
          (length / 2 * 2)) := by
  have count : (UInt64.ofNat length / 2).toNat = length / 2 := by
    rw [UInt64.toNat_div, UInt64.toNat_ofNat_of_lt' (show _ < 2 ^ 64 by omega)]
    rfl
  simp only [loadName, loadBytes, Traced.safe_bind, Traced.safe_record, Traced.safe_pure,
    Traced.value_bind, Traced.value_record, Traced.value_pure, Operation.Safe, count, and_true]
  omega

theorem followNext_spec {goOn : UInt64 → Traced (Option Bool)} {found : Nat → Bool}
    {fuel : Nat} (room : offset.toNat + recordHeaderSize ≤ records.bytes.length)
    (goesOn : ∀ {following : UInt64}, following.toNat < 2 ^ 63 + 2 ^ 32 →
      (goOn following).Safe records ∧ (records.bytes.length - following.toNat < fuel →
        (goOn following).value = some (found following.toNat))) :
    let next := LittleEndian.readAt records.bytes offset.toNat 4
    (followNext records offset goOn).Safe records ∧
      (records.bytes.length - offset.toNat < fuel + 1 →
        (followNext records offset goOn).value =
          some (if next = 0 then false else found (offset.toNat + next))) := by
  rw [recordHeaderSize] at room
  have below := records.bounded
  have nextRead : offset.toNat + 4 ≤ records.bytes.length := by omega
  have nextBound := LittleEndian.readAt_lt records.bytes offset.toNat 4
  simp only [followNext, load, addSize, Traced.safe_bind, Traced.safe_record, Traced.value_bind,
    Traced.value_record, Operation.Safe, nextRead, true_and]
  generalize LittleEndian.readAt records.bytes offset.toNat 4 = next at nextBound
  by_cases last : next = 0
  · simp only [last, if_true]
    exact ⟨Traced.safe_pure _ _, fun _ => rfl⟩
  · have width : (UInt64.ofNat next).toNat = next :=
      UInt64.toNat_ofNat_of_lt' (show _ < 2 ^ 64 by omega)
    have stepSafe : offset.toNat + (UInt64.ofNat next).toNat < 2 ^ 64 := by omega
    have sum := add_toNat stepSafe
    obtain ⟨safe, value⟩ := goesOn (show (offset + UInt64.ofNat next).toNat < _ by omega)
    simp only [last, if_false, Traced.safe_bind, Traced.safe_record, Traced.value_bind,
      Traced.value_record, Operation.Safe]
    refine ⟨⟨stepSafe, safe⟩, fun enough => ?_⟩
    rw [value (by omega), sum, width]

theorem scanRecords_spec (fuel : Nat) (small : offset.toNat < 2 ^ 63 + 2 ^ 32) :
    (scanRecords convert fileName records fuel offset).Safe records ∧
      (records.bytes.length - offset.toNat < fuel →
        (scanRecords convert fileName records fuel offset).value =
          some (recordsLoop convert fileName records.bytes offset.toNat)) := by
  induction fuel generalizing offset with
  | zero => simp [scanRecords]
  | succ fuel ih =>
      obtain ⟨headerSafe, header⟩ := header_inside_iff records small
      rw [scanRecords, recordsLoop]
      by_cases room : offset.toNat + recordHeaderSize ≤ records.bytes.length
      · have bound := LittleEndian.readAt_lt records.bytes (offset.toNat + 8) 4
        obtain ⟨nameSafe, recordSafe, outside⟩ := name_outside_iff records small bound
        have headerRead : offset.toNat + 8 + 4 ≤ records.bytes.length := by
          rw [recordHeaderSize] at room
          omega
        simp only [addSize, load, Traced.safe_bind, Traced.safe_record, Traced.value_bind,
          Traced.value_record, Operation.Safe, header, room, if_true, outside, headerRead,
          true_and, headerSafe, nameSafe, recordSafe]
        generalize LittleEndian.readAt records.bytes (offset.toNat + 8) 4 = length at *
        by_cases out : offset.toNat + (fileNameOffset + length) > records.bytes.length
        · simp only [out, if_true]
          exact ⟨Traced.safe_pure _ _, fun _ => rfl⟩
        · obtain ⟨nameRead, name⟩ := loadName_spec bound (Nat.not_lt.mp out)
          simp only [out, if_false, Traced.safe_bind, Traced.value_bind, nameRead, name, true_and]
          cases convert (LittleEndian.units
            ((records.bytes.drop (offset.toNat + fileNameOffset)).take (length / 2 * 2))) with
          | none => exact ⟨Traced.safe_pure _ _, fun _ => rfl⟩
          | some path =>
              by_cases ours : path = fileName
              · simp only [ours, if_true]
                exact ⟨Traced.safe_pure _ _, fun _ => rfl⟩
              · simp only [ours, if_false]
                exact followNext_spec room ih
      · simp only [addSize, Traced.safe_bind, Traced.safe_record, Traced.value_bind,
          Traced.value_record, Operation.Safe, header, room, if_false]
        exact ⟨⟨headerSafe, Traced.safe_pure _ _⟩, fun _ => rfl⟩

theorem scanIsSafe (convert : List UInt16 → Option Path) (fileName : Path) (records : Span) :
    ScanIsSafe convert fileName records where
  returns := (scanRecords_spec (records.bytes.length + 1) (by decide)).2 (by simp)
  safe := fun fuel => (scanRecords_spec fuel (by decide)).1

end PatchFix
