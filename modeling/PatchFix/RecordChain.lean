import PatchFix.ChangeRecords

/-! Chains of `FILE_NOTIFY_INFORMATION` records as they lie in a buffer, wherever they are. -/

namespace PatchFix

inductive RecordChain (records : List UInt8) : Nat → List Nat → Prop
  | last {offset : Nat} : HoldsRecord records offset → nextEntryOffset records offset = 0 →
      RecordChain records offset [offset]
  | link {offset : Nat} {rest : List Nat} : HoldsRecord records offset →
      nextEntryOffset records offset ≠ 0 →
      RecordChain records (offset + nextEntryOffset records offset) rest →
      RecordChain records offset (offset :: rest)

variable {Path : Type} [DecidableEq Path]
variable (convert : List UInt16 → Option Path) (fileName : Path)

def NamesOurs (records : List UInt8) (offset : Nat) : Prop :=
  convert (reportedName records offset) = some fileName

instance (records : List UInt8) (offset : Nat) :
    Decidable (NamesOurs convert fileName records offset) :=
  inferInstanceAs (Decidable (_ = _))

/-- A record of ours is found: the names before it convert, and the room of a whole header
structure follows its start, as it does after any name of two units. -/
def Unhidden (records : List UInt8) (offsets : List Nat) : Prop :=
  ∃ before offset after, offsets = before ++ offset :: after ∧
    NamesOurs convert fileName records offset ∧
    (∀ earlier ∈ before, convert (reportedName records earlier) ≠ none) ∧
    offset + recordHeaderSize ≤ records.length

variable {convert fileName} {records : List UInt8} {offset : Nat} {offsets : List Nat}

omit [DecidableEq Path] in
theorem unhidden_cons {rest : List Nat} :
    Unhidden convert fileName records (offset :: rest) ↔
      (NamesOurs convert fileName records offset ∧ offset + recordHeaderSize ≤ records.length) ∨
        (convert (reportedName records offset) ≠ none ∧
          Unhidden convert fileName records rest) :=
  exists_reached_cons

theorem RecordChain.holds (chain : RecordChain records offset offsets) :
    ∀ start ∈ offsets, offset ≤ start ∧ HoldsRecord records start := by
  induction chain with
  | last holds _ => simpa using holds
  | @link offset rest holds _ _ ih =>
      rw [List.forall_mem_cons]
      refine ⟨⟨Nat.le_refl _, holds⟩, fun start member => ?_⟩
      obtain ⟨above, inside⟩ := ih start member
      exact ⟨Nat.le_trans (Nat.le_add_right _ _) above, inside⟩

omit [DecidableEq Path] in
theorem unhidden_room (starts : ∀ start ∈ offsets, offset ≤ start)
    (found : Unhidden convert fileName records offsets) :
    offset + recordHeaderSize ≤ records.length := by
  obtain ⟨before, start, after, rfl, _, _, room⟩ := found
  have above := starts start (by simp)
  omega

omit [DecidableEq Path] in
theorem not_unhidden_nil : ¬Unhidden convert fileName records [] := by
  rintro ⟨before, offset, after, split, _⟩
  simp at split

theorem recordsLoop_chain (chain : RecordChain records offset offsets) :
    recordsLoop convert fileName records offset = true ↔
      Unhidden convert fileName records offsets := by
  induction chain with
  | @last offset holds final =>
      have starts : ∀ start ∈ [offset], offset ≤ start := by simp
      by_cases room : offset + recordHeaderSize ≤ records.length
      · rw [recordsLoop_step holds room, unhidden_cons, final]
        simp [NamesOurs, room, not_unhidden_nil]
      · simp [recordsLoop_noRoom room, mt (unhidden_room starts) room]
  | @link offset rest holds follows chain ih =>
      have starts : ∀ start ∈ offset :: rest, offset ≤ start := fun start member =>
        ((RecordChain.link holds follows chain).holds start member).1
      by_cases room : offset + recordHeaderSize ≤ records.length
      · rw [recordsLoop_step holds room, unhidden_cons, ih]
        simp [NamesOurs, room, follows]
      · simp [recordsLoop_noRoom room, mt (unhidden_room starts) room]

theorem foundInChain_iff (convert : List UInt16 → Option Path) (fileName : Path)
    {records : List UInt8} {offsets : List Nat} (chain : RecordChain records 0 offsets) :
    (recordsNameOurFile convert fileName records = true ↔
      ∃ offset ∈ offsets, NamesOurs convert fileName records offset) ↔
      ((∃ offset ∈ offsets, NamesOurs convert fileName records offset) →
        Unhidden convert fileName records offsets) := by
  rw [recordsNameOurFile, recordsLoop_chain chain]
  constructor
  · exact fun same => same.mpr
  · intro seen
    refine ⟨?_, seen⟩
    rintro ⟨before, offset, after, rfl, ours, _⟩
    exact ⟨offset, by simp, ours⟩

def asciiName (name : List UInt16) : Option (List UInt16) :=
  if name.all fun unit => unit < 0x80 then some name else none

def foreignThenOurs : List UInt8 :=
  ChangeRecord.encodeAll [⟨3, [0x65E5, 0x8A8C], []⟩, ⟨3, [0x41, 0x43], []⟩]

theorem foreignThenOurs_chain : RecordChain foreignThenOurs 0 [0, 16] :=
  .link (by decide) (by decide) (.last (by decide) (by decide))

theorem foundInChain_iff_foreign :
    (recordsNameOurFile asciiName [0x41, 0x43] foreignThenOurs = true ↔
      ∃ offset ∈ [0, 16], NamesOurs asciiName [0x41, 0x43] foreignThenOurs offset) ↔
      ((∃ offset ∈ [0, 16], NamesOurs asciiName [0x41, 0x43] foreignThenOurs offset) →
        Unhidden asciiName [0x41, 0x43] foreignThenOurs [0, 16]) :=
  foundInChain_iff asciiName [0x41, 0x43] foreignThenOurs_chain

theorem foreignName_hidesOurs :
    ¬∀ offsets, RecordChain foreignThenOurs 0 offsets →
      (recordsNameOurFile asciiName [0x41, 0x43] foreignThenOurs = true ↔
        ∃ offset ∈ offsets, NamesOurs asciiName [0x41, 0x43] foreignThenOurs offset) := by
  intro claimed
  have found := (claimed _ foreignThenOurs_chain).mpr ⟨16, by decide, by decide⟩
  have unconverted : asciiName (reportedName foreignThenOurs 0) = none := by decide
  rw [recordsNameOurFile, recordsLoop_step (by decide) (by decide), unconverted] at found
  simp at found

end PatchFix
