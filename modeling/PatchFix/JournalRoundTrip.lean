import PatchFix.Session

/-! What a journal that was cut short at any call of `WriteFile` gives back. -/

namespace PatchFix

inductive JournalRecord where
  | sessionStart (now : Line)
  | hookInstalled (hookName : Line)
  | initComplete (now : Line)
  | sessionClean (now : Line)

namespace JournalRecord

def text : JournalRecord → Text
  | sessionStart now => Journal.sessionStartLine now.text
  | hookInstalled hookName => Journal.hookInstalledLine hookName.text
  | initComplete now => Journal.initCompleteLine now.text
  | sessionClean now => Journal.sessionCleanLine now.text

def write : JournalRecord → Journal → Journal
  | sessionStart now => Journal.writeSessionStart now.text
  | hookInstalled hookName => Journal.writeHookInstalled hookName.text
  | initComplete now => Journal.writeInitComplete now.text
  | sessionClean now => Journal.writeSessionClean now.text

def apply (state : JournalState) : JournalRecord → JournalState
  | sessionStart now => { timestamp := now.text, hooksActive := [], clean := false }
  | hookInstalled hookName => { state with hooksActive := state.hooksActive ++ [hookName.text] }
  | initComplete _ => state
  | sessionClean _ => { state with clean := true }

def hookName? : JournalRecord → Option Text
  | hookInstalled hookName => some hookName.text
  | _ => none

def isClean : JournalRecord → Bool
  | sessionClean _ => true
  | _ => false

def isStart : JournalRecord → Bool
  | sessionStart _ => true
  | _ => false

theorem text_whole (record : JournalRecord) : '\n' ∉ record.text := by
  cases record with
  | sessionStart now => exact List.not_mem_append (by decide) now.whole
  | hookInstalled hookName => exact List.not_mem_append (by decide) hookName.whole
  | initComplete now => exact List.not_mem_append (by decide) now.whole
  | sessionClean now => exact List.not_mem_append (by decide) now.whole

theorem text_nonempty (record : JournalRecord) : record.text ≠ [] := by
  cases record with
  | sessionStart now => exact List.cons_ne_nil _ _
  | hookInstalled hookName => exact List.cons_ne_nil _ _
  | initComplete now => exact List.cons_ne_nil _ _
  | sessionClean now => exact List.cons_ne_nil _ _

theorem parseLine_text (state : JournalState) (record : JournalRecord) :
    parseLine state record.text = record.apply state := by
  cases record with
  | sessionStart now => exact parseLine_sessionStart state now.text
  | hookInstalled hookName => exact parseLine_hookInstalled state hookName.text
  | initComplete now => exact parseLine_initComplete state now.text
  | sessionClean now => exact parseLine_sessionClean state now.text

end JournalRecord

inductive JournalWrite where
  | text (record : JournalRecord)
  | newline

namespace JournalWrite

def data : JournalWrite → Text
  | text record => record.text
  | newline => ['\n']

def record? : JournalWrite → Option JournalRecord
  | text record => some record
  | newline => none

end JournalWrite

def journalWrites (records : List JournalRecord) : List JournalWrite :=
  records.flatMap fun record => [.text record, .newline]

def journalContent (calls : List JournalWrite) : Text := calls.flatMap JournalWrite.data

def writtenRecords (calls : List JournalWrite) : List JournalRecord :=
  calls.filterMap JournalWrite.record?

/-! A cut leaves whole records and at most one without its newline. -/

theorem journalWrites_cut {records : List JournalRecord} {calls : List JournalWrite}
    (cut : calls <+: journalWrites records) :
    ∃ whole rest, records = whole ++ rest ∧
      (calls = journalWrites whole ∨
        ∃ record more, rest = record :: more ∧ calls = journalWrites whole ++ [.text record]) := by
  induction records generalizing calls with
  | nil => exact ⟨[], [], rfl, Or.inl (List.prefix_nil.mp cut)⟩
  | cons record records ih =>
      cases calls with
      | nil => exact ⟨[], record :: records, rfl, Or.inl rfl⟩
      | cons first calls =>
          have split : first :: calls <+: .text record :: .newline :: journalWrites records := cut
          obtain ⟨rfl, past⟩ := List.cons_prefix_cons.mp split
          cases calls with
          | nil => exact ⟨[], record :: records, rfl, Or.inr ⟨record, records, rfl, rfl⟩⟩
          | cons second calls =>
              obtain ⟨rfl, after⟩ := List.cons_prefix_cons.mp past
              obtain ⟨whole, rest, rfl, left⟩ := ih after
              refine ⟨record :: whole, rest, rfl, ?_⟩
              rcases left with rfl | ⟨broken, more, rfl, rfl⟩
              · exact Or.inl rfl
              · exact Or.inr ⟨broken, more, rfl, rfl⟩

theorem journalContent_journalWrites (records : List JournalRecord) :
    journalContent (journalWrites records) =
      LineText.unlines (records.map JournalRecord.text) := by
  induction records with
  | nil => rfl
  | cons record records ih =>
      rw [List.map_cons, LineText.unlines_cons, ← ih]
      simp [journalContent, journalWrites, JournalWrite.data]

theorem writtenRecords_journalWrites (records : List JournalRecord) :
    writtenRecords (journalWrites records) = records := by
  induction records with
  | nil => rfl
  | cons record records ih => exact congrArg (record :: ·) ih

theorem lines_journalContent {records : List JournalRecord} {calls : List JournalWrite}
    (cut : calls <+: journalWrites records) :
    LineText.lines (journalContent calls) = (writtenRecords calls).map JournalRecord.text := by
  obtain ⟨whole, rest, _, left⟩ := journalWrites_cut cut
  have complete : ∀ line ∈ whole.map JournalRecord.text, '\n' ∉ line := by
    intro line member
    obtain ⟨record, _, rfl⟩ := List.mem_map.mp member
    exact record.text_whole
  rcases left with rfl | ⟨record, more, _, rfl⟩
  · have split := LineText.lines_unlines complete []
    rw [journalContent_journalWrites, writtenRecords_journalWrites]
    simpa [LineText.lines] using split
  · have content : journalContent (journalWrites whole ++ [.text record]) =
        LineText.unlines (whole.map JournalRecord.text) ++ record.text := by
      rw [← journalContent_journalWrites]
      simp [journalContent, JournalWrite.data]
    have written : writtenRecords (journalWrites whole ++ [.text record]) = whole ++ [record] := by
      rw [writtenRecords, List.filterMap_append, ← writtenRecords, writtenRecords_journalWrites]
      rfl
    rw [content, written, LineText.lines_unlines complete,
      LineText.lines_last record.text_whole record.text_nonempty, List.map_append]
    rfl

theorem writtenRecords_prefix {records : List JournalRecord} {calls : List JournalWrite}
    (cut : calls <+: journalWrites records) : writtenRecords calls <+: records := by
  have kept := cut.filterMap JournalWrite.record?
  rwa [← writtenRecords, ← writtenRecords, writtenRecords_journalWrites] at kept

theorem foldl_parseLine (records : List JournalRecord) (state : JournalState) :
    (records.map JournalRecord.text).foldl parseLine state =
      records.foldl JournalRecord.apply state := by
  rw [List.foldl_map]
  congr 1
  funext state record
  exact record.parseLine_text state

/-! The state after the records of one session. -/

theorem foldl_apply {records : List JournalRecord}
    (same : ∀ record ∈ records, record.isStart = false) (state : JournalState) :
    records.foldl JournalRecord.apply state =
      { timestamp := state.timestamp
        hooksActive := state.hooksActive ++ records.filterMap JournalRecord.hookName?
        clean := state.clean || records.any JournalRecord.isClean } := by
  induction records generalizing state with
  | nil => simp
  | cons record records ih =>
      have rest := ih fun other member => same other (List.mem_cons_of_mem _ member)
      rw [List.foldl_cons, rest]
      cases record with
      | sessionStart now => exact absurd (same _ List.mem_cons_self) Bool.noConfusion
      | hookInstalled hookName =>
          simp [JournalRecord.apply, JournalRecord.hookName?, JournalRecord.isClean]
      | initComplete now =>
          simp [JournalRecord.apply, JournalRecord.hookName?, JournalRecord.isClean,
            List.filterMap_cons]
      | sessionClean now =>
          simp [JournalRecord.apply, JournalRecord.hookName?, JournalRecord.isClean,
            List.filterMap_cons]

structure SessionRecords where
  timestamp : Line
  hooks : List Line
  completed : Line
  closed : Line

namespace SessionRecords

variable (session : SessionRecords)

def afterStart : List JournalRecord :=
  session.hooks.map JournalRecord.hookInstalled ++
    [.initComplete session.completed, .sessionClean session.closed]

def records : List JournalRecord := .sessionStart session.timestamp :: session.afterStart

theorem afterStart_cases {record : JournalRecord} (member : record ∈ session.afterStart) :
    record.isStart = false ∧ (record.isClean = true ↔ record = .sessionClean session.closed) := by
  simp only [afterStart, List.mem_append, List.mem_map, List.mem_cons, List.not_mem_nil,
    or_false] at member
  rcases member with ⟨hookName, _, rfl⟩ | rfl | rfl
  · simp [JournalRecord.isStart, JournalRecord.isClean]
  · simp [JournalRecord.isStart, JournalRecord.isClean]
  · simp [JournalRecord.isStart, JournalRecord.isClean]

structure ReadBack (calls : List JournalWrite) (state : JournalState) : Prop where
  timestamp : state.timestamp = session.timestamp.text
  hooks : state.hooksActive = (writtenRecords calls).filterMap JournalRecord.hookName?
  clean : state.clean = true ↔ .text (.sessionClean session.closed) ∈ calls

variable {session}

theorem mem_writtenRecords {calls : List JournalWrite} {record : JournalRecord} :
    record ∈ writtenRecords calls ↔ .text record ∈ calls := by
  rw [writtenRecords, List.mem_filterMap]
  constructor
  · rintro ⟨call, member, same⟩
    cases call with
    | text other =>
        obtain rfl := Option.some.inj same
        exact member
    | newline => contradiction
  · intro member
    exact ⟨_, member, rfl⟩

theorem writtenRecords_split {calls : List JournalWrite}
    (cut : calls <+: journalWrites session.records)
    (started : .text (.sessionStart session.timestamp) ∈ calls) :
    ∃ records, writtenRecords calls = .sessionStart session.timestamp :: records ∧
      records <+: session.afterStart := by
  have kept := writtenRecords_prefix cut
  have member := mem_writtenRecords.mpr started
  cases split : writtenRecords calls with
  | nil => simp [split] at member
  | cons first records =>
      rw [split] at kept
      obtain ⟨rfl, after⟩ := List.cons_prefix_cons.mp kept
      exact ⟨records, rfl, after⟩

theorem parseJournal_readBack {calls : List JournalWrite}
    (cut : calls <+: journalWrites session.records)
    (started : .text (.sessionStart session.timestamp) ∈ calls) (earlier : List Line) :
    session.ReadBack calls
      (parseJournal (LineText.unlines (earlier.map Line.text) ++ journalContent calls)) := by
  have complete : ∀ line ∈ earlier.map Line.text, '\n' ∉ line := by
    intro line member
    obtain ⟨record, _, rfl⟩ := List.mem_map.mp member
    exact record.whole
  obtain ⟨records, written, kept⟩ := writtenRecords_split cut started
  have after : ∀ record ∈ records, record ∈ session.afterStart :=
    fun _ member => kept.subset member
  have closed : .text (.sessionClean session.closed) ∈ calls ↔
      .sessionClean session.closed ∈ records := by
    rw [← mem_writtenRecords, written, List.mem_cons]
    exact or_iff_right (by simp)
  -- whatever the earlier sessions left, the first record of this one resets the state
  have parsed : parseJournal (LineText.unlines (earlier.map Line.text) ++ journalContent calls) =
      { timestamp := session.timestamp.text
        hooksActive := records.filterMap JournalRecord.hookName?
        clean := records.any JournalRecord.isClean } := by
    rw [parseJournal, LineText.lines_unlines complete, lines_journalContent cut,
      List.foldl_append, foldl_parseLine, written, List.foldl_cons,
      foldl_apply fun record member => (session.afterStart_cases (after record member)).1]
    simp [JournalRecord.apply]
  rw [parsed]
  refine ⟨rfl, ?_, ?_⟩
  · rw [written]
    rfl
  · rw [closed, List.any_eq_true]
    constructor
    · rintro ⟨record, member, isClean⟩
      rwa [← (session.afterStart_cases (after record member)).2.mp isClean]
    · intro member
      exact ⟨_, member, rfl⟩

theorem readPrevious_readBack {calls : List JournalWrite}
    (cut : calls <+: journalWrites session.records)
    (started : .text (.sessionStart session.timestamp) ∈ calls)
    (small : (journalContent calls).length ≤ Journal.maxFileSize) {journal : Journal}
    (path : journal.pathSet = true) (stored : journal.disk = some (journalContent calls)) :
    session.ReadBack calls journal.readPrevious := by
  have nonempty : journalContent calls ≠ [] := by
    intro empty
    have unwritten := lines_journalContent cut
    rw [empty, LineText.lines, eq_comm, List.map_eq_nil_iff] at unwritten
    have member := mem_writtenRecords.mpr started
    simp [unwritten] at member
  have accepted : ¬((journalContent calls).length = 0 ∨
      (journalContent calls).length > Journal.maxFileSize) := by
    rw [List.length_eq_zero_iff]
    exact not_or.mpr ⟨nonempty, Nat.not_lt.mpr small⟩
  rw [Journal.readPrevious_stored path stored, if_neg accepted]
  exact parseJournal_readBack cut started []

theorem ReadBack.unique {calls : List JournalWrite} {first second : JournalState}
    (isFirst : session.ReadBack calls first) (isSecond : session.ReadBack calls second) :
    first = second := by
  cases first
  cases second
  cases isFirst.timestamp.trans isSecond.timestamp.symm
  cases isFirst.hooks.trans isSecond.hooks.symm
  cases Bool.eq_iff_iff.mpr (isFirst.clean.trans isSecond.clean.symm)
  rfl

theorem readPrevious_cut (session : SessionRecords) {calls : List JournalWrite}
    (cut : calls <+: journalWrites session.records)
    (started : .text (.sessionStart session.timestamp) ∈ calls)
    (small : (journalContent calls).length ≤ Journal.maxFileSize) :
    (∀ journal : Journal, journal.pathSet = true → journal.disk = some (journalContent calls) →
      session.ReadBack calls journal.readPrevious) ∧
    ∀ earlier : List Line,
      parseJournal (LineText.unlines (earlier.map Line.text) ++ journalContent calls) =
        parseJournal (journalContent calls) :=
  ⟨fun _ => readPrevious_readBack cut started small, fun earlier =>
    (parseJournal_readBack cut started earlier).unique (parseJournal_readBack cut started [])⟩

def brokenOff : SessionRecords where
  timestamp := ⟨"2025-02-02T20:00:00".toList, by decide⟩
  hooks := [⟨"FPSUnlock".toList, by decide⟩, ⟨"CameraLean".toList, by decide⟩]
  completed := ⟨"2025-02-02T20:00:01".toList, by decide⟩
  closed := ⟨"2025-02-02T21:00:00".toList, by decide⟩

theorem readPrevious_cut_brokenOff :
    brokenOff.ReadBack ((journalWrites brokenOff.records).take 3)
      (Journal.readPrevious
        { disk := some (journalContent ((journalWrites brokenOff.records).take 3))
          pathSet := true
          handle := none }) :=
  (readPrevious_cut brokenOff (List.take_prefix 3 _) List.mem_cons_self (by decide)).1 _ rfl rfl

/-! The writers make these calls. -/

theorem write_calls (records : List JournalRecord) (journal : Journal) :
    Session.runSteps ((journalWrites records).map fun call => Journal.writeFile call.data) journal =
      records.foldl (fun current record => current.writeLine record.text) journal := by
  induction records generalizing journal with
  | nil => rfl
  | cons record records ih => exact ih (journal.writeLine record.text)

theorem foldl_write (records : List JournalRecord)
    (same : ∀ record ∈ records, record.isStart = false) (journal : Journal) :
    records.foldl (fun current record => record.write current) journal =
      records.foldl (fun current record => current.writeLine record.text) journal := by
  induction records generalizing journal with
  | nil => rfl
  | cons record records ih =>
      have written : record.write journal = journal.writeLine record.text := by
        cases record with
        | sessionStart now => exact absurd (same _ List.mem_cons_self) Bool.noConfusion
        | hookInstalled hookName => rfl
        | initComplete now => rfl
        | sessionClean now => rfl
      rw [List.foldl_cons, List.foldl_cons, written]
      exact ih (fun other member => same other (List.mem_cons_of_mem _ member)) _

theorem writers_call (session : SessionRecords) (journal : Journal) :
    session.records.foldl (fun current record => record.write current) journal =
      Session.runSteps ((journalWrites session.records).map fun call => Journal.writeFile call.data)
        journal.rewind := by
  have same : ∀ record ∈ session.afterStart, record.isStart = false :=
    fun _ member => (session.afterStart_cases member).1
  rw [write_calls, records, List.foldl_cons, List.foldl_cons, foldl_write _ same]
  rfl

theorem written_at {journal : Journal} {position : Nat} (handle : journal.handle = some position)
    (calls : List JournalWrite) :
    (Session.runSteps (calls.map fun call => Journal.writeFile call.data) journal.rewind).At
      (journalContent calls) := by
  have rewound : journal.rewind.At [] := by
    rw [Journal.rewind, handle]
    exact ⟨rfl, rfl⟩
  have written := Session.runSteps_writeFile rewound (calls.map JournalWrite.data)
  rw [List.map_map] at written
  simpa [journalContent, List.flatMap, Function.comp_def] using written

theorem stopped_readBack {journal : Journal} {position : Nat}
    (handle : journal.handle = some position) {calls : List JournalWrite}
    (cut : calls <+: journalWrites session.records)
    (started : .text (.sessionStart session.timestamp) ∈ calls)
    (small : (journalContent calls).length ≤ Journal.maxFileSize) (created : Bool) :
    session.ReadBack calls ((Journal.atLoad (Session.runSteps
      (calls.map fun call => Journal.writeFile call.data) journal.rewind).disk).openFile
        created).readPrevious := by
  have content := (written_at handle calls).disk
  apply readPrevious_readBack cut started small
  · cases created with
    | true => rfl
    | false => rfl
  · rw [content]
    cases created with
    | true => rfl
    | false => rfl

end SessionRecords

end PatchFix
