import PatchFix.JournalRoundTrip

/-!
`DllMain` unloads the plugin without joining the init thread: the calls of `WriteFile` that the two
make on the journal, in any order between the threads.
-/

namespace PatchFix

inductive JournalThread where
  | init | dllMain
  deriving DecidableEq, Repr

/-- `initCalls` and `closing` are the calls that the init thread and `DllMain` have yet to make;
after its calls `DllMain` closes the journal. -/
structure RaceState where
  journal : Journal
  initCalls : List JournalWrite
  closing : List JournalWrite

namespace SessionRecords

variable (session : SessionRecords)

def initRecords : List JournalRecord :=
  .sessionStart session.timestamp ::
    (session.hooks.map JournalRecord.hookInstalled ++ [.initComplete session.completed])

end SessionRecords

namespace RaceState

def start (session : SessionRecords) (journal : Journal) : RaceState where
  journal := journal.rewind
  initCalls := journalWrites session.initRecords
  closing := journalWrites [.sessionClean session.closed]

def step (state : RaceState) : JournalThread → RaceState
  | .init =>
      match state.initCalls with
      | [] => state
      | call :: later =>
          { state with journal := state.journal.writeFile call.data, initCalls := later }
  | .dllMain =>
      match state.closing with
      | [] => { state with journal := state.journal.close }
      | call :: later =>
          { state with journal := state.journal.writeFile call.data, closing := later }

def run (session : SessionRecords) (journal : Journal) (events : List JournalThread) : RaceState :=
  events.foldl step (start session journal)

/-- The calls that the init thread makes before the next one of `DllMain`. -/
def ahead : List JournalThread → Nat
  | [] => 0
  | .dllMain :: _ => 0
  | .init :: later => ahead later + 1

/-- What comes past the next call of `DllMain`. -/
def past : List JournalThread → List JournalThread
  | [] => []
  | .dllMain :: later => later
  | .init :: later => past later

end RaceState

/-- The calls on the file: `DllMain` came with its line after `before` and ended it after
`between`. -/
def racedCalls (closed : Line) (before between after : List JournalWrite) : List JournalWrite :=
  before ++ .text (.sessionClean closed) :: between ++ .newline :: after

/-- The record whose newline has not been written. -/
def openRecord (calls : List JournalWrite) : Option JournalRecord :=
  calls.getLast?.bind JournalWrite.record?

def installedNames (calls : List JournalWrite) : List Text :=
  (writtenRecords calls).filterMap JournalRecord.hookName?

/-- A line of the init thread that is open takes up the line of `DllMain`; otherwise the line of
`DllMain` takes up the record that comes before its newline. -/
structure SessionRecords.RaceReadBack (session : SessionRecords)
    (before between after : List JournalWrite) (state : JournalState) : Prop where
  clean : state.clean = true ↔
    openRecord before = none ∧ .text (.sessionStart session.timestamp) ∉ after
  hooks : state.hooksActive =
    match openRecord before with
    | none => installedNames before ++ installedNames between.tail ++ installedNames after
    | some record => installedNames before.dropLast ++
        (record.hookName?.map (· ++ Journal.sessionCleanLine session.closed.text)).toList ++
          installedNames between ++ installedNames after

/-! Reading calls back, whichever thread made them. -/

def parseText (state : JournalState) (text : Text) : JournalState :=
  (LineText.lines text).foldl parseLine state

theorem parseText_newline (state : JournalState) (first second : Text) :
    parseText state (first ++ '\n' :: second) = parseText (parseText state first) second :=
  LineText.foldl_lines_newline (fun _ => rfl) first second state

theorem parseText_line {line : Text} (whole : '\n' ∉ line) (state : JournalState) :
    parseText state line = parseLine state line := by
  by_cases empty : line = []
  · rw [empty]
    rfl
  · rw [parseText, LineText.lines_last whole empty, List.foldl_cons, List.foldl_nil]

def StartsLine (calls : List JournalWrite) : Prop := calls.head?.bind JournalWrite.record? = none

def Separated : List JournalWrite → Prop
  | [] => True
  | .newline :: later => Separated later
  | .text _ :: later => StartsLine later ∧ Separated later

theorem parseText_startsLine {calls : List JournalWrite} (starts : StartsLine calls)
    (state : JournalState) (text : Text) :
    parseText state (text ++ journalContent calls) =
      parseText (parseText state text) (journalContent calls) := by
  cases calls with
  | nil =>
      rw [show journalContent [] = [] from rfl, List.append_nil]
      rfl
  | cons call later =>
      cases call with
      | text record => exact absurd starts (by simp [StartsLine, JournalWrite.record?])
      | newline =>
          have blank : parseText (parseText state text) ('\n' :: journalContent later) =
              parseText (parseText state text) (journalContent later) :=
            parseText_newline _ [] _
          exact (parseText_newline state text _).trans blank.symm

theorem parseText_separated {calls : List JournalWrite} (separated : Separated calls)
    (state : JournalState) :
    parseText state (journalContent calls) =
      (writtenRecords calls).foldl JournalRecord.apply state := by
  induction calls generalizing state with
  | nil => rfl
  | cons call later ih =>
      cases call with
      | newline => exact (parseText_newline state [] _).trans (ih separated state)
      | text record =>
          obtain ⟨starts, separated⟩ := separated
          calc parseText state (record.text ++ journalContent later)
              _ = parseText (parseText state record.text) (journalContent later) :=
                parseText_startsLine starts state record.text
              _ = parseText (record.apply state) (journalContent later) := by
                rw [parseText_line record.text_whole, record.parseLine_text]
              _ = _ := ih separated _

theorem parseText_endsLine {calls : List JournalWrite} (ended : openRecord calls = none)
    (state : JournalState) (text : Text) :
    parseText state (journalContent calls ++ text) =
      parseText (parseText state (journalContent calls)) text := by
  rcases List.eq_nil_or_concat calls with rfl | ⟨earlier, last, rfl⟩
  · rfl
  · cases last with
    | text record => simp [openRecord, JournalWrite.record?] at ended
    | newline =>
        have content : journalContent (earlier.concat .newline) =
            journalContent earlier ++ ['\n'] := by
          simp [journalContent, JournalWrite.data]
        rw [content, List.append_assoc, List.singleton_append, parseText_newline,
          parseText_newline]
        rfl

theorem Separated.left {first second : List JournalWrite}
    (separated : Separated (first ++ second)) : Separated first := by
  induction first with
  | nil => trivial
  | cons call later ih =>
      cases call with
      | newline => exact ih separated
      | text record =>
          obtain ⟨starts, separated⟩ := separated
          refine ⟨?_, ih separated⟩
          cases later with
          | nil => rfl
          | cons next rest => exact starts

theorem Separated.right {first second : List JournalWrite}
    (separated : Separated (first ++ second)) : Separated second := by
  induction first with
  | nil => exact separated
  | cons call later ih =>
      cases call with
      | newline => exact ih separated
      | text record => exact ih separated.2

theorem StartsLine.append {first second : List JournalWrite} (starts : StartsLine first)
    (after : StartsLine second) : StartsLine (first ++ second) := by
  cases first with
  | nil => exact after
  | cons call later => exact starts

theorem Separated.append {first second : List JournalWrite} (separated : Separated first)
    (starts : StartsLine second) (after : Separated second) : Separated (first ++ second) := by
  induction first with
  | nil => exact after
  | cons call later ih =>
      cases call with
      | newline => exact ih separated
      | text record => exact ⟨separated.1.append starts, ih separated.2⟩

theorem separated_journalWrites (records : List JournalRecord) :
    Separated (journalWrites records) := by
  induction records with
  | nil => trivial
  | cons record records ih => exact ⟨rfl, ih⟩

theorem openRecord_of_separated {before after : List JournalWrite} {record : JournalRecord}
    (separated : Separated (before ++ .text record :: after)) : openRecord before = none := by
  rcases List.eq_nil_or_concat before with rfl | ⟨earlier, last, rfl⟩
  · rfl
  · cases last with
    | newline => simp [openRecord, JournalWrite.record?]
    | text other =>
        rw [List.concat_eq_append, List.append_assoc] at separated
        exact absurd separated.right.1 (by simp [StartsLine, JournalWrite.record?])

/-- A line that calls of both threads make up. -/
theorem parseText_shared {before after : List JournalWrite} (first : Separated before)
    (ended : openRecord before = none) (second : Separated after) (starts : StartsLine after)
    {line : Text} (whole : '\n' ∉ line) (state : JournalState) :
    parseText state (journalContent before ++ (line ++ journalContent after)) =
      (writtenRecords after).foldl JournalRecord.apply
        (parseLine ((writtenRecords before).foldl JournalRecord.apply state) line) := by
  rw [parseText_endsLine ended, parseText_startsLine starts, parseText_line whole,
    parseText_separated first, parseText_separated second]

theorem writtenRecords_append (first second : List JournalWrite) :
    writtenRecords (first ++ second) = writtenRecords first ++ writtenRecords second :=
  List.filterMap_append

section raced

variable {closed : Line} {before between after : List JournalWrite}

theorem separated_pastNewline (first : Separated between) (second : Separated after) :
    Separated (between ++ .newline :: after) :=
  first.append rfl second

theorem parseText_raced_open {record : JournalRecord}
    (separated : Separated (before ++ .text record :: (between ++ after))) (state : JournalState) :
    parseText state (journalContent (racedCalls closed (before ++ [.text record]) between after)) =
      (writtenRecords (between ++ after)).foldl JournalRecord.apply
        (parseLine ((writtenRecords before).foldl JournalRecord.apply state)
          (record.text ++ Journal.sessionCleanLine closed.text)) := by
  have later : Separated (between ++ after) := separated.right.2
  have starts : StartsLine (between ++ .newline :: after) := by
    cases between with
    | nil => rfl
    | cons call rest => exact separated.right.1
  have whole : '\n' ∉ record.text ++ Journal.sessionCleanLine closed.text :=
    List.not_mem_append record.text_whole (JournalRecord.sessionClean closed).text_whole
  have content : journalContent (racedCalls closed (before ++ [.text record]) between after) =
      journalContent before ++ (record.text ++ Journal.sessionCleanLine closed.text ++
        journalContent (between ++ .newline :: after)) := by
    simp [racedCalls, journalContent, JournalWrite.data, JournalRecord.text]
  have shared := parseText_shared separated.left (openRecord_of_separated separated)
    (separated_pastNewline later.left later.right) starts whole state
  rw [content, shared, writtenRecords_append, writtenRecords_append]
  rfl

theorem parseText_raced_ended (separated : Separated (before ++ between ++ after))
    (ended : openRecord before = none) (state : JournalState) :
    parseText state (journalContent (racedCalls closed before between after)) =
      (writtenRecords (between.tail ++ after)).foldl JournalRecord.apply
        { (writtenRecords before).foldl JournalRecord.apply state with clean := true } := by
  have first : Separated before := separated.left.left
  have second : Separated after := separated.right
  have closedWhole : '\n' ∉ Journal.sessionCleanLine closed.text :=
    (JournalRecord.sessionClean closed).text_whole
  by_cases taken : ∃ record rest, between = .text record :: rest
  · obtain ⟨record, rest, rfl⟩ := taken
    have later : Separated (.text record :: (rest ++ after)) := by
      rw [List.append_assoc] at separated
      exact separated.right
    have starts : StartsLine (rest ++ .newline :: after) := by
      cases rest with
      | nil => rfl
      | cons call more => exact later.1
    have content : journalContent (racedCalls closed before (.text record :: rest) after) =
        journalContent before ++ (Journal.sessionCleanLine closed.text ++ record.text ++
          journalContent (rest ++ .newline :: after)) := by
      simp [racedCalls, journalContent, JournalWrite.data, JournalRecord.text]
    have shared := parseText_shared first ended (separated_pastNewline later.2.left second) starts
      (List.not_mem_append closedWhole record.text_whole) state
    rw [content, shared, writtenRecords_append, List.tail_cons, writtenRecords_append]
    rfl
  · have starts : StartsLine (between ++ .newline :: after) := by
      rcases between with _ | ⟨call | _, rest⟩
      · rfl
      · exact absurd ⟨call, rest, rfl⟩ taken
      · rfl
    have content : journalContent (racedCalls closed before between after) =
        journalContent before ++ (Journal.sessionCleanLine closed.text ++
          journalContent (between ++ .newline :: after)) := by
      simp [racedCalls, journalContent, JournalWrite.data, JournalRecord.text]
    have shared := parseText_shared first ended
      (separated_pastNewline separated.left.right second) starts closedWhole state
    have same : writtenRecords between.tail = writtenRecords between := by
      rcases between with _ | ⟨call | _, rest⟩
      · rfl
      · exact absurd ⟨call, rest, rfl⟩ taken
      · rfl
    rw [content, shared, writtenRecords_append, writtenRecords_append, same]
    rfl

end raced

namespace SessionRecords

variable {session : SessionRecords}

theorem mem_initRecords {record : JournalRecord} (member : record ∈ session.initRecords.tail) :
    (∃ hookName, record = .hookInstalled hookName) ∨ record = .initComplete session.completed := by
  simp only [initRecords, List.tail_cons, List.mem_append, List.mem_map, List.mem_singleton]
    at member
  rcases member with ⟨hookName, _, rfl⟩ | rfl
  · exact .inl ⟨hookName, rfl⟩
  · exact .inr rfl

theorem mem_tail_of_cut {first later : List JournalRecord}
    (cut : first ++ later <+: session.initRecords) (past : first ≠ []) {record : JournalRecord}
    (member : record ∈ later) : record ∈ session.initRecords.tail := by
  obtain ⟨head, more, rfl⟩ := List.exists_cons_of_ne_nil past
  exact (List.cons_prefix_cons.mp cut).2.subset (List.mem_append_right more member)

theorem sessionStart_notMem_tail : .sessionStart session.timestamp ∉ session.initRecords.tail := by
  intro member
  rcases mem_initRecords member with ⟨hookName, same⟩ | same
  · contradiction
  · contradiction

/-- Past its first record the init thread neither starts a session nor closes one. -/
theorem foldl_initRecords {later : List JournalRecord}
    (past : ∀ record ∈ later, record ∈ session.initRecords.tail) (state : JournalState) :
    later.foldl JournalRecord.apply state =
      { state with
        hooksActive := state.hooksActive ++ later.filterMap JournalRecord.hookName? } := by
  have plain : ∀ record ∈ later, record.isStart = false ∧ record.isClean = false := by
    intro record member
    rcases mem_initRecords (past record member) with ⟨hookName, rfl⟩ | rfl
    · exact ⟨rfl, rfl⟩
    · exact ⟨rfl, rfl⟩
  have unclean : later.any JournalRecord.isClean = false := by
    rw [List.any_eq_false]
    exact fun record member => by simp [(plain record member).2]
  rw [foldl_apply fun record member => (plain record member).1, unclean, Bool.or_false]

theorem foldl_started {records : List JournalRecord} (cut : records <+: session.initRecords)
    (state : JournalState) (empty : state.hooksActive = []) :
    (records.foldl JournalRecord.apply state).hooksActive =
        records.filterMap JournalRecord.hookName? ∧
      ((records.foldl JournalRecord.apply state).clean = true ↔
        state.clean = true ∧ .sessionStart session.timestamp ∉ records) := by
  cases records with
  | nil => simp [empty]
  | cons record later =>
      have first : [record] ++ later <+: session.initRecords := cut
      obtain ⟨rfl, _⟩ := List.cons_prefix_cons.mp cut
      rw [List.foldl_cons, foldl_initRecords fun _ => mem_tail_of_cut first (List.cons_ne_nil _ _)]
      refine ⟨rfl, ?_⟩
      simp [JournalRecord.apply]

/-- What is written on an open line is read as the end of the line's record. -/
theorem parseLine_open {earlier : List JournalRecord} {record : JournalRecord}
    (cut : earlier ++ [record] <+: session.initRecords) (text : Text) :
    let left := parseLine (earlier.foldl JournalRecord.apply ⟨false, [], []⟩) (record.text ++ text)
    left.clean = false ∧ left.hooksActive = earlier.filterMap JournalRecord.hookName? ++
      (record.hookName?.map (· ++ text)).toList := by
  have before := foldl_started ((List.prefix_append _ _).trans cut) ⟨false, [], []⟩ rfl
  have unclean : (earlier.foldl JournalRecord.apply ⟨false, [], []⟩).clean = false := by
    simpa using before.2
  cases earlier with
  | nil =>
      obtain ⟨rfl, _⟩ := List.cons_prefix_cons.mp cut
      exact ⟨rfl, rfl⟩
  | cons first more =>
      obtain ⟨_, kept⟩ := List.cons_prefix_cons.mp cut
      rcases mem_initRecords (kept.subset (List.mem_append_right more List.mem_cons_self)) with
        ⟨hookName, rfl⟩ | rfl
      · exact ⟨unclean, congrArg (· ++ [hookName.text ++ text]) before.1⟩
      · exact ⟨unclean, before.1.trans (List.append_nil _).symm⟩

theorem raced_open {earlier between after : List JournalWrite} {record : JournalRecord}
    (cut : earlier ++ .text record :: (between ++ after) <+: journalWrites session.initRecords) :
    session.RaceReadBack (earlier ++ [.text record]) between after
      (parseText ⟨false, [], []⟩ (journalContent
        (racedCalls session.closed (earlier ++ [.text record]) between after))) := by
  have separated : Separated (earlier ++ .text record :: (between ++ after)) := by
    obtain ⟨more, whole⟩ := cut
    exact Separated.left (whole ▸ separated_journalWrites _)
  have kept : (writtenRecords earlier ++ [record]) ++ writtenRecords (between ++ after) <+:
      session.initRecords := by
    have written := writtenRecords_prefix cut
    rw [writtenRecords_append] at written
    rwa [List.append_assoc]
  have isOpen : openRecord (earlier ++ [.text record]) = some record := by
    simp [openRecord, JournalWrite.record?]
  obtain ⟨unclean, hooks⟩ := parseLine_open ((List.prefix_append _ _).trans kept)
    (Journal.sessionCleanLine session.closed.text)
  rw [parseText_raced_open separated, foldl_initRecords fun _ => mem_tail_of_cut kept (by simp)]
  constructor
  · simp [unclean, isOpen]
  · simp [hooks, isOpen, installedNames, writtenRecords_append]

theorem mem_tail_of_calls {first : JournalWrite} {later : List JournalWrite}
    (cut : first :: later <+: journalWrites session.initRecords) {record : JournalRecord}
    (member : .text record ∈ later) : record ∈ session.initRecords.tail := by
  obtain ⟨rfl, _⟩ := List.cons_prefix_cons.mp cut
  have kept := writtenRecords_prefix cut
  exact (List.cons_prefix_cons.mp kept).2.subset (mem_writtenRecords.mpr member)

theorem raced_ended {before between after : List JournalWrite}
    (cut : before ++ between ++ after <+: journalWrites session.initRecords)
    (ended : openRecord before = none) :
    session.RaceReadBack before between after
      (parseText ⟨false, [], []⟩ (journalContent
        (racedCalls session.closed before between after))) := by
  have separated : Separated (before ++ between ++ after) := by
    obtain ⟨more, whole⟩ := cut
    exact Separated.left (whole ▸ separated_journalWrites _)
  have kept := writtenRecords_prefix cut
  rw [parseText_raced_ended separated ended]
  by_cases untouched : before = [] ∧ between = []
  · obtain ⟨rfl, rfl⟩ := untouched
    have kept : writtenRecords after <+: session.initRecords := kept
    obtain ⟨hooks, clean⟩ := foldl_started kept ⟨true, [], []⟩ rfl
    refine ⟨?_, hooks⟩
    rw [← mem_writtenRecords, List.tail_nil, List.nil_append]
    exact clean.trans (by simp [openRecord])
  · have past : ∀ record, .text record ∈ between.tail ++ after →
        record ∈ session.initRecords.tail := by
      intro record member
      cases before with
      | nil =>
          cases between with
          | nil => exact absurd ⟨rfl, rfl⟩ untouched
          | cons call rest => exact mem_tail_of_calls cut member
      | cons call rest =>
          have later : call :: (rest ++ (between ++ after)) <+:
              journalWrites session.initRecords := by simpa using cut
          have kept := (List.tail_sublist between).append (List.Sublist.refl after)
          exact mem_tail_of_calls later (List.mem_append_right rest (kept.subset member))
    have first : before <+: journalWrites session.initRecords :=
      ((List.prefix_append _ _).trans (List.prefix_append _ _)).trans cut
    have kept := writtenRecords_prefix first
    have before := foldl_started kept ⟨false, [], []⟩ rfl
    rw [foldl_initRecords fun record member => past record (mem_writtenRecords.mp member)]
    constructor
    · have unstarted : .text (.sessionStart session.timestamp) ∉ after := fun member =>
        sessionStart_notMem_tail (past _ (List.mem_append_right _ member))
      simp [ended, unstarted]
    · simp [ended, before.1, installedNames, writtenRecords_append]

theorem parseJournal_raced {before between after : List JournalWrite}
    (cut : before ++ between ++ after <+: journalWrites session.initRecords) :
    session.RaceReadBack before between after
      (parseJournal (journalContent (racedCalls session.closed before between after))) := by
  rcases List.eq_nil_or_concat before with rfl | ⟨earlier, last, rfl⟩
  · exact raced_ended cut rfl
  · rw [List.concat_eq_append] at cut ⊢
    cases last with
    | newline => exact raced_ended cut (by simp [openRecord, JournalWrite.record?])
    | text record => exact raced_open (by simpa using cut)

end SessionRecords

namespace RaceState

variable {session : SessionRecords} {journal : Journal}

theorem At.call {journal : Journal} {calls : List JournalWrite}
    (file : journal.At (journalContent calls)) (call : JournalWrite) :
    (journal.writeFile call.data).At (journalContent (calls ++ [call])) := by
  have written := file.writeFile call.data
  simpa [journalContent] using written

theorem step_init {state : RaceState} {written : List JournalWrite}
    (file : state.journal.At (journalContent written)) :
    (state.step .init).journal.At (journalContent (written ++ state.initCalls.take 1)) ∧
      (state.step .init).initCalls = state.initCalls.drop 1 ∧
      (state.step .init).closing = state.closing := by
  obtain ⟨journal, initCalls, closing⟩ := state
  cases initCalls with
  | nil =>
      rw [List.take_nil, List.append_nil]
      exact ⟨file, rfl, rfl⟩
  | cons call later => exact ⟨At.call file call, rfl, rfl⟩

theorem foldl_past {written later : List JournalWrite} {call : JournalWrite}
    {events : List JournalThread} (comes : .dllMain ∈ events) (state : RaceState)
    (file : state.journal.At (journalContent written)) (closing : state.closing = call :: later) :
    ∃ next : RaceState,
      next.journal.At
        (journalContent (written ++ state.initCalls.take (ahead events) ++ [call])) ∧
      next.initCalls = state.initCalls.drop (ahead events) ∧ next.closing = later ∧
      events.foldl step state = (past events).foldl step next := by
  induction events generalizing state written with
  | nil => contradiction
  | cons thread rest ih =>
      cases thread with
      | dllMain =>
          obtain ⟨journal, initCalls, pending⟩ := state
          obtain rfl := closing
          refine ⟨⟨journal.writeFile call.data, initCalls, later⟩, ?_, rfl, rfl, rfl⟩
          rw [ahead, List.take_zero, List.append_nil]
          exact At.call file call
      | init =>
          obtain ⟨added, kept, same⟩ := step_init file
          have comes : .dllMain ∈ rest := by simpa using comes
          obtain ⟨next, content, calls, left, run⟩ :=
            ih comes (state.step .init) added (same.trans closing)
          rw [kept, List.append_assoc written, ← List.take_add, Nat.add_comm 1] at content
          rw [kept, List.drop_drop, Nat.add_comm 1] at calls
          exact ⟨next, content, calls, left, run⟩

theorem step_closed {state : RaceState} (shut : state.journal.handle = none)
    (ended : state.closing = []) (thread : JournalThread) :
    (state.step thread).journal = state.journal ∧ (state.step thread).closing = [] := by
  obtain ⟨⟨disk, path, handle⟩, initCalls, closing⟩ := state
  obtain rfl := shut
  obtain rfl := ended
  cases thread with
  | dllMain => exact ⟨rfl, rfl⟩
  | init =>
      cases initCalls with
      | nil => exact ⟨rfl, rfl⟩
      | cons call later => exact ⟨rfl, rfl⟩

theorem foldl_closed {state : RaceState} (shut : state.journal.handle = none)
    (ended : state.closing = []) (events : List JournalThread) :
    (events.foldl step state).journal = state.journal := by
  induction events generalizing state with
  | nil => rfl
  | cons thread rest ih =>
      obtain ⟨same, left⟩ := step_closed shut ended thread
      rw [List.foldl_cons, ih (same ▸ shut) left, same]

/-- The next call of `DllMain` closes the journal, and what comes past it is lost. -/
theorem foldl_ended {written : List JournalWrite} {state : RaceState}
    (file : state.journal.At (journalContent written)) (ended : state.closing = [])
    (events : List JournalThread) :
    (events.foldl step state).journal.disk =
      some (journalContent (written ++ state.initCalls.take (ahead events))) := by
  induction events generalizing state written with
  | nil =>
      rw [ahead, List.take_zero, List.append_nil]
      exact file.disk
  | cons thread rest ih =>
      cases thread with
      | dllMain =>
          obtain ⟨journal, initCalls, closing⟩ := state
          obtain rfl := ended
          rw [ahead, List.take_zero, List.append_nil, List.foldl_cons, foldl_closed rfl rfl]
          exact file.disk
      | init =>
          obtain ⟨added, kept, same⟩ := step_init file
          rw [List.foldl_cons, ih added (same.trans ended), kept, List.append_assoc,
            ← List.take_add, Nat.add_comm 1, ahead]

theorem count_past {events : List JournalThread} (comes : .dllMain ∈ events) :
    events.count .dllMain = (past events).count .dllMain + 1 := by
  induction events with
  | nil => contradiction
  | cons thread rest ih =>
      cases thread with
      | dllMain => simp [past]
      | init => simpa [past] using ih (by simpa using comes)

theorem raced_length {before between after : List JournalWrite}
    (cut : before ++ between ++ after <+: journalWrites session.initRecords) :
    (journalContent (racedCalls session.closed before between after)).length ≤
      (journalContent (journalWrites session.records)).length := by
  obtain ⟨more, whole⟩ := cut
  have all : journalWrites session.records = journalWrites session.initRecords ++
      [.text (.sessionClean session.closed), .newline] := by
    simp [SessionRecords.records, SessionRecords.initRecords, SessionRecords.afterStart,
      journalWrites]
  rw [all, ← whole]
  simp [racedCalls, journalContent, List.length_append]
  omega

theorem stretches_cut (calls : List JournalWrite) (first second third : Nat) :
    calls.take first ++ (calls.drop first).take second ++
      (calls.drop (first + second)).take third <+: calls := by
  rw [← List.take_add, ← List.take_add]
  exact List.take_prefix _ _

theorem run_disk {position : Nat} (handle : journal.handle = some position)
    {events : List JournalThread} (line : 2 ≤ events.count .dllMain) :
    let calls := journalWrites session.initRecords
    let first := ahead events
    let second := ahead (past events)
    (run session journal events).journal.disk = some (journalContent (racedCalls session.closed
      (calls.take first) ((calls.drop first).take second)
      ((calls.drop (first + second)).take (ahead (past (past events)))))) := by
  have rewound : (start session journal).journal.At (journalContent []) := by
    rw [start, Journal.rewind, handle]
    exact ⟨rfl, rfl⟩
  have comes : .dllMain ∈ events := List.count_pos_iff.mp (Nat.zero_lt_of_lt line)
  have again : .dllMain ∈ past events := by
    rw [count_past comes] at line
    exact List.count_pos_iff.mp (Nat.le_of_succ_le_succ line)
  obtain ⟨within, opened, left, closing, run⟩ := foldl_past comes _ rewound rfl
  obtain ⟨ended, content, kept, done, rest⟩ := foldl_past again within opened closing
  have disk := foldl_ended content done (past (past events))
  rw [← rest, ← run, kept, left, List.drop_drop] at disk
  rw [RaceState.run, disk]
  simp [racedCalls, start]

/-- The three stretches of the init thread's calls, up to `DllMain`'s line, within it, and past it
up to the close, are all that the next session reads of them; it reads this one as closed unless a
line of the init thread was open or the session had yet to be started. -/
theorem run_readBack {position : Nat} (handle : journal.handle = some position)
    (small : (journalContent (journalWrites session.records)).length ≤ Journal.maxFileSize)
    {events : List JournalThread} (line : 2 ≤ events.count .dllMain) (created : Bool) :
    let calls := journalWrites session.initRecords
    let first := ahead events
    let second := ahead (past events)
    let third := ahead (past (past events))
    let next := (Journal.atLoad (run session journal events).journal.disk).openFile created
    session.RaceReadBack (calls.take first) ((calls.drop first).take second)
      ((calls.drop (first + second)).take third) next.readPrevious := by
  intro calls first second third next
  have cut := stretches_cut calls first second third
  have disk : (run session journal events).journal.disk = some (journalContent
      (racedCalls session.closed (calls.take first) ((calls.drop first).take second)
        ((calls.drop (first + second)).take third))) := run_disk handle line
  obtain ⟨content, same⟩ : ∃ content, content = journalContent (racedCalls session.closed
      (calls.take first) ((calls.drop first).take second)
        ((calls.drop (first + second)).take third)) := ⟨_, rfl⟩
  rw [← same] at disk
  have stored : ((Journal.atLoad (run session journal events).journal.disk).openFile created).disk =
      some content := by
    rw [disk]
    cases created with
    | true => rfl
    | false => rfl
  have path : ((Journal.atLoad (run session journal events).journal.disk).openFile
      created).pathSet = true := by
    cases created with
    | true => rfl
    | false => rfl
  have accepted : ¬(content.length = 0 ∨ content.length > Journal.maxFileSize) := by
    rintro (empty | large)
    · simp [same, racedCalls, journalContent, JournalWrite.data] at empty
    · rw [same] at large
      exact absurd large (Nat.not_lt.mpr (Nat.le_trans (raced_length cut) small))
  rw [Journal.readPrevious_stored path stored, if_neg accepted, same]
  exact SessionRecords.parseJournal_raced cut

def meeting : List JournalThread := [.init, .init, .init, .dllMain, .init, .dllMain, .dllMain]

theorem run_readBack_meeting :
    SessionRecords.brokenOff.RaceReadBack
      ((journalWrites SessionRecords.brokenOff.initRecords).take 3)
      (((journalWrites SessionRecords.brokenOff.initRecords).drop 3).take 1)
      (((journalWrites SessionRecords.brokenOff.initRecords).drop 4).take 0)
      ((Journal.atLoad (run SessionRecords.brokenOff ⟨none, true, some 0⟩
        meeting).journal.disk).openFile true).readPrevious :=
  @run_readBack SessionRecords.brokenOff ⟨none, true, some 0⟩ 0 rfl (by decide +kernel) meeting
    (by decide) true

end RaceState

end PatchFix
