import PatchFix.CrashJournal
import PatchFix.Library.TransitionRun

/-!
Plugin sessions over one journal file: `DllMain`'s attach, the journal calls of `init_game`, and an
end at any point of them. A process that loads the plugin again finds the file as it was left.
-/

namespace PatchFix

structure Line where
  text : Text
  whole : '\n' ∉ text

inductive Ending where
  | killed
  | detach (lpReserved : UInt64) (now : Line)

/-- `reached` counts the calls of the init thread that took effect before the end. -/
structure Session where
  created : Bool
  started : Line
  hooks : List Line
  completed : Line
  reached : Nat
  ending : Ending

def processDetach (lpReserved : UInt64) (now : Text) (journal : Journal) : Journal :=
  if lpReserved ≠ 0 then journal else (journal.writeSessionClean now).close

namespace Session

def records (session : Session) : List Text :=
  Journal.sessionStartLine session.started.text ::
    (session.hooks.map fun hook => Journal.hookInstalledLine hook.text) ++
      [Journal.initCompleteLine session.completed.text]

def initSteps (session : Session) : List (Journal → Journal) :=
  Journal.openFile session.created :: Journal.rewind ::
    (LineText.pieces session.records).map Journal.writeFile

def runSteps (steps : List (Journal → Journal)) (journal : Journal) : Journal :=
  steps.foldl (fun current step => step current) journal

def atEnd (session : Session) (disk : Option Text) : Journal :=
  runSteps (session.initSteps.take session.reached) (Journal.atLoad disk)

def finish (session : Session) (journal : Journal) : Journal :=
  match session.ending with
  | .killed => journal
  | .detach lpReserved now => processDetach lpReserved now.text journal

def diskAfter (disk : Option Text) (session : Session) : Option Text :=
  (session.finish (session.atEnd disk)).disk

def previous (session : Session) (disk : Option Text) : JournalState :=
  ((Journal.atLoad disk).openFile session.created).readPrevious

def WroteSessionStart (session : Session) : Prop := session.created = true ∧ 3 ≤ session.reached

def EndedByDetach (session : Session) : Prop :=
  match session.ending with
  | .killed => False
  | .detach _ _ => True

def MidRecord (session : Session) : Prop :=
  (session.reached - 2) % 2 = 1 ∧ (session.reached - 2) / 2 < session.records.length

def Unloaded (session : Session) : Prop :=
  match session.ending with
  | .killed => False
  | .detach lpReserved _ => lpReserved = 0

def closingText (session : Session) : Text :=
  match session.ending with
  | .killed => []
  | .detach lpReserved now =>
      if lpReserved = 0 then Journal.sessionCleanLine now.text ++ ['\n'] else []

def journalText (session : Session) : Text :=
  ((LineText.pieces session.records).take (session.reached - 2)).flatten ++ session.closingText

theorem runSteps_pieces (records : List Text) (journal : Journal) :
    runSteps ((LineText.pieces records).map Journal.writeFile) journal =
      records.foldl (fun current line => current.writeLine line) journal := by
  induction records generalizing journal with
  | nil => rfl
  | cons line records ih =>
      simpa [LineText.pieces, runSteps, Journal.writeLine] using
        ih ((journal.writeFile line).writeFile ['\n'])

theorem initSteps_all (session : Session) (journal : Journal) :
    runSteps session.initSteps journal =
      (session.hooks.foldl (fun current hook => current.writeHookInstalled hook.text)
        ((journal.openFile session.created).writeSessionStart
          session.started.text)).writeInitComplete session.completed.text := by
  have opened : runSteps session.initSteps journal =
      runSteps ((LineText.pieces session.records).map Journal.writeFile)
        (journal.openFile session.created).rewind := rfl
  rw [opened, runSteps_pieces, records, List.cons_append, List.foldl_cons, List.foldl_append,
    List.foldl_map]
  rfl

theorem runSteps_writeFile {journal : Journal} {content : Text} (ended : journal.At content)
    (data : List Text) :
    (runSteps (data.map Journal.writeFile) journal).At (content ++ data.flatten) := by
  induction data generalizing journal content with
  | nil => simpa [runSteps] using ended
  | cons first data ih => simpa [runSteps] using ih (ended.writeFile first)

theorem atEnd_at {session : Session} (wrote : session.WroteSessionStart) (disk : Option Text) :
    (session.atEnd disk).At
      ((LineText.pieces session.records).take (session.reached - 2)).flatten := by
  obtain ⟨created, reached⟩ := wrote
  obtain ⟨count, counted⟩ : ∃ count, session.reached = count + 2 :=
    ⟨session.reached - 2, by omega⟩
  have rewound : (((Journal.atLoad disk).openFile true).rewind).At [] := ⟨rfl, rfl⟩
  have written := runSteps_writeFile rewound ((LineText.pieces session.records).take count)
  rw [List.nil_append, List.map_take] at written
  rw [atEnd, initSteps, counted, created]
  exact written

theorem diskAfter_wrote {session : Session} (wrote : session.WroteSessionStart)
    (disk : Option Text) : session.diskAfter disk = some session.journalText := by
  have ended := atEnd_at wrote disk
  unfold diskAfter finish journalText closingText
  cases session.ending with
  | killed => simpa using ended.disk
  | detach lpReserved now =>
      by_cases unloaded : lpReserved = 0
      · have closed := ended.writeLine (Journal.sessionCleanLine now.text)
        simpa [processDetach, unloaded, Journal.writeSessionClean, Journal.close] using closed.disk
      · simpa [processDetach, unloaded] using ended.disk

theorem previous_some (session : Session) (content : Text) :
    session.previous (some content) =
      if content.length = 0 ∨ content.length > Journal.maxFileSize then makeCleanState
      else parseJournal content := by
  cases created : session.created <;>
    exact Journal.readPrevious_stored (by simp [Journal.openFile, created])
      (by simp [Journal.openFile, Journal.atLoad, created])

def KeepsUnclean (line : Text) : Prop :=
  ∀ state, state.clean = false → (parseLine state line).clean = false

theorem records_keep {session : Session} {record : Text} (member : record ∈ session.records)
    (suffix : Text) : KeepsUnclean (record ++ suffix) := by
  intro state unclean
  simp only [records, List.cons_append, List.mem_cons, List.mem_append, List.mem_map,
    List.not_mem_nil, or_false] at member
  rcases member with rfl | ⟨hook, _, rfl⟩ | rfl
  · have joined : Journal.sessionStartLine session.started.text ++ suffix =
        Journal.sessionStartLine (session.started.text ++ suffix) := List.append_assoc _ _ _
    rw [joined, parseLine_sessionStart]
  · have joined : Journal.hookInstalledLine hook.text ++ suffix =
        Journal.hookInstalledLine (hook.text ++ suffix) := List.append_assoc _ _ _
    rw [joined, parseLine_hookInstalled]
    exact unclean
  · have joined : Journal.initCompleteLine session.completed.text ++ suffix =
        Journal.initCompleteLine (session.completed.text ++ suffix) := List.append_assoc _ _ _
    rw [joined, parseLine_initComplete]
    exact unclean

theorem records_whole {session : Session} {record : Text} (member : record ∈ session.records) :
    '\n' ∉ record := by
  simp only [records, List.cons_append, List.mem_cons, List.mem_append, List.mem_map,
    List.not_mem_nil, or_false] at member
  rcases member with rfl | ⟨hook, _, rfl⟩ | rfl
  · exact List.not_mem_append (by decide) session.started.whole
  · exact List.not_mem_append (by decide) hook.whole
  · exact List.not_mem_append (by decide) session.completed.whole

theorem parse_unclean {lines : List Text} (keeps : ∀ line ∈ lines, KeepsUnclean line) :
    (lines.foldl parseLine { clean := false, hooksActive := [], timestamp := [] }).clean =
      false :=
  TransitionRun.foldl_invariant (fun state : JournalState => state.clean = false) rfl
    fun state unclean line member => keeps line member state unclean

theorem taken_keep (session : Session) (count : Nat) :
    ∀ line ∈ session.records.take count, KeepsUnclean line := by
  intro line member
  simpa using records_keep (List.mem_of_mem_take member) []

theorem taken_whole (session : Session) (count : Nat) :
    ∀ line ∈ session.records.take count, '\n' ∉ line :=
  fun _ member => records_whole (List.mem_of_mem_take member)

theorem closingText_cases (session : Session) :
    (¬ session.Unloaded ∧ session.closingText = []) ∨
      session.Unloaded ∧ ∃ now : Line,
        session.closingText = LineText.unlines [Journal.sessionCleanLine now.text] := by
  unfold Unloaded closingText
  cases session.ending with
  | killed => exact Or.inl ⟨id, rfl⟩
  | detach lpReserved now =>
      by_cases unloaded : lpReserved = 0
      · exact Or.inr ⟨unloaded, now, by simp [unloaded]⟩
      · exact Or.inl ⟨unloaded, by simp [unloaded]⟩

theorem sessionCleanLine_whole (now : Line) : '\n' ∉ Journal.sessionCleanLine now.text :=
  List.not_mem_append (by decide) now.whole

theorem records_nonempty {session : Session} {record : Text}
    (member : record ∈ session.records) : record ≠ [] := by
  simp only [records, List.cons_append, List.mem_cons, List.mem_append, List.mem_map,
    List.not_mem_nil, or_false] at member
  rcases member with rfl | ⟨hook, _, rfl⟩ | rfl
  · exact List.cons_ne_nil _ _
  · exact List.cons_ne_nil _ _
  · exact List.cons_ne_nil _ _

theorem parseJournal_journalText (session : Session) :
    (parseJournal session.journalText).clean = true ↔ session.Unloaded ∧ ¬ session.MidRecord := by
  rw [journalText, LineText.pieces_take, List.append_assoc, parseJournal,
    LineText.lines_unlines (taken_whole session _), List.foldl_append]
  have before := parse_unclean (taken_keep session ((session.reached - 2) / 2))
  generalize (session.records.take ((session.reached - 2) / 2)).foldl parseLine _ = state at before
  by_cases broken : session.MidRecord
  · -- the last line starts as a record, whatever an unload appends to it
    obtain ⟨parity, bound⟩ := broken
    have member : session.records[(session.reached - 2) / 2] ∈ session.records :=
      List.getElem_mem bound
    rw [if_pos parity, List.getElem?_eq_getElem bound, Option.getD_some]
    generalize session.records[(session.reached - 2) / 2] = record at member
    have single : ∃ suffix,
        LineText.lines (record ++ session.closingText) = [record ++ suffix] := by
      rcases closingText_cases session with ⟨running, closing⟩ | ⟨unloaded, now, closing⟩
      · refine ⟨[], ?_⟩
        rw [closing, List.append_nil]
        exact LineText.lines_last (records_whole member) (records_nonempty member)
      · refine ⟨Journal.sessionCleanLine now.text, ?_⟩
        rw [closing, LineText.unlines_cons, LineText.unlines_nil, ← List.append_assoc]
        exact LineText.lines_ended
          (List.not_mem_append (records_whole member) (sessionCleanLine_whole now))
    obtain ⟨suffix, single⟩ := single
    have unclean := records_keep member suffix state before
    rw [single, List.foldl_cons, List.foldl_nil, unclean]
    simp [MidRecord, parity, bound]
  · have nothing : (if (session.reached - 2) % 2 = 1 then
        session.records[(session.reached - 2) / 2]?.getD [] else []) = [] := by
      split
      · next parity =>
          have past : session.records.length ≤ (session.reached - 2) / 2 := by
            simpa [MidRecord, parity] using broken
          rw [List.getElem?_eq_none past, Option.getD_none]
      · rfl
    rw [nothing, List.nil_append]
    rcases closingText_cases session with ⟨running, closing⟩ | ⟨unloaded, now, closing⟩
    · simp [closing, LineText.lines, before, running]
    · rw [closing, LineText.unlines_cons, LineText.unlines_nil,
        LineText.lines_ended (sessionCleanLine_whole now), List.foldl_cons, List.foldl_nil,
        parseLine_sessionClean]
      simp [unloaded, broken]

theorem journalText_nonempty {session : Session} (wrote : session.WroteSessionStart) :
    session.journalText ≠ [] := by
  obtain ⟨count, counted⟩ : ∃ count, session.reached - 2 = count + 1 :=
    ⟨session.reached - 3, by have := wrote.2; omega⟩
  rw [journalText, counted]
  exact List.cons_ne_nil _ _

def diskBefore (disk : Option Text) (sessions : List Session) : Option Text :=
  sessions.foldl Session.diskAfter disk

/-- A session reports the one before it as clean when that session was unloaded with every record
it had begun complete, or left more text than `read_file_contents` accepts. -/
theorem previous_clean_iff (disk : Option Text) (sessions : List Session)
    (earlier later : Session) (wrote : earlier.WroteSessionStart) :
    (later.previous (diskBefore disk (sessions ++ [earlier]))).clean = true ↔
      (earlier.Unloaded ∧ ¬ earlier.MidRecord) ∨
        Journal.maxFileSize < earlier.journalText.length := by
  have left : diskBefore disk (sessions ++ [earlier]) = some earlier.journalText := by
    rw [diskBefore, List.foldl_append]
    exact diskAfter_wrote wrote _
  have nonempty : earlier.journalText.length ≠ 0 := by
    simpa using journalText_nonempty wrote
  rw [left, previous_some, ← parseJournal_journalText]
  by_cases large : Journal.maxFileSize < earlier.journalText.length
  · rw [if_pos (Or.inr large)]
    simp [makeCleanState, large]
  · rw [if_neg (by omega)]
    simp [large]

def exited : Session where
  created := true
  started := ⟨"2025-01-01T10:00:00".toList, by decide⟩
  hooks := [⟨"GameState".toList, by decide⟩]
  completed := ⟨"2025-01-01T10:00:01".toList, by decide⟩
  reached := 8
  ending := .detach 1 ⟨"2025-01-01T11:00:00".toList, by decide⟩

theorem previous_clean_iff_exited :
    exited.WroteSessionStart ∧
      ((exited.previous (diskBefore none ([] ++ [exited]))).clean = true ↔
        (exited.Unloaded ∧ ¬ exited.MidRecord) ∨
          Journal.maxFileSize < exited.journalText.length) :=
  ⟨⟨rfl, by decide⟩, previous_clean_iff none [] exited exited ⟨rfl, by decide⟩⟩

set_option maxRecDepth 4000 in
theorem exited_reported_unclean :
    exited.WroteSessionStart ∧ exited.EndedByDetach ∧
      (exited.previous (diskBefore none [exited])).clean = false :=
  ⟨⟨rfl, by decide⟩, trivial, by decide⟩

end Session

end PatchFix
