import PatchFix.Library.LineText

/-!
`diagnostics::crash_journal`: the journal file, its writers and its parser. Text is a sequence of
`char`, and a step of the writer is one call that changes the file.
-/

namespace PatchFix

abbrev Text := List Char

/-- The globals `g_path` and `g_file` with the file they refer to: `disk` is the file at the
journal path, `handle` the file pointer of a valid handle. -/
structure Journal where
  disk : Option Text
  pathSet : Bool
  handle : Option Nat

structure JournalState where
  clean : Bool
  hooksActive : List Text
  timestamp : Text
  deriving DecidableEq, Repr

namespace Journal

def atLoad (disk : Option Text) : Journal where
  disk := disk
  pathSet := false
  handle := none

/-- `open`: `created` is whether `CreateFileA` with `OPEN_ALWAYS` returned a handle. -/
def openFile (created : Bool) (journal : Journal) : Journal :=
  if created then
    { disk := some (journal.disk.getD []), pathSet := true, handle := some 0 }
  else { journal with pathSet := true, handle := none }

def writeFile (data : Text) (journal : Journal) : Journal :=
  match journal.handle with
  | none => journal
  | some position =>
      let content := journal.disk.getD []
      { journal with
        disk := some (content.take position ++ data ++ content.drop (position + data.length))
        handle := some (position + data.length) }

def rewind (journal : Journal) : Journal :=
  match journal.handle with
  | none => journal
  | some _ => { journal with disk := some [], handle := some 0 }

def writeLine (line : Text) (journal : Journal) : Journal :=
  (journal.writeFile line).writeFile ['\n']

def sessionStartLine (now : Text) : Text := "session_start ".toList ++ now
def hookInstalledLine (hookName : Text) : Text := "hook_installed ".toList ++ hookName
def initCompleteLine (now : Text) : Text := "init_complete ".toList ++ now
def sessionCleanLine (now : Text) : Text := "session_clean ".toList ++ now

def writeSessionStart (now : Text) (journal : Journal) : Journal :=
  journal.rewind.writeLine (sessionStartLine now)

def writeHookInstalled (hookName : Text) (journal : Journal) : Journal :=
  journal.writeLine (hookInstalledLine hookName)

def writeInitComplete (now : Text) (journal : Journal) : Journal :=
  journal.writeLine (initCompleteLine now)

def writeSessionClean (now : Text) (journal : Journal) : Journal :=
  journal.writeLine (sessionCleanLine now)

def close (journal : Journal) : Journal := { journal with handle := none }

structure At (journal : Journal) (content : Text) : Prop where
  disk : journal.disk = some content
  handle : journal.handle = some content.length

theorem At.writeFile {journal : Journal} {content : Text} (ended : journal.At content)
    (data : Text) : (journal.writeFile data).At (content ++ data) := by
  constructor
  · simp [Journal.writeFile, ended.disk, ended.handle]
  · simp [Journal.writeFile, ended.handle]

theorem At.writeLine {journal : Journal} {content : Text} (ended : journal.At content)
    (line : Text) : (journal.writeLine line).At (content ++ LineText.unlines [line]) := by
  simpa [Journal.writeLine] using (ended.writeFile line).writeFile ['\n']

theorem writeFile_closed {journal : Journal} (closed : journal.handle = none) (data : Text) :
    journal.writeFile data = journal := by
  simp [Journal.writeFile, closed]

theorem writeLine_closed {journal : Journal} (closed : journal.handle = none) (line : Text) :
    journal.writeLine line = journal := by
  simp [Journal.writeLine, writeFile_closed closed]

def maxFileSize : Nat := 4096

def readFileContents (journal : Journal) : Text :=
  match journal.disk with
  | none => []
  | some content => if content.length = 0 ∨ content.length > maxFileSize then [] else content

end Journal

def makeCleanState : JournalState where
  clean := true
  hooksActive := []
  timestamp := []

def parseLine (state : JournalState) (line : Text) : JournalState :=
  if "session_start ".toList.isPrefixOf line then
    { timestamp := line.drop 14, hooksActive := [], clean := false }
  else if "hook_installed ".toList.isPrefixOf line then
    { state with hooksActive := state.hooksActive ++ [line.drop 15] }
  else if "session_clean".toList.isPrefixOf line then
    { state with clean := true }
  else state

theorem parseLine_sessionStart (state : JournalState) (now : Text) :
    parseLine state (Journal.sessionStartLine now) =
      { timestamp := now, hooksActive := [], clean := false } := rfl

theorem parseLine_hookInstalled (state : JournalState) (hookName : Text) :
    parseLine state (Journal.hookInstalledLine hookName) =
      { state with hooksActive := state.hooksActive ++ [hookName] } := rfl

theorem parseLine_initComplete (state : JournalState) (now : Text) :
    parseLine state (Journal.initCompleteLine now) = state := rfl

theorem parseLine_sessionClean (state : JournalState) (now : Text) :
    parseLine state (Journal.sessionCleanLine now) = { state with clean := true } := rfl

def parseJournal (content : Text) : JournalState :=
  (LineText.lines content).foldl parseLine { clean := false, hooksActive := [], timestamp := [] }

def Journal.readPrevious (journal : Journal) : JournalState :=
  if journal.pathSet then
    let content := journal.readFileContents
    if content = [] then makeCleanState else parseJournal content
  else { clean := false, hooksActive := [], timestamp := [] }

theorem Journal.readPrevious_stored {journal : Journal} {content : Text}
    (path : journal.pathSet = true) (stored : journal.disk = some content) :
    journal.readPrevious =
      if content.length = 0 ∨ content.length > Journal.maxFileSize then makeCleanState
      else parseJournal content := by
  by_cases refused : content.length = 0 ∨ content.length > Journal.maxFileSize
  · simp only [Journal.readPrevious, Journal.readFileContents, path, stored, if_pos refused,
      if_true]
  · have nonempty : content ≠ [] := fun empty => refused (Or.inl (by simp [empty]))
    simp only [Journal.readPrevious, Journal.readFileContents, path, stored, if_neg refused,
      if_neg nonempty, if_true]

end PatchFix
