import PatchFix.ChangeRecords

/-!
`FileWatcher::watch_loop` over the rounds that the system gives it. A completion stands for a batch
of changes; one that does not fit the buffer returns zero bytes and its records are discarded.
-/

namespace PatchFix

variable {Path : Type} [DecidableEq Path]
variable (convert : List UInt16 → Option Path) (fileName : Path)

def bufferSize : Nat := 4096

def bytesReturned (batch : List ChangeRecord) : List UInt8 :=
  if (ChangeRecord.encodeAll batch).length ≤ bufferSize then ChangeRecord.encodeAll batch else []

inductive WaitResult where
  | completed | stopped | failed
  deriving DecidableEq, Repr

/-- What the system answers in one round of the loop: the stop token, `ReadDirectoryChangesW`,
`WaitForMultipleObjects`, `GetOverlappedResult`, the debounce wait and `m_stopping`. -/
structure WatchRound where
  stopRequested : Bool
  issued : Bool
  wait : WaitResult
  resultRead : Bool
  batch : List ChangeRecord
  stopInDebounce : Bool
  stopping : Bool

inductive WatchEvent where
  | waited
  | completed (batch : List ChangeRecord)
  | callback

def watchLoop : List WatchRound → List WatchEvent
  | [] => []
  | round :: rest =>
      if round.stopRequested then []
      else if !round.issued then []
      else
        .waited :: match round.wait with
          | .failed => []
          | .stopped => []
          | .completed =>
              .completed round.batch ::
                if !round.resultRead then watchLoop rest
                else if (bytesReturned round.batch).length = 0 then watchLoop rest
                else if recordsNameOurFile convert fileName (bytesReturned round.batch) then
                  if round.stopInDebounce || round.stopping then []
                  else .callback :: watchLoop rest
                else watchLoop rest

def WatchRound.Unstopped (round : WatchRound) : Prop :=
  round.stopRequested = false ∧ round.wait ≠ .stopped ∧ round.stopInDebounce = false ∧
    round.stopping = false

/-- Every completion whose batch has a change to `watched` is followed by the callback at once. -/
def NoLostUpdate (watched : List UInt16) (events : List WatchEvent) : Prop :=
  ∀ before batch after, events = before ++ .completed batch :: after →
    (∃ record ∈ batch, record.name = watched) → ∃ later, after = .callback :: later

def completedRounds (rounds : List WatchRound) : List WatchRound :=
  rounds.takeWhile fun round => round.issued && round.wait = .completed

/-- The completion can be read, its batch fits the buffer, and the records before the watched one
do not stop the search. -/
def WatchRound.Noticed (round : WatchRound) : Prop :=
  round.resultRead = true ∧ (ChangeRecord.encodeAll round.batch).length ≤ bufferSize ∧
    NamesFile convert fileName round.batch

variable {convert fileName}

theorem noLostUpdate_nil (watched : List UInt16) : NoLostUpdate watched [] := by
  intro before batch after split
  simp at split

theorem noLostUpdate_quiet {watched : List UInt16} {event : WatchEvent}
    {events : List WatchEvent} (quiet : ∀ batch, event ≠ .completed batch) :
    NoLostUpdate watched (event :: events) ↔ NoLostUpdate watched events := by
  constructor
  · intro all before batch after split
    exact all (event :: before) batch after (by rw [split, List.cons_append])
  · intro all before batch after split
    cases before with
    | nil => exact absurd (List.cons.inj split).1 (quiet batch)
    | cons first before => exact all before batch after (List.cons.inj split).2

theorem noLostUpdate_completed {watched : List UInt16} {batch : List ChangeRecord}
    {events : List WatchEvent} :
    NoLostUpdate watched (.completed batch :: events) ↔
      ((∃ record ∈ batch, record.name = watched) → ∃ later, events = .callback :: later) ∧
        NoLostUpdate watched events := by
  constructor
  · intro all
    refine ⟨all [] batch events rfl, fun before other after split => ?_⟩
    exact all (.completed batch :: before) other after (by rw [split, List.cons_append])
  · rintro ⟨first, rest⟩ before other after split
    cases before with
    | nil =>
        obtain ⟨rfl, rfl⟩ : batch = other ∧ events = after := by simpa using split
        exact first
    | cons event before => exact rest before other after (List.cons.inj split).2

theorem noticed_iff {round : WatchRound} : round.Noticed convert fileName ↔
    round.resultRead = true ∧ (bytesReturned round.batch).length ≠ 0 ∧
      recordsNameOurFile convert fileName (bytesReturned round.batch) = true := by
  rw [WatchRound.Noticed]
  apply and_congr_right
  intro _
  by_cases fits : (ChangeRecord.encodeAll round.batch).length ≤ bufferSize
  · have bound : (ChangeRecord.encodeAll round.batch).length < 256 ^ 4 :=
      Nat.lt_of_le_of_lt fits (by decide)
    rw [bytesReturned, if_pos fits, recordsNameOurFile_encodeAll bound]
    constructor
    · rintro ⟨_, named⟩
      exact ⟨ChangeRecord.encodeAll_nonempty named.nonempty, named⟩
    · rintro ⟨_, named⟩
      exact ⟨fits, named⟩
  · simp [bytesReturned, fits]

theorem watchLoop_completed {round : WatchRound} {rest : List WatchRound}
    (unstopped : round.Unstopped) (issued : round.issued = true)
    (completed : round.wait = .completed) :
    watchLoop convert fileName (round :: rest) = .waited :: .completed round.batch ::
      if round.resultRead && (bytesReturned round.batch).length != 0 &&
          recordsNameOurFile convert fileName (bytesReturned round.batch)
      then .callback :: watchLoop convert fileName rest else watchLoop convert fileName rest := by
  obtain ⟨running, _, settled, live⟩ := unstopped
  rw [watchLoop]
  cases read : round.resultRead with
  | false => simp [running, issued, completed]
  | true =>
      by_cases empty : (bytesReturned round.batch).length = 0
      · simp [running, issued, completed, empty]
      · simp [running, issued, completed, empty, settled, live]

theorem watchLoop_not_callback (rounds : List WatchRound) (later : List WatchEvent) :
    watchLoop convert fileName rounds ≠ .callback :: later := by
  cases rounds with
  | nil => simp [watchLoop]
  | cons round rest =>
      rw [watchLoop]
      split
      · simp
      · split
        · simp
        · simp

/-- Over every sequence of rounds in which the watcher is not stopped, no completion with a change
to the watched file is lost if and only if each of them can be noticed. -/
theorem no_lost_update_iff {rounds : List WatchRound}
    (unstopped : ∀ round ∈ rounds, round.Unstopped) (watched : List UInt16) :
    NoLostUpdate watched (watchLoop convert fileName rounds) ↔
      ∀ round ∈ completedRounds rounds, (∃ record ∈ round.batch, record.name = watched) →
        round.Noticed convert fileName := by
  induction rounds with
  | nil => simp [watchLoop, completedRounds, noLostUpdate_nil]
  | cons round rest ih =>
      have here := unstopped round List.mem_cons_self
      have later := ih fun other member => unstopped other (List.mem_cons_of_mem _ member)
      by_cases completes : round.issued = true ∧ round.wait = .completed
      · obtain ⟨issued, completed⟩ := completes
        have reached : completedRounds (round :: rest) = round :: completedRounds rest := by
          simp [completedRounds, issued, completed]
        rw [watchLoop_completed here issued completed, reached, List.forall_mem_cons,
          noLostUpdate_quiet (by simp), noLostUpdate_completed, noticed_iff]
        split
        · next called =>
            have noticed : round.resultRead = true ∧ (bytesReturned round.batch).length ≠ 0 ∧
                recordsNameOurFile convert fileName (bytesReturned round.batch) = true := by
              simpa [and_assoc] using called
            rw [noLostUpdate_quiet (by simp), later]
            simp [noticed]
        · next silent =>
            have unnoticed : ¬(round.resultRead = true ∧ (bytesReturned round.batch).length ≠ 0 ∧
                recordsNameOurFile convert fileName (bytesReturned round.batch) = true) := by
              simpa [and_assoc] using silent
            have noCallback : ¬∃ later, watchLoop convert fileName rest = .callback :: later :=
              fun ⟨later, same⟩ => watchLoop_not_callback rest later same
            rw [later]
            simp only [unnoticed, noCallback]
      · have reached : completedRounds (round :: rest) = [] := by
          exact List.takeWhile_cons_of_neg (by simpa using completes)
        have quiet : NoLostUpdate watched (watchLoop convert fileName (round :: rest)) := by
          rw [watchLoop]
          cases issued : round.issued with
          | false => simpa [here.1] using noLostUpdate_nil watched
          | true =>
              cases wait : round.wait with
              | completed => exact absurd ⟨issued, wait⟩ completes
              | stopped => exact absurd wait here.2.1
              | failed =>
                  simpa [here.1, noLostUpdate_quiet] using noLostUpdate_nil watched
        simp [reached, quiet]

def verbatim (name : List UInt16) : Option (List UInt16) := some name

def iniName : List UInt16 := [0x41, 0x43, 0x2E, 0x69, 0x6E, 0x69]

def changed (name : List UInt16) : ChangeRecord where
  action := 3
  name := name
  padding := []

def completedRound (batch : List ChangeRecord) : WatchRound where
  stopRequested := false
  issued := true
  wait := .completed
  resultRead := true
  batch := batch
  stopInDebounce := false
  stopping := false

theorem no_lost_update_iff_single :
    NoLostUpdate iniName (watchLoop verbatim iniName [completedRound [changed iniName]]) ↔
      ∀ round ∈ completedRounds [completedRound [changed iniName]],
        (∃ record ∈ round.batch, record.name = iniName) → round.Noticed verbatim iniName :=
  no_lost_update_iff (by simp [completedRound, WatchRound.Unstopped]) iniName

def burst : List ChangeRecord :=
  List.replicate 8 (changed (List.replicate 250 0x61)) ++ [changed iniName]

theorem burst_overflows : bufferSize < (ChangeRecord.encodeAll burst).length := by
  have each : (changed (List.replicate 250 0x61)).size = 512 := by
    rw [ChangeRecord.size, changed, List.length_replicate]
    rfl
  rw [ChangeRecord.encodeAll_length, burst, List.map_append, List.map_replicate, each]
  decide

theorem burst_loses_update :
    ¬NoLostUpdate iniName (watchLoop verbatim iniName [completedRound burst]) := by
  intro claim
  have unstopped : (completedRound burst).Unstopped := by
    simp [completedRound, WatchRound.Unstopped]
  have discarded : bytesReturned (completedRound burst).batch = [] :=
    if_neg (Nat.not_le_of_lt burst_overflows)
  rw [watchLoop_completed unstopped rfl rfl, discarded] at claim
  obtain ⟨later, impossible⟩ := claim [.waited] burst [] rfl
    ⟨changed iniName, List.mem_append_right _ List.mem_cons_self, rfl⟩
  cases impossible

end PatchFix
