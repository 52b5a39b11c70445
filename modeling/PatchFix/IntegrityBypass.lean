import PatchFix.CrashJournal

/-!
`vmp::wait_for_unpack` and `vmp::wait_for_integrity_blocked`. What the packer does to the memory
they poll is an input, and so is the moment of the stop request.
-/

namespace PatchFix

/-- `requestedAt` counts the polls of the two waits one after the other. -/
structure StopToken where
  requestedAt : Option Nat

def StopToken.stopRequested (stop : StopToken) (poll : Nat) : Bool :=
  stop.requestedAt.any fun moment => moment ≤ poll

/-- Why a wait returned. The source logs it and returns nothing. -/
inductive WaitEnd where
  | inactive
  | noText
  | alreadyUnpacked
  | cancelled
  | ready (poll : Nat)
  | timeout
  deriving DecidableEq, Repr

/-- What the waits load: `active` in turn from `g_active`, `textByte` from the first byte of
`.text`, `blockedCount` from `g_blocked_count`. -/
structure PackerRun where
  activeAtUnpack : Bool
  activeAtIntegrity : Bool
  hasText : Bool
  textByte : Nat → UInt8
  blockedCount : Nat → Int

def unpackPolls : Nat := 30 * 100
def integrityPolls : Nat := 30 * 10

def pollUntil (stopped ready : Nat → Bool) : Nat → Nat → WaitEnd
  | 0, _ => .timeout
  | remaining + 1, poll =>
      if stopped poll then .cancelled
      else if ready poll then .ready poll
      else pollUntil stopped ready remaining (poll + 1)

def waitForUnpack (stop : StopToken) (packer : PackerRun) : WaitEnd :=
  if !packer.activeAtUnpack then .inactive
  else if !packer.hasText then .noText
  else if packer.textByte 0 ≠ 0 then .alreadyUnpacked
  else pollUntil stop.stopRequested (fun poll => packer.textByte (poll + 1) ≠ 0) unpackPolls 0

def waitForIntegrityBlocked (stop : StopToken) (packer : PackerRun) : WaitEnd :=
  if !packer.activeAtIntegrity then .inactive
  else pollUntil (fun poll => stop.stopRequested (unpackPolls + poll))
    (fun poll => packer.blockedCount poll > 0) integrityPolls 0

theorem pollUntil_cancelled {stopped ready : Nat → Bool} {remaining poll : Nat} :
    pollUntil stopped ready remaining poll = .cancelled ↔
      ∃ observed, poll ≤ observed ∧ observed < poll + remaining ∧ stopped observed = true ∧
        ∀ earlier, poll ≤ earlier → earlier < observed → ready earlier = false := by
  induction remaining generalizing poll with
  | zero =>
      simp only [pollUntil, reduceCtorEq, false_iff]
      rintro ⟨observed, lower, upper, _⟩
      omega
  | succ remaining ih =>
      simp only [pollUntil]
      split
      · next now =>
          refine iff_of_true rfl ⟨poll, Nat.le_refl poll, by omega, now, ?_⟩
          intro earlier lower upper
          omega
      · next later =>
          split
          · next isReady =>
              simp only [reduceCtorEq, false_iff]
              rintro ⟨observed, lower, upper, stoppedThen, notReady⟩
              have different : observed ≠ poll := by
                rintro rfl
                exact later stoppedThen
              have missed := notReady poll (Nat.le_refl poll) (by omega)
              rw [isReady] at missed
              contradiction
          · next notYet =>
              rw [ih]
              constructor
              · rintro ⟨observed, lower, upper, stoppedThen, notReady⟩
                refine ⟨observed, by omega, by omega, stoppedThen, ?_⟩
                intro earlier after before
                by_cases here : earlier = poll
                · subst here
                  exact Bool.eq_false_iff.mpr notYet
                · exact notReady earlier (by omega) before
              · rintro ⟨observed, lower, upper, stoppedThen, notReady⟩
                have different : observed ≠ poll := by
                  rintro rfl
                  exact later stoppedThen
                refine ⟨observed, by omega, by omega, stoppedThen, ?_⟩
                intro earlier after before
                exact notReady earlier (by omega) before

/-- The request arrives while the packer still holds `.text` back. -/
def UnpackObserves (stop : StopToken) (packer : PackerRun) : Prop :=
  packer.activeAtUnpack = true ∧ packer.hasText = true ∧ packer.textByte 0 = 0 ∧
    ∃ observed, observed < unpackPolls ∧ stop.stopRequested observed = true ∧
      ∀ earlier, earlier < observed → packer.textByte (earlier + 1) = 0

/-- The request arrives before a thread of the packer has been blocked. -/
def IntegrityObserves (stop : StopToken) (packer : PackerRun) : Prop :=
  packer.activeAtIntegrity = true ∧
    ∃ observed, observed < integrityPolls ∧
      stop.stopRequested (unpackPolls + observed) = true ∧
      ∀ earlier, earlier < observed → packer.blockedCount earlier ≤ 0

theorem waitForUnpack_cancelled {stop : StopToken} {packer : PackerRun} :
    waitForUnpack stop packer = .cancelled ↔ UnpackObserves stop packer := by
  unfold waitForUnpack UnpackObserves
  cases active : packer.activeAtUnpack with
  | false => simp
  | true =>
      cases text : packer.hasText with
      | false => simp
      | true =>
          by_cases packed : packer.textByte 0 = 0
          · simp [packed, pollUntil_cancelled]
          · simp [packed]

theorem waitForIntegrityBlocked_cancelled {stop : StopToken} {packer : PackerRun} :
    waitForIntegrityBlocked stop packer = .cancelled ↔ IntegrityObserves stop packer := by
  unfold waitForIntegrityBlocked IntegrityObserves
  cases active : packer.activeAtIntegrity with
  | false => simp
  | true => simp [pollUntil_cancelled]

end PatchFix
