import PatchFix.Library.SingleBits
import PatchFix.Rogue.EnumSwitches
import PatchFix.Rogue.GameState
import PatchFix.Rogue.ViewportFitting

/-!
The instructions that Rogue's hooks erase, run as the processor runs them, next to the callbacks
that are to emulate them: the pause flags of `GameState` over a whole run, and the hooks that leave
the game as it was while they are off.
-/

namespace PatchFix.Rogue

open ByteImage LittleEndian RelativeAddress X64Code

/-! `GameState`: each callback stands for a `mov byte ptr [base + 2C0h], imm8`. -/

def PauseSite.erased : PauseSite → List UInt8
  | .unpause => [0xC6, 0x81, 0xC0, 0x02, 0x00, 0x00, 0x00]
  | .pause => [0x41, 0xC6, 0x80, 0xC0, 0x02, 0x00, 0x00, 0x01]
  | .pause2 => [0xC6, 0x87, 0xC0, 0x02, 0x00, 0x00, 0x01]

def PauseSite.baseRegister : PauseSite → Gpr
  | .unpause => .rcx
  | .pause => .r8
  | .pause2 => .rdi

def PauseSite.value : PauseSite → UInt8
  | .unpause => 0
  | .pause => 1
  | .pause2 => 1

def pauseFlagOffset : UInt64 := 0x2C0

/-- The game comes to one of the sites; nothing is mapped at the null page. -/
structure PauseArrival where
  site : PauseSite
  gpr : Gpr → UInt64
  accessible : UInt64 → Bool
  nullPage : accessible 0 = false

namespace PauseArrival

def base (arrival : PauseArrival) : UInt64 := arrival.gpr arrival.site.baseRegister

def firing (arrival : PauseArrival) : GameState.Firing where
  site := arrival.site
  regs := ⟨arrival.gpr .rax, arrival.gpr .rcx, arrival.gpr .rdi, arrival.gpr .r8⟩
  accessible := arrival.accessible

def machine (arrival : PauseArrival) (addrs : PauseSite → UInt64) (memory : Image) : Machine :=
  .arriving arrival.gpr memory (addrs arrival.site)

def plain (code : Image) (addrs : PauseSite → UInt64) (memory : Image) (arrival : PauseArrival) :
    Option Image :=
  if arrival.accessible arrival.base then
    ((arrival.machine addrs memory).step code).map Machine.memory
  else none

end PauseArrival

theorem PauseSite.erased_decodes (site : PauseSite) (rest : List UInt8) :
    decodeBytes (site.erased ++ rest) =
      some (.storeByte site.baseRegister [0xC0, 0x02, 0x00, 0x00] site.value,
        site.erased.length) := by
  cases site <;> rfl

theorem PauseArrival.plain_accessible {code : Image} {addrs : PauseSite → UInt64}
    {arrival : PauseArrival} (placed : At code (addrs arrival.site) arrival.site.erased)
    (accessible : arrival.accessible arrival.base = true) (memory : Image) :
    arrival.plain code addrs memory =
      some (overlay memory (arrival.base + pauseFlagOffset) [arrival.site.value]) := by
  have short : arrival.site.erased.length ≤ Machine.longest := by
    cases arrival.site <;> decide
  have offset : UInt64.ofInt (signed 4 (decode [0xC0, 0x02, 0x00, 0x00])) = pauseFlagOffset := by
    decide
  have stored : (arrival.machine addrs memory).step code =
      some ((arrival.machine addrs memory).execute
        (addrs arrival.site + UInt64.ofNat arrival.site.erased.length)
        (.storeByte arrival.site.baseRegister [0xC0, 0x02, 0x00, 0x00] arrival.site.value)) :=
    At.step placed short arrival.site.erased_decodes
  rw [plain, if_pos accessible, stored, Option.map_some, Machine.execute, displace, offset]
  rfl

namespace GameState

structure Mirrors (state : GameState) (memory : Image) : Prop where
  flags : ∀ base, state.pauseFlag base = memory (base + pauseFlagOffset)
  hooked : ∀ site, state.hooked site = true
  unfaulted : ∀ site, state.faulted site = false

variable {code : Image} {addrs : PauseSite → UInt64} {state : GameState} {memory : Image}

theorem fire_accessible (held : state.Mirrors memory) (arrival : PauseArrival)
    (accessible : arrival.accessible arrival.base = true) :
    state.fire arrival.firing =
      { state with
        isInGame := arrival.site = .unpause
        pauseFlag := Function.update state.pauseFlag arrival.base arrival.site.value
        gameStatePtr := if state.gameStatePtr = 0 then arrival.base else state.gameStatePtr } := by
  have mapped : arrival.base ≠ 0 := by
    intro null
    rw [null, arrival.nullPage] at accessible
    contradiction
  have kept (site : PauseSite) : Function.update state.faulted site false = state.faulted := by
    rw [Function.update_eq_self_iff, held.unfaulted]
  have live : state.hooked arrival.firing.site = true := held.hooked _
  have fresh : state.faulted arrival.firing.site = false := held.unfaulted _
  rw [fire, if_pos live, fresh]
  have ran : functor arrival.firing.site arrival.firing.accessible arrival.firing.regs state =
      writePauseFlag arrival.accessible arrival.base arrival.site.value
        { state with isInGame := arrival.site = .unpause } := by
    obtain ⟨site, gpr, readable, nullPage⟩ := arrival
    cases site <;> rfl
  simp only [guardedCallback, Bool.false_eq_true, if_false, ran, writePauseFlag, if_neg mapped,
    if_pos accessible, kept]

theorem Mirrors.fire (held : state.Mirrors memory) (arrival : PauseArrival)
    (placed : At code (addrs arrival.site) arrival.site.erased) {after : Image}
    (ran : arrival.plain code addrs memory = some after) :
    (state.fire arrival.firing).Mirrors after ∧
      (state.fire arrival.firing).isInGame = decide (arrival.site = .unpause) := by
  have accessible : arrival.accessible arrival.base = true := by
    by_contra refused
    rw [PauseArrival.plain, if_neg refused] at ran
    contradiction
  rw [arrival.plain_accessible placed accessible] at ran
  obtain rfl := Option.some.inj ran
  rw [fire_accessible held arrival accessible]
  refine ⟨⟨fun base => ?_, held.hooked, held.unfaulted⟩, rfl⟩
  by_cases same : base = arrival.base
  · subst same
    simp [overlay, offset]
  · have other : base + pauseFlagOffset - (arrival.base + pauseFlagOffset) ≠ 0 := by
      intro zero
      exact same (by grind)
    have outside : [arrival.site.value].length ≤
        offset (arrival.base + pauseFlagOffset) (base + pauseFlagOffset) := by
      rw [offset, List.length_singleton, Nat.one_le_iff_ne_zero]
      exact fun zero => other (UInt64.toNat_inj.mp zero)
    rw [overlay_outside outside, ← held.flags]
    exact Function.update_of_ne same _ _

/-- As long as the game without the patch would not have faulted, the callbacks leave each object's
flag as the erased instructions would have, whichever sites the game comes to and in whatever order,
and the in-game flag says whether the last of them was the unpause. -/
theorem run_mirrors (placed : ∀ site, At code (addrs site) site.erased)
    (held : state.Mirrors memory) (arrivals : List PauseArrival) {after : Image}
    (ran : arrivals.foldlM (PauseArrival.plain code addrs) memory = some after) :
    ((arrivals.map PauseArrival.firing).foldl GameState.fire state).Mirrors after ∧
      ((arrivals.map PauseArrival.firing).foldl GameState.fire state).isInGame =
        (arrivals.getLast?.map fun last => decide (last.site = .unpause)).getD state.isInGame := by
  induction arrivals generalizing state memory with
  | nil =>
      obtain rfl := Option.some.inj ran
      exact ⟨held, rfl⟩
  | cons arrival rest ih =>
      rw [List.foldlM_cons] at ran
      obtain ⟨next, first, ran⟩ := Option.bind_eq_some_iff.mp ran
      obtain ⟨mirrored, inGame⟩ := held.fire arrival (placed arrival.site) first
      obtain ⟨final, last⟩ := ih mirrored ran
      refine ⟨final, ?_⟩
      rw [List.map_cons, List.foldl_cons, last, inGame, List.getLast?_cons]
      cases rest.getLast? with
      | none => rfl
      | some last => rfl

end GameState

def pauseCode : Image :=
  overlay (fun _ => 0x90) 0x140001000
    (PauseSite.unpause.erased ++ PauseSite.pause.erased ++ PauseSite.pause2.erased)

def pauseAddrs : PauseSite → UInt64
  | .unpause => 0x140001000
  | .pause => 0x140001007
  | .pause2 => 0x14000100F

def pauseArrival (site : PauseSite) : PauseArrival where
  site := site
  gpr := fun _ => 0x2000000
  accessible := fun address => address != 0
  nullPage := rfl

open GameState in
theorem GameState.run_mirrors_resumed :
    (([pauseArrival .pause, pauseArrival .unpause].map PauseArrival.firing).foldl GameState.fire
        { GameState.initial with hooked := fun _ => true }).Mirrors
      (overlay (overlay (fun _ => 0) 0x20002C0 [1]) 0x20002C0 [0]) ∧
    (([pauseArrival .pause, pauseArrival .unpause].map PauseArrival.firing).foldl GameState.fire
        { GameState.initial with hooked := fun _ => true }).isInGame =
      ([pauseArrival .pause, pauseArrival .unpause].getLast?.map fun last =>
        decide (last.site = .unpause)).getD false := by
  have placed (site : PauseSite) : At pauseCode (pauseAddrs site) site.erased := by
    cases site <;> (unfold At; decide)
  have mirrored : Mirrors { initial with hooked := fun _ => true } (fun _ => 0) :=
    ⟨fun _ => rfl, fun _ => rfl, fun _ => rfl⟩
  exact run_mirrors placed mirrored _ rfl

/-! The hooks that leave the game as it was while they are off. -/

inductive OffSite where
  | displayFlag | fovStore | viewportRatioLoad
  deriving DecidableEq, Repr

namespace OffSite

/-- The erased code as far as its signature gives it, with a jump over one instruction; the end of
`movss xmm0, [rip + disp32]` is not given. -/
def erased : OffSite → List UInt8
  | .displayFlag => [0x0F, 0x2F, 0xC8, 0x73, 0x02, 0x8B, 0xD6]
  | .fovStore => [0xF3, 0x0F, 0x11, 0x73, 0x40]
  | .viewportRatioLoad => [0xF3, 0x0F, 0x10, 0x05]

def length : OffSite → UInt64
  | .displayFlag => 7
  | .fovStore => 5
  | .viewportRatioLoad => 8

def kInvDefaultAspect : UInt32 := 0x3F100000

/-- `DisplayFlagHook`, `FOVCorrectionFunctor` and `ViewportRatioLoad` with their hooks off. -/
def callback (machine : Machine) : OffSite → Machine
  | .displayFlag =>
      if below (machine.xmm 1).low (machine.xmm 0).low then
        { machine with gpr := Function.update machine.gpr .rdx (machine.gpr .rsi) }
      else machine
  | .fovStore =>
      { machine with
        memory := overlay machine.memory (machine.gpr .rbx + 0x40)
          (encode 4 (machine.xmm 6).low.toNat) }
  | .viewportRatioLoad =>
      { machine with
        xmm := Function.update machine.xmm 0 { machine.xmm 0 with low := kInvDefaultAspect } }

def constantAt (code : Image) (address : UInt64) : UInt64 :=
  displace (address + 8) (signed 4 (decode (ByteImage.read code (address + 4) 4)))

/-- Up to the end of the erased code the game does what the callback does. -/
def Emulated (site : OffSite) (code : Image) (machine : Machine) : Prop :=
  ∃ after, machine.runTo code (machine.rip + site.length) 4 = some after ∧
    after.gpr = (site.callback machine).gpr ∧ after.xmm = (site.callback machine).xmm ∧
      after.memory = (site.callback machine).memory ∧ after.flags = (site.callback machine).flags

/-- No half of a register that is dropped, no comparison with a NaN, the flags as the comparison
leaves them, and the constant expected in a register whose upper bits are clear. -/
def Unaffected (code : Image) (machine : Machine) : OffSite → Prop
  | .displayFlag =>
      (below (machine.xmm 1).low (machine.xmm 0).low = true →
        (machine.gpr .rsi).toUInt32.toUInt64 = machine.gpr .rsi) ∧
      (unordered (machine.xmm 1).low (machine.xmm 0).low = true →
        machine.gpr .rdx = (machine.gpr .rsi).toUInt32.toUInt64) ∧
      machine.flags = .ofSingles (machine.xmm 1).low (machine.xmm 0).low
  | .fovStore => True
  | .viewportRatioLoad =>
      (machine.xmm 0).upper = 0 ∧
        ByteImage.read machine.memory (constantAt code machine.rip) 4 =
          encode 4 kInvDefaultAspect.toNat

variable {code : Image} {machine : Machine}

theorem runTo_displayFlag (placed : At code machine.rip displayFlag.erased) :
    ∃ after, machine.runTo code (machine.rip + 7) 4 = some after ∧ after.xmm = machine.xmm ∧
      after.memory = machine.memory ∧
      after.flags = .ofSingles (machine.xmm 1).low (machine.xmm 0).low ∧
      after.gpr =
        if (unordered (machine.xmm 1).low (machine.xmm 0).low ||
          below (machine.xmm 1).low (machine.xmm 0).low) = true then
          Function.update machine.gpr .rdx (machine.gpr .rsi).toUInt32.toUInt64
        else machine.gpr := by
  obtain ⟨comiss, rest⟩ := At.split [0x0F, 0x2F, 0xC8]
    [0x73, 0x02, 0x8B, 0xD6] placed
  obtain ⟨jae, mov⟩ := At.split [0x73, 0x02] [0x8B, 0xD6] rest
  let compared := machine.execute (machine.rip + 3) (.comiss 1 0)
  have first : machine.step code = some compared := comiss.step (by decide) fun _ => rfl
  have second : compared.step code = some (compared.execute (machine.rip + 3 + 2) (.jae 2)) :=
    At.step jae (by decide) fun _ => rfl
  have start : machine.rip ≠ machine.rip + 7 := by grind
  have past : machine.rip + 3 ≠ machine.rip + 7 := by grind
  have comparedAt : compared.rip ≠ machine.rip + 7 := past
  rw [Machine.runTo_step start first, Machine.runTo_step comparedAt second]
  have last : machine.rip + 3 + 2 + 2 = machine.rip + 7 := by grind
  cases carry : (unordered (machine.xmm 1).low (machine.xmm 0).low ||
    below (machine.xmm 1).low (machine.xmm 0).low) with
  | true =>
      let fell : Machine := { compared with rip := machine.rip + 3 + 2 }
      have jumped : compared.execute (machine.rip + 3 + 2) (.jae 2) = fell := by
        simp [Machine.execute, Machine.jump, Flags.ofSingles, compared, fell, carry]
      have third : fell.step code =
          some (fell.execute (machine.rip + 3 + 2 + 2) (.mov .rdx .rsi)) :=
        At.step mov (by decide) fun _ => rfl
      have before : fell.rip ≠ machine.rip + 7 := by
        show machine.rip + 3 + 2 ≠ machine.rip + 7
        grind
      rw [jumped, Machine.runTo_step before third, Machine.runTo_stop last]
      exact ⟨_, rfl, rfl, rfl, rfl, rfl⟩
  | false =>
      have skipped : (compared.execute (machine.rip + 3 + 2) (.jae 2)).rip = machine.rip + 7 := by
        have two : UInt64.ofInt (signed 1 2) = 2 := by decide
        simp [Machine.execute, Machine.jump, Flags.ofSingles, compared, carry, displace, two, last]
      rw [Machine.runTo_stop skipped]
      exact ⟨_, rfl, rfl, rfl, rfl, rfl⟩

theorem runTo_fovStore (placed : At code machine.rip fovStore.erased) :
    machine.runTo code (machine.rip + 5) 4 =
      some (machine.execute (machine.rip + 5) (.storeSingle .rbx 0x40 6)) := by
  have start : machine.rip ≠ machine.rip + 5 := by grind
  have stored : machine.step code =
      some (machine.execute (machine.rip + 5) (.storeSingle .rbx 0x40 6)) :=
    At.step placed (by decide) fun _ => rfl
  rw [Machine.runTo_step start stored]
  exact Machine.runTo_stop rfl

theorem runTo_viewportRatioLoad (placed : At code machine.rip viewportRatioLoad.erased) :
    machine.runTo code (machine.rip + 8) 4 =
      some (machine.execute (machine.rip + 8)
        (.loadSingle 0 (ByteImage.read code (machine.rip + 4) 4))) := by
  have start : machine.rip ≠ machine.rip + 8 := by grind
  have loaded : machine.step code =
      some (machine.execute (machine.rip + 8)
        (.loadSingle 0 (ByteImage.read code (machine.rip + 4) 4))) := by
    apply At.stepRip (.loadSingle 0) placed (by decide)
    intro disp rest width
    show onRipRelative 0x05 (disp ++ rest) 8 .loadSingle = _
    rw [onRipRelative, if_pos (by decide), List.take_left' width]
    rfl
  rw [Machine.runTo_step start loaded]
  exact Machine.runTo_stop rfl

theorem emulated_of_ran {site : OffSite} {after : Machine}
    (ran : machine.runTo code (machine.rip + site.length) 4 = some after) :
    site.Emulated code machine ↔ after.gpr = (site.callback machine).gpr ∧
      after.xmm = (site.callback machine).xmm ∧
        after.memory = (site.callback machine).memory ∧
          after.flags = (site.callback machine).flags := by
  simp [Emulated, ran]

theorem loaded_iff (memory : Image) (address : UInt64) (value : UInt32) :
    UInt32.ofNat (decode (ByteImage.read memory address 4)) = value ↔
      ByteImage.read memory address 4 = encode 4 value.toNat := by
  have bound : decode (ByteImage.read memory address 4) < 2 ^ 32 := by
    simpa using decode_lt (ByteImage.read memory address 4)
  rw [← decode_eq_iff (read_length memory address 4) value.toNat_lt, ← UInt32.toNat_inj,
    UInt32.toNat_ofNat', Nat.mod_eq_of_lt bound]

/-- With its hook off a callback does what the erased code does, if and only if nothing of what the
erased code does besides is at work. -/
theorem emulated_iff (site : OffSite) (placed : At code machine.rip site.erased) :
    site.Emulated code machine ↔ site.Unaffected code machine := by
  cases site with
  | displayFlag =>
      obtain ⟨after, ran, xmm, memory, flags, gpr⟩ := runTo_displayFlag placed
      rw [emulated_of_ran ran, xmm, memory, flags, gpr, callback, Unaffected]
      cases nan : unordered (machine.xmm 1).low (machine.xmm 0).low with
      | true =>
          have notBelow : below (machine.xmm 1).low (machine.xmm 0).low = false := by
            simp [below, nan]
          simp [notBelow, eq_comm]
      | false =>
          cases less : below (machine.xmm 1).low (machine.xmm 0).low with
          | true => simp [(Function.update_injective machine.gpr .rdx).eq_iff, eq_comm]
          | false => simp [eq_comm]
  | fovStore =>
      refine iff_of_true ⟨_, runTo_fovStore placed, rfl, rfl, ?_, rfl⟩ trivial
      have offset : UInt64.ofInt (signed 1 0x40) = 0x40 := by decide
      show overlay machine.memory (displace (machine.gpr .rbx) (signed 1 0x40)) _ = _
      rw [displace, offset]
      rfl
  | viewportRatioLoad =>
      have slot : Machine.ripRelative (machine.rip + 8)
          (ByteImage.read code (machine.rip + 4) 4) = constantAt code machine.rip := rfl
      rw [emulated_of_ran (runTo_viewportRatioLoad placed), Unaffected, ← loaded_iff, ← slot]
      simp [Machine.execute, callback, (Function.update_injective machine.xmm 0).eq_iff,
        and_comm, eq_comm]

/-! The same callbacks as they are modelled on numbers. -/

theorem displayFlagHook_off {registry : Registry configuredHooks}
    (off : (registry Hook.displayDetectionHook.index).enabled = false)
    (display : DisplaySettings) :
    (displayFlagHook registry display
        { rdx := machine.gpr .rdx
          rsi := machine.gpr .rsi
          xmm0 := SingleBits.ofBits (machine.xmm 0).low
          xmm1 := SingleBits.ofBits (machine.xmm 1).low }).map (fun left => left.registers.rdx) =
      some ((displayFlag.callback machine).gpr .rdx) := by
  cases less : (SingleBits.ofBits (machine.xmm 1).low).lt
    (SingleBits.ofBits (machine.xmm 0).low) with
  | true => simp [displayFlagHook, off, callback, SingleBits.below_eq, less]
  | false => simp [displayFlagHook, off, callback, SingleBits.below_eq, less]

theorem viewportRatioLoad_off {inputs : ViewportInputs} (off : inputs.enabled = false)
    (state : RatioLoadState) :
    ∃ bounded, SingleBits.ofBits ((viewportRatioLoad.callback machine).xmm 0).low =
      .finite (Rogue.viewportRatioLoad inputs state).xmm0 bounded := by
  have kept : ((viewportRatioLoad.callback machine).xmm 0).low = kInvDefaultAspect := by
    simp [callback]
  have digits : SingleBits.units (SingleBits.size kInvDefaultAspect) = 0x900000 * 2 ^ 125 := by
    decide
  have value : (Rogue.viewportRatioLoad inputs state).xmm0 =
      SingleBits.signed (SingleBits.negative kInvDefaultAspect)
        (SingleBits.magnitude (SingleBits.size kInvDefaultAspect)) := by
    have positive : SingleBits.negative kInvDefaultAspect = false := by decide
    rw [positive, SingleBits.magnitude, digits]
    norm_num [Rogue.viewportRatioLoad, off, SingleBits.signed, invDefaultAspect]
  rw [kept, value]
  exact SingleBits.ofBits_finite (by decide)

end OffSite

def nanDisplay : Machine where
  gpr := fun register => if register = .rsi then 1 else 0
  xmm := fun _ => ⟨0x7FC00000, 0⟩
  memory := fun _ => 0
  rip := 0x140001000
  flags := ⟨false, false, false, false, false, false⟩

theorem OffSite.emulated_iff_nan :
    OffSite.displayFlag.Emulated
        (overlay (fun _ => 0x90) 0x140001000 OffSite.displayFlag.erased) nanDisplay ↔
      OffSite.displayFlag.Unaffected
        (overlay (fun _ => 0x90) 0x140001000 OffSite.displayFlag.erased) nanDisplay :=
  OffSite.emulated_iff .displayFlag (by unfold At; decide)

end PatchFix.Rogue
