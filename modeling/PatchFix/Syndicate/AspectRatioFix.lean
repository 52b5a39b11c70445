import Mathlib.Data.List.Destutter
import PatchFix.Library.Binary32Order
import PatchFix.Library.TransitionRun

/-!
Syndicate's `AspectRatioFix`: the aspect blocks of the renderer and the log, over any number of
recomputes of the engine and under whatever configuration each of them meets.
-/

namespace PatchFix.Syndicate

structure AspectBlock where
  gatePrimary : UInt8
  gateOdd : UInt8
  gateSecondary : UInt8
  ratioPrimary : Binary32
  ratioFallback : Binary32
  deriving DecidableEq

structure RendererAspectState where
  active : AspectBlock
  computed : AspectBlock
  deriving DecidableEq

structure AspectRun where
  renderer : RendererAspectState
  lastAspect : Binary32
  logged : List Binary32
  deriving DecidableEq

/-- One recompute: the block that the engine computes for the size in `rsi` and `rdi`, the hook's
switch and field at the time, and the block of a span that the engine takes over afterwards. -/
structure Recompute where
  computed : AspectBlock
  rsi : UInt64
  rdi : UInt64
  enabled : Bool
  aspectRatio : Binary32
  span : Option AspectBlock

def floatOf (value : UInt32) : Binary32 := Binary32.ofRat value.toNat

def mirrorAspect (recompute : Recompute) (run : AspectRun) : AspectRun :=
  if !recompute.enabled then run
  else
    let write (ratio : Binary32) : AspectRun :=
      { renderer :=
          { computed := { run.renderer.computed with ratioPrimary := ratio, ratioFallback := ratio }
            active :=
              { gatePrimary := run.renderer.computed.gatePrimary
                gateOdd := run.renderer.computed.gateOdd
                gateSecondary := run.renderer.computed.gateSecondary
                ratioPrimary := ratio
                ratioFallback := ratio } }
        lastAspect := ratio
        logged := if run.lastAspect ≠ ratio then run.logged ++ [ratio] else run.logged }
    if recompute.aspectRatio.le 0 then
      let w := recompute.rsi.toUInt32
      let h := recompute.rdi.toUInt32
      if w = 0 ∨ h = 0 then run
      else write ((floatOf w).div (floatOf h))
    else write recompute.aspectRatio

def AspectRun.step (run : AspectRun) (recompute : Recompute) : AspectRun :=
  let mirrored := mirrorAspect recompute
    { run with renderer := { run.renderer with computed := recompute.computed } }
  match recompute.span with
  | none => mirrored
  | some block => { mirrored with renderer := { mirrored.renderer with active := block } }

namespace Recompute

/-! What a recompute is to do, from the size in pixels and the field. -/

def width (recompute : Recompute) : Nat := recompute.rsi.toNat % 2 ^ 32

def height (recompute : Recompute) : Nat := recompute.rdi.toNat % 2 ^ 32

structure Applies (recompute : Recompute) (ratio : Binary32) : Prop where
  enabled : recompute.enabled = true
  given : recompute.aspectRatio.le 0 = false → ratio = recompute.aspectRatio
  measured : recompute.aspectRatio.le 0 = true → 0 < recompute.width ∧ 0 < recompute.height ∧
    ratio = .ofRat (Binary32.rounded recompute.width / Binary32.rounded recompute.height)

def Sets (recompute : Recompute) : Prop :=
  recompute.span.isSome ∨ ∃ ratio, recompute.Applies ratio

inductive AppliedIn : List Recompute → List Binary32 → Prop where
  | nil : AppliedIn [] []
  | skip {recompute : Recompute} {rest : List Recompute} {ratios : List Binary32}
      (idle : ∀ ratio, ¬recompute.Applies ratio) (later : AppliedIn rest ratios) :
      AppliedIn (recompute :: rest) ratios
  | cons {recompute : Recompute} {ratio : Binary32} {rest : List Recompute}
      {ratios : List Binary32} (applies : recompute.Applies ratio)
      (later : AppliedIn rest ratios) : AppliedIn (recompute :: rest) (ratio :: ratios)

/-- The block after the latest recompute that set it: a span has the final say, and without one the
gates are the engine's and both ratios the one applied. -/
inductive Shown (start : AspectBlock) : Option Recompute → AspectBlock → Prop where
  | untouched : Shown start none start
  | span {recompute : Recompute} {block : AspectBlock} (taken : recompute.span = some block) :
      Shown start (some recompute) block
  | mirrored {recompute : Recompute} {ratio : Binary32} (single : recompute.span = none)
      (applies : recompute.Applies ratio) :
      Shown start (some recompute)
        { recompute.computed with ratioPrimary := ratio, ratioFallback := ratio }

end Recompute

open Recompute

section recompute

variable {recompute : Recompute} {ratio : Binary32}

theorem toUInt32_eq_zero_iff (value : UInt64) :
    value.toUInt32 = 0 ↔ value.toNat % 2 ^ 32 = 0 := by
  rw [← UInt32.toNat_inj, UInt64.toNat_toUInt32]
  exact Iff.rfl

theorem floatOf_eq (value : UInt64) :
    ∃ bounded, floatOf value.toUInt32 =
      .finite (Binary32.rounded (value.toNat % 2 ^ 32 : Nat)) bounded := by
  have below : value.toNat % 2 ^ 32 < 2 ^ 32 := Nat.mod_lt _ (by decide)
  have bounded : |Binary32.rounded (value.toNat % 2 ^ 32 : Nat)| ≤ Binary32.maxFinite := by
    apply Binary32.abs_rounded_le_of_small
    rw [abs_of_nonneg (Nat.cast_nonneg _)]
    exact lt_trans (by exact_mod_cast below) (by norm_num : (2 : ℚ) ^ 32 < 2 ^ 127)
  refine ⟨bounded, ?_⟩
  rw [floatOf, UInt64.toNat_toUInt32, Binary32.ofRat, dif_pos bounded]

theorem one_le_rounded {size : Nat} (known : 0 < size) : 1 ≤ Binary32.rounded size := by
  have one : Binary32.Representable 1 :=
    zpow_zero (2 : ℚ) ▸ Binary32.representable_zpow (by decide)
  exact Binary32.le_rounded one one_pos (by exact_mod_cast known)

theorem zpow_le_quotient {width height : Nat} (wide : 0 < width) (high : 0 < height)
    (below : height ≤ 2 ^ 32) :
    (2 : ℚ) ^ (-32 : ℤ) ≤ Binary32.rounded width / Binary32.rounded height := by
  have widthLeast := one_le_rounded wide
  have heightLeast := one_le_rounded high
  have heightMost : Binary32.rounded height ≤ 2 ^ (32 : ℤ) :=
    Binary32.rounded_le (Binary32.representable_zpow (by decide)) (by exact_mod_cast high)
      (by exact_mod_cast below)
  rw [le_div_iff₀ (one_pos.trans_le heightLeast)]
  calc (2 : ℚ) ^ (-32 : ℤ) * Binary32.rounded height ≤ 2 ^ (-32 : ℤ) * 2 ^ (32 : ℤ) :=
        mul_le_mul_of_nonneg_left heightMost (by positivity)
    _ = 1 := by norm_num
    _ ≤ Binary32.rounded width := widthLeast

/-- No ratio applied is the one that `last_aspect_bits` starts from. -/
theorem Recompute.Applies.ne_zero (applies : recompute.Applies ratio) : ratio ≠ 0 := by
  rintro rfl
  cases forced : recompute.aspectRatio.le 0 with
  | false =>
      rw [← applies.given forced] at forced
      contradiction
  | true =>
      obtain ⟨wide, high, same⟩ := applies.measured forced
      have quotient := zpow_le_quotient wide high (Nat.mod_lt _ (by decide)).le
      have positive := Binary32.le_rounded (Binary32.representable_zpow (by decide))
        (by positivity) quotient
      rw [Binary32.ofRat] at same
      split at same
      · have zero := (Binary32.finite.inj same).symm
        rw [zero] at positive
        norm_num at positive
      · contradiction

theorem mirrorAspect_of_applies (applies : recompute.Applies ratio) (run : AspectRun) :
    mirrorAspect recompute run =
      let block := { run.renderer.computed with ratioPrimary := ratio, ratioFallback := ratio }
      { renderer := ⟨block, block⟩
        lastAspect := ratio
        logged := if run.lastAspect ≠ ratio then run.logged ++ [ratio] else run.logged } := by
  rw [mirrorAspect, applies.enabled]
  cases forced : recompute.aspectRatio.le 0 with
  | false =>
      rw [applies.given forced]
      rfl
  | true =>
      obtain ⟨wide, high, same⟩ := applies.measured forced
      have known : ¬(recompute.rsi.toUInt32 = 0 ∨ recompute.rdi.toUInt32 = 0) := by
        rw [toUInt32_eq_zero_iff, toUInt32_eq_zero_iff]
        exact not_or.mpr ⟨wide.ne', high.ne'⟩
      obtain ⟨_, floatWidth⟩ := floatOf_eq recompute.rsi
      obtain ⟨_, floatHeight⟩ := floatOf_eq recompute.rdi
      have nonzero : Binary32.rounded (recompute.rdi.toNat % 2 ^ 32 : Nat) ≠ 0 :=
        (one_pos.trans_le (one_le_rounded high)).ne'
      have divided : (floatOf recompute.rsi.toUInt32).div (floatOf recompute.rdi.toUInt32) =
          ratio := by
        rw [floatWidth, floatHeight, Binary32.div, if_pos nonzero, same]
        rfl
      simp only [Bool.not_true, Bool.false_eq_true, if_false, if_true, if_neg known, divided]

theorem mirrorAspect_of_idle (idle : ∀ ratio, ¬recompute.Applies ratio) (run : AspectRun) :
    mirrorAspect recompute run = run := by
  rw [mirrorAspect]
  cases enabled : recompute.enabled with
  | false => rfl
  | true =>
      cases forced : recompute.aspectRatio.le 0 with
      | false =>
          refine absurd ⟨enabled, fun _ => rfl, ?_⟩ (idle recompute.aspectRatio)
          intro other
          exact absurd other (Bool.eq_false_iff.mp forced)
      | true =>
          by_cases unknown : recompute.rsi.toUInt32 = 0 ∨ recompute.rdi.toUInt32 = 0
          · simp [unknown]
          · rw [toUInt32_eq_zero_iff, toUInt32_eq_zero_iff, not_or] at unknown
            refine absurd ⟨enabled, ?_, fun _ => ⟨?_, ?_, rfl⟩⟩ (idle _)
            · intro other
              exact absurd forced (Bool.eq_false_iff.mp other)
            · exact Nat.pos_of_ne_zero unknown.1
            · exact Nat.pos_of_ne_zero unknown.2

theorem step_span {block : AspectBlock} (taken : recompute.span = some block) (run : AspectRun) :
    (run.step recompute).renderer.active = block := by
  rw [AspectRun.step, taken]

theorem step_mirrored (single : recompute.span = none) (applies : recompute.Applies ratio)
    (run : AspectRun) : (run.step recompute).renderer.active =
      { recompute.computed with ratioPrimary := ratio, ratioFallback := ratio } := by
  rw [AspectRun.step, single, mirrorAspect_of_applies applies]

theorem step_unset (unset : ¬recompute.Sets) (run : AspectRun) :
    (run.step recompute).renderer.active = run.renderer.active := by
  obtain ⟨single, idle⟩ := not_or.mp unset
  rw [AspectRun.step, Option.not_isSome_iff_eq_none.mp single,
    mirrorAspect_of_idle (not_exists.mp idle)]

theorem step_log (run : AspectRun) :
    (run.step recompute).lastAspect = (mirrorAspect recompute
        { run with renderer := { run.renderer with computed := recompute.computed } }).lastAspect ∧
      (run.step recompute).logged = (mirrorAspect recompute
        { run with renderer := { run.renderer with computed := recompute.computed } }).logged := by
  rw [AspectRun.step]
  cases recompute.span with
  | none => exact ⟨rfl, rfl⟩
  | some block => exact ⟨rfl, rfl⟩

end recompute

/-- The state is not needed to tell whether a recompute sets the block. -/
theorem foldl_shown (start : AspectRun) (recomputes : List Recompute) :
    ∃ latest, TransitionRun.Latest (fun _ => ()) (fun _ => Sets) recomputes latest ∧
      Shown start.renderer.active latest
        (recomputes.foldl AspectRun.step start).renderer.active := by
  induction recomputes using List.reverseRecOn with
  | nil => exact ⟨none, TransitionRun.latest_nil, .untouched⟩
  | append_singleton before recompute ih =>
      obtain ⟨latest, found, shown⟩ := ih
      rw [List.foldl_concat]
      by_cases sets : recompute.Sets
      · refine ⟨some recompute, TransitionRun.latest_concat_of_pos sets, ?_⟩
        cases taken : recompute.span with
        | some block =>
            rw [step_span taken]
            exact .span taken
        | none =>
            obtain ⟨ratio, applies⟩ := sets.resolve_left (by simp [taken])
            rw [step_mirrored taken applies]
            exact .mirrored taken applies
      · refine ⟨latest, found.concat_of_neg sets, ?_⟩
        rwa [step_unset sets]

theorem destutter'_eq_cons {Item : Type} (changes : Item → Item → Prop) [DecidableRel changes]
    (first : Item) (items : List Item) :
    items.destutter' changes first = first :: (items.destutter' changes first).tail := by
  induction items with
  | nil => rfl
  | cons item rest ih =>
      by_cases changed : changes first item
      · rw [List.destutter'_cons_pos _ changed, List.tail_cons]
      · rwa [List.destutter'_cons_neg _ changed]

theorem exists_appliedIn (recomputes : List Recompute) : ∃ ratios, AppliedIn recomputes ratios := by
  induction recomputes with
  | nil => exact ⟨[], .nil⟩
  | cons recompute rest ih =>
      obtain ⟨ratios, later⟩ := ih
      by_cases applied : ∃ ratio, recompute.Applies ratio
      · obtain ⟨ratio, applies⟩ := applied
        exact ⟨ratio :: ratios, .cons applies later⟩
      · exact ⟨ratios, .skip (not_exists.mp applied) later⟩

theorem foldl_logged {recomputes : List Recompute} {ratios : List Binary32}
    (applied : AppliedIn recomputes ratios) (start : AspectRun) :
    (recomputes.foldl AspectRun.step start).logged =
      start.logged ++ (ratios.destutter' Ne start.lastAspect).tail := by
  induction applied generalizing start with
  | nil => simp
  | skip idle _ ih =>
      obtain ⟨last, logged⟩ := step_log start
      rw [mirrorAspect_of_idle idle] at last logged
      rw [List.foldl_cons, ih, last, logged]
  | @cons recompute ratio rest ratios applies _ ih =>
      obtain ⟨last, logged⟩ := step_log start
      rw [mirrorAspect_of_applies applies] at last logged
      rw [List.foldl_cons, ih, last, logged]
      dsimp only
      by_cases changed : start.lastAspect ≠ ratio
      · rw [List.destutter'_cons_pos _ changed, List.tail_cons, if_pos changed, List.append_assoc,
          List.singleton_append, ← destutter'_eq_cons]
      · rw [List.destutter'_cons_neg _ changed, if_neg changed, not_not.mp changed]

/-- From the start every change of the ratio is logged, the first one included. -/
theorem tail_destutter' {recomputes : List Recompute} {ratios : List Binary32}
    (applied : AppliedIn recomputes ratios) :
    (ratios.destutter' Ne 0).tail = ratios.destutter Ne := by
  induction applied with
  | nil => rfl
  | skip _ _ ih => exact ih
  | cons applies _ _ =>
      rw [List.destutter'_cons_pos _ applies.ne_zero.symm, List.tail_cons, List.destutter_cons']

/-- Whatever the engine computes and the INI comes to say, the viewport reads the block that the
latest recompute to set one left, a span's or one with both ratios as applied, and the log has the
first ratio applied and every one that is not the one before it. -/
theorem run_mirrored (renderer : RendererAspectState) (recomputes : List Recompute) :
    let run := recomputes.foldl AspectRun.step ⟨renderer, 0, []⟩
    (∃ latest, TransitionRun.Latest (fun _ => ()) (fun _ => Sets) recomputes latest ∧
      Shown renderer.active latest run.renderer.active) ∧
    ∃ ratios, AppliedIn recomputes ratios ∧ run.logged = ratios.destutter Ne := by
  refine ⟨foldl_shown ⟨renderer, 0, []⟩ recomputes, ?_⟩
  obtain ⟨ratios, applied⟩ := exists_appliedIn recomputes
  refine ⟨ratios, applied, ?_⟩
  rw [foldl_logged applied, tail_destutter' applied]
  rfl

end PatchFix.Syndicate
