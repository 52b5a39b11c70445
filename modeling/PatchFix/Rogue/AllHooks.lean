import Mathlib.Data.List.FinRange
import PatchFix.HookList

/-!
`games::ac::rogue::AllHooks` with the dependencies and patterns of each `HookTraits`. The
configuration fields are a parameter.
-/

namespace PatchFix.Rogue

inductive Address where
  | viewportRatioLoad
  | viewportRatioMul
  | scalingBranchStart
  | scalingBranchEnd
  | displayFlag
  | fovStore
  | coordTransform
  | scalingOffsets
  | gameUnpause
  | gamePause
  | gamePause2
  | getGameId
  | langBfWrite
  | langSetup
  | getLanguage
  | fpsTimingPtr
  | fpsCapMulss
  | gameStateGlobal
  | locInit
  | modeGetByIndex
  | modeListBuild
  | modeListReserveSite
  | cameraManagerLoad
  | trackWeightSite
  | cameraInterpolate
  | mouseStateUpdate
  deriving DecidableEq, Repr

inductive Hook where
  | gameStateHook
  | displayDetectionHook
  | viewportFittingHook
  | viewportScalingHook
  | fovCorrectionHook
  | fpsUnlockHook
  | languageUnlockHook
  | modeIndexGuardHook
  | fullModeListHook
  | cameraLeanHook
  | mouseSmoothingHook
  deriving DecidableEq, Repr

def Hook.index : Hook → Fin 11
  | .gameStateHook => 0
  | .displayDetectionHook => 1
  | .viewportFittingHook => 2
  | .viewportScalingHook => 3
  | .fovCorrectionHook => 4
  | .fpsUnlockHook => 5
  | .languageUnlockHook => 6
  | .modeIndexGuardHook => 7
  | .fullModeListHook => 8
  | .cameraLeanHook => 9
  | .mouseSmoothingHook => 10

def hookAt (index : Fin 11) : Hook :=
  match index with
  | 0 => .gameStateHook
  | 1 => .displayDetectionHook
  | 2 => .viewportFittingHook
  | 3 => .viewportScalingHook
  | 4 => .fovCorrectionHook
  | 5 => .fpsUnlockHook
  | 6 => .languageUnlockHook
  | 7 => .modeIndexGuardHook
  | 8 => .fullModeListHook
  | 9 => .cameraLeanHook
  | 10 => .mouseSmoothingHook

def Hook.name : Hook → String
  | .gameStateHook => "GameState"
  | .displayDetectionHook => "DisplayDetection"
  | .viewportFittingHook => "ViewportFitting"
  | .viewportScalingHook => "ViewportScaling"
  | .fovCorrectionHook => "FOVCorrection"
  | .fpsUnlockHook => "FPSUnlock"
  | .languageUnlockHook => "LanguageUnlock"
  | .modeIndexGuardHook => "ModeIndexGuard"
  | .fullModeListHook => "FullModeList"
  | .cameraLeanHook => "CameraLean"
  | .mouseSmoothingHook => "MouseSmoothing"

def Hook.hardDeps : Hook → List Hook
  | .fovCorrectionHook => [.viewportFittingHook]
  | .mouseSmoothingHook => [.gameStateHook]
  | _ => []

def Hook.softDeps : Hook → List Hook
  | .viewportFittingHook => [.gameStateHook]
  | _ => []

def Hook.requiredPatterns : Hook → List Address
  | .gameStateHook => [.gameUnpause, .gamePause, .gameStateGlobal]
  | .displayDetectionHook => [.displayFlag]
  | .viewportFittingHook => [.viewportRatioLoad, .viewportRatioMul]
  | .viewportScalingHook => [.scalingBranchStart, .scalingBranchEnd]
  | .fovCorrectionHook => [.fovStore]
  | .fpsUnlockHook => [.fpsTimingPtr, .fpsCapMulss]
  | .languageUnlockHook => [.getGameId, .langBfWrite, .langSetup]
  | .modeIndexGuardHook => [.modeGetByIndex]
  | .fullModeListHook => [.modeListBuild, .modeListReserveSite]
  | .cameraLeanHook => [.cameraManagerLoad, .trackWeightSite, .cameraInterpolate]
  | .mouseSmoothingHook => [.mouseStateUpdate]

def Hook.optionalPatterns : Hook → List Address
  | .gameStateHook => [.gamePause2]
  | .viewportFittingHook => [.coordTransform]
  | .viewportScalingHook => [.scalingOffsets]
  | .languageUnlockHook => [.getLanguage, .locInit]
  | _ => []

def Hook.hasOnReload : Hook → Bool
  | .displayDetectionHook => true
  | .viewportFittingHook => true
  | .fpsUnlockHook => true
  | .languageUnlockHook => true
  | .cameraLeanHook => true
  | .mouseSmoothingHook => true
  | _ => false

def traits {Value : Type} (fields : Hook → List (IniField Value)) (index : Fin 11) :
    HookTraits 11 Address Value where
  name := (hookAt index).name.toList
  hardDeps := (hookAt index).hardDeps.map Hook.index
  softDeps := (hookAt index).softDeps.map Hook.index
  requiredPatterns := (hookAt index).requiredPatterns
  optionalPatterns := (hookAt index).optionalPatterns
  fields := fields (hookAt index)
  hasOnReload := (hookAt index).hasOnReload

def allHooks {Value : Type} (fields : Hook → List (IniField Value)) : HookList Address Value where
  count := 11
  traits := traits fields
  noSelfHard := fun index => (by decide : ∀ index, index ∉ ((hookAt index).hardDeps.map Hook.index))
    index
  noSelfSoft := fun index => (by decide : ∀ index, index ∉ ((hookAt index).softDeps.map Hook.index))
    index
  disjointPatterns := fun index =>
    (by decide : ∀ index, ∀ pattern ∈ (hookAt index).requiredPatterns,
      pattern ∉ (hookAt index).optionalPatterns) index

def bareHooks : HookList Address Unit := allHooks fun _ => []

def installOrder : List (Fin 11) := [0, 1, 3, 5, 6, 7, 8, 9, 2, 10, 4]

end PatchFix.Rogue
