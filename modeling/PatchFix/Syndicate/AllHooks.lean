import Mathlib.Data.List.FinRange
import PatchFix.HookList

/-!
`games::ac::syndicate::AllHooks`: hooks without dependencies, in a game that VMProtect packs. The
configuration fields are a parameter.
-/

namespace PatchFix.Syndicate

inductive Address where
  | langSetup
  | langBfWrite
  | modeInsert
  | ds4TypeClassify
  | specsEnumerateModes
  | getActiveDeviceType
  | cameraSmoothingJnz
  | fpsSleepBranch
  | fpsFrameTime
  | aspectRecompute
  deriving DecidableEq, Repr

inductive Hook where
  | platformSpecsFixHook
  | resolutionFixHook
  | aspectRatioFixHook
  | ds4v2FixHook
  | promptOverrideHook
  | cameraSmoothingHook
  | fpsUnlockHook
  | languageUnlockHook
  deriving DecidableEq, Repr

def hookAt (index : Fin 8) : Hook :=
  match index with
  | 0 => .platformSpecsFixHook
  | 1 => .resolutionFixHook
  | 2 => .aspectRatioFixHook
  | 3 => .ds4v2FixHook
  | 4 => .promptOverrideHook
  | 5 => .cameraSmoothingHook
  | 6 => .fpsUnlockHook
  | 7 => .languageUnlockHook

def Hook.name : Hook → String
  | .platformSpecsFixHook => "PlatformSpecsFix"
  | .resolutionFixHook => "ResolutionFix"
  | .aspectRatioFixHook => "AspectRatioFix"
  | .ds4v2FixHook => "DS4v2Fix"
  | .promptOverrideHook => "PromptOverride"
  | .cameraSmoothingHook => "CameraSmoothing"
  | .fpsUnlockHook => "FPSUnlock"
  | .languageUnlockHook => "LanguageUnlock"

def Hook.requiredPatterns : Hook → List Address
  | .platformSpecsFixHook => [.specsEnumerateModes]
  | .resolutionFixHook => [.modeInsert]
  | .aspectRatioFixHook => [.aspectRecompute]
  | .ds4v2FixHook => [.ds4TypeClassify]
  | .promptOverrideHook => [.getActiveDeviceType]
  | .cameraSmoothingHook => [.cameraSmoothingJnz]
  | .fpsUnlockHook => [.fpsSleepBranch, .fpsFrameTime]
  | .languageUnlockHook => [.langSetup]

def Hook.optionalPatterns : Hook → List Address
  | .languageUnlockHook => [.langBfWrite]
  | _ => []

def Hook.hasOnReload : Hook → Bool
  | .aspectRatioFixHook => true
  | .cameraSmoothingHook => true
  | .fpsUnlockHook => true
  | _ => false

def allHooks {Value : Type} (fields : Hook → List (IniField Value)) : HookList Address Value where
  count := 8
  traits := fun index => {
    name := (hookAt index).name.toList
    hardDeps := []
    softDeps := []
    requiredPatterns := (hookAt index).requiredPatterns
    optionalPatterns := (hookAt index).optionalPatterns
    fields := fields (hookAt index)
    hasOnReload := (hookAt index).hasOnReload
  }
  noSelfHard := fun _ => List.not_mem_nil
  noSelfSoft := fun _ => List.not_mem_nil
  disjointPatterns := fun index =>
    (by decide : ∀ index, ∀ pattern ∈ (hookAt index).requiredPatterns,
      pattern ∉ (hookAt index).optionalPatterns) index

def bareHooks : HookList Address Unit := allHooks fun _ => []

end PatchFix.Syndicate
