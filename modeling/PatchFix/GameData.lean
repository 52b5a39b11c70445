import PatchFix.PatternScan

/-!
`games::game_data` of the two games: the signatures they scan for.
-/

namespace PatchFix

def scanFor {Field : Type} (name : String) (field : Field) (offset : UInt64) (bytes : String) :
    ScanEntry Field :=
  ⟨name.toList, field, offset, bytes.toList⟩

namespace Rogue

def kModeListBuildSig : String :=
  "48 89 4C 24 08 55 56 57 41 54 48 8D 6C 24 ? 48 81 EC 88 00 00 00 48 8B F1 45 33 E4 4C " ++
    "8D 45 ? 66 44 89 A1 B2 01 00 00"

def scanTable : ScanTable Address where
  entries := [
    scanFor "VIEWPORT_RATIO_LOAD" .viewportRatioLoad 0x05
      "0F 28 E8 EB ? F3 0F 10 05 ? ? ? ? F3 0F 5E C1 F3 0F 59 C4",
    scanFor "VIEWPORT_RATIO_MUL" .viewportRatioMul 0x00 "F3 0F 59 25 ? ? ? ? EB ? 0F 28 E5",
    scanFor "SCALING_BRANCH" .scalingBranchStart 0x00
      "45 0F 2F C1 41 0F 28 F0 41 0F 28 F9 76 ? 41 0F 28 F8 F3 0F 59 3D",
    scanFor "SCALING_BRANCH" .scalingBranchEnd 0x52
      "45 0F 2F C1 41 0F 28 F0 41 0F 28 F9 76 ? 41 0F 28 F8 F3 0F 59 3D",
    scanFor "DISPLAY_FLAG" .displayFlag 0x00 "0F 2F C8 73 ? 8B D6 F3 0F 59 15",
    scanFor "FOV_STORE" .fovStore 0x05 "89 43 40 EB 05 F3 0F 11 73 40 48 8D 54 24 40",
    scanFor "COORD_TRANSFORM" .coordTransform 0x00 "0F 28 D0 F3 0F 59 15 ? ? ? ? 0F 2F CA 77",
    scanFor "SCALING_OFFSETS" .scalingOffsets 0x00
      "F3 0F 11 4C 24 30 F3 0F 59 05 ? ? ? ? F3 0F 11 44 24 34",
    scanFor "GAME_UNPAUSE" .gameUnpause 0x00 "C6 81 C0 02 00 00 00 48 8B 91 90 02 00 00 48 8B D9",
    scanFor "GAME_PAUSE" .gamePause 0x11
      "48 C1 E1 20 48 C1 F9 3F 48 23 08 48 39 4A 18 75 08 41 C6 80 C0 02 00 00 01",
    scanFor "GAME_PAUSE2" .gamePause2 0x06 "48 39 46 18 75 ? C6 87 C0 02 00 00 01 48 8B 74 24",
    scanFor "GET_GAME_ID" .getGameId 0x00
      "48 83 EC 28 B9 ? ? ? ? E8 ? ? ? ? 84 C0 74 ? E8 ? ? ? ? 33 C9 84 C0 0F 95 C1 8D 81 ? ? ? ?",
    scanFor "LANG_BF_WRITE" .langBfWrite 0x05 "0F B6 44 24 ? 89 3D ? ? ? ? 89 1D ? ? ? ? 89 05",
    scanFor "LANG_SETUP" .langSetup 0x00 "8B CB E8 ? ? ? ? E8 ? ? ? ? 8B C8 E8 ? ? ? ?",
    scanFor "GET_LANGUAGE" .getLanguage 0x00 "48 83 EC 28 8B 05 ? ? ? ? 83 F8 17 7C",
    scanFor "FPS_TIMING_PTR" .fpsTimingPtr 0x0C
      "C3 CC CC CC CC CC CC CC CC CC CC CC 48 8B 0D ? ? ? ? E9",
    scanFor "FPS_CAP_MULSS" .fpsCapMulss 0x15
      ("48 8B 05 ? ? ? ? F3 48 0F 2A C0 48 85 C0 79 04 F3 0F 58 C1 F3 0F 59 05 ? ? ? ? 33 D2 " ++
        "0F 2F C7"),
    scanFor "GAME_STATE_GLOBAL" .gameStateGlobal 0x00 "48 8B 05 ? ? ? ? C6 80 C8 02 00 00 00 C3",
    scanFor "LOC_INIT" .locInit 0x00 "40 53 48 83 EC ? 48 8B D9 48 89 0D",
    scanFor "MODE_GET_BY_INDEX" .modeGetByIndex 0x00
      "4C 8B 91 08 0A 00 00 6B D2 1C 66 0F EF C9 66 0F EF C0 49 8B 82 A8 01 00 00",
    scanFor "MODE_LIST_BUILD" .modeListBuild 0x000 kModeListBuildSig,
    scanFor "MODE_LIST_RESERVE" .modeListReserveSite 0x304 kModeListBuildSig,
    scanFor "CAMERA_MANAGER_LOAD" .cameraManagerLoad 0x00
      "48 8B 05 ? ? ? ? 49 8B F9 49 8B F0 48 8B 58 38",
    scanFor "TRACK_WEIGHT_SITE" .trackWeightSite 0x05
      "E8 ? ? ? ? 48 8B 43 08 8B 08 0F 28 D0 83 E1 07",
    scanFor "CAMERA_INTERPOLATE" .cameraInterpolate 0x00 "44 0F 29 84 24 ? ? ? ? 44 0F 28 C0 E8",
    scanFor "MOUSE_STATE_UPDATE" .mouseStateUpdate 0x01E
      ("4C 8D 87 80 21 02 00 48 8D 97 A8 23 02 00 48 8B CF E8 ? ? ? ? 48 8B CF E8 ? ? ? ? 48 " ++
        "8B 5C 24 40 0F 57 F6 48 85 F6")]
  distinct := by decide

end Rogue

namespace Syndicate

def scanTable : ScanTable Address where
  entries := [
    scanFor "LANG_SETUP" .langSetup 0x00
      "40 55 53 48 8B EC 48 83 EC 48 45 33 C9 48 89 74 24 40 48 8D 15",
    scanFor "LANG_BF_WRITE" .langBfWrite 0x00 "89 3D ? ? ? ? 89 1D ? ? ? ? 89 05",
    scanFor "MODE_INSERT" .modeInsert 0x00
      ("4C 8B DC 49 89 5B ? 57 48 83 EC ? 4C 8B 41 ? 48 8B 41 ? 48 8B DA 48 8B F9 4C 3B C0 " ++
        "0F 82 ? ? ? ? 4D 85 C0 0F 84 ? ? ? ? 48 8B 49 ? 48 3B D1 0F 82 ? ? ? ? 48 8D 04 40"),
    scanFor "DS4_TYPE_CLASSIFY" .ds4TypeClassify 0x00
      "B9 C4 05 00 00 66 3B C1 75 ? C7 83 90 07 00 00 0B 00 00 00",
    scanFor "SPECS_ENUM_MODES" .specsEnumerateModes 0x00
      ("48 8B C4 55 48 8D 68 ? 48 81 EC ? ? ? ? 48 89 58 ? 48 89 70 ? 48 89 78 ? 4C 89 60 ? " ++
        "45 33 E4"),
    scanFor "GET_ACTIVE_DEVICE_TYPE" .getActiveDeviceType 0x00
      "48 8B 41 ? 48 8B 50 ? 8B 8A ? ? ? ? 48 8B 82",
    scanFor "CAMERA_SMOOTHING_JNZ" .cameraSmoothingJnz 0x00 "75 ? 80 7D ? ? 75 ? 48 8B D9",
    scanFor "FPS_SLEEP_BRANCH" .fpsSleepBranch 0x0E "48 89 43 78 0F 84 ? ? ? ? 48 3B 43 70 73",
    scanFor "FPS_FRAME_TIME" .fpsFrameTime 0x1C
      "48 03 F8 48 8B 05 ? ? ? ? F3 48 0F 2A C0 48 85 C0 79 08 F3 0F 58 05 ? ? ? ? F3 0F 59 05",
    scanFor "ASPECT_RECOMPUTE" .aspectRecompute 0x00
      "48 8B 0D ? ? ? ? 48 8B 01 80 B8 ? ? ? ? ? 74 ? 44 8B C7 8B D6 48 8B CB E8 ? ? ? ? 48 8B 0D"]
  distinct := by decide

end Syndicate

theorem Rogue.scanTable_covers {Value : Type} (fields : Rogue.Hook → List (IniField Value)) :
    Rogue.scanTable.Covers (Rogue.allHooks fields) := by
  have covered : ∀ index : Fin 11,
      ∀ field ∈ (Rogue.hookAt index).requiredPatterns ++ (Rogue.hookAt index).optionalPatterns,
        field ∈ Rogue.scanTable.entries.map ScanEntry.field := by
    decide
  exact covered

theorem Syndicate.scanTable_covers {Value : Type}
    (fields : Syndicate.Hook → List (IniField Value)) :
    Syndicate.scanTable.Covers (Syndicate.allHooks fields) := by
  have covered : ∀ index : Fin 8,
      ∀ field ∈ (Syndicate.hookAt index).requiredPatterns ++
          (Syndicate.hookAt index).optionalPatterns,
        field ∈ Syndicate.scanTable.entries.map ScanEntry.field := by
    decide
  exact covered

theorem Rogue.scalingBranch_range (search : PatternSearch) :
    (Rogue.scanTable.scan search).addrs .scalingBranchEnd =
      ((Rogue.scanTable.scan search).addrs .scalingBranchStart).map (· + 0x52) := by
  have start : Rogue.scanTable.entries[2] ∈ Rogue.scanTable.entries := List.getElem_mem _
  have finish : Rogue.scanTable.entries[3] ∈ Rogue.scanTable.entries := List.getElem_mem _
  have shared := Rogue.scanTable.scan_shared search start finish rfl
  simpa [Rogue.scanTable, scanFor] using shared

theorem Rogue.scan_installs_once :
    ScannedInstall (fun _ => [0x140001000]) Rogue.scanTable Rogue.viewportFittingFaults
      INIStructure.empty
      ((Registry.initial Rogue.bareHooks).installAll Rogue.installOrder
        (Rogue.scanTable.scan fun _ => [0x140001000]).addrs Rogue.viewportFittingFaults
        INIStructure.empty (Journal.atLoad none)) :=
  ScanTable.scan_installs _ _ _ (Rogue.scanTable_covers _)
    (HookList.sorted_of_count (Rogue.allHooks_sorted _)) _

end PatchFix
