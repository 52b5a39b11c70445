import PatchFix.ParserGrammar
import PatchFix.Rogue.AllHooks
import PatchFix.Rogue.Language

/-! The configuration fields of Rogue's hooks, with the enumerations that some of them hold. -/

namespace PatchFix.Rogue

/-- A value of an `enum class` over `std::uint8_t`, which need not be one of its enumerators;
`_count` is unnamed. -/
inductive EnumValue (Enum : Type) where
  | named (value : Enum)
  | unnamed (raw : UInt8)
  deriving DecidableEq

structure CountedEnum (Enum : Type) where
  all : List Enum
  names : List (String × Enum)
  fallback : Enum
  complete : ∀ value, value ∈ all
  fits : all.length < 256

namespace CountedEnum

variable {Enum : Type} (enumeration : CountedEnum Enum)

def count : Int32 := Int32.ofNat enumeration.all.length

def cast (raw : Int) : EnumValue Enum :=
  match enumeration.all[(raw % 256).toNat]? with
  | some value => .named value
  | none => .unnamed (UInt8.ofInt raw)

def table : List (Text × EnumValue Enum) :=
  enumeration.names.map fun row => (row.1.toList, .named row.2)

def parser (s : Text) : EnumValue Enum :=
  parseEnum (some enumeration.count) enumeration.cast enumeration.table
    (.named enumeration.fallback) s

theorem count_toInt : enumeration.count.toInt = enumeration.all.length :=
  Int32.toInt_ofNat_of_lt (enumeration.fits.trans (by decide))

theorem isEnumerator_iff (value : EnumValue Enum) :
    IsEnumerator enumeration.count enumeration.cast value ↔
      ∃ declared, value = .named declared := by
  have fits := enumeration.fits
  unfold IsEnumerator
  rw [count_toInt]
  constructor
  · rintro ⟨number, nonneg, below, rfl⟩
    have index : (number % 256).toNat < enumeration.all.length := by omega
    exact ⟨enumeration.all[(number % 256).toNat], by
      rw [cast, List.getElem?_eq_getElem index]⟩
  · rintro ⟨declared, rfl⟩
    obtain ⟨index, bound, rfl⟩ := List.mem_iff_getElem.mp (enumeration.complete declared)
    have whole : ((index : Int) % 256).toNat = index := by omega
    refine ⟨index, by omega, by omega, ?_⟩
    rw [cast, whole, List.getElem?_eq_getElem bound]

theorem parser_named (s : Text) : ∃ declared, enumeration.parser s = .named declared := by
  rw [← isEnumerator_iff]
  apply countedGrammar.inRange
  · intro row member
    obtain ⟨named, _, rfl⟩ := List.mem_map.mp member
    exact (enumeration.isEnumerator_iff _).mpr ⟨named.2, rfl⟩
  · exact (enumeration.isEnumerator_iff _).mpr ⟨enumeration.fallback, rfl⟩

end CountedEnum

inductive FovMode where
  | auto | vertPlus | horPlus
  deriving DecidableEq, Repr

def FovMode.enumeration : CountedEnum FovMode where
  all := [.auto, .vertPlus, .horPlus]
  names := [("Auto", .auto), ("VertPlus", .vertPlus), ("HorPlus", .horPlus)]
  fallback := .auto
  complete := fun value => by cases value <;> decide
  fits := by decide

inductive MultiMonitor where
  | auto | forceSingle | forceMulti
  deriving DecidableEq, Repr

def MultiMonitor.enumeration : CountedEnum MultiMonitor where
  all := [.auto, .forceSingle, .forceMulti]
  names := [("Auto", .auto), ("Single", .forceSingle), ("Multi", .forceMulti),
    ("Triple", .forceMulti)]
  fallback := .auto
  complete := fun value => by cases value <;> decide
  fits := by decide

def kLanguageNames : List (String × Language) :=
  [("None", .none), ("English", .english), ("French", .french), ("Spanish", .spanish),
    ("Polish", .polish), ("German", .german), ("ChineseTrad", .chineseTrad),
    ("Hungarian", .hungarian), ("Italian", .italian), ("Japanese", .japanese),
    ("Czech", .czech), ("Korean", .korean), ("Russian", .russian), ("Dutch", .dutch),
    ("Danish", .danish), ("Norwegian", .norwegian), ("Swedish", .swedish),
    ("Portuguese", .portuguese), ("Brazil", .brazil), ("Finnish", .finnish),
    ("Arabic", .arabic), ("Mexican", .mexican), ("LocTest", .locTest)]

def Language.enumeration : CountedEnum Language where
  all := Language.all
  names := kLanguageNames
  fallback := .none
  complete := fun value => List.mem_of_getElem? (Language.all_at value)
  fits := by decide

inductive Setting where
  | fovMode (value : EnumValue FovMode)
  | multiMonitor (value : EnumValue MultiMonitor)
  | language (value : EnumValue Language)
  | number (value : Binary32)
  | switch (value : Bool)
  deriving DecidableEq

def iniField {Value : Type} (setting : Value → Setting) (sec key : String) (defaultValue : Value)
    (parser : Text → Value) : IniField Setting where
  sec := sec.toList
  key := key.toList
  defaultValue := setting defaultValue
  parser := fun text => setting (parser text)

def configFields : Hook → List (IniField Setting)
  | .displayDetectionHook =>
      [iniField .multiMonitor "Display" "MultiMonitor" (.named .auto)
        MultiMonitor.enumeration.parser]
  | .viewportFittingHook => [iniField .number "Display" "AspectRatio" 0 ratioParser]
  | .viewportScalingHook =>
      [iniField .number "UI" "StretchHorizontal" 0 clampedUnitParser,
        iniField .number "UI" "StretchVertical" 0 clampedUnitParser]
  | .fovCorrectionHook =>
      [iniField .fovMode "FOV" "Mode" (.named .auto) FovMode.enumeration.parser,
        iniField .number "FOV" "Multiplier" 1 parseFloat]
  | .fpsUnlockHook => [iniField .number "FPS" "Target" 0 parseFloat]
  | .languageUnlockHook =>
      [iniField .switch "Language" "UnlockAll" false parseBool,
        iniField .language "Language" "UILanguage" (.named .none) Language.enumeration.parser]
  | .cameraLeanHook =>
      [iniField .number "CameraLean" "ReferenceFPS" (Binary32.ofRat 30) parseFloat]
  | .mouseSmoothingHook =>
      [iniField .number "Input" "SmoothingFactor" (Binary32.ofRat (1 / 10)) clampedUnitParser]
  | _ => []

def configuredHooks : HookList Address Setting := allHooks configFields

end PatchFix.Rogue
