import PatchFix.CrashJournal

/-!
Hook lists as `validate_all` accepts them, the settings they read from an INI file, and the parser
of the `[Hooks]` switches.
-/

namespace PatchFix

def asciiLower (char : Char) : Char :=
  if 'A' ≤ char ∧ char ≤ 'Z' then Char.ofNat (char.toNat + 32) else char

def asciiDigit (char : Char) : Bool := '0' ≤ char ∧ char ≤ '9'

def asciiIequal (first second : Text) : Bool :=
  first.map asciiLower == second.map asciiLower

inductive Errc where
  | ok
  | invalidArgument
  | resultOutOfRange
  deriving DecidableEq, Repr

structure FromCharsResult where
  ptr : Nat
  ec : Errc
  deriving DecidableEq, Repr

def decimalValue (digits : Text) : Nat :=
  digits.foldl (fun value digit => 10 * value + (digit.toNat - '0'.toNat)) 0

def intMin : Int := -2147483648
def intMax : Int := 2147483647

/-- `std::from_chars` into a 32-bit `int` that holds `value` before the call. -/
def svFromChars (sv : Text) (value : Int) : FromCharsResult × Int :=
  let negative := sv.head? == some '-'
  let digits := (if negative then sv.drop 1 else sv).takeWhile asciiDigit
  if digits = [] then (⟨0, .invalidArgument⟩, value)
  else
    let ptr := digits.length + if negative then 1 else 0
    let parsed : Int := if negative then -(decimalValue digits : Int) else decimalValue digits
    if parsed < intMin ∨ intMax < parsed then (⟨ptr, .resultOutOfRange⟩, value)
    else (⟨ptr, .ok⟩, parsed)

def parseBool (s : Text) : Bool :=
  if ["true", "yes", "on"].any fun word => asciiIequal s word.toList then true
  else if ["false", "no", "off"].any fun word => asciiIequal s word.toList then false
  else (svFromChars s 0).2 ≠ 0

/-- `mINI::INIStructure` as its lookups: the entries of a section, when the section exists. -/
structure INIStructure where
  entriesOf : Text → Option (Text → Option Text)

def INIStructure.find (ini : INIStructure) (sec key : Text) : Option Text :=
  (ini.entriesOf sec).bind fun entries => entries key

def INIStructure.empty : INIStructure := ⟨fun _ => none⟩

structure IniField (Value : Type) where
  sec : Text
  key : Text
  defaultValue : Value
  parser : Text → Value

def IniField.loadFrom {Value : Type} (ini : INIStructure) (field : IniField Value) : Value :=
  match ini.find field.sec field.key with
  | some text => field.parser text
  | none => field.defaultValue

/-- `HookTraits` of one hook in a list of `count` hooks. Dependencies are the indices `hook_idx`
assigns; `Pattern` is the type of pattern member pointers. -/
structure HookTraits (count : Nat) (Pattern Value : Type) where
  name : Text
  hardDeps : List (Fin count)
  softDeps : List (Fin count)
  requiredPatterns : List Pattern
  optionalPatterns : List Pattern
  fields : List (IniField Value)
  hasOnReload : Bool

/-- A hook list with the properties `validate_hook_deps` asserts of each member. -/
structure HookList (Pattern Value : Type) where
  count : Nat
  traits : Fin count → HookTraits count Pattern Value
  noSelfHard : ∀ index, index ∉ (traits index).hardDeps
  noSelfSoft : ∀ index, index ∉ (traits index).softDeps
  disjointPatterns : ∀ index, ∀ pattern ∈ (traits index).requiredPatterns,
    pattern ∉ (traits index).optionalPatterns

namespace HookList

variable {Pattern Value : Type} (hooks : HookList Pattern Value)

def hardDeps (index : Fin hooks.count) : List (Fin hooks.count) := (hooks.traits index).hardDeps
def softDeps (index : Fin hooks.count) : List (Fin hooks.count) := (hooks.traits index).softDeps

def HardDep (index dep : Fin hooks.count) : Prop := dep ∈ hooks.hardDeps index

def iniEnabled (ini : INIStructure) (index : Fin hooks.count) : Bool :=
  match ini.find "Hooks".toList (hooks.traits index).name with
  | some text => parseBool text
  | none => true

end HookList

end PatchFix
