import PatchFix.Parsers

/-!
What a field holds after `load_from`, against the value its string denotes and its default, for each
of the parsers that settings use; `PromptType` has one of its own.
-/

namespace PatchFix.Syndicate

/-- `unnamed` is a value of the underlying type that no enumerator has. -/
inductive PromptType where
  | xbox
  | playStation
  | unnamed (value : UInt8)
  deriving DecidableEq, Repr

namespace PromptType

def cast (raw : Int) : PromptType :=
  if raw % 256 = 2 then .xbox
  else if raw % 256 = 5 then .playStation
  else .unnamed (UInt8.ofInt raw)

def names : List (Text × PromptType) :=
  [("Xbox".toList, .xbox), ("PlayStation".toList, .playStation)]

def parser (s : Text) : PromptType :=
  let result := parseEnum none cast names .playStation s
  if result ≠ .xbox ∧ result ≠ .playStation then .playStation else result

def Denotes (text : Text) (value : PromptType) : Prop :=
  IsName names text value ∨ IsName names (trim text) value ∨
    (DenotesInteger text 2 ∧ value = .xbox) ∨ (DenotesInteger text 5 ∧ value = .playStation)

end PromptType

end PatchFix.Syndicate

namespace PatchFix

structure IniCell (Value : Type) extends IniField Value where
  value : Value

def IniCell.loadFrom {Value : Type} (ini : INIStructure) (cell : IniCell Value) : IniCell Value :=
  { cell with value := IniField.loadFrom ini cell.toIniField }

inductive SettingKind : Type → Type 1 where
  | float : SettingKind Binary32
  | unit : SettingKind Binary32
  | ratio : SettingKind Binary32
  | bool : SettingKind Bool
  | enumeration {Enum : Type} (count : Int32) (cast : Int → Enum) (table : List (Text × Enum))
      (fallback : Enum) : SettingKind Enum
  | promptType : SettingKind Syndicate.PromptType

namespace SettingKind

def parser {Value : Type} : SettingKind Value → Text → Value
  | float => parseFloat
  | unit => clampedUnitParser
  | ratio => ratioParser
  | bool => parseBool
  | enumeration count cast table fallback => parseEnum (some count) cast table fallback
  | promptType => Syndicate.PromptType.parser

def Denotes {Value : Type} : SettingKind Value → Text → Value → Prop
  | float => DenotesFloat
  | unit => DenotesUnit
  | ratio => DenotesRatio
  | bool => DenotesBool
  | enumeration count cast table _ => DenotesEnum count cast table
  | promptType => Syndicate.PromptType.Denotes

def cell {Value : Type} (kind : SettingKind Value) (sec key : Text)
    (defaultValue previous : Value) : IniCell Value where
  sec := sec
  key := key
  defaultValue := defaultValue
  parser := kind.parser
  value := previous

/-- The field holds what its string denotes or its default, and nothing else. -/
def FallsBack {Value : Type} (kind : SettingKind Value) (ini : INIStructure)
    (cell : IniCell Value) : Prop :=
  let loaded := (cell.loadFrom ini).value
  loaded = cell.defaultValue ∨
    ∃ text, ini.find cell.sec cell.key = some text ∧ kind.Denotes text loaded

end SettingKind

def LeadingNonzero (text : Text) : Prop :=
  ∃ (literal : IntegerLiteral) (rest : Text), EndsDigits rest ∧ text = literal.text ++ rest ∧
    InIntRange literal.value ∧ literal.value ≠ 0

def WrapsToXbox (text : Text) : Prop :=
  ∃ number, DenotesInteger text number ∧ InIntRange number ∧ number ≠ 2 ∧ number % 256 = 2

/-- When a default survives a string that denotes nothing. -/
def SettingKind.Keeps {Value : Type} : SettingKind Value → Value → Text → Prop
  | float, defaultValue, text => defaultValue = 0 ∨ ∃ value, DenotesFloat text value
  | unit, defaultValue, text => defaultValue = 0 ∨ ∃ value, DenotesUnit text value
  | ratio, defaultValue, text => defaultValue = 0 ∨ ∃ value, DenotesRatio text value
  | bool, defaultValue, text =>
      (LeadingNonzero text → defaultValue = true ∨ DenotesBool text true) ∧
        (¬LeadingNonzero text →
          defaultValue = false ∨ DenotesBool text false ∨ IsBoolWord text true)
  | enumeration count cast table fallback, defaultValue, text =>
      defaultValue = fallback ∨ DenotesEnum count cast table text fallback ∨
        (∃ value, IsName table text value) ∨
        ∃ number, DenotesInteger text number ∧ 0 ≤ number ∧ number < count.toInt
  | promptType, defaultValue, text =>
      (∃ value, IsName Syndicate.PromptType.names text value) ∨ DenotesInteger text 2 ∨
        (WrapsToXbox text → defaultValue = .xbox) ∧
          (¬WrapsToXbox text →
            defaultValue = .playStation ∨ Syndicate.PromptType.Denotes text .playStation)

theorem fallsBack_iff {Value : Type} (kind : SettingKind Value) (ini : INIStructure)
    (sec key : Text) (defaultValue previous : Value) :
    kind.FallsBack ini (kind.cell sec key defaultValue previous) ↔
      ∀ text, ini.find sec key = some text →
        kind.parser text = defaultValue ∨ kind.Denotes text (kind.parser text) := by
  unfold SettingKind.FallsBack IniCell.loadFrom IniField.loadFrom SettingKind.cell
  cases found : ini.find sec key with
  | none => simp
  | some text => simp

theorem ReadsOrFallsBack.keeps_iff {Value : Type} {parser : Text → Value}
    {denotes : Text → Value → Prop} {fallback : Value}
    (reads : ReadsOrFallsBack parser denotes fallback) (defaultValue : Value) (text : Text) :
    (parser text = defaultValue ∨ denotes text (parser text)) ↔
      (defaultValue = fallback ∨ ∃ value, denotes text value) := by
  by_cases wellFormed : ∃ value, denotes text value
  · obtain ⟨value, denoted⟩ := wellFormed
    have same := reads.reads text value denoted
    exact iff_of_true (Or.inr (same ▸ denoted)) (Or.inr ⟨value, denoted⟩)
  · have malformed : ∀ value, ¬denotes text value := fun value denoted =>
      wellFormed ⟨value, denoted⟩
    rw [reads.falls text malformed, or_iff_left (malformed fallback), or_iff_left wellFormed]
    exact eq_comm

theorem IntegerLiteral.startsNumber_or_minus (literal : IntegerLiteral) :
    ∃ first rest, literal.text = first :: rest ∧ (asciiDigit first = true ∨ first = '-') := by
  obtain ⟨negative, digits, nonempty⟩ := literal
  cases negative with
  | true => exact ⟨'-', digits.text, rfl, Or.inr rfl⟩
  | false =>
      obtain ⟨first, rest, split⟩ := List.exists_cons_of_ne_nil nonempty
      exact ⟨first, rest, split, Or.inl (digits.allDigits first (by simp [split]))⟩

def startsWithLetter : Text → Bool
  | [] => false
  | first :: _ => !asciiDigit (asciiLower first) && asciiLower first != '-'

theorem IntegerLiteral.not_word (literal : IntegerLiteral) (rest : Text) {word : Text}
    (letter : startsWithLetter word = true) : asciiIequal (literal.text ++ rest) word ≠ true := by
  obtain ⟨first, others, start, kind⟩ := literal.startsNumber_or_minus
  rw [start]
  intro same
  cases word with
  | nil => contradiction
  | cons head tail =>
      have lowered := asciiIequal_cons same
      simp only [startsWithLetter, Bool.and_eq_true, Bool.not_eq_true', bne_iff_ne] at letter
      rcases kind with digit | rfl
      · rw [asciiLower_digit digit] at lowered
        rw [lowered, letter.1] at digit
        contradiction
      · exact letter.2 lowered.symm

theorem boolWords_letters (value : Bool) :
    ∀ word ∈ boolWords value, startsWithLetter word.toList = true := by
  cases value <;> decide

theorem LeadingNonzero.not_word {text : Text} (leading : LeadingNonzero text) (value : Bool) :
    ¬IsBoolWord text value := by
  obtain ⟨literal, rest, _, rfl, _⟩ := leading
  rintro ⟨word, member, same⟩
  exact literal.not_word rest (boolWords_letters value word member) same

theorem leadingNonzero_iff (text : Text) :
    (svFromChars text 0).2 ≠ 0 ↔ LeadingNonzero text := by
  constructor
  · intro nonzero
    rcases svFromChars_cases text with ⟨literal, rest, ends, rfl⟩ | invalid
    · rw [svFromChars_literal literal ends] at nonzero
      split at nonzero
      · next inRange => exact ⟨literal, rest, ends, rfl, inRange, nonzero⟩
      · exact absurd rfl nonzero
    · rw [invalid] at nonzero
      exact absurd rfl nonzero
  · rintro ⟨literal, rest, ends, rfl, inRange, nonzero⟩
    rw [svFromChars_literal literal ends, if_pos inRange]
    exact nonzero

theorem parseBool_iff (text : Text) :
    parseBool text = true ↔ IsBoolWord text true ∨ LeadingNonzero text := by
  have truthy : (["true", "yes", "on"].any fun word => asciiIequal text word.toList) = true ↔
      IsBoolWord text true := List.any_eq_true
  have falsy : (["false", "no", "off"].any fun word => asciiIequal text word.toList) = true ↔
      IsBoolWord text false := List.any_eq_true
  unfold parseBool
  split
  · next word => exact iff_of_true rfl (Or.inl (truthy.mp word))
  · next noTruth =>
      rw [truthy] at noTruth
      split
      · next word =>
          refine iff_of_false Bool.false_ne_true (not_or.mpr ⟨noTruth, fun leading => ?_⟩)
          exact leading.not_word false (falsy.mp word)
      · rw [decide_eq_true_iff, leadingNonzero_iff]
        exact (or_iff_right noTruth).symm

theorem parseBool_keeps (defaultValue : Bool) (text : Text) :
    (parseBool text = defaultValue ∨ DenotesBool text (parseBool text)) ↔
      SettingKind.bool.Keeps defaultValue text := by
  unfold SettingKind.Keeps
  by_cases leading : LeadingNonzero text
  · have value : parseBool text = true := (parseBool_iff text).mpr (Or.inr leading)
    simp [value, leading, eq_comm]
  · by_cases word : IsBoolWord text true
    · have value : parseBool text = true := (parseBool_iff text).mpr (Or.inl word)
      have denotes : DenotesBool text true := Or.inl word
      simp [value, leading, word, denotes]
    · have value : parseBool text = false := by
        rw [Bool.eq_false_iff, Ne, parseBool_iff]
        exact not_or.mpr ⟨word, leading⟩
      simp [value, leading, word, eq_comm]

theorem denotesInteger_iff (text : Text) (number : Int) :
    (DenotesInteger text number ∧ InIntRange number) ↔
      (svFromChars (trim text) 0).1 = ⟨(trim text).length, .ok⟩ ∧
        (svFromChars (trim text) 0).2 = number := by
  constructor
  · rintro ⟨⟨literal, trimmed, rfl⟩, inRange⟩
    have read := svFromChars_literal literal endsDigits_nil 0
    rw [List.append_nil, if_pos inRange] at read
    rw [trimmed, read]
    exact ⟨rfl, rfl⟩
  · rintro ⟨whole, rfl⟩
    rcases svFromChars_cases (trim text) with ⟨literal, rest, ends, split⟩ | invalid
    · rw [split, svFromChars_literal literal ends] at whole ⊢
      split at whole
      · next inRange =>
          have length := congrArg FromCharsResult.ptr whole
          simp only [List.length_append] at length
          have none : rest = [] := List.length_eq_zero_iff.mp (by omega)
          rw [if_pos inRange]
          exact ⟨⟨literal, by rw [split, none, List.append_nil], rfl⟩, inRange⟩
      · simp at whole
    · simp [invalid] at whole

section Enumeration

variable {Enum : Type} {count : Option Int32} {cast : Int → Enum} {table : List (Text × Enum)}
variable {fallback : Enum} {text : Text}

theorem parseEnum_named (named : ∃ value, IsName table text value) :
    IsName table text (parseEnum count cast table fallback text) := by
  unfold parseEnum
  split
  · next row found =>
      have same := List.find?_some found
      exact ⟨row, List.mem_of_find?_eq_some found, same, rfl⟩
  · next missing =>
      obtain ⟨value, row, member, same, _⟩ := named
      exact absurd same (List.find?_eq_none.mp missing row member)

theorem find?_unnamed (unnamed : ¬∃ value, IsName table text value) :
    (table.find? fun row => asciiIequal text row.1) = none := by
  rw [List.find?_eq_none]
  exact fun row member same => unnamed ⟨row.2, row, member, same, rfl⟩

theorem parseEnum_number {number : Int} (unnamed : ¬∃ value, IsName table text value)
    (denotes : DenotesInteger text number) (inRange : InIntRange number) :
    parseEnum count cast table fallback text = enumeratorAt count cast fallback number := by
  obtain ⟨whole, value⟩ := (denotesInteger_iff text number).mp ⟨denotes, inRange⟩
  simp only [parseEnum, find?_unnamed unnamed, whole, value, and_self, if_true]

theorem parseEnum_malformed (unnamed : ¬∃ value, IsName table text value)
    (notNumber : ∀ number, DenotesInteger text number → ¬InIntRange number) :
    parseEnum count cast table fallback text = fallback := by
  simp only [parseEnum, find?_unnamed unnamed]
  apply if_neg
  rintro ⟨ok, whole⟩
  have number := (denotesInteger_iff text (svFromChars (trim text) 0).2).mpr
    ⟨by rw [← ok, ← whole], rfl⟩
  exact notNumber _ number.1 number.2

theorem inIntRange_of_lt {number : Int} {count : Int32} (nonneg : 0 ≤ number)
    (below : number < count.toInt) : InIntRange number := by
  have small := count.toInt_lt
  unfold InIntRange intMin intMax
  omega

theorem parseEnum_inCount {count : Int32} (unnamed : ¬∃ value, IsName table text value)
    {number : Int} (denotes : DenotesInteger text number) (nonneg : 0 ≤ number)
    (below : number < count.toInt) :
    parseEnum (some count) cast table fallback text = cast number :=
  (parseEnum_number unnamed denotes (inIntRange_of_lt nonneg below)).trans
    (if_neg (by omega))

theorem parseEnum_outOfCount {count : Int32} (unnamed : ¬∃ value, IsName table text value)
    (outside : ∀ number, DenotesInteger text number → ¬(0 ≤ number ∧ number < count.toInt)) :
    parseEnum (some count) cast table fallback text = fallback := by
  by_cases whole : ∃ number, DenotesInteger text number ∧ InIntRange number
  · obtain ⟨number, denotes, inRange⟩ := whole
    refine (parseEnum_number unnamed denotes inRange).trans (if_pos ?_)
    have out := outside number denotes
    omega
  · exact parseEnum_malformed unnamed fun number denotes inRange =>
      whole ⟨number, denotes, inRange⟩

end Enumeration

theorem parseEnum_keeps {Enum : Type} (count : Int32) (cast : Int → Enum)
    (table : List (Text × Enum)) (fallback defaultValue : Enum) (text : Text) :
    (parseEnum (some count) cast table fallback text = defaultValue ∨
        DenotesEnum count cast table text (parseEnum (some count) cast table fallback text)) ↔
      (SettingKind.enumeration count cast table fallback).Keeps defaultValue text := by
  unfold SettingKind.Keeps
  by_cases named : ∃ value, IsName table text value
  · exact iff_of_true (Or.inr (Or.inl (parseEnum_named named)))
      (Or.inr (Or.inr (Or.inl named)))
  · by_cases indexed : ∃ number, DenotesInteger text number ∧ 0 ≤ number ∧ number < count.toInt
    · have ⟨number, denotes, nonneg, below⟩ := indexed
      have value : parseEnum (some count) cast table fallback text = cast number :=
        parseEnum_inCount named denotes nonneg below
      refine iff_of_true (Or.inr (Or.inr (Or.inr ?_))) (Or.inr (Or.inr (Or.inr indexed)))
      exact ⟨number, denotes, nonneg, below, value.symm⟩
    · have value : parseEnum (some count) cast table fallback text = fallback :=
        parseEnum_outOfCount named fun number denotes inside => indexed ⟨number, denotes, inside⟩
      simp [value, named, indexed, eq_comm]

namespace Syndicate.PromptType

variable {text : Text}

theorem parser_named (named : ∃ value, IsName names text value) :
    IsName names text (parser text) := by
  have result : IsName names text (parseEnum none cast names .playStation text) :=
    parseEnum_named named
  unfold parser
  generalize parseEnum none cast names .playStation text = found at result
  obtain ⟨row, member, same, rfl⟩ := result
  have declared : row.2 = .xbox ∨ row.2 = .playStation := by
    rcases List.mem_pair.mp member with rfl | rfl
    · exact Or.inl rfl
    · exact Or.inr rfl
  refine ⟨row, member, same, (if_neg ?_).symm⟩
  rintro ⟨notXbox, notPlayStation⟩
  exact declared.elim notXbox notPlayStation

theorem parser_number {number : Int} (unnamed : ¬∃ value, IsName names text value)
    (denotes : DenotesInteger text number) (inRange : InIntRange number) :
    parser text = if number % 256 = 2 then .xbox else .playStation := by
  simp only [parser, parseEnum_number unnamed denotes inRange, enumeratorAt, cast]
  split
  · simp
  · split
    · simp
    · simp

theorem parser_malformed (unnamed : ¬∃ value, IsName names text value)
    (notNumber : ∀ number, DenotesInteger text number → ¬InIntRange number) :
    parser text = .playStation := by
  simp [parser, parseEnum_malformed unnamed notNumber]

theorem integer_not_name {number : Int} (denotes : DenotesInteger text number)
    (value : PromptType) : ¬IsName names (trim text) value := by
  obtain ⟨literal, trimmed, _⟩ := denotes
  rintro ⟨row, member, same, _⟩
  have letters : ∀ row ∈ names, startsWithLetter row.1 = true := by decide
  rw [trimmed, ← List.append_nil literal.text] at same
  exact literal.not_word [] (letters row member) same

theorem parser_keeps (defaultValue : PromptType) (text : Text) :
    (parser text = defaultValue ∨ Denotes text (parser text)) ↔
      SettingKind.promptType.Keeps defaultValue text := by
  unfold SettingKind.Keeps
  by_cases named : ∃ value, IsName names text value
  · exact iff_of_true (Or.inr (Or.inl (parser_named named))) (Or.inl named)
  · by_cases two : DenotesInteger text 2
    · have value := parser_number named two (by decide)
      refine iff_of_true (Or.inr (Or.inr (Or.inr (Or.inl ⟨two, value⟩)))) (Or.inr (Or.inl two))
    · by_cases wraps : WrapsToXbox text
      · have ⟨number, denotes, inRange, _, lastByte⟩ := wraps
        have value : parser text = .xbox :=
          (parser_number named denotes inRange).trans (if_pos lastByte)
        have undenoted : ¬Denotes text .xbox := by
          rintro (exact | trimmed | ⟨here, _⟩ | ⟨_, other⟩)
          · exact named ⟨_, exact⟩
          · exact integer_not_name denotes _ trimmed
          · exact two here
          · cases other
        simp [value, undenoted, named, two, wraps, eq_comm]
      · have value : parser text = .playStation := by
          by_cases whole : ∃ number, DenotesInteger text number ∧ InIntRange number
          · obtain ⟨number, denotes, inRange⟩ := whole
            refine (parser_number named denotes inRange).trans (if_neg fun lastByte => ?_)
            have other : number ≠ 2 := fun same => two (same ▸ denotes)
            exact wraps ⟨number, denotes, inRange, other, lastByte⟩
          · exact parser_malformed named fun number denotes inRange =>
              whole ⟨number, denotes, inRange⟩
        simp [value, named, two, wraps, eq_comm]

end Syndicate.PromptType

theorem SettingKind.keeps_iff {Value : Type} (kind : SettingKind Value) (defaultValue : Value)
    (text : Text) :
    (kind.parser text = defaultValue ∨ kind.Denotes text (kind.parser text)) ↔
      kind.Keeps defaultValue text := by
  cases kind with
  | float => exact parseFloat_reads.keeps_iff defaultValue text
  | unit => exact clampedUnitParser_reads.keeps_iff defaultValue text
  | ratio => exact ratioParser_reads.keeps_iff defaultValue text
  | bool => exact parseBool_keeps defaultValue text
  | enumeration count cast table fallback =>
      exact parseEnum_keeps count cast table fallback defaultValue text
  | promptType => exact Syndicate.PromptType.parser_keeps defaultValue text

/-- Whatever the file holds, a field falls back to its default exactly when its string is one
that the parser's own fallback does not betray. -/
theorem loadFrom_fallsBack_iff {Value : Type} (kind : SettingKind Value) (ini : INIStructure)
    (sec key : Text) (defaultValue previous : Value) :
    kind.FallsBack ini (kind.cell sec key defaultValue previous) ↔
      ∀ text, ini.find sec key = some text → kind.Keeps defaultValue text := by
  rw [fallsBack_iff]
  exact forall_congr' fun text => imp_congr_right fun _ => kind.keeps_iff defaultValue text

def Rogue.commaMultiplier : INIStructure where
  entriesOf := fun sec =>
    if sec = "FOV".toList then
      some fun key => if key = "Multiplier".toList then some "1,5".toList else none
    else none

theorem multiplier_not_fallsBack :
    ¬ SettingKind.float.FallsBack Rogue.commaMultiplier
        (SettingKind.float.cell "FOV".toList "Multiplier".toList 1 1) := by
  rw [fallsBack_iff]
  intro held
  have keeps := (SettingKind.float.keeps_iff 1 _).mp (held "1,5".toList (by decide))
  rcases keeps with zero | ⟨value, literal, trimmed, _⟩
  · exact absurd zero (by decide)
  · have left : (scanDecimal (trim "1,5".toList)).map Prod.snd = some [',', '5'] := by decide
    rw [trimmed, scanDecimal_literal] at left
    cases left

end PatchFix
