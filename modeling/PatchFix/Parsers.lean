import PatchFix.NumberText

/-!
The parsers of INI values, and what a value string denotes for each of them: a whole finite
number, a ratio of two, a word, an enumerator or a whole integer, all after trimming.
-/

namespace PatchFix

def parseFinite (sv : Text) : Option Binary32 :=
  let sv := trim sv
  if sv = [] then none
  else
    let parsed := svFromCharsFloat sv 0
    if parsed.1.ec ≠ .ok ∨ parsed.1.ptr ≠ sv.length ∨ parsed.2.isFinite = false then none
    else some parsed.2

def parseFloat (s : Text) : Binary32 := (parseFinite s).getD 0

def clampedUnitParser (s : Text) : Binary32 := (parseFloat s).clamp 0 1

def ratioParser (s : Text) : Binary32 :=
  if s = [] ∨ s = ['0'] then 0
  else if ':' ∈ s then
    match parseFinite (s.takeWhile (· ≠ ':')), parseFinite ((s.dropWhile (· ≠ ':')).drop 1) with
    | some w, some h => if Binary32.lt 0 h then w.div h else 0
    | _, _ => 0
  else parseFloat s

/-- `ratio_parser` with a division of its own. -/
def ratioParserBy (divide : Binary32 → Binary32 → Binary32) (s : Text) : Binary32 :=
  if s = [] ∨ s = ['0'] then 0
  else if ':' ∈ s then
    match parseFinite (s.takeWhile (· ≠ ':')), parseFinite ((s.dropWhile (· ≠ ':')).drop 1) with
    | some w, some h => if Binary32.lt 0 h then divide w h else 0
    | _, _ => 0
  else parseFloat s

theorem ratioParserBy_div : ratioParserBy Binary32.div = ratioParser := rfl

def enumeratorAt {Enum : Type} (count : Option Int32) (cast : Int → Enum) (fallback : Enum)
    (raw : Int) : Enum :=
  match count with
  | some count => if raw < 0 ∨ raw ≥ count.toInt then fallback else cast raw
  | none => cast raw

/-- `parse_enum`; `count` is `E::_count` as an `int` for an enumeration that has one. -/
def parseEnum {Enum : Type} (count : Option Int32) (cast : Int → Enum)
    (table : List (Text × Enum)) (fallback : Enum) (s : Text) : Enum :=
  match table.find? fun row => asciiIequal s row.1 with
  | some row => row.2
  | none =>
      let num := trim s
      let parsed := svFromChars num 0
      if parsed.1.ec = .ok ∧ parsed.1.ptr = num.length then
        enumeratorAt count cast fallback parsed.2
      else fallback

def DenotesFloat (text : Text) (value : Binary32) : Prop :=
  ∃ literal : DecimalLiteral, trim text = literal.text ∧ Binary32.ofRat literal.value = value ∧
    value.isFinite = true

def DenotesUnit (text : Text) (value : Binary32) : Prop :=
  ∃ number, DenotesFloat text number ∧ number.clamp 0 1 = value

def DenotesRatioBy (divide : Binary32 → Binary32 → Binary32) (text : Text) (value : Binary32) :
    Prop :=
  DenotesFloat text value ∨ ∃ width height w h, text = width ++ ':' :: height ∧
    DenotesFloat width w ∧ DenotesFloat height h ∧ Binary32.lt 0 h = true ∧ divide w h = value

def DenotesRatio (text : Text) (value : Binary32) : Prop :=
  DenotesFloat text value ∨ ∃ width height w h, text = width ++ ':' :: height ∧
    DenotesFloat width w ∧ DenotesFloat height h ∧ Binary32.lt 0 h = true ∧ w.div h = value

def DenotesInteger (text : Text) (value : Int) : Prop :=
  ∃ literal : IntegerLiteral, trim text = literal.text ∧ literal.value = value

def boolWords : Bool → List String
  | true => ["true", "yes", "on"]
  | false => ["false", "no", "off"]

def IsBoolWord (text : Text) (value : Bool) : Prop :=
  ∃ word ∈ boolWords value, asciiIequal text word.toList = true

def DenotesBool (text : Text) (value : Bool) : Prop :=
  IsBoolWord text value ∨ IsBoolWord (trim text) value ∨
    ∃ number, DenotesInteger text number ∧ decide (number ≠ 0) = value

def IsName {Enum : Type} (table : List (Text × Enum)) (text : Text) (value : Enum) : Prop :=
  ∃ row ∈ table, asciiIequal text row.1 = true ∧ row.2 = value

def DenotesEnum {Enum : Type} (count : Int32) (cast : Int → Enum) (table : List (Text × Enum))
    (text : Text) (value : Enum) : Prop :=
  IsName table text value ∨ IsName table (trim text) value ∨
    ∃ number, DenotesInteger text number ∧ 0 ≤ number ∧ number < count.toInt ∧ cast number = value

theorem svFromCharsFloat_literal (literal : DecimalLiteral) (value : Binary32) :
    svFromCharsFloat literal.text value =
      let parsed := Binary32.ofRat literal.value
      if parsed.isFinite = false ∨ literal.value ≠ 0 ∧ parsed = 0 then
        (⟨literal.text.length, .resultOutOfRange⟩, value)
      else (⟨literal.text.length, .ok⟩, parsed) := by
  simp only [svFromCharsFloat, scanSpecial_literal, scanDecimal_literal, List.length_nil,
    Nat.sub_zero, Bool.or_eq_true, Bool.not_eq_true', Bool.and_eq_true, decide_eq_true_eq]

theorem DecimalLiteral.text_ne_nil (literal : DecimalLiteral) : literal.text ≠ [] := by
  obtain ⟨first, rest, start, _⟩ := literal.body_startsNumber
  simp [DecimalLiteral.text, start]

theorem scanSpecial_not_finite {sv : Text} {special : Binary32} {ptr : Nat}
    (scanned : scanSpecial sv = some (special, ptr)) : special.isFinite = false := by
  simp only [scanSpecial] at scanned
  split at scanned
  · obtain ⟨rfl, _⟩ := Prod.mk.inj (Option.some.inj scanned)
    rfl
  · split at scanned
    · obtain ⟨rfl, _⟩ := Prod.mk.inj (Option.some.inj scanned)
      rfl
    · split at scanned
      · obtain ⟨rfl, _⟩ := Prod.mk.inj (Option.some.inj scanned)
        rfl
      · contradiction

theorem DenotesFloat.parseFinite {text : Text} {value : Binary32}
    (denotes : DenotesFloat text value) : (parseFinite text).getD 0 = value := by
  obtain ⟨literal, trimmed, rfl, finite⟩ := denotes
  simp only [PatchFix.parseFinite, trimmed, literal.text_ne_nil, if_false,
    svFromCharsFloat_literal]
  by_cases vanishes : literal.value ≠ 0 ∧ Binary32.ofRat literal.value = 0
  · simp [vanishes]
  · simp [vanishes, finite]

theorem svFromCharsFloat_whole {sv : Text} {value : Binary32}
    (ok : (svFromCharsFloat sv value).1.ec = .ok)
    (whole : (svFromCharsFloat sv value).1.ptr = sv.length)
    (finite : (svFromCharsFloat sv value).2.isFinite = true) :
    ∃ literal : DecimalLiteral, sv = literal.text ∧
      Binary32.ofRat literal.value = (svFromCharsFloat sv value).2 := by
  unfold svFromCharsFloat at ok whole finite ⊢
  rcases special : scanSpecial sv with _ | ⟨notFinite, ptr⟩
  · rcases scanned : scanDecimal sv with _ | ⟨literal, rest⟩
    · simp [special, scanned] at ok
    · simp only [special, scanned] at ok whole finite ⊢
      split at ok
      · contradiction
      · next inRange =>
          rw [if_neg inRange] at whole ⊢
          refine ⟨literal, ?_, rfl⟩
          have split := scanDecimal_text scanned
          have nonempty := List.length_pos_iff.mpr literal.text_ne_nil
          have lengths := congrArg List.length split
          rw [List.length_append] at lengths
          have none : rest = [] := by
            apply List.length_eq_zero_iff.mp
            dsimp only at whole
            omega
          rw [← split, none, List.append_nil]
  · simp only [special, scanSpecial_not_finite special] at finite
    contradiction

theorem parseFinite_denotes {sv : Text} {value : Binary32}
    (parsed : parseFinite sv = some value) : DenotesFloat sv value := by
  simp only [parseFinite] at parsed
  split at parsed
  · contradiction
  · split at parsed
    · contradiction
    · next accepted =>
        simp only [not_or, not_not, Bool.not_eq_false, Option.some.injEq] at accepted parsed
        obtain ⟨ok, whole, finite⟩ := accepted
        obtain ⟨literal, text, same⟩ := svFromCharsFloat_whole ok whole finite
        exact ⟨literal, text, same.trans parsed, parsed ▸ finite⟩

structure ReadsOrFallsBack {Value : Type} (parser : Text → Value) (denotes : Text → Value → Prop)
    (fallback : Value) : Prop where
  reads : ∀ text value, denotes text value → parser text = value
  falls : ∀ text, (∀ value, ¬denotes text value) → parser text = fallback

theorem parseFloat_reads : ReadsOrFallsBack parseFloat DenotesFloat 0 where
  reads := fun _ _ denotes => denotes.parseFinite
  falls := by
    intro text malformed
    unfold parseFloat
    cases parsed : parseFinite text with
    | none => rfl
    | some value => exact absurd (parseFinite_denotes parsed) (malformed value)

theorem clampedUnitParser_reads : ReadsOrFallsBack clampedUnitParser DenotesUnit 0 where
  reads := by
    rintro text value ⟨number, denotes, rfl⟩
    rw [clampedUnitParser, parseFloat_reads.reads text number denotes]
  falls := by
    intro text malformed
    have fallback := parseFloat_reads.falls text fun number denotes =>
      malformed _ ⟨number, denotes, rfl⟩
    rw [clampedUnitParser, fallback]
    decide

theorem zero_denotes : DenotesFloat ['0'] 0 := by
  have digits : ∀ char ∈ ['0'], asciiDigit char = true := List.forall_mem_singleton.mpr (by decide)
  have trimmed : trim ['0'] = ['0'] := by decide
  refine ⟨⟨false, ⟨['0'], digits⟩, none, none, Or.inl (List.cons_ne_nil _ _)⟩, trimmed, ?_, rfl⟩
  have zero : decimalValue ['0'] = 0 := by decide
  simp [DecimalLiteral.value, DecimalLiteral.fractionDigits, zero]

theorem mem_trim_or_space {sv : Text} {char : Char} (member : char ∈ sv) :
    isSpace char = true ∨ char ∈ trim sv := by
  rw [← List.takeWhile_append_dropWhile (p := isSpace) (l := sv), List.mem_append] at member
  rcases member with leading | rest
  · exact Or.inl (List.mem_takeWhile_imp leading)
  · rw [← List.rdropWhile_append_rtakeWhile (p := isSpace) (l := sv.dropWhile isSpace),
      List.mem_append] at rest
    exact rest.symm.imp_left List.mem_rtakeWhile_imp

theorem colon_not_mem_digits (digits : Digits) : ':' ∉ digits.text :=
  fun member => absurd (digits.allDigits ':' member) (by decide)

theorem DecimalLiteral.colon_not_mem (literal : DecimalLiteral) : ':' ∉ literal.text := by
  have fraction : ':' ∉ fractionText literal.fraction := by
    cases literal.fraction with
    | none => exact List.not_mem_nil
    | some digits => simp [fractionText, colon_not_mem_digits]
  have exponent : ':' ∉ exponentText literal.exponent := by
    cases literal.exponent with
    | none => exact List.not_mem_nil
    | some exponent =>
        have marker : exponent.marker ≠ ':' := by
          rcases exponent.isMarker with lower | upper
          · rw [lower]; decide
          · rw [upper]; decide
        have sign : ':' ∉ Exponent.signOf exponent.sign := by
          rcases exponent.sign with _ | _ | _ <;> decide
        simp [exponentText, Exponent.text, Ne.symm marker, sign, colon_not_mem_digits]
  have sign : ':' ∉ signText literal.negative := by
    cases literal.negative <;> decide
  simp [DecimalLiteral.text, sign, fraction, exponent, colon_not_mem_digits]

theorem DenotesFloat.colon_not_mem {text : Text} {value : Binary32}
    (denotes : DenotesFloat text value) : ':' ∉ text := by
  obtain ⟨literal, trimmed, _⟩ := denotes
  intro member
  rcases mem_trim_or_space member with space | inside
  · exact absurd space (by decide)
  · exact literal.colon_not_mem (trimmed ▸ inside)

theorem DenotesFloat.isFinite {text : Text} {value : Binary32}
    (denotes : DenotesFloat text value) : value.isFinite = true := by
  obtain ⟨_, _, _, finite⟩ := denotes
  exact finite

theorem split_colon {width : Text} (noColon : ':' ∉ width) (height : Text) :
    (width ++ ':' :: height).takeWhile (· ≠ ':') = width ∧
      ((width ++ ':' :: height).dropWhile (· ≠ ':')).drop 1 = height := by
  have other : ∀ char ∈ width, decide (char ≠ ':') = true := by
    intro char member
    exact decide_eq_true fun same => noColon (same ▸ member)
  constructor
  · rw [List.takeWhile_append_of_pos other]
    simp
  · rw [List.dropWhile_append_of_pos other]
    simp

theorem colon_split {s : Text} (colon : ':' ∈ s) :
    s = s.takeWhile (· ≠ ':') ++ ':' :: (s.dropWhile (· ≠ ':')).drop 1 := by
  obtain ⟨width, height, split, noColon⟩ := List.eq_append_cons_of_mem colon
  obtain ⟨left, right⟩ := split_colon noColon height
  rw [← split] at left right
  rw [left, right]
  exact split

theorem ratioParserBy_quotient {divide : Binary32 → Binary32 → Binary32}
    (zeroOver : ∀ {h : Binary32}, Binary32.lt 0 h = true → h.isFinite = true → divide 0 h = 0)
    {width height : Text} {w h : Binary32} (wide : DenotesFloat width w)
    (high : DenotesFloat height h) (positive : Binary32.lt 0 h = true) :
    ratioParserBy divide (width ++ ':' :: height) = divide w h := by
  obtain ⟨left, right⟩ := split_colon wide.colon_not_mem height
  have colon : ':' ∈ width ++ ':' :: height := by simp
  have ordinary : ¬ (width ++ ':' :: height = [] ∨ width ++ ':' :: height = ['0']) := by
    rintro (empty | zero)
    · simp at empty
    · rw [zero] at colon
      exact absurd colon (by decide)
  unfold ratioParserBy
  rw [if_neg ordinary, if_pos colon, left, right]
  have wideValue := wide.parseFinite
  have highValue := high.parseFinite
  cases parsedHigh : parseFinite height with
  | none =>
      rw [parsedHigh, Option.getD_none] at highValue
      rw [← highValue] at positive
      exact absurd positive (by decide)
  | some h' =>
      rw [parsedHigh, Option.getD_some] at highValue
      subst highValue
      cases parsedWide : parseFinite width with
      | none =>
          -- A numerator too small for a float is rejected, and its ratio is 0 all the same.
          rw [parsedWide, Option.getD_none] at wideValue
          rw [← wideValue, zeroOver positive high.isFinite]
      | some w' =>
          rw [parsedWide, Option.getD_some] at wideValue
          subst wideValue
          exact if_pos positive

theorem ratioParserBy_reads {divide : Binary32 → Binary32 → Binary32}
    (zeroOver : ∀ {h : Binary32}, Binary32.lt 0 h = true → h.isFinite = true → divide 0 h = 0) :
    ReadsOrFallsBack (ratioParserBy divide) (DenotesRatioBy divide) 0 where
  reads := by
    rintro text value (number | ⟨width, height, w, h, rfl, wide, high, positive, rfl⟩)
    · unfold ratioParserBy
      split
      · next special =>
          rcases special with rfl | rfl
          · obtain ⟨literal, trimmed, _⟩ := number
            exact absurd trimmed.symm literal.text_ne_nil
          · rw [← parseFloat_reads.reads _ _ number, parseFloat_reads.reads _ _ zero_denotes]
      · rw [if_neg number.colon_not_mem]
        exact parseFloat_reads.reads text value number
    · exact ratioParserBy_quotient zeroOver wide high positive
  falls := by
    intro text malformed
    unfold ratioParserBy
    split
    · rfl
    · split
      · next colon =>
          split
          · next w h wide high =>
              split
              · next positive =>
                  exact absurd (Or.inr ⟨_, _, w, h, colon_split colon, parseFinite_denotes wide,
                    parseFinite_denotes high, positive, rfl⟩) (malformed (divide w h))
              · rfl
          · rfl
      · exact parseFloat_reads.falls text fun value number => malformed value (Or.inl number)

theorem ratioParser_reads : ReadsOrFallsBack ratioParser DenotesRatio 0 :=
  ratioParserBy_reads Binary32.zero_div

end PatchFix
