import Mathlib.Data.List.DropRight
import PatchFix.HookList
import PatchFix.Library.Binary32

/-!
Numbers in text: integer and decimal literals with their values, and what `std::from_chars` reads
from a text that need not be one.
-/

namespace PatchFix

def isSpace (char : Char) : Bool :=
  char ∈ [' ', '\t', '\n', '\x0b', '\x0c', '\r']

def trim (sv : Text) : Text := (sv.dropWhile isSpace).rdropWhile isSpace

def signText (negative : Bool) : Text := if negative then ['-'] else []

structure Digits where
  text : Text
  allDigits : ∀ char ∈ text, asciiDigit char = true

@[ext] theorem Digits.ext {first second : Digits} (same : first.text = second.text) :
    first = second := by
  cases first
  cases second
  cases same
  rfl

def Digits.leading (sv : Text) : Digits :=
  ⟨sv.takeWhile asciiDigit, fun _ member => List.mem_takeWhile_imp member⟩

structure IntegerLiteral where
  negative : Bool
  digits : Digits
  nonempty : digits.text ≠ []

namespace IntegerLiteral

def text (literal : IntegerLiteral) : Text := signText literal.negative ++ literal.digits.text

def value (literal : IntegerLiteral) : Int :=
  if literal.negative then -(decimalValue literal.digits.text : Int)
  else decimalValue literal.digits.text

end IntegerLiteral

structure Exponent where
  marker : Char
  sign : Option Bool
  digits : Digits
  isMarker : marker = 'e' ∨ marker = 'E'
  nonempty : digits.text ≠ []

namespace Exponent

def signOf : Option Bool → Text
  | none => []
  | some true => ['-']
  | some false => ['+']

def text (exponent : Exponent) : Text :=
  exponent.marker :: (signOf exponent.sign ++ exponent.digits.text)

def value (exponent : Exponent) : Int :=
  if exponent.sign = some true then -(decimalValue exponent.digits.text : Int)
  else decimalValue exponent.digits.text

end Exponent

structure DecimalLiteral where
  negative : Bool
  whole : Digits
  fraction : Option Digits
  exponent : Option Exponent
  nonempty : whole.text ≠ [] ∨ ∃ digits, fraction = some digits ∧ digits.text ≠ []

namespace DecimalLiteral

def fractionText : Option Digits → Text
  | none => []
  | some digits => '.' :: digits.text

def exponentText : Option Exponent → Text
  | none => []
  | some exponent => exponent.text

def text (literal : DecimalLiteral) : Text :=
  signText literal.negative ++ (literal.whole.text ++
    (fractionText literal.fraction ++ exponentText literal.exponent))

def fractionDigits (literal : DecimalLiteral) : Text :=
  (literal.fraction.map Digits.text).getD []

def value (literal : DecimalLiteral) : ℚ :=
  let magnitude : ℚ := decimalValue (literal.whole.text ++ literal.fractionDigits) *
    10 ^ ((literal.exponent.map Exponent.value).getD 0 - literal.fractionDigits.length : ℤ)
  if literal.negative then -magnitude else magnitude

end DecimalLiteral

/-! The longest decimal literal at the start of a text, with what follows it. -/

def takeSign : Text → Bool × Text
  | '-' :: rest => (true, rest)
  | sv => (false, sv)

def scanFraction : Text → Option Digits × Text
  | '.' :: rest => (some (Digits.leading rest), rest.dropWhile asciiDigit)
  | sv => (none, sv)

def takeExponentSign : Text → Option Bool × Text
  | '-' :: rest => (some true, rest)
  | '+' :: rest => (some false, rest)
  | sv => (none, sv)

def scanExponent : Text → Option Exponent × Text
  | [] => (none, [])
  | marker :: rest =>
      if isMarker : marker = 'e' ∨ marker = 'E' then
        let signed := takeExponentSign rest
        let digits := Digits.leading signed.2
        if nonempty : digits.text ≠ [] then
          (some { marker, sign := signed.1, digits, isMarker, nonempty },
            signed.2.dropWhile asciiDigit)
        else (none, marker :: rest)
      else (none, marker :: rest)

def scanDecimal (sv : Text) : Option (DecimalLiteral × Text) :=
  let signed := takeSign sv
  let whole := Digits.leading signed.2
  let fraction := scanFraction (signed.2.dropWhile asciiDigit)
  if nonempty : whole.text ≠ [] ∨ ∃ digits, fraction.1 = some digits ∧ digits.text ≠ [] then
    let exponent := scanExponent fraction.2
    some ({ negative := signed.1, whole, fraction := fraction.1, exponent := exponent.1, nonempty },
      exponent.2)
  else none

def nanPayload : Text → Nat
  | '(' :: rest =>
      let name := rest.takeWhile fun char => char.isAlphanum || char == '_'
      if (rest.drop name.length).head? = some ')' then name.length + 2 else 0
  | _ => 0

def scanSpecial (sv : Text) : Option (Binary32 × Nat) :=
  let signed := takeSign sv
  let start := sv.length - signed.2.length
  if asciiIequal (signed.2.take 8) "infinity".toList then
    some (.infinite signed.1, start + 8)
  else if asciiIequal (signed.2.take 3) "inf".toList then some (.infinite signed.1, start + 3)
  else if asciiIequal (signed.2.take 3) "nan".toList then
    some (.nan, start + 3 + nanPayload (signed.2.drop 3))
  else none

def svFromCharsFloat (sv : Text) (value : Binary32) : FromCharsResult × Binary32 :=
  match scanSpecial sv with
  | some (special, ptr) => (⟨ptr, .ok⟩, special)
  | none =>
      match scanDecimal sv with
      | none => (⟨0, .invalidArgument⟩, value)
      | some (literal, rest) =>
          let parsed := Binary32.ofRat literal.value
          let ptr := sv.length - rest.length
          if !parsed.isFinite || (literal.value ≠ 0 && parsed = 0) then
            (⟨ptr, .resultOutOfRange⟩, value)
          else (⟨ptr, .ok⟩, parsed)

theorem asciiDigit_ne {char other : Char} (digit : asciiDigit char = true)
    (notDigit : asciiDigit other = false) : char ≠ other := by
  rintro rfl
  rw [digit] at notDigit
  contradiction

def StartsNumber (sv : Text) : Prop :=
  ∃ first rest, sv = first :: rest ∧ (asciiDigit first = true ∨ first = '.')

def EndsDigits (sv : Text) : Prop := ∀ first rest, sv = first :: rest → asciiDigit first = false

theorem endsDigits_nil : EndsDigits [] := by
  intro first rest split
  cases split

theorem EndsDigits.takeWhile {sv : Text} (ends : EndsDigits sv) :
    sv.takeWhile asciiDigit = [] ∧ sv.dropWhile asciiDigit = sv := by
  cases sv with
  | nil => exact ⟨rfl, rfl⟩
  | cons first rest =>
      have stops := ends first rest rfl
      exact ⟨by simp [stops], by simp [stops]⟩

theorem Digits.leading_append (digits : Digits) {rest : Text} (ends : EndsDigits rest) :
    Digits.leading (digits.text ++ rest) = digits ∧
      (digits.text ++ rest).dropWhile asciiDigit = rest := by
  obtain ⟨taken, dropped⟩ := ends.takeWhile
  constructor
  · apply Digits.ext
    change (digits.text ++ rest).takeWhile asciiDigit = digits.text
    rw [List.takeWhile_append_of_pos digits.allDigits, taken, List.append_nil]
  · rw [List.dropWhile_append_of_pos digits.allDigits, dropped]

theorem Digits.leading_text (sv : Text) :
    (Digits.leading sv).text ++ sv.dropWhile asciiDigit = sv :=
  List.takeWhile_append_dropWhile

theorem takeSign_text (sv : Text) : signText (takeSign sv).1 ++ (takeSign sv).2 = sv := by
  unfold takeSign
  split <;> rfl

theorem takeSign_append (negative : Bool) {body : Text} (start : StartsNumber body) :
    takeSign (signText negative ++ body) = (negative, body) := by
  cases negative with
  | true => rfl
  | false =>
      obtain ⟨first, rest, rfl, isStart⟩ := start
      have notMinus : first ≠ '-' := by
        rcases isStart with digit | rfl
        · exact asciiDigit_ne digit (by decide)
        · decide
      unfold takeSign signText
      split
      · next minus => simp_all
      · rfl

theorem scanFraction_text (sv : Text) :
    DecimalLiteral.fractionText (scanFraction sv).1 ++ (scanFraction sv).2 = sv := by
  unfold scanFraction
  split
  · next rest => exact congrArg ('.' :: ·) (Digits.leading_text rest)
  · rfl

theorem takeExponentSign_text (sv : Text) :
    Exponent.signOf (takeExponentSign sv).1 ++ (takeExponentSign sv).2 = sv := by
  unfold takeExponentSign
  split <;> rfl

theorem scanExponent_text (sv : Text) :
    DecimalLiteral.exponentText (scanExponent sv).1 ++ (scanExponent sv).2 = sv := by
  cases sv with
  | nil => rfl
  | cons marker rest =>
      simp only [scanExponent]
      split
      · split
        · simp only [DecimalLiteral.exponentText, Exponent.text, List.cons_append,
            List.append_assoc, Digits.leading_text, takeExponentSign_text]
        · rfl
      · rfl

theorem scanDecimal_text {sv rest : Text} {literal : DecimalLiteral}
    (scanned : scanDecimal sv = some (literal, rest)) : literal.text ++ rest = sv := by
  simp only [scanDecimal] at scanned
  split at scanned
  · simp only [Option.some.injEq, Prod.mk.injEq] at scanned
    obtain ⟨rfl, rfl⟩ := scanned
    simp only [DecimalLiteral.text, List.append_assoc, scanExponent_text, scanFraction_text,
      Digits.leading_text, takeSign_text]
  · contradiction

theorem exponentText_endsDigits (exponent : Option Exponent) :
    EndsDigits (DecimalLiteral.exponentText exponent) := by
  intro first rest split
  cases exponent with
  | none => cases split
  | some exponent =>
      obtain ⟨rfl, _⟩ := List.cons.inj split
      rcases exponent.isMarker with lower | upper
      · rw [lower]; decide
      · rw [upper]; decide

theorem scanExponent_exponentText (exponent : Option Exponent) :
    scanExponent (DecimalLiteral.exponentText exponent) = (exponent, []) := by
  cases exponent with
  | none => rfl
  | some exponent =>
      have signed : takeExponentSign (Exponent.signOf exponent.sign ++ exponent.digits.text) =
          (exponent.sign, exponent.digits.text) := by
        rcases sign : exponent.sign with _ | _ | _
        · obtain ⟨first, rest, split⟩ := List.exists_cons_of_ne_nil exponent.nonempty
          have digit := exponent.digits.allDigits first (by simp [split])
          simp only [Exponent.signOf, List.nil_append, split]
          unfold takeExponentSign
          split
          · simp_all [asciiDigit]
          · simp_all [asciiDigit]
          · rfl
        · rfl
        · rfl
      obtain ⟨whole, after⟩ := exponent.digits.leading_append endsDigits_nil
      rw [List.append_nil] at whole after
      simp only [DecimalLiteral.exponentText, Exponent.text, scanExponent, exponent.isMarker,
        dite_true, signed, whole, after]
      rw [dif_pos exponent.nonempty]

theorem scanFraction_fractionText (fraction : Option Digits) (exponent : Option Exponent) :
    scanFraction (DecimalLiteral.fractionText fraction ++ DecimalLiteral.exponentText exponent) =
      (fraction, DecimalLiteral.exponentText exponent) := by
  cases fraction with
  | none =>
      cases exponent with
      | none => rfl
      | some exponent =>
          have notPoint : exponent.marker ≠ '.' := by
            rcases exponent.isMarker with lower | upper
            · rw [lower]; decide
            · rw [upper]; decide
          simp only [DecimalLiteral.fractionText, DecimalLiteral.exponentText, Exponent.text,
            List.nil_append]
          unfold scanFraction
          split
          · simp_all
          · rfl
  | some digits =>
      obtain ⟨leading, after⟩ := digits.leading_append (exponentText_endsDigits exponent)
      simp only [DecimalLiteral.fractionText, List.cons_append, scanFraction, leading, after]

theorem DecimalLiteral.body_startsNumber (literal : DecimalLiteral) :
    StartsNumber (literal.whole.text ++
      (fractionText literal.fraction ++ exponentText literal.exponent)) := by
  cases whole : literal.whole.text with
  | cons first rest =>
      exact ⟨first, _, rfl, Or.inl (literal.whole.allDigits first (by simp [whole]))⟩
  | nil =>
      obtain ⟨digits, same, _⟩ := literal.nonempty.resolve_left (not_not_intro whole)
      rw [same]
      exact ⟨'.', _, rfl, Or.inr rfl⟩

theorem fractionText_endsDigits (fraction : Option Digits) (exponent : Option Exponent) :
    EndsDigits
      (DecimalLiteral.fractionText fraction ++ DecimalLiteral.exponentText exponent) := by
  cases fraction with
  | none => exact exponentText_endsDigits exponent
  | some digits =>
      intro first rest split
      obtain ⟨rfl, _⟩ := List.cons.inj split
      decide

theorem scanDecimal_literal (literal : DecimalLiteral) :
    scanDecimal literal.text = some (literal, []) := by
  have signed := takeSign_append literal.negative literal.body_startsNumber
  obtain ⟨whole, after⟩ := literal.whole.leading_append
    (fractionText_endsDigits literal.fraction literal.exponent)
  simp only [scanDecimal, DecimalLiteral.text, signed, whole, after, scanFraction_fractionText,
    scanExponent_exponentText]
  rw [dif_pos literal.nonempty]

theorem asciiIequal_cons {first other : Char} {rest others : Text}
    (same : asciiIequal (first :: rest) (other :: others) = true) :
    asciiLower first = asciiLower other := by
  simp only [asciiIequal, List.map_cons, beq_iff_eq, List.cons.injEq] at same
  exact same.1

theorem asciiLower_digit {char : Char} (digit : asciiDigit char = true) :
    asciiLower char = char := by
  simp only [asciiDigit, decide_eq_true_eq] at digit
  apply if_neg
  rintro ⟨upper, _⟩
  exact absurd (Char.le_trans upper digit.2) (by decide)

theorem StartsNumber.not_word {sv : Text} (start : StartsNumber sv) {letter : Char}
    (isLetter : letter = 'i' ∨ letter = 'n') (count : Nat) (word : Text) :
    asciiIequal (sv.take (count + 1)) (letter :: word) = false := by
  obtain ⟨first, rest, rfl, isStart⟩ := start
  rw [Bool.eq_false_iff]
  intro same
  have lowered := asciiIequal_cons same
  rcases isStart with digit | rfl
  · rw [asciiLower_digit digit] at lowered
    rw [lowered] at digit
    rcases isLetter with rfl | rfl
    · exact absurd digit (by decide)
    · exact absurd digit (by decide)
  · rcases isLetter with rfl | rfl
    · exact absurd lowered (by decide)
    · exact absurd lowered (by decide)

theorem scanSpecial_literal (literal : DecimalLiteral) : scanSpecial literal.text = none := by
  have start := literal.body_startsNumber
  have signed := takeSign_append literal.negative start
  rw [← DecimalLiteral.text] at signed
  generalize literal.whole.text ++ _ = body at start signed
  have infinity : asciiIequal (body.take 8) "infinity".toList = false :=
    start.not_word (Or.inl rfl) 7 _
  have inf : asciiIequal (body.take 3) "inf".toList = false := start.not_word (Or.inl rfl) 2 _
  have nan : asciiIequal (body.take 3) "nan".toList = false := start.not_word (Or.inr rfl) 2 _
  simp only [scanSpecial, signed, infinity, inf, nan, Bool.false_eq_true, if_false]

theorem endsDigits_dropWhile (sv : Text) : EndsDigits (sv.dropWhile asciiDigit) := by
  intro first rest split
  have stops := List.head?_dropWhile_not asciiDigit sv
  simpa [split] using stops

def InIntRange (value : Int) : Prop := intMin ≤ value ∧ value ≤ intMax

instance (value : Int) : Decidable (InIntRange value) := inferInstanceAs (Decidable (_ ∧ _))

theorem takeSign_eq (sv : Text) :
    takeSign sv = (sv.head? == some '-', if sv.head? == some '-' then sv.drop 1 else sv) := by
  unfold takeSign
  split
  · rfl
  · next notMinus =>
      have different : (sv.head? == some '-') = false := by
        cases sv with
        | nil => rfl
        | cons first rest =>
            have distinct : first ≠ '-' := fun same => notMinus rest (by rw [same])
            simpa using distinct
      simp [different]

theorem svFromChars_literal (literal : IntegerLiteral) {rest : Text} (ends : EndsDigits rest)
    (value : Int) :
    svFromChars (literal.text ++ rest) value =
      if InIntRange literal.value then (⟨literal.text.length, .ok⟩, literal.value)
      else (⟨literal.text.length, .resultOutOfRange⟩, value) := by
  have start : StartsNumber (literal.digits.text ++ rest) := by
    obtain ⟨first, others, split⟩ := List.exists_cons_of_ne_nil literal.nonempty
    rw [split]
    exact ⟨first, _, rfl, Or.inl (literal.digits.allDigits first (by simp [split]))⟩
  have signed := takeSign_append literal.negative start
  rw [← List.append_assoc, ← IntegerLiteral.text, takeSign_eq, Prod.mk.injEq] at signed
  obtain ⟨negative, body⟩ := signed
  have digits : (literal.digits.text ++ rest).takeWhile asciiDigit = literal.digits.text :=
    congrArg Digits.text (literal.digits.leading_append ends).1
  have length : literal.digits.text.length + (if literal.negative then 1 else 0) =
      literal.text.length := by
    cases sign : literal.negative with
    | true => simp [IntegerLiteral.text, signText, sign]
    | false => simp [IntegerLiteral.text, signText, sign]
  simp only [svFromChars, negative] at body ⊢
  simp only [body, digits, literal.nonempty, if_false, length]
  have bounds : (literal.value < intMin ∨ intMax < literal.value) ↔ ¬InIntRange literal.value := by
    unfold InIntRange
    omega
  rw [← IntegerLiteral.value]
  simp only [bounds, ite_not]

theorem svFromChars_cases (sv : Text) :
    (∃ (literal : IntegerLiteral) (rest : Text), EndsDigits rest ∧ sv = literal.text ++ rest) ∨
      ∀ value, svFromChars sv value = (⟨0, .invalidArgument⟩, value) := by
  by_cases none : (takeSign sv).2.takeWhile asciiDigit = []
  · refine Or.inr fun value => ?_
    rw [takeSign_eq] at none
    simp only [svFromChars]
    rw [if_pos none]
  · refine Or.inl ⟨⟨(takeSign sv).1, Digits.leading (takeSign sv).2, none⟩,
      (takeSign sv).2.dropWhile asciiDigit, endsDigits_dropWhile _, ?_⟩
    rw [IntegerLiteral.text, List.append_assoc, Digits.leading_text, takeSign_text]

end PatchFix
