import PatchFix.IniFallback

/-! The strings that each parser accepts, and where what it accepts is not its grammar. -/

namespace PatchFix

theorem IntegerLiteral.split_unique {first second : IntegerLiteral} {left right : Text}
    (leftEnds : EndsDigits left) (rightEnds : EndsDigits right)
    (same : first.text ++ left = second.text ++ right) : first = second ∧ left = right := by
  have starts : ∀ (literal : IntegerLiteral) (rest : Text),
      StartsNumber (literal.digits.text ++ rest) := by
    intro literal rest
    obtain ⟨head, tail, split⟩ := List.exists_cons_of_ne_nil literal.nonempty
    exact ⟨head, tail ++ rest, by rw [split, List.cons_append],
      Or.inl (literal.digits.allDigits head (by simp [split]))⟩
  have firstSign := takeSign_append first.negative (starts first left)
  have secondSign := takeSign_append second.negative (starts second right)
  rw [← List.append_assoc, ← IntegerLiteral.text] at firstSign secondSign
  rw [same, secondSign, Prod.mk.injEq] at firstSign
  obtain ⟨sign, body⟩ := firstSign
  obtain ⟨firstDigits, firstRest⟩ := first.digits.leading_append leftEnds
  obtain ⟨secondDigits, secondRest⟩ := second.digits.leading_append rightEnds
  rw [body, firstDigits] at secondDigits
  rw [body, firstRest] at secondRest
  refine ⟨?_, secondRest⟩
  cases first
  cases second
  cases sign
  cases secondDigits
  rfl

/-! `default_parser<bool>`. -/

def WholeNonzero (text : Text) : Prop :=
  ∃ literal : IntegerLiteral, text = literal.text ∧ literal.value ≠ 0

def BoolGrammar (text : Text) : Prop := IsBoolWord text true ∨ WholeNonzero text

/-- A nonzero integer that fits an `int` with something after it, or a whole one that does not. -/
def Misread (text : Text) : Prop :=
  ∃ (literal : IntegerLiteral) (rest : Text), EndsDigits rest ∧ text = literal.text ++ rest ∧
    literal.value ≠ 0 ∧ (InIntRange literal.value ↔ rest ≠ [])

theorem leadingNonzero_iff_whole {text : Text} :
    (LeadingNonzero text ↔ WholeNonzero text) ↔ ¬Misread text := by
  constructor
  · rintro same ⟨literal, rest, ends, rfl, nonzero, misfit⟩
    by_cases whole : rest = []
    · subst whole
      obtain ⟨other, otherRest, otherEnds, split, fits, _⟩ :=
        same.mpr ⟨literal, List.append_nil _, nonzero⟩
      obtain ⟨rfl, rfl⟩ := IntegerLiteral.split_unique ends otherEnds split
      exact misfit.mp fits rfl
    · obtain ⟨other, split, _⟩ := same.mp ⟨literal, rest, ends, rfl, misfit.mpr whole, nonzero⟩
      rw [← List.append_nil other.text] at split
      exact whole (IntegerLiteral.split_unique ends endsDigits_nil split).2
  · intro read
    constructor
    · rintro ⟨literal, rest, ends, rfl, fits, nonzero⟩
      by_cases whole : rest = []
      · exact ⟨literal, by rw [whole, List.append_nil], nonzero⟩
      · exact absurd ⟨literal, rest, ends, rfl, nonzero, iff_of_true fits whole⟩ read
    · rintro ⟨literal, rfl, nonzero⟩
      refine ⟨literal, [], endsDigits_nil, (List.append_nil _).symm, ?_, nonzero⟩
      by_contra misfit
      exact read ⟨literal, [], endsDigits_nil, (List.append_nil _).symm, nonzero,
        iff_of_false misfit (not_not_intro rfl)⟩

theorem WholeNonzero.not_word {text : Text} (whole : WholeNonzero text) (value : Bool) :
    ¬IsBoolWord text value := by
  obtain ⟨literal, rfl, _⟩ := whole
  rintro ⟨word, member, same⟩
  rw [← List.append_nil literal.text] at same
  exact literal.not_word [] (boolWords_letters value word member) same

theorem parseBool_agrees_iff (text : Text) :
    (parseBool text = true ↔ BoolGrammar text) ↔ (LeadingNonzero text ↔ WholeNonzero text) := by
  rw [parseBool_iff, BoolGrammar]
  constructor
  · intro same
    constructor
    · intro leading
      exact (same.mp (Or.inr leading)).resolve_left (leading.not_word true)
    · intro whole
      exact (same.mpr (Or.inr whole)).resolve_left (whole.not_word true)
  · intro same
    rw [same]

theorem parseBool_grammar_iff (text : Text) :
    (parseBool text = true ↔ BoolGrammar text) ↔ ¬Misread text :=
  (parseBool_agrees_iff text).trans leadingNonzero_iff_whole

theorem oneWithGarbage_true : ¬∀ text : Text, parseBool text = true ↔ BoolGrammar text := by
  intro claimed
  refine leadingNonzero_iff_whole.mp ((parseBool_agrees_iff "1abc".toList).mp (claimed _))
    ⟨⟨false, Digits.leading ['1'], by decide⟩, "abc".toList, ?_, rfl, by decide, by decide⟩
  intro first rest split
  obtain ⟨rfl, _⟩ := List.cons.inj split
  decide

/-! Whole integers after trimming. -/

theorem DenotesInteger.unique {text : Text} {first second : Int}
    (isFirst : DenotesInteger text first) (isSecond : DenotesInteger text second) :
    first = second := by
  obtain ⟨literal, trimmed, rfl⟩ := isFirst
  obtain ⟨other, trimmedOther, rfl⟩ := isSecond
  have same : literal.text ++ [] = other.text ++ [] := by
    rw [List.append_nil, List.append_nil, ← trimmed, trimmedOther]
  rw [(IntegerLiteral.split_unique endsDigits_nil endsDigits_nil same).1]

theorem DenotesInteger.chars {text : Text} {number : Int} (denotes : DenotesInteger text number)
    {char : Char} (member : char ∈ text) :
    isSpace char = true ∨ char = '-' ∨ asciiDigit char = true := by
  obtain ⟨literal, trimmed, _⟩ := denotes
  refine (mem_trim_or_space member).imp_right fun inside => ?_
  rw [trimmed, IntegerLiteral.text, List.mem_append] at inside
  rcases inside with sign | digit
  · cases negative : literal.negative with
    | true => exact Or.inl (by simpa [signText, negative] using sign)
    | false => simp [signText, negative] at sign
  · exact Or.inr (literal.digits.allDigits char digit)

def isLowerLetter (char : Char) : Bool := 'a' ≤ char ∧ char ≤ 'z'

theorem asciiLower_notLetter {char : Char}
    (kind : isSpace char = true ∨ char = '-' ∨ asciiDigit char = true) :
    isLowerLetter (asciiLower char) = false := by
  rcases kind with space | rfl | digit
  · simp only [isSpace, List.mem_cons, List.not_mem_nil, or_false, decide_eq_true_eq] at space
    rcases space with rfl | rfl | rfl | rfl | rfl | rfl <;> decide
  · decide
  · rw [asciiLower_digit digit]
    simp only [asciiDigit, decide_eq_true_eq] at digit
    simp only [isLowerLetter, decide_eq_false_iff_not]
    rintro ⟨letter, _⟩
    exact absurd (Char.le_trans letter digit.2) (by decide)

theorem DenotesInteger.not_word {text word : Text} {number : Int}
    (denotes : DenotesInteger text number)
    (letter : (word.head?.map asciiLower).any isLowerLetter = true) :
    asciiIequal text word ≠ true := by
  intro same
  cases word with
  | nil => contradiction
  | cons head tail =>
      cases text with
      | nil => exact absurd same (by simp [asciiIequal])
      | cons first rest =>
          have kind := asciiLower_notLetter (denotes.chars List.mem_cons_self)
          rw [asciiIequal_cons same] at kind
          simp only [List.head?_cons, Option.map_some, Option.any_some, kind] at letter
          contradiction

/-! `parse_enum` with a `_count`. -/

section Counted

variable {Enum : Type} (count : Int32) (cast : Int → Enum) (table : List (Text × Enum))
variable (fallback : Enum) (text : Text)

def IsEnumerator (value : Enum) : Prop :=
  ∃ number, 0 ≤ number ∧ number < count.toInt ∧ cast number = value

structure CountedGrammar : Prop where
  named : ∀ before row after, table = before ++ row :: after →
    asciiIequal text row.1 = true → (∀ earlier ∈ before, asciiIequal text earlier.1 = false) →
      parseEnum (some count) cast table fallback text = row.2
  number : (∀ row ∈ table, asciiIequal text row.1 = false) → ∀ number,
    DenotesInteger text number → 0 ≤ number → number < count.toInt →
      parseEnum (some count) cast table fallback text = cast number
  other : (∀ row ∈ table, asciiIequal text row.1 = false) →
    (∀ number, DenotesInteger text number → ¬(0 ≤ number ∧ number < count.toInt)) →
      parseEnum (some count) cast table fallback text = fallback
  inRange : (∀ row ∈ table, IsEnumerator count cast row.2) → IsEnumerator count cast fallback →
    IsEnumerator count cast (parseEnum (some count) cast table fallback text)

variable {count cast table fallback text}

theorem parseEnum_first {before after : List (Text × Enum)} {row : Text × Enum}
    (split : table = before ++ row :: after) (same : asciiIequal text row.1 = true)
    (first : ∀ earlier ∈ before, asciiIequal text earlier.1 = false) :
    parseEnum (some count) cast table fallback text = row.2 := by
  have found : (table.find? fun entry => asciiIequal text entry.1) = some row :=
    List.find?_eq_some_iff_append.mpr ⟨same, before, after, split, fun entry member => by
      rw [first entry member, Bool.not_false]⟩
  simp only [parseEnum, found]

theorem unnamed_of_forall (differ : ∀ row ∈ table, asciiIequal text row.1 = false) :
    ¬∃ value, IsName table text value := by
  rintro ⟨value, row, member, same, _⟩
  rw [differ row member] at same
  contradiction

theorem countedGrammar : CountedGrammar count cast table fallback text where
  named := fun _ _ _ => parseEnum_first
  number := fun differ _ => parseEnum_inCount (unnamed_of_forall differ)
  other := fun differ => parseEnum_outOfCount (unnamed_of_forall differ)
  inRange := by
    intro rows declared
    by_cases named : ∃ value, IsName table text value
    · have found : IsName table text (parseEnum (some count) cast table fallback text) :=
        parseEnum_named named
      obtain ⟨row, member, _, same⟩ := found
      rw [← same]
      exact rows row member
    · by_cases indexed : ∃ number, DenotesInteger text number ∧ 0 ≤ number ∧ number < count.toInt
      · obtain ⟨number, denotes, nonneg, below⟩ := indexed
        rw [parseEnum_inCount named denotes nonneg below]
        exact ⟨number, nonneg, below, rfl⟩
      · rw [parseEnum_outOfCount named fun number denotes inside =>
          indexed ⟨number, denotes, inside⟩]
        exact declared

end Counted

/-! `default_parser<PromptType>`. -/

namespace Syndicate.PromptType

variable {text : Text}

def SaysXbox (text : Text) : Prop :=
  asciiIequal text "Xbox".toList = true ∨ DenotesInteger text 2

structure AcceptsExactly (text : Text) : Prop where
  xbox : parser text = .xbox ↔ SaysXbox text
  others : ¬SaysXbox text → parser text = .playStation

theorem parser_cases (text : Text) : parser text = .xbox ∨ parser text = .playStation := by
  unfold parser
  generalize parseEnum none cast names .playStation text = result
  cases result with
  | xbox => exact Or.inl rfl
  | playStation => exact Or.inr rfl
  | unnamed value => exact Or.inr rfl

theorem saysXbox_iff_of_denotes (notXbox : ¬asciiIequal text "Xbox".toList = true) {number : Int}
    (denotes : DenotesInteger text number) : SaysXbox text ↔ number = 2 := by
  constructor
  · rintro (named | two)
    · exact absurd named notXbox
    · exact denotes.unique two
  · rintro rfl
    exact Or.inr denotes

theorem wrapsToXbox_iff_of_denotes {number : Int} (denotes : DenotesInteger text number)
    (inRange : InIntRange number) :
    WrapsToXbox text ↔ number ≠ 2 ∧ number % 256 = 2 := by
  constructor
  · rintro ⟨other, otherDenotes, _, different, lastByte⟩
    rw [denotes.unique otherDenotes]
    exact ⟨different, lastByte⟩
  · rintro ⟨different, lastByte⟩
    exact ⟨number, denotes, inRange, different, lastByte⟩

theorem parser_xbox_iff (text : Text) :
    parser text = .xbox ↔ SaysXbox text ∨ WrapsToXbox text := by
  by_cases isXbox : asciiIequal text "Xbox".toList = true
  · have found : (names.find? fun row => asciiIequal text row.1) = some ("Xbox".toList, .xbox) :=
      List.find?_cons_of_pos isXbox
    refine iff_of_true ?_ (Or.inl (Or.inl isXbox))
    simp only [parser, parseEnum, found]
    rfl
  · by_cases isPlayStation : asciiIequal text "PlayStation".toList = true
    · have notNumber : ∀ number, ¬DenotesInteger text number := fun number denotes =>
        denotes.not_word (by decide) isPlayStation
      have found : (names.find? fun row => asciiIequal text row.1) =
          some ("PlayStation".toList, .playStation) :=
        (List.find?_cons_of_neg (a := ("Xbox".toList, xbox)) isXbox).trans
          (List.find?_cons_of_pos isPlayStation)
      refine iff_of_false ?_ ?_
      · simp only [parser, parseEnum, found]
        decide
      · rintro ((named | two) | ⟨number, denotes, _⟩)
        · exact isXbox named
        · exact notNumber 2 two
        · exact notNumber number denotes
    · have unnamed : ¬∃ value, IsName names text value := by
        rintro ⟨value, row, member, same, _⟩
        rcases List.mem_pair.mp member with rfl | rfl
        · exact isXbox same
        · exact isPlayStation same
      by_cases whole : ∃ number, DenotesInteger text number ∧ InIntRange number
      · obtain ⟨number, denotes, inRange⟩ := whole
        rw [parser_number unnamed denotes inRange, saysXbox_iff_of_denotes isXbox denotes,
          wrapsToXbox_iff_of_denotes denotes inRange]
        by_cases lastByte : number % 256 = 2
        · simp [lastByte, em]
        · have different : number ≠ 2 := by
            rintro rfl
            exact lastByte rfl
          simp [lastByte, different]
      · have outside : ∀ number, DenotesInteger text number → ¬InIntRange number :=
          fun number denotes inRange => whole ⟨number, denotes, inRange⟩
        rw [parser_malformed unnamed outside]
        refine iff_of_false (by decide) ?_
        rintro ((named | two) | ⟨number, denotes, inRange, _⟩)
        · exact isXbox named
        · exact outside 2 two (by decide)
        · exact outside number denotes inRange

theorem WrapsToXbox.not_saysXbox (wraps : WrapsToXbox text) : ¬SaysXbox text := by
  obtain ⟨number, denotes, _, different, _⟩ := wraps
  rintro (named | two)
  · exact denotes.not_word (by decide) named
  · exact different (denotes.unique two)

theorem WrapsToXbox.not_acceptsExactly (wraps : WrapsToXbox text) : ¬AcceptsExactly text := by
  rintro ⟨xbox, _⟩
  exact WrapsToXbox.not_saysXbox wraps (xbox.mp ((parser_xbox_iff text).mpr (Or.inr wraps)))

theorem acceptsExactly_iff (text : Text) : AcceptsExactly text ↔ ¬WrapsToXbox text := by
  constructor
  · exact fun accepts wraps => WrapsToXbox.not_acceptsExactly wraps accepts
  · intro unwrapped
    have xbox : parser text = .xbox ↔ SaysXbox text := by
      rw [parser_xbox_iff, or_iff_left unwrapped]
    exact ⟨xbox, fun silent => (parser_cases text).resolve_left (mt xbox.mp silent)⟩

theorem twoHundredFiftyEight_xbox : ¬∀ text : Text, AcceptsExactly text := by
  intro claimed
  have denotes : DenotesInteger "258".toList 258 :=
    ⟨⟨false, Digits.leading "258".toList, by decide⟩, by decide, by decide⟩
  have wraps : WrapsToXbox "258".toList := ⟨258, denotes, by decide, by decide, by decide⟩
  exact WrapsToXbox.not_acceptsExactly wraps (claimed _)

end Syndicate.PromptType

/-! `ratio_parser`. -/

def RatioReaches (large : ℚ → Prop) (text : Text) : Prop :=
  ∃ width height w h wBounded hBounded, text = width ++ ':' :: height ∧
    DenotesFloat width (.finite w wBounded) ∧ DenotesFloat height (.finite h hBounded) ∧ 0 < h ∧
      large |w / h|

/-- A quotient half a last place or more above the largest finite number. -/
def RatioOverflows : Text → Prop := RatioReaches fun quotient => 2 ^ 128 - 2 ^ 103 ≤ quotient

def RatioExceeds : Text → Prop := RatioReaches fun quotient => Binary32.maxFinite < quotient

theorem ratioParserBy_isFinite_iff {divide : Binary32 → Binary32 → Binary32} {large : ℚ → Prop}
    (zeroOver : ∀ {h : Binary32}, Binary32.lt 0 h = true → h.isFinite = true → divide 0 h = 0)
    (finite : ∀ w h wBounded hBounded, 0 < h →
      ((divide (.finite w wBounded) (.finite h hBounded)).isFinite = true ↔ ¬large |w / h|))
    (text : Text) : (ratioParserBy divide text).isFinite = true ↔ ¬RatioReaches large text := by
  have reading := @ratioParserBy_reads divide zeroOver
  constructor
  · rintro isFinite ⟨width, height, w, h, wBounded, hBounded, rfl, wide, high, positive, isLarge⟩
    have above : Binary32.lt 0 (.finite h hBounded) = true := decide_eq_true positive
    rw [reading.reads _ _ (Or.inr ⟨width, height, _, _, rfl, wide, high, above, rfl⟩),
      finite w h wBounded hBounded positive] at isFinite
    exact isFinite isLarge
  · intro within
    by_cases wellFormed : ∃ value, DenotesRatioBy divide text value
    · obtain ⟨value, denotes⟩ := wellFormed
      rw [reading.reads text value denotes]
      rcases denotes with number | ⟨width, height, w, h, rfl, wide, high, positive, rfl⟩
      · exact number.isFinite
      · obtain ⟨w, wBounded, rfl⟩ := Binary32.eq_finite wide.isFinite
        obtain ⟨h, hBounded, rfl⟩ := Binary32.eq_finite high.isFinite
        have above : 0 < h := of_decide_eq_true positive
        rw [finite w h wBounded hBounded above]
        exact fun isLarge => within
          ⟨width, height, w, h, wBounded, hBounded, rfl, wide, high, above, isLarge⟩
    · rw [reading.falls text fun value denotes => wellFormed ⟨value, denotes⟩]
      rfl

theorem div_isFinite_iff {w h : ℚ} (wBounded : |w| ≤ Binary32.maxFinite)
    (hBounded : |h| ≤ Binary32.maxFinite) (positive : 0 < h) :
    (Binary32.div (.finite w wBounded) (.finite h hBounded)).isFinite = true ↔
      ¬2 ^ 128 - 2 ^ 103 ≤ |w / h| := by
  have quotient : Binary32.div (.finite w wBounded) (.finite h hBounded) =
      Binary32.ofRat (w / h) := if_pos positive.ne'
  rw [quotient, Binary32.isFinite_ofRat, not_le]

theorem divUnrounded_isFinite_iff {w h : ℚ} (wBounded : |w| ≤ Binary32.maxFinite)
    (hBounded : |h| ≤ Binary32.maxFinite) (positive : 0 < h) :
    (Binary32.divUnrounded (.finite w wBounded) (.finite h hBounded)).isFinite = true ↔
      ¬Binary32.maxFinite < |w / h| := by
  have quotient : Binary32.divUnrounded (.finite w wBounded) (.finite h hBounded) =
      Binary32.unrounded (w / h) := if_pos positive.ne'
  rw [quotient, Binary32.isFinite_unrounded, not_lt]

theorem ratioParser_isFinite_iff (text : Text) :
    ((ratioParser text).isFinite = true ↔ ¬RatioOverflows text) ∧
      ((ratioParserBy Binary32.divUnrounded text).isFinite = true ↔ ¬RatioExceeds text) := by
  constructor
  · rw [← ratioParserBy_div]
    exact ratioParserBy_isFinite_iff Binary32.zero_div (fun _ _ => div_isFinite_iff) text
  · exact ratioParserBy_isFinite_iff Binary32.zero_divUnrounded
      (fun _ _ => divUnrounded_isFinite_iff) text

theorem tinyHeight_infinite :
    (¬∀ text : Text, (ratioParser text).isFinite = true) ∧
      ¬∀ text : Text, (ratioParserBy Binary32.divUnrounded text).isFinite = true := by
  constructor
  · intro claimed
    exact absurd (claimed "1e38:1e-38".toList) (by decide +kernel)
  · intro claimed
    exact absurd (claimed "1e38:1e-38".toList) (by decide +kernel)

end PatchFix
