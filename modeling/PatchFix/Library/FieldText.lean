import Mathlib.Data.Nat.Digits.Lemmas

/-!
Fields of a line of text: words up to a delimiter, numerals in a base up to sixteen, numerals padded
with zeros, and bytes as pairs of hexadecimal digits.
-/

namespace FieldText

/-- The text before the first `stop`, and the text after it. -/
def cut (stop : Char) : List Char → List Char × List Char
  | [] => ([], [])
  | char :: rest =>
      if char = stop then ([], rest)
      else (char :: (cut stop rest).1, (cut stop rest).2)

def cutLast (stop : Char) (text : List Char) : List Char × List Char :=
  ((cut stop text.reverse).2.reverse, (cut stop text.reverse).1.reverse)

theorem cut_append {stop : Char} {field : List Char} (whole : stop ∉ field) (rest : List Char) :
    cut stop (field ++ stop :: rest) = (field, rest) := by
  induction field with
  | nil => simp [cut]
  | cons char field ih =>
      simp only [List.mem_cons, not_or] at whole
      simp [cut, Ne.symm whole.1, ih whole.2]

theorem cutLast_append {stop : Char} {field : List Char} (whole : stop ∉ field)
    (before : List Char) : cutLast stop (before ++ stop :: field) = (before, field) := by
  have turned : (before ++ stop :: field).reverse = field.reverse ++ stop :: before.reverse := by
    simp
  rw [cutLast, turned, cut_append (by simpa using whole), List.reverse_reverse,
    List.reverse_reverse]

def rfind (char : Char) (text : List Char) : Option Nat :=
  (text.reverse.findIdx? fun other => other = char).map fun index => text.length - 1 - index

def digit (value : Nat) : Char :=
  if value < 10 then Char.ofNat (48 + value) else Char.ofNat (65 + (value - 10))

def digitValue (char : Char) : Nat :=
  if char.toNat < 65 then char.toNat - 48 else char.toNat - 65 + 10

def numeral (base number : Nat) : List Char :=
  if number = 0 then ['0'] else (Nat.digits base number).reverse.map digit

def value (base : Nat) (text : List Char) : Nat :=
  Nat.ofDigits base (text.map digitValue).reverse

def padded (base width number : Nat) : List Char := (numeral base number).leftpad width '0'

theorem digitValue_digit {number : Nat} (small : number < 16) :
    digitValue (digit number) = number := by
  have all : ∀ number < 16, digitValue (digit number) = number := by decide
  exact all number small

theorem digits_small {base number place : Nat} (positive : 1 < base) (small : base ≤ 16)
    (member : place ∈ Nat.digits base number) : place < 16 :=
  (Nat.digits_lt_base positive member).trans_le small

theorem value_numeral {base : Nat} (positive : 1 < base) (small : base ≤ 16) (number : Nat) :
    value base (numeral base number) = number := by
  unfold value numeral
  split
  · next zero =>
      subst zero
      simp [digitValue]
  · have same : ∀ place ∈ (Nat.digits base number).reverse,
        (digitValue ∘ digit) place = id place := fun place member =>
      digitValue_digit (digits_small positive small (List.mem_reverse.mp member))
    rw [List.map_map, List.map_congr_left same, List.map_id, List.reverse_reverse,
      Nat.ofDigits_digits]

theorem numeral_digits {base : Nat} (positive : 1 < base) (small : base ≤ 16) (number : Nat) :
    ∀ char ∈ numeral base number, ∃ place < base, char = digit place := by
  intro char member
  unfold numeral at member
  split at member
  · exact ⟨0, by omega, List.mem_singleton.mp member⟩
  · obtain ⟨place, present, rfl⟩ := List.mem_map.mp member
    exact ⟨place, Nat.digits_lt_base positive (List.mem_reverse.mp present), rfl⟩

theorem numeral_getLast {base : Nat} (positive : 1 < base) (small : base ≤ 16) (number : Nat) :
    ∃ place < base, (numeral base number).getLast? = some (digit place) := by
  have nonempty : numeral base number ≠ [] := by
    unfold numeral
    split
    · simp
    · next nonzero => simpa [Nat.digits_eq_nil_iff_eq_zero] using nonzero
  obtain ⟨place, bound, same⟩ :=
    numeral_digits positive small number _ (List.getLast_mem nonempty)
  exact ⟨place, bound, by rw [List.getLast?_eq_some_getLast nonempty, same]⟩

theorem notMem_numeral {base : Nat} (positive : 1 < base) (small : base ≤ 16) (number : Nat)
    {stop : Char} (other : ∀ place < 16, digit place ≠ stop) : stop ∉ numeral base number := by
  intro member
  obtain ⟨place, bound, same⟩ := numeral_digits positive small number stop member
  exact other place (bound.trans_le small) same.symm

/-! Numerals padded to a width. -/

theorem value_padded {base : Nat} (positive : 1 < base) (small : base ≤ 16) (width number : Nat) :
    value base (padded base width number) = number := by
  have zeros (count : Nat) : ((List.replicate count '0').map digitValue).reverse =
      List.replicate count 0 := by
    simp [digitValue]
  rw [padded, List.leftpad, value, List.map_append, List.reverse_append, zeros,
    Nat.ofDigits_append_replicate_zero]
  exact value_numeral positive small number

theorem numeral_length_le {base width number : Nat} (positive : 1 < base) (wide : 0 < width)
    (bound : number < base ^ width) : (numeral base number).length ≤ width := by
  unfold numeral
  split
  · exact wide
  · rw [List.length_map, List.length_reverse]
    exact (Nat.digits_length_le_iff positive number).mpr bound

theorem padded_length {base width number : Nat} (positive : 1 < base) (wide : 0 < width)
    (bound : number < base ^ width) : (padded base width number).length = width := by
  have short := numeral_length_le positive wide bound
  rw [padded, List.leftpad, List.length_append, List.length_replicate]
  omega

theorem padded_digits {base : Nat} (positive : 1 < base) (small : base ≤ 16)
    (width number : Nat) :
    ∀ char ∈ padded base width number, ∃ place < base, char = digit place := by
  intro char member
  rw [padded, List.leftpad, List.mem_append] at member
  rcases member with zeros | inside
  · exact ⟨0, by omega, List.eq_of_mem_replicate zeros⟩
  · exact numeral_digits positive small number char inside

theorem padded_getLast {base : Nat} (positive : 1 < base) (small : base ≤ 16)
    (width number : Nat) :
    ∃ place < base, (padded base width number).getLast? = some (digit place) := by
  obtain ⟨place, bound, last⟩ := numeral_getLast positive small number
  refine ⟨place, bound, ?_⟩
  rw [padded, List.leftpad, List.getLast?_append, last, Option.some_or]

theorem notMem_padded {base : Nat} (positive : 1 < base) (small : base ≤ 16) (width number : Nat)
    {stop : Char} (other : ∀ place < 16, digit place ≠ stop) :
    stop ∉ padded base width number := by
  intro member
  obtain ⟨place, bound, same⟩ := padded_digits positive small width number stop member
  exact other place (bound.trans_le small) same.symm

/-! Bytes in hexadecimal. -/

def byteText (byte : UInt8) : List Char := [digit (byte.toNat / 16), digit (byte.toNat % 16)]

def byteOf (high low : Char) : UInt8 := UInt8.ofNat (16 * digitValue high + digitValue low)

def spacedBytes : List Char → List UInt8
  | high :: low :: _ :: rest => byteOf high low :: spacedBytes rest
  | [high, low] => [byteOf high low]
  | _ => []

theorem byteOf_byteText (byte : UInt8) :
    byteOf (digit (byte.toNat / 16)) (digit (byte.toNat % 16)) = byte := by
  have bound : byte.toNat < 256 := byte.toNat_lt
  rw [byteOf, digitValue_digit (by omega), digitValue_digit (by omega), Nat.div_add_mod,
    UInt8.ofNat_toNat]

theorem spacedBytes_intercalate (space : Char) (bytes : List UInt8) :
    spacedBytes ([space].intercalate (bytes.map byteText)) = bytes := by
  induction bytes with
  | nil => rfl
  | cons byte rest ih =>
      cases rest with
      | nil => simp [byteText, spacedBytes, byteOf_byteText]
      | cons next rest =>
          have shape : [space].intercalate ((byte :: next :: rest).map byteText) =
              byteText byte ++ space :: [space].intercalate ((next :: rest).map byteText) := by
            simp [List.intercalate]
          rw [shape, byteText, List.cons_append, List.cons_append, List.nil_append, spacedBytes,
            byteOf_byteText, ih]

end FieldText
