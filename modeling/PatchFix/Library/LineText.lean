import Mathlib.Data.List.Basic

/-!
Text read line by line: a line ends at a newline or at the end of the text, and a trailing newline
opens no further line.
-/

namespace LineText

def lines : List Char → List (List Char)
  | [] => []
  | char :: rest =>
      if char = '\n' then [] :: lines rest
      else
        match lines rest with
        | [] => [[char]]
        | line :: more => (char :: line) :: more

theorem lines_newline (rest : List Char) : lines ('\n' :: rest) = [] :: lines rest := by
  simp [lines]

theorem lines_terminated {line : List Char} (whole : '\n' ∉ line) (rest : List Char) :
    lines (line ++ '\n' :: rest) = line :: lines rest := by
  induction line with
  | nil => exact lines_newline rest
  | cons char line ih =>
      simp only [List.mem_cons, not_or] at whole
      simp [lines, Ne.symm whole.1, ih whole.2]

theorem lines_ended {line : List Char} (whole : '\n' ∉ line) : lines (line ++ ['\n']) = [line] :=
  lines_terminated whole []

theorem lines_last {line : List Char} (whole : '\n' ∉ line) (nonempty : line ≠ []) :
    lines line = [line] := by
  induction line with
  | nil => exact absurd rfl nonempty
  | cons char line ih =>
      simp only [List.mem_cons, not_or] at whole
      by_cases last : line = []
      · simp [lines, last, Ne.symm whole.1]
      · simp [lines, Ne.symm whole.1, ih whole.2 last]

def unlines (records : List (List Char)) : List Char :=
  records.flatMap fun record => record ++ ['\n']

@[simp] theorem unlines_nil : unlines [] = [] := rfl

@[simp] theorem unlines_cons (record : List Char) (records : List (List Char)) :
    unlines (record :: records) = record ++ '\n' :: unlines records := by
  simp [unlines]

theorem lines_unlines {records : List (List Char)} (whole : ∀ record ∈ records, '\n' ∉ record)
    (rest : List Char) : lines (unlines records ++ rest) = records ++ lines rest := by
  induction records with
  | nil => rfl
  | cons record records ih =>
      have tail := ih fun other member => whole other (List.mem_cons_of_mem _ member)
      rw [unlines_cons, List.append_assoc, List.cons_append,
        lines_terminated (whole record List.mem_cons_self), tail, List.cons_append]

/-! Every text is some whole lines and what comes after them. -/

theorem exists_unlines (text : List Char) :
    ∃ records last, (∀ record ∈ records, '\n' ∉ record) ∧ '\n' ∉ last ∧
      text = unlines records ++ last := by
  induction text with
  | nil => exact ⟨[], [], by simp⟩
  | cons char rest ih =>
      obtain ⟨records, last, whole, ended, rfl⟩ := ih
      by_cases newline : char = '\n'
      · subst newline
        exact ⟨[] :: records, last, by simpa using whole, ended, by simp⟩
      · cases records with
        | nil => exact ⟨[], char :: last, by simp, by simp [ended, Ne.symm newline], by simp⟩
        | cons record records =>
            refine ⟨(char :: record) :: records, last, ?_, ended, by simp⟩
            simpa [Ne.symm newline] using whole

/-- A reader that passes over empty lines reads what is on both sides of a newline in turn. -/
theorem foldl_lines_newline {State : Type*} {read : State → List Char → State}
    (blank : ∀ state, read state [] = state) (first second : List Char) (state : State) :
    (lines (first ++ '\n' :: second)).foldl read state =
      (lines second).foldl read ((lines first).foldl read state) := by
  obtain ⟨records, last, whole, ended, rfl⟩ := exists_unlines first
  have left : (lines last).foldl read (records.foldl read state) =
      read (records.foldl read state) last := by
    by_cases empty : last = []
    · simp [empty, lines, blank]
    · rw [lines_last ended empty, List.foldl_cons, List.foldl_nil]
  rw [List.append_assoc, lines_unlines whole, lines_terminated ended, lines_unlines whole,
    List.foldl_append, List.foldl_append, List.foldl_cons, left]

def pieces (records : List (List Char)) : List (List Char) :=
  records.flatMap fun record => [record, ['\n']]

theorem pieces_take (records : List (List Char)) (count : Nat) :
    ((pieces records).take count).flatten = unlines (records.take (count / 2)) ++
      if count % 2 = 1 then records[count / 2]?.getD [] else [] := by
  induction records generalizing count with
  | nil => simp [pieces]
  | cons record records ih =>
      match count with
      | 0 => simp
      | 1 => simp [pieces]
      | count + 2 =>
          have half : (count + 2) / 2 = count / 2 + 1 := by omega
          have parity : (count + 2) % 2 = count % 2 := by omega
          have rest := ih count
          simp only [pieces, List.flatMap_cons, List.cons_append, List.nil_append,
            List.take_succ_cons, List.flatten_cons] at rest ⊢
          rw [rest, half, parity, List.take_succ_cons, List.getElem?_cons_succ, unlines_cons]
          simp

end LineText
