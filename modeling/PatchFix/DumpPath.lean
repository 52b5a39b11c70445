import Mathlib.Data.List.Induction
import Mathlib.Logic.Function.Basic
import PatchFix.CrashJournal
import PatchFix.Library.FieldText

/-!
The minidump files: the path `build_dump_path` makes of the module's path and the local time, and
which dumps of a sequence of crashes are still there after it.
-/

namespace PatchFix

open FieldText

@[ext] structure SystemTime where
  year : Nat
  month : Nat
  day : Nat
  hour : Nat
  minute : Nat
  second : Nat
  yearBounds : 1601 ≤ year ∧ year ≤ 30827
  monthBounds : 1 ≤ month ∧ month ≤ 12
  dayBounds : 1 ≤ day ∧ day ≤ 31
  hourBound : hour < 24
  minuteBound : minute < 60
  secondBound : second < 60
  deriving DecidableEq

def maxPath : Nat := 260

def dumpStem : Option Text → Text × Text
  | none => ([], "patchfix_crash".toList)
  | some path =>
      let sep := rfind '\\' path
      let dir := match sep with
        | some sep => path.take (sep + 1)
        | none => []
      let filename := match sep with
        | some sep => path.drop (sep + 1)
        | none => path
      let stem := match rfind '.' filename with
        | some dot => filename.take dot
        | none => filename
      (dir, stem)

def timeText (st : SystemTime) : Text :=
  padded 10 4 st.year ++ padded 10 2 st.month ++ padded 10 2 st.day ++ '_' ::
    (padded 10 2 st.hour ++ padded 10 2 st.minute ++ padded 10 2 st.second)

/-- `format_to_n` into all of the buffer but its last character. -/
def buildDumpPath (modulePath : Option Text) (st : SystemTime) : Text :=
  let (dir, stem) := dumpStem modulePath
  (dir ++ stem ++ '.' :: (timeText st ++ ".dmp".toList)).take (maxPath - 1)

inductive DumpOutcome (Dump : Type) where
  | unavailable
  | notCreated
  | failed
  | written (dump : Dump)

structure DumpedCrash (Dump : Type) where
  time : SystemTime
  outcome : DumpOutcome Dump

variable {Dump : Type}

/-- What `CREATE_ALWAYS` and `MiniDumpWriteDump` leave at the path: nothing new, an empty file, or
the dump. -/
def DumpOutcome.left : DumpOutcome Dump → Option (Option Dump)
  | .unavailable => none
  | .notCreated => none
  | .failed => some none
  | .written dump => some (some dump)

def writeMinidump (modulePath : Option Text) (files : Text → Option (Option Dump))
    (crash : DumpedCrash Dump) : Text → Option (Option Dump) :=
  match crash.outcome.left with
  | none => files
  | some content =>
      Function.update files (buildDumpPath modulePath crash.time) (some content)

def lastDump (time : SystemTime) (crashes : List (DumpedCrash Dump)) : Option (Option Dump) :=
  crashes.foldl (fun last crash =>
    if crash.time = time then crash.outcome.left.or last else last) none

def DumpPathFits (modulePath : Option Text) : Prop :=
  (dumpStem modulePath).1.length + (dumpStem modulePath).2.length + 17 < maxPath

def readTime (text : Text) : Nat × Nat × Nat × Nat × Nat × Nat :=
  let (date, clock) := cut '_' text
  let yearWidth := date.length - 4
  (value 10 (date.take yearWidth), value 10 ((date.drop yearWidth).take 2),
    value 10 ((date.drop yearWidth).drop 2), value 10 (clock.take 2),
    value 10 ((clock.drop 2).take 2), value 10 (((clock.drop 2).drop 2).take 2))

theorem underscore_notMem (width number : Nat) : '_' ∉ padded 10 width number :=
  notMem_padded (by decide) (by decide) width number (by decide)

namespace SystemTime

variable (st : SystemTime)

theorem month_length : (padded 10 2 st.month).length = 2 :=
  padded_length (by decide) (by decide) (by have := st.monthBounds; omega)

theorem day_length : (padded 10 2 st.day).length = 2 :=
  padded_length (by decide) (by decide) (by have := st.dayBounds; omega)

theorem hour_length : (padded 10 2 st.hour).length = 2 :=
  padded_length (by decide) (by decide) (by have := st.hourBound; omega)

theorem minute_length : (padded 10 2 st.minute).length = 2 :=
  padded_length (by decide) (by decide) (by have := st.minuteBound; omega)

theorem second_length : (padded 10 2 st.second).length = 2 :=
  padded_length (by decide) (by decide) (by have := st.secondBound; omega)

theorem year_length : (padded 10 4 st.year).length ≤ 5 := by
  have short : (numeral 10 st.year).length ≤ 5 :=
    numeral_length_le (by decide) (by decide) (by have := st.yearBounds; omega)
  rw [padded, List.leftpad, List.length_append, List.length_replicate]
  omega

end SystemTime

theorem timeText_length (st : SystemTime) : (timeText st).length ≤ 16 := by
  have year := st.year_length
  simp only [timeText, List.length_append, List.length_cons, st.month_length, st.day_length,
    st.hour_length, st.minute_length, st.second_length]
  omega

theorem readTime_timeText (st : SystemTime) (rest : Text) :
    readTime (timeText st ++ rest) =
      (st.year, st.month, st.day, st.hour, st.minute, st.second) := by
  have whole : '_' ∉ padded 10 4 st.year ++ padded 10 2 st.month ++ padded 10 2 st.day := by
    simp [underscore_notMem]
  have width : (padded 10 4 st.year ++ padded 10 2 st.month ++ padded 10 2 st.day).length - 4 =
      (padded 10 4 st.year).length := by
    simp [st.month_length, st.day_length]
  rw [timeText, List.append_assoc, List.cons_append, readTime, cut_append whole]
  simp only [width]
  simp only [List.append_assoc, List.take_left, List.drop_left, List.take_left' st.month_length,
    List.drop_left' st.month_length, List.take_left' st.hour_length,
    List.drop_left' st.hour_length, List.take_left' st.minute_length,
    List.drop_left' st.minute_length, List.take_left' st.second_length]
  simp only [value_padded (by decide : 1 < 10) (by decide)]

def dumpPrefix (modulePath : Option Text) : Text :=
  (dumpStem modulePath).1 ++ (dumpStem modulePath).2 ++ ['.']

theorem buildDumpPath_eq (modulePath : Option Text) (st : SystemTime) :
    buildDumpPath modulePath st =
      (dumpPrefix modulePath ++ (timeText st ++ ".dmp".toList)).take (maxPath - 1) := by
  rw [buildDumpPath, dumpPrefix, List.append_assoc _ ['.'], List.singleton_append]

theorem dumpPathFits_iff (modulePath : Option Text) :
    DumpPathFits modulePath ↔ (dumpPrefix modulePath).length + 16 < maxPath := by
  simp only [DumpPathFits, dumpPrefix, List.length_append, List.length_singleton, Nat.add_assoc]

theorem readTime_buildDumpPath {modulePath : Option Text} (fits : DumpPathFits modulePath)
    (st : SystemTime) :
    readTime ((buildDumpPath modulePath st).drop (dumpPrefix modulePath).length) =
      (st.year, st.month, st.day, st.hour, st.minute, st.second) := by
  have inside : (timeText st).length ≤ maxPath - 1 - (dumpPrefix modulePath).length := by
    have longest := timeText_length st
    rw [dumpPathFits_iff] at fits
    omega
  rw [buildDumpPath_eq, List.drop_take, List.drop_left, List.take_append,
    List.take_of_length_le inside, readTime_timeText]

theorem buildDumpPath_injective {modulePath : Option Text} (fits : DumpPathFits modulePath) :
    Function.Injective (buildDumpPath modulePath) := by
  intro first second same
  have left := readTime_buildDumpPath fits first
  rw [same, readTime_buildDumpPath fits second] at left
  simp only [Prod.mk.injEq] at left
  obtain ⟨year, month, day, hour, minute, second⟩ := left
  exact SystemTime.ext year.symm month.symm day.symm hour.symm minute.symm second.symm

def lastYear (second : Nat) (bound : second < 60) : SystemTime where
  year := 30827
  month := 1
  day := 1
  hour := 0
  minute := 0
  second := second
  yearBounds := by decide
  monthBounds := by decide
  dayBounds := by decide
  hourBound := by decide
  minuteBound := by decide
  secondBound := bound

theorem timeText_lastYear :
    timeText (lastYear 0 (by decide)) = "308270101_00000".toList ++ ['0'] ∧
      timeText (lastYear 1 (by decide)) = "308270101_00000".toList ++ ['1'] := by
  decide +kernel

/-- Where the longest time does not fit, the last digit of its second is lost. -/
theorem buildDumpPath_collision {modulePath : Option Text} (long : ¬DumpPathFits modulePath) :
    buildDumpPath modulePath (lastYear 0 (by decide)) =
      buildDumpPath modulePath (lastYear 1 (by decide)) := by
  have cut : maxPath - 1 ≤ (dumpPrefix modulePath ++ "308270101_00000".toList).length := by
    have counted : "308270101_00000".toList.length = 15 := by decide +kernel
    rw [dumpPathFits_iff] at long
    rw [List.length_append, counted]
    omega
  have lost (rest : Text) :
      (dumpPrefix modulePath ++ ("308270101_00000".toList ++ rest)).take (maxPath - 1) =
        (dumpPrefix modulePath ++ "308270101_00000".toList).take (maxPath - 1) := by
    rw [← List.append_assoc, List.take_append_of_le_length cut]
  rw [buildDumpPath_eq, buildDumpPath_eq, timeText_lastYear.1, timeText_lastYear.2,
    List.append_assoc _ ['0'], List.append_assoc _ ['1'], lost, lost]

theorem writeMinidump_path {modulePath : Option Text} (fits : DumpPathFits modulePath)
    (files : Text → Option (Option Dump)) (crash : DumpedCrash Dump) (time : SystemTime) :
    writeMinidump modulePath files crash (buildDumpPath modulePath time) =
      if crash.time = time then crash.outcome.left.or (files (buildDumpPath modulePath time))
      else files (buildDumpPath modulePath time) := by
  have same := (buildDumpPath_injective fits).eq_iff (a := time) (b := crash.time)
  unfold writeMinidump
  cases crash.outcome.left with
  | none => simp
  | some content => simp [Function.update_apply, same, eq_comm (a := time)]

/-- After every sequence of crashes each second's last dump is the file of that second, if and only
if the module's path leaves room for the longest time. -/
theorem dumps_kept_iff (modulePath : Option Text) :
    (∀ (crashes : List (DumpedCrash Dump)) (time : SystemTime),
      crashes.foldl (writeMinidump modulePath) (fun _ => none) (buildDumpPath modulePath time) =
        lastDump time crashes) ↔ DumpPathFits modulePath := by
  constructor
  · intro kept
    by_contra long
    have other := kept [⟨lastYear 1 (by decide), .failed⟩] (lastYear 0 (by decide))
    rw [buildDumpPath_collision long] at other
    simp [writeMinidump, DumpOutcome.left, lastDump, lastYear] at other
  · intro fits crashes time
    induction crashes using List.reverseRecOn with
    | nil => rfl
    | append_singleton crashes crash ih =>
        rw [List.foldl_append, List.foldl_cons, List.foldl_nil, writeMinidump_path fits, ih,
          lastDump, lastDump, List.foldl_append, List.foldl_cons, List.foldl_nil]

end PatchFix
