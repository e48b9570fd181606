import Mathlib.Data.String.Basic
import TTasks.Format.Fixed
import TTasks.Sqlite.Object

/-!
# `datetime`

The naive `datetime`, as `datetime.now()` makes it, with the text that a store keeps of it: a fixed
layout down to the seconds, and the microseconds where there are any. Two of them compare field by
field, from the year on.

Of the texts that `fromisoformat` accepts, the model has the layout that `isoformat` writes; a store
holds no other.
-/

namespace TTasks.Sqlite

open Format (Layout Fits digits ofDigits? write read)

/-- `calendar.isleap`. -/
def isLeap (year : Nat) : Bool := year % 4 = 0 && (year % 100 ≠ 0 || year % 400 = 0)

/-- `calendar.monthrange`, as `datetime` checks the day against it. -/
def daysInMonth (year month : Nat) : Nat :=
  if month = 2 then (if isLeap year then 29 else 28)
  else if month ∈ [4, 6, 9, 11] then 30
  else 31

/-- A `datetime` without a time zone, which its constructor has accepted. -/
@[ext] structure NaiveDatetime where
  year : Nat
  month : Nat
  day : Nat
  hour : Nat
  minute : Nat
  second : Nat
  microsecond : Nat
  date : (1 ≤ year ∧ year ≤ 9999) ∧ (1 ≤ month ∧ month ≤ 12) ∧ 1 ≤ day ∧ day ≤ daysInMonth year month
  time : hour < 24 ∧ minute < 60 ∧ second < 60 ∧ microsecond < 1000000
  deriving DecidableEq

namespace NaiveDatetime

/-- The fields that `isoformat` always writes. -/
def toSeconds (d : NaiveDatetime) : List Nat := [d.year, d.month, d.day, d.hour, d.minute, d.second]

/-- All fields, the largest first. -/
def fields (d : NaiveDatetime) : List Nat := d.toSeconds ++ [d.microsecond]

/-- A time is its fields. -/
theorem fields_injective : Function.Injective fields := by
  rintro ⟨y, mo, d, h, mi, s, us, _, _⟩ ⟨y', mo', d', h', mi', s', us', _, _⟩ same
  simpa [fields, toSeconds] using same

/-- Earlier and later. -/
instance : LinearOrder NaiveDatetime := LinearOrder.lift' fields fields_injective

/-- Times are compared field by field, the year first. -/
theorem lt_iff {d e : NaiveDatetime} : d < e ↔ d.fields < e.fields := Iff.rfl

/-- `YYYY-MM-DDTHH:MM:SS`. -/
def layout : Layout := [(4, ['-']), (2, ['-']), (2, ['T']), (2, [':']), (2, [':']), (2, [])]

/-- `.ffffff`, where there are microseconds. -/
def fraction (microsecond : Nat) : List Char :=
  if microsecond = 0 then [] else '.' :: digits 6 microsecond

/-- `datetime.isoformat`, which leaves the fraction out where there are no microseconds. -/
def isoformat (d : NaiveDatetime) : String :=
  String.ofList (write layout d.toSeconds ++ fraction d.microsecond)

/-- `datetime(...)`, which checks its fields. -/
def new? (year month day hour minute second microsecond : Nat) : Option NaiveDatetime :=
  if date : _ ∧ _ ∧ _ then
    if time : _ then some ⟨year, month, day, hour, minute, second, microsecond, date, time⟩ else none
  else none

/-- The rest of the text after the seconds. -/
def readFraction : List Char → Option Nat
  | [] => some 0
  | '.' :: text => if text.length = 6 then ofDigits? text else none
  | _ => none

/-- `datetime.fromisoformat`, on texts of the two shapes that `isoformat` writes. -/
def fromisoformat (text : String) : Option NaiveDatetime := do
  let (ns, rest) ← read layout text.toList
  let microsecond ← readFraction rest
  match ns with
  | [year, month, day, hour, minute, second] => new? year month day hour minute second microsecond
  | _ => none

/-! ## Reading what was written -/

/-- No month has more than 31 days. -/
theorem daysInMonth_le (year month : Nat) : daysInMonth year month ≤ 31 := by
  unfold daysInMonth
  split
  · split <;> omega
  · split <;> omega

/-- Each field fits the digits that it is written with. -/
theorem fits (d : NaiveDatetime) : Fits layout d.toSeconds := by
  obtain ⟨⟨-, year⟩, ⟨-, month⟩, -, day⟩ := d.date
  obtain ⟨hour, minute, second, -⟩ := d.time
  have days := daysInMonth_le d.year d.month
  unfold Fits layout toSeconds
  simp only [List.forall₂_cons, List.forall₂_nil_left_iff, and_true]
  omega

/-- The microseconds are read back, or taken to be none where none are written. -/
theorem readFraction_fraction {n : Nat} (small : n < 1000000) :
    readFraction (fraction n) = some n := by
  unfold fraction
  split
  · rename_i none
    rw [none]
    rfl
  · change (if (digits 6 n).length = 6 then ofDigits? (digits 6 n) else none) = some n
    rw [if_pos (Format.length_digits 6 n), Format.ofDigits?_digits (by simpa using small)]

/-- The constructor accepts the fields of a time that it has accepted. -/
theorem new?_self (d : NaiveDatetime) :
    new? d.year d.month d.day d.hour d.minute d.second d.microsecond = some d := by
  unfold new?
  rw [dif_pos d.date, dif_pos d.time]

/-- What `isoformat` writes, `fromisoformat` reads. -/
theorem fromisoformat_isoformat (d : NaiveDatetime) : fromisoformat d.isoformat = some d := by
  unfold fromisoformat isoformat
  rw [String.toList_ofList, Format.read_write d.fits]
  simp only [Option.bind_eq_bind, Option.bind_some, readFraction_fraction d.time.2.2.2]
  exact new?_self d

instance : DateTime NaiveDatetime := ⟨isoformat, fromisoformat, fromisoformat_isoformat⟩

/-! ## The order of the texts -/

/-- Fractions are ordered as the microseconds are, as they are written with six digits or not at
all. -/
theorem fraction_lt_fraction {n m : Nat} (hn : n < 1000000) (hm : m < 1000000) :
    fraction n < fraction m ↔ n < m := by
  unfold fraction
  by_cases zero : n = 0
  · by_cases zero' : m = 0
    · simp [zero, zero']
    · have pos : 0 < m := by omega
      simp [zero, zero', pos]
  · by_cases zero' : m = 0
    · simp [zero, zero']
    · rw [if_neg zero, if_neg zero', List.cons_lt_cons_iff,
        Format.digits_lt_digits (by simpa using hn) (by simpa using hm)]
      simp

/-- A later `datetime` has a later text. -/
theorem isoformat_lt {d e : NaiveDatetime} : d.isoformat < e.isoformat ↔ d < e := by
  have length : d.toSeconds.length = e.toSeconds.length := rfl
  have single : ∀ a b : Nat, [a] < [b] ↔ a < b := by simp [List.cons_lt_cons_iff]
  rw [String.lt_iff_toList_lt, isoformat, isoformat, String.toList_ofList, String.toList_ofList,
    Format.write_lt_write d.fits e.fits, fraction_lt_fraction d.time.2.2.2 e.time.2.2.2, lt_iff,
    fields, fields, Format.append_lt_append length]
  exact or_congr Iff.rfl (and_congr Iff.rfl (single _ _).symm)

end NaiveDatetime

end TTasks.Sqlite
