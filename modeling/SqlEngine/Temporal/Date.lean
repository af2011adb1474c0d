import SqlEngine.Text.Blank
import SqlEngine.Text.Number
import SqlEngine.Text.Split
import SqlEngine.ValueError

/-!
# Dates

Days of the Gregorian calendar, extended to all years of thirty-two bits, written `YYYY-MM-DD`.
-/

namespace SqlEngine

def isLeapYear (year : Int) : Bool := (year % 4 == 0 && year % 100 != 0) || year % 400 == 0

def daysInMonth (year : Int) (month : Nat) : Nat :=
  if month = 4 ∨ month = 6 ∨ month = 9 ∨ month = 11 then 30
  else if month = 2 then if isLeapYear year then 29 else 28
  else 31

theorem daysInMonth_le (year : Int) (month : Nat) : daysInMonth year month ≤ 31 := by
  unfold daysInMonth
  repeat' split
  all_goals decide

/-- A day that the calendar has. -/
structure IsCalendarDay (year : Int) (month day : Nat) : Prop where
  month_pos : 1 ≤ month
  month_le : month ≤ 12
  day_pos : 1 ≤ day
  day_le : day ≤ daysInMonth year month

instance (year : Int) (month day : Nat) : Decidable (IsCalendarDay year month day) :=
  decidable_of_iff (1 ≤ month ∧ month ≤ 12 ∧ 1 ≤ day ∧ day ≤ daysInMonth year month)
    ⟨fun ⟨a, b, c, d⟩ => ⟨a, b, c, d⟩, fun ⟨a, b, c, d⟩ => ⟨a, b, c, d⟩⟩

structure Date where
  year : Int
  month : Nat
  day : Nat
  year_bound : -0x80000000 ≤ year ∧ year < 0x80000000
  calendar : IsCalendarDay year month day
deriving DecidableEq

namespace Date

/-- At least two digits. -/
def twoDigits (n : Nat) : List Char := Text.padLeft '0' 2 (Text.natDigits n)

/-- At least four characters, the minus sign of a negative year among them. -/
def yearChars (year : Int) : List Char :=
  if year < 0 then '-' :: Text.padLeft '0' 3 (Text.natDigits year.natAbs)
  else Text.padLeft '0' 4 (Text.natDigits year.natAbs)

def charsOfParts (year : Int) (month day : Nat) : List Char :=
  yearChars year ++ '-' :: twoDigits month ++ '-' :: twoDigits day

def chars (d : Date) : List Char := charsOfParts d.year d.month d.day

def text (d : Date) : String := String.ofList d.chars

def ofParts? (year : Int) (month day : Nat) : Option Date :=
  if h : -0x80000000 ≤ year ∧ year < 0x80000000 then
    if c : IsCalendarDay year month day then some ⟨year, month, day, h, c⟩ else none
  else none

def ofParts (year : Int) (month day : Nat) : Except ValueError Date :=
  match ofParts? year month day with
  | some d => .ok d
  | none => .error (.malformed .date (String.ofList (charsOfParts year month day)))

/-- Three numbers between dashes; a dash in front belongs to the year. -/
def ofChars? (cs : List Char) : Option Date := do
  let (negative, body) := match Text.trim cs with
    | '-' :: r => (true, r)
    | cs => (false, cs)
  let (year, rest) ← Text.splitOnce? '-' body
  let (month, day) ← Text.splitOnce? '-' rest
  let y ← Text.readSignedWithin? 0x80000000 year
  let m ← Text.readUnsignedBelow? 256 month
  let d ← Text.readUnsignedBelow? 256 day
  ofParts? (if negative then -y else y) m d

def ofText (s : String) : Except ValueError Date :=
  match ofChars? s.toList with
  | some d => .ok d
  | none => .error (.malformed .date s)

/-- Dates in calendar order have growing ranks. -/
def rank (d : Date) : Int := (d.year * 16 + d.month) * 32 + d.day

def compare (a b : Date) : Ordering := Ord.compare a.rank b.rank

theorem eq_of_rank_eq {a b : Date} (h : a.rank = b.rank) : a = b := by
  obtain ⟨y, m, d, _, c⟩ := a
  obtain ⟨y', m', d', _, c'⟩ := b
  have := c.month_le
  have := c'.month_le
  have := Nat.le_trans c.day_le (daysInMonth_le _ _)
  have := Nat.le_trans c'.day_le (daysInMonth_le _ _)
  simp only [rank] at h
  simp only [mk.injEq]
  omega

example : (ofChars? " 2024-02-29 ".toList).map chars = some "2024-02-29".toList := by decide +kernel
example : (ofChars? "2023-02-29".toList) = none := by decide +kernel
example : (ofChars? "-5-1-1".toList).map chars = some "-005-01-01".toList := by decide +kernel

end Date

end SqlEngine
