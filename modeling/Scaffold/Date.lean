/-!
Calendar dates: the proleptic Gregorian calendar with a year zero, and the stamp of a date in the
licence notice.
-/

namespace Scaffold

def isLeapYear (year : Int) : Bool :=
  year % 4 == 0 && (year % 100 != 0 || year % 400 == 0)

def daysInMonth (year : Int) (month : Nat) : Nat :=
  if month = 2 then if isLeapYear year then 29 else 28
  else if month = 4 ∨ month = 6 ∨ month = 9 ∨ month = 11 then 30
  else 31

/-- The dates that can be stamped. Their years are the numbers of 19 bits with a sign, except for
the least and the greatest of them. -/
def IsCalendarDay (year : Int) (month day : Nat) : Prop :=
  -262143 ≤ year ∧ year ≤ 262142 ∧ 1 ≤ month ∧ month ≤ 12 ∧ 1 ≤ day ∧ day ≤ daysInMonth year month

instance (year : Int) (month day : Nat) : Decidable (IsCalendarDay year month day) :=
  inferInstanceAs (Decidable (_ ∧ _))

structure Date where
  year : Int
  month : Nat
  day : Nat
  isCalendarDay : IsCalendarDay year month day := by decide
deriving DecidableEq

namespace Date

def ofYearMonthDay? (year month day : Int) : Option Date :=
  if h : 0 ≤ month ∧ 0 ≤ day ∧ IsCalendarDay year month.toNat day.toNat then
    some ⟨year, month.toNat, day.toNat, h.2.2⟩
  else none

theorem ofYearMonthDay?_self (date : Date) :
    ofYearMonthDay? date.year date.month date.day = some date := by
  simp [ofYearMonthDay?, date.isCalendarDay]

def paddedDigits (width n : Nat) : String :=
  String.ofList (List.leftpad width '0' (Nat.toDigits 10 n))

/-- A year has at least four digits, and a sign unless it has exactly four and is not negative. -/
def yearText (year : Int) : String :=
  if year < 0 then "-" ++ paddedDigits 4 year.natAbs
  else if year ≤ 9999 then paddedDigits 4 year.toNat
  else "+" ++ paddedDigits 4 year.toNat

def stamp (date : Date) : String :=
  paddedDigits 2 date.day ++ "/" ++ paddedDigits 2 date.month ++ "/" ++ yearText date.year

end Date

end Scaffold
