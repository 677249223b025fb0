/-
  Instants and usage intervals (`record-contract/timestamps.ts`,
  `billing-amendment/usage-window.ts`).
-/
import RefundStudy.Record.Text

set_option autoImplicit false

namespace RefundStudy.Billing

open Record

/-! ## Instants -/

/-- `UtcMillis` with the instant it denotes. -/
structure UtcInstant where
  text : List Char
  millis : Nat

def isLeapYear (year : Nat) : Bool :=
  year % 4 == 0 && (year % 100 != 0 || year % 400 == 0)

def monthDays (year : Nat) : List Nat :=
  [31, if isLeapYear year then 29 else 28, 31, 30, 31, 30, 31, 31, 30, 31, 30, 31]

def daysBeforeYear (year : Nat) : Nat :=
  365 * year + ((year + 3) / 4 - (year + 99) / 100 + (year + 399) / 400)

def fieldValue (text : List Char) (start length : Nat) : Nat :=
  Nat.ofDigitChars 10 ((text.drop start).take length) 0

/-- `UTC_MILLIS_PATTERN`. -/
def hasUtcMillisShape (text : List Char) : Bool :=
  text.length == 24 &&
    text.zipIdx.all fun entry =>
      match entry.2 with
      | 4 | 7 => entry.1 == '-'
      | 10 => entry.1 == 'T'
      | 13 | 16 => entry.1 == ':'
      | 19 => entry.1 == '.'
      | 23 => entry.1 == 'Z'
      | _ => entry.1.isDigit

/-- `isUtcMillis` with the instant: the shape, and fields that name an existing instant, which is
what the round trip through `Date` tests. -/
def readUtcMillis (text : List Char) : Option UtcInstant :=
  if hasUtcMillisShape text then
    let year := fieldValue text 0 4
    let month := fieldValue text 5 2
    let day := fieldValue text 8 2
    let hour := fieldValue text 11 2
    let minute := fieldValue text 14 2
    let second := fieldValue text 17 2
    let milli := fieldValue text 20 3
    if 1 ≤ month ∧ month ≤ 12 ∧ 1 ≤ day ∧ day ≤ (monthDays year).getD (month - 1) 0 ∧
        hour ≤ 23 ∧ minute ≤ 59 ∧ second ≤ 59 then
      let days := daysBeforeYear year + ((monthDays year).take (month - 1)).sum + (day - 1)
      some ⟨text, (((days * 24 + hour) * 60 + minute) * 60 + second) * 1000 + milli⟩
    else none
  else none

/-- `CUR_SECONDS_PATTERN`. -/
def hasCurSecondsShape (text : List Char) : Bool :=
  text.length == 20 &&
    text.zipIdx.all fun entry =>
      match entry.2 with
      | 4 | 7 => entry.1 == '-'
      | 10 => entry.1 == 'T'
      | 13 | 16 => entry.1 == ':'
      | 19 => entry.1 == 'Z'
      | _ => entry.1.isDigit

def parseCurTimestamp (text : List Char) : Option UtcInstant :=
  readUtcMillis (if hasCurSecondsShape text then text.dropLast ++ ['.', '0', '0', '0', 'Z'] else text)

/-! ## Intervals -/

/-- Half-open, `[start, end)`. -/
structure UsageInterval where
  start : UtcInstant
  stop : UtcInstant

def parseCurInterval (startText endText : List Char) : Option UsageInterval :=
  match parseCurTimestamp startText, parseCurTimestamp endText with
  | some start, some stop => if stop.millis ≤ start.millis then none else some ⟨start, stop⟩
  | _, _ => none

def isContained (inner outer : UsageInterval) : Bool :=
  decide (outer.start.millis ≤ inner.start.millis ∧ inner.stop.millis ≤ outer.stop.millis)

def isDisjoint (first second : UsageInterval) : Bool :=
  decide (first.stop.millis ≤ second.start.millis ∨ second.stop.millis ≤ first.start.millis)

def Intersects (first second : UsageInterval) : Prop :=
  ∃ instant, (first.start.millis ≤ instant ∧ instant < first.stop.millis) ∧
    second.start.millis ≤ instant ∧ instant < second.stop.millis

theorem not_isDisjoint_of_intersects {first second : UsageInterval} (h : Intersects first second) :
    isDisjoint first second = false := by
  obtain ⟨instant, hfirst, hsecond⟩ := h
  simp only [isDisjoint, decide_eq_false_iff_not]
  omega

example : (parseCurTimestamp "2026-02-29T00:00:00Z".toList).isNone = true := by decide +kernel

end RefundStudy.Billing
