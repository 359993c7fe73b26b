import Mathlib.Data.Nat.Count
import Mathlib.Data.Int.Order.Basic
import BackgroundAgents.Lib.Strings

/-!
# Cron expressions

What the API and the form check of an automation's schedule. `cron-parser` is outside:
`CronParser` is what the code asks it, and `Enumerates` that it answers with the minutes
that match an expression, one after the other. What the five fields of an expression
match is a `Schedule`.

Times are UTC minutes since the epoch.
-/

namespace BackgroundAgents.Automation.Cron

open Strings

/-- The fastest schedule that automations support. -/
def minAutomationCronIntervalMinutes : ℤ := 15

/-! ## Schedules -/

/-- The minutes and hours that match, and the days since the epoch. The calendar repeats
after 400 years. -/
structure Schedule where
  minutes : List ℕ
  minutes_lt : ∀ m ∈ minutes, m < 60
  hours : List ℕ
  days : ℤ → Bool
  days_cycle : ∀ day, days (day + 146097) = days day

/-- The hours (since the epoch) with matching minutes. -/
def Schedule.fires (s : Schedule) (hour : ℤ) : Bool :=
  decide ((hour % 24).toNat ∈ s.hours) && s.days (hour / 24)

def Schedule.occurs (s : Schedule) (time : ℤ) : Bool :=
  decide ((time % 60).toNat ∈ s.minutes) && s.fires (time / 60)

/-- `u` is the first occurrence after `t`. -/
structure Schedule.Next (s : Schedule) (t u : ℤ) : Prop where
  occurs : s.occurs u = true
  after : t < u
  first : ∀ v, t < v → v < u → s.occurs v = false

/-- Consecutive occurrences are 15 minutes apart or more. -/
def Schedule.Spaced (s : Schedule) : Prop :=
  ∀ t u, s.occurs t = true → s.Next t u → minAutomationCronIntervalMinutes ≤ u - t

/-! ## The checks -/

structure CronParser where
  /-- `CronExpressionParser.parse` does not throw. -/
  parses : List Char → Bool
  /-- `next()` behind a date; `none` where it throws. -/
  next : List Char → ℤ → Option ℤ

/-- `text.split(/\s+/)`; `inside` a run of white space it is not split again. -/
def splitSpaces : (inside : Bool) → List Char → List (List Char)
  | _, [] => [[]]
  | inside, c :: text =>
    if isWhiteSpace c then
      if inside then splitSpaces true text else [] :: splitSpaces true text
    else (splitSpaces false text).modifyHead (List.cons c)

variable (parser : CronParser)

def isValidCron (expression : List Char) : Bool :=
  let parts := splitSpaces false (trim expression)
  if parts.length ≠ 5 then false else parser.parses expression

/-- 2025-01-01T00:00:00Z -/
def reference : ℤ := 28928160

/-- The next `n` occurrences. -/
def sampled (next : ℤ → Option ℤ) : (n : ℕ) → ℤ → Option (List ℤ)
  | 0, _ => some []
  | n + 1, t => do
    let u ← next t
    let times ← sampled next n u
    return u :: times

def intervals : List ℤ → List ℤ
  | t :: u :: times => (u - t) :: intervals (u :: times)
  | _ => []

def cronIntervalMinutes (expression : List Char) : Option ℤ :=
  if parser.parses expression then
    (sampled (parser.next expression) 6 reference).bind fun times => (intervals times).min?
  else none

/-- The message of the API, `none` where the expression is valid. -/
def validateAutomationCron (expression : List Char) : Option String :=
  if !isValidCron parser expression then
    some "scheduleCron must be a valid 5-field cron expression"
  else
    match cronIntervalMinutes parser expression with
    | some interval =>
      if interval < minAutomationCronIntervalMinutes then
        some ("Schedule interval must be at least " ++ toString minAutomationCronIntervalMinutes ++
          " minutes")
      else none
    | none => none

/-- `cron-parser` enumerates, in order, the minutes that match. -/
def Enumerates (schedule : List Char → Schedule) : Prop :=
  ∀ expression, isValidCron parser expression = true → ∀ t u,
    parser.next expression t = some u ↔ (schedule expression).Next t u

/-! ## What the sample shows -/

variable (s : Schedule)

/-- Two minutes of an hour are closer than 15 minutes. -/
def Schedule.CloseMinutes : Prop := ∃ m ∈ s.minutes, ∃ n ∈ s.minutes, m < n ∧ n < m + 15

/-- The last minutes of an hour and the first of the next are. -/
def Schedule.CloseHours : Prop := ∃ m ∈ s.minutes, ∃ n ∈ s.minutes, m + 60 < n + 15

/-- Whether it occurs `n` minutes after the reference. -/
def Schedule.After (n : ℕ) : Prop := 0 < n ∧ s.occurs (reference + n) = true

instance : DecidablePred s.After := fun n =>
  inferInstanceAs (Decidable (0 < n ∧ s.occurs (reference + n) = true))

def referenceHour : ℤ := 482136

/-- An hour and the next both match, so early that the sample goes beyond the first: at most
five occurrences lie between the reference and its end. -/
def Schedule.EarlyHours : Prop := ∃ n : ℕ, s.fires (referenceHour + n) = true ∧
  s.fires (referenceHour + n + 1) = true ∧ Nat.count s.After (60 * (n + 1)) ≤ 5

/-- Where five intervals show whether a schedule is too fast. -/
def Schedule.Shown : Prop :=
  s.CloseMinutes ∨ ¬ s.CloseHours ∨ (∀ hour, s.fires hour = true → s.fires (hour + 1) = false) ∨
    s.EarlyHours

end BackgroundAgents.Automation.Cron
