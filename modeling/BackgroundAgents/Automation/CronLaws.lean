import Mathlib.Data.Nat.Nth
import Mathlib.Algebra.Ring.Periodic
import BackgroundAgents.Automation.Cron

/-!
# What five intervals show

The occurrences after the reference are counted in minutes from it: the `i`-th is
`Nat.nth s.After i`. The check accepts an expression exactly when the first six of them
are 15 minutes apart (`accepted_iff`).
-/

namespace BackgroundAgents.Automation.Cron

open Strings

variable {s : Schedule} {parser : CronParser} {schedule : List Char → Schedule}

/-! ## The calendar -/

theorem fires_cycle (s : Schedule) (hour : ℤ) : s.fires (hour + 3506328) = s.fires hour := by
  have hhour : (hour + 3506328) % 24 = hour % 24 := by omega
  have hday : (hour + 3506328) / 24 = hour / 24 + 146097 := by omega
  unfold Schedule.fires
  rw [hhour, hday, s.days_cycle]

/-- Four hundred years in minutes. -/
theorem occurs_cycle (s : Schedule) : Function.Periodic s.occurs 210379680 := by
  intro t
  have hminute : (t + 210379680) % 60 = t % 60 := by omega
  have hhour : (t + 210379680) / 60 = t / 60 + 3506328 := by omega
  unfold Schedule.occurs
  rw [hminute, hhour, fires_cycle]

/-- A schedule that occurs at all occurs within 400 years from any time. -/
theorem occurs_again {t : ℤ} (h : s.occurs t = true) (after : ℤ) :
    ∃ u, s.occurs u = true ∧ after < u ∧ u ≤ after + 210379680 := by
  have hmod := Int.emod_add_mul_ediv (t - after - 1) 210379680
  have hpos := Int.emod_nonneg (t - after - 1) (show (210379680 : ℤ) ≠ 0 by omega)
  have hlt := Int.emod_lt_of_pos (t - after - 1) (show (0 : ℤ) < 210379680 by omega)
  refine ⟨after + 1 + (t - after - 1) % 210379680, ?_, by omega, by omega⟩
  have hsame := (occurs_cycle s).int_mul ((t - after - 1) / 210379680)
    (after + 1 + (t - after - 1) % 210379680)
  have ht : after + 1 + (t - after - 1) % 210379680 +
      (t - after - 1) / 210379680 * 210379680 = t := by omega
  rw [Int.cast_id, ht] at hsame
  rw [← hsame]
  exact h

/-! ## Hours and minutes -/

theorem occurs_hour {hour : ℤ} {m : ℕ} (hm : m < 60) :
    s.occurs (60 * hour + m) = true ↔ m ∈ s.minutes ∧ s.fires hour = true := by
  have hminute : (60 * hour + m) % 60 = m := by omega
  have hhour : (60 * hour + m) / 60 = hour := by omega
  unfold Schedule.occurs
  rw [hminute, hhour, Int.toNat_natCast, Bool.and_eq_true, decide_eq_true_eq]

theorem after_iff {n : ℕ} : s.After n ↔
    0 < n ∧ n % 60 ∈ s.minutes ∧ s.fires (referenceHour + (n / 60 : ℕ)) = true := by
  have hsplit : reference + n = 60 * (referenceHour + (n / 60 : ℕ)) + (n % 60 : ℕ) := by
    unfold reference referenceHour
    omega
  unfold Schedule.After
  rw [hsplit, occurs_hour (Nat.mod_lt n (by omega))]

theorem after_hour {n m : ℕ} (hm : m ∈ s.minutes) (hn : s.fires (referenceHour + n) = true)
    (hpos : 0 < 60 * n + m) : s.After (60 * n + m) := by
  have hlt := s.minutes_lt m hm
  have hminute : (60 * n + m) % 60 = m := by omega
  have hhour : (60 * n + m) / 60 = n := by omega
  rw [after_iff, hminute, hhour]
  exact ⟨hpos, hm, hn⟩

theorem after_infinite {t : ℤ} (h : s.occurs t = true) : (Set.ofPred s.After).Infinite := by
  refine Set.infinite_of_forall_exists_gt fun n => ?_
  obtain ⟨u, hu, hlt, _⟩ := occurs_again h (reference + n)
  refine ⟨(u - reference).toNat, ?_, by omega⟩
  have hback : reference + ((u - reference).toNat : ℤ) = u := by omega
  refine ⟨by omega, ?_⟩
  rw [hback]
  exact hu

/-! ## The sample -/

/-- The occurrences after the reference follow one another. -/
theorem next_nth (hinf : (Set.ofPred s.After).Infinite) (i : ℕ) :
    s.Next (reference + Nat.nth s.After i) (reference + Nat.nth s.After (i + 1)) where
  occurs := (Nat.nth_mem_of_infinite hinf (i + 1)).2
  after := by
    have hlt := (Nat.nth_lt_nth hinf).mpr (Nat.lt_add_one i)
    omega
  first := by
    intro v hv hv'
    refine Bool.eq_false_iff.mpr fun hoccurs => ?_
    have hback : reference + ((v - reference).toNat : ℤ) = v := by omega
    have hafter : s.After (v - reference).toNat := by
      refine ⟨by omega, ?_⟩
      rw [hback]
      exact hoccurs
    have hle := Nat.le_nth_of_lt_nth_succ (show (v - reference).toNat <
      Nat.nth s.After (i + 1) by omega) hafter
    omega

theorem next_first (hinf : (Set.ofPred s.After).Infinite) :
    s.Next reference (reference + Nat.nth s.After 0) where
  occurs := (Nat.nth_mem_of_infinite hinf 0).2
  after := by
    have hpos := (Nat.nth_mem_of_infinite hinf 0).1
    omega
  first := by
    intro v hv hv'
    refine Bool.eq_false_iff.mpr fun hoccurs => ?_
    have hback : reference + ((v - reference).toNat : ℤ) = v := by omega
    have hafter : s.After (v - reference).toNat := by
      refine ⟨by omega, ?_⟩
      rw [hback]
      exact hoccurs
    have hle := (Nat.isLeast_nth_of_infinite hinf 0).2 ⟨hafter, by omega⟩
    omega

theorem sampled_nth {next : ℤ → Option ℤ} (hnext : ∀ t u, next t = some u ↔ s.Next t u)
    (hinf : (Set.ofPred s.After).Infinite) (n : ℕ) : ∀ i : ℕ,
    sampled next n (reference + Nat.nth s.After i) =
      some ((List.range' (i + 1) n).map fun j => reference + (Nat.nth s.After j : ℤ)) := by
  induction n with
  | zero => exact fun i => rfl
  | succ n ih =>
    intro i
    rw [sampled, (hnext _ _).mpr (next_nth hinf i)]
    dsimp only [Option.bind_eq_bind, Option.bind_some]
    rw [ih (i + 1)]
    rfl

theorem intervals_map (f : ℕ → ℤ) (n : ℕ) : ∀ i : ℕ,
    intervals ((List.range' i (n + 1)).map f) =
      (List.range' i n).map fun j => f (j + 1) - f j := by
  induction n with
  | zero => exact fun i => rfl
  | succ n ih =>
    intro i
    have hrest := ih (i + 1)
    rw [List.range'_succ, List.map_cons] at hrest
    rw [List.range'_succ, List.range'_succ, List.map_cons, List.map_cons, intervals, hrest]
    rfl

/-- The check passes where the first six occurrences are far enough apart. -/
theorem accepted_iff (henum : Enumerates parser schedule) {expression : List Char}
    (hvalid : isValidCron parser expression = true)
    (hinf : (Set.ofPred (schedule expression).After).Infinite) :
    validateAutomationCron parser expression = none ↔
      ∀ i < 5, Nat.nth (schedule expression).After i + 15 ≤
        Nat.nth (schedule expression).After (i + 1) := by
  have hparses : parser.parses expression = true := by
    unfold isValidCron at hvalid
    dsimp only at hvalid
    split at hvalid
    next => exact absurd hvalid Bool.false_ne_true
    next => exact hvalid
  have hsampled : sampled (parser.next expression) 6 reference =
      some ((List.range' 0 6).map fun j =>
        reference + (Nat.nth (schedule expression).After j : ℤ)) := by
    rw [sampled, (henum expression hvalid _ _).mpr (next_first hinf)]
    dsimp only [Option.bind_eq_bind, Option.bind_some]
    rw [sampled_nth (henum expression hvalid) hinf 5 0]
    rfl
  have hinterval : cronIntervalMinutes parser expression =
      ((List.range' 0 5).map fun j => (reference + Nat.nth (schedule expression).After (j + 1)) -
        (reference + (Nat.nth (schedule expression).After j : ℤ))).min? := by
    unfold cronIntervalMinutes
    rw [if_pos hparses, hsampled, Option.bind_some, intervals_map]
  unfold validateAutomationCron
  rw [hvalid]
  cases hleast : cronIntervalMinutes parser expression with
  | none =>
    rw [hinterval, List.min?_eq_none_iff] at hleast
    exact absurd hleast (List.cons_ne_nil _ _)
  | some interval =>
    rw [hinterval] at hleast
    have hle : minAutomationCronIntervalMinutes ≤ interval ↔ _ := List.le_min?_iff hleast
    rw [List.forall_mem_map] at hle
    have hnone : (!true) = false := rfl
    rw [hnone, if_neg Bool.false_ne_true]
    dsimp only
    rw [ite_eq_right_iff]
    constructor
    · intro h i hi
      have hfast : ¬ interval < minAutomationCronIntervalMinutes := fun hlt => nomatch h hlt
      have hgap := hle.mp (by omega) i (List.mem_range'_1.mpr ⟨Nat.zero_le i, by omega⟩)
      unfold minAutomationCronIntervalMinutes at hgap
      omega
    · intro h hlt
      refine absurd (hle.mpr fun i hi => ?_) (by omega)
      have hgap := h i (by have := List.mem_range'_1.mp hi; omega)
      unfold minAutomationCronIntervalMinutes
      omega

/-! ## Schedules that are too fast -/

/-- The first six occurrences are 15 minutes apart. -/
def Schedule.Slow (s : Schedule) : Prop :=
  ∀ i < 5, Nat.nth s.After i + 15 ≤ Nat.nth s.After (i + 1)

theorem slow_far (h : s.Slow) {i j : ℕ} (hij : i ≤ j) (hj : j ≤ 5) :
    Nat.nth s.After i + 15 * (j - i) ≤ Nat.nth s.After j := by
  induction j, hij using Nat.le_induction with
  | base => omega
  | succ j hij ih =>
    have hprev := ih (by omega)
    have hgap := h j (by omega)
    omega

theorem nth_next_le (hinf : (Set.ofPred s.After).Infinite) {i m : ℕ} (hm : s.After m)
    (hlt : Nat.nth s.After i < m) : Nat.nth s.After (i + 1) ≤ m := by
  rw [← Nat.nth_count hm] at hlt ⊢
  exact (Nat.nth_le_nth hinf).mpr ((Nat.nth_lt_nth hinf).mp hlt)

/-- An occurrence among the first five and a later one. -/
theorem slow_pair (hinf : (Set.ofPred s.After).Infinite) (h : s.Slow) {n m : ℕ}
    (hn : s.After n) (hm : s.After m) (hlt : n < m) (hfew : Nat.count s.After n < 5) :
    n + 15 ≤ m := by
  have hgap := h _ hfew
  have hnext : Nat.nth s.After (Nat.count s.After n + 1) ≤ m := by
    refine nth_next_le hinf hm ?_
    rw [Nat.nth_count hn]
    exact hlt
  rw [Nat.nth_count hn] at hgap
  omega

/-- The sample shows two close minutes of an hour. -/
theorem slow_minutes (hinf : (Set.ofPred s.After).Infinite) (h : s.Slow) : ¬ s.CloseMinutes := by
  intro hclose
  obtain ⟨m, hm, n, hn, hlt, hclose⟩ := hclose
  have hnlt := s.minutes_lt n hn
  -- the hour of the first occurrence
  have hfirst := after_iff.mp (Nat.nth_mem_of_infinite hinf 0)
  obtain ⟨hour, hhour⟩ : ∃ hour, hour = Nat.nth s.After 0 / 60 := ⟨_, rfl⟩
  rw [← hhour] at hfirst
  have hnafter := after_hour hn hfirst.2.2 (by omega)
  by_cases hpos : 0 < 60 * hour + m
  · have hmafter := after_hour hm hfirst.2.2 hpos
    have hmany : 5 ≤ Nat.count s.After (60 * hour + m) := by
      by_contra hfew
      have hgap := slow_pair hinf h hmafter hnafter (by omega) (by omega)
      omega
    -- the sixth occurrence is in the same hour then
    have hsixth := (Nat.nth_le_nth hinf).mpr hmany
    rw [Nat.nth_count hmafter] at hsixth
    have hfar := slow_far h (Nat.zero_le 5) (Nat.le_refl 5)
    omega
  · -- the first of the two is the reference itself: they are compared in the next hour
    have hnext := Nat.le_nth_count hinf 60
    have hnextAfter := after_iff.mp
      (Nat.nth_mem_of_infinite hinf (Nat.count s.After 60))
    obtain ⟨later, hlater⟩ : ∃ later, later = Nat.nth s.After (Nat.count s.After 60) / 60 :=
      ⟨_, rfl⟩
    rw [← hlater] at hnextAfter
    have hbegins := after_hour hm hnextAfter.2.2 (by omega)
    have hends := after_hour hn hnextAfter.2.2 (by omega)
    have hcount : Nat.count s.After 60 ≤ Nat.count s.After (60 * later + m) :=
      Nat.count_monotone s.After (by omega)
    have hle := (Nat.nth_le_nth hinf).mpr hcount
    rw [Nat.nth_count hbegins] at hle
    have hsame : Nat.nth s.After (Nat.count s.After 60) = 60 * later + m := by omega
    have hmany : 4 < Nat.count s.After 60 := by
      by_contra hfew
      have hgap := h _ (show Nat.count s.After 60 < 5 by omega)
      have hpair := nth_next_le hinf hends
        (show Nat.nth s.After (Nat.count s.After 60) < 60 * later + n by omega)
      omega
    have hfifth := Nat.nth_lt_of_lt_count hmany
    have hfar := slow_far h (Nat.zero_le 4) (show 4 ≤ 5 by omega)
    omega

/-- The sample shows an early hour whose last minutes are close to the next hour. -/
theorem slow_hours (hinf : (Set.ofPred s.After).Infinite) (h : s.Slow) (hearly : s.EarlyHours) :
    ¬ s.CloseHours := by
  intro hclose
  obtain ⟨m, hm, n, hn, hclose⟩ := hclose
  obtain ⟨hour, hfires, hnext, hfew⟩ := hearly
  have hnlt := s.minutes_lt n hn
  have hlast := after_hour hn hfires (by omega)
  have hcast : referenceHour + hour + 1 = referenceHour + (hour + 1 : ℕ) := by omega
  rw [hcast] at hnext
  have hfirst := after_hour hm hnext (by omega)
  have hcount : Nat.count s.After (60 * hour + n) + 1 ≤ Nat.count s.After (60 * (hour + 1)) := by
    rw [← Nat.count_succ_eq_succ_count hlast]
    exact Nat.count_monotone s.After (by omega)
  have hgap := slow_pair hinf h hlast hfirst (by omega) (by omega)
  omega

/-- Where nothing close is shown, the first six occurrences are far enough apart. -/
theorem slow_of_not_shown (hinf : (Set.ofPred s.After).Infinite) (hminutes : ¬ s.CloseMinutes)
    (hearly : ¬ s.EarlyHours) : s.Slow := by
  intro i hi
  by_contra hgap
  have hlt := (Nat.nth_lt_nth hinf).mpr (Nat.lt_add_one i)
  have ht := after_iff.mp (Nat.nth_mem_of_infinite hinf i)
  have hu := after_iff.mp (Nat.nth_mem_of_infinite hinf (i + 1))
  by_cases hhour : Nat.nth s.After (i + 1) / 60 = Nat.nth s.After i / 60
  · exact hminutes ⟨_, ht.2.1, _, hu.2.1, by omega, by omega⟩
  · have hnext : Nat.nth s.After (i + 1) / 60 = Nat.nth s.After i / 60 + 1 := by omega
    rw [hnext] at hu
    refine hearly ⟨_, ht.2.2, hu.2.2, ?_⟩
    have hcount := Nat.count_monotone s.After
      (show 60 * (Nat.nth s.After i / 60 + 1) ≤ Nat.nth s.After (i + 1) by omega)
    rw [Nat.count_nth_of_infinite hinf] at hcount
    omega

/-! ## Spaced schedules -/

theorem spaced_of_far (hminutes : ¬ s.CloseMinutes)
    (hhours : ¬ s.CloseHours ∨ ∀ hour, s.fires hour = true → s.fires (hour + 1) = false) :
    s.Spaced := by
  intro t u ht hu
  have hlt := hu.after
  have hsplit : ∀ v : ℤ, v = 60 * (v / 60) + ((v % 60).toNat : ℕ) := by
    intro v
    omega
  have htimes := ht
  have hnext := hu.occurs
  rw [hsplit t, occurs_hour (by omega)] at htimes
  rw [hsplit u, occurs_hour (by omega)] at hnext
  unfold minAutomationCronIntervalMinutes
  by_contra hgap
  by_cases hhour : u / 60 = t / 60
  · exact hminutes ⟨_, htimes.1, _, hnext.1, by omega, by omega⟩
  · have hadjacent : u / 60 = t / 60 + 1 := by omega
    cases hhours with
    | inl hclose => exact hclose ⟨_, hnext.1, _, htimes.1, by omega⟩
    | inr hhours =>
      rw [hadjacent, hhours _ htimes.2] at hnext
      exact Bool.false_ne_true hnext.2

/-- The first occurrence after `t` is at `u` or before. -/
theorem next_before {t u : ℤ} (hu : s.occurs u = true) (hlt : t < u) :
    ∃ v, s.Next t v ∧ v ≤ u := by
  have hexists : ∃ n : ℕ, s.occurs (t + 1 + n) = true := by
    refine ⟨(u - t - 1).toNat, ?_⟩
    have hback : t + 1 + ((u - t - 1).toNat : ℤ) = u := by omega
    rw [hback]
    exact hu
  have hfirst : ∀ v, t < v → s.occurs v = true → t + 1 + Nat.find hexists ≤ v := by
    intro v hv hoccurs
    have hback : t + 1 + ((v - t - 1).toNat : ℤ) = v := by omega
    rw [← hback] at hoccurs
    have hle := Nat.find_min' hexists hoccurs
    omega
  refine ⟨t + 1 + Nat.find hexists, ⟨Nat.find_spec hexists, by omega, ?_⟩, hfirst u hlt hu⟩
  intro v hv hv'
  refine Bool.eq_false_iff.mpr fun hoccurs => ?_
  have hle := hfirst v hv hoccurs
  omega

theorem not_spaced {t u : ℤ} (ht : s.occurs t = true) (hu : s.occurs u = true) (hlt : t < u)
    (hclose : u < t + 15) : ¬ s.Spaced := by
  intro h
  obtain ⟨v, hv, hle⟩ := next_before hu hlt
  have hgap := h t v ht hv
  unfold minAutomationCronIntervalMinutes at hgap
  omega

/-! ## Expressions of numbers -/

/-- The first occurrence within `fuel` minutes. -/
def Schedule.search (s : Schedule) : (fuel : ℕ) → ℤ → Option ℤ
  | 0, _ => none
  | fuel + 1, t => if s.occurs (t + 1) then some (t + 1) else s.search fuel (t + 1)

theorem search_next : ∀ {fuel : ℕ} {t u : ℤ}, s.search fuel t = some u → s.Next t u
  | 0, _, _, h => nomatch h
  | fuel + 1, t, u, h => by
    unfold Schedule.search at h
    split at h
    next hoccurs =>
      obtain rfl := Option.some.inj h
      exact ⟨hoccurs, by omega, fun v hv hv' => by omega⟩
    next hnot =>
      have ih := search_next h
      refine ⟨ih.occurs, by have := ih.after; omega, fun v hv hv' => ?_⟩
      by_cases hlater : t + 1 < v
      · exact ih.first v hlater hv'
      · obtain rfl : v = t + 1 := by omega
        exact Bool.eq_false_iff.mpr hnot

theorem search_finds : ∀ {fuel : ℕ} {t u : ℤ}, s.Next t u → u ≤ t + fuel →
    s.search fuel t = some u
  | 0, t, u, h, hle => by
    have hlt := h.after
    omega
  | fuel + 1, t, u, h, hle => by
    unfold Schedule.search
    have hlt := h.after
    split
    next hoccurs =>
      have hle := h.first (t + 1) (by omega)
      rw [hoccurs] at hle
      have hu : ¬ t + 1 < u := fun hlt => absurd (hle hlt) (by decide)
      exact congrArg some (by omega)
    next hnot =>
      have hne : u ≠ t + 1 := fun he => hnot (he ▸ h.occurs)
      refine search_finds ⟨h.occurs, by omega, fun v hv => h.first v (by omega)⟩ ?_
      push_cast at hle
      omega

/-- Four hundred years are enough. -/
theorem search_iff {t u : ℤ} : s.search 210379680 t = some u ↔ s.Next t u := by
  constructor
  · exact search_next
  · intro h
    obtain ⟨v, hv, hlt, hle⟩ := occurs_again h.occurs t
    have hnot : ¬ v < u := fun hvu => absurd (h.first v hlt hvu) (by rw [hv]; decide)
    exact search_finds h (by push_cast; omega)

/-- A decimal number. -/
def number (digits : List Char) : Option ℕ :=
  if digits = [] then none
  else digits.foldlM (fun n c => if c.isDigit then some (10 * n + (c.toNat - 48)) else none) 0

/-- `*`, or numbers below the bound between commas. -/
def numbers (bound : ℕ) (field : List Char) : Option { l : List ℕ // ∀ m ∈ l, m < bound } :=
  if field = ['*'] then some ⟨List.range bound, fun _ => List.mem_range.mp⟩
  else do
    let l ← (field.splitOn ',').mapM number
    if h : ∀ m ∈ l, m < bound then some ⟨l, h⟩ else none

/-- An expression that leaves the day open. -/
def everyDay (expression : List Char) : Option Schedule :=
  match splitSpaces false (trim expression) with
  | [minute, hour, ['*'], ['*'], ['*']] => do
    let minutes ← numbers 60 minute
    let hours ← numbers 24 hour
    return { minutes, minutes_lt := minutes.2, hours, days _ := true, days_cycle _ := rfl }
  | _ => none

def everyDaySchedule (expression : List Char) : Schedule :=
  (everyDay expression).getD
    { minutes := [], minutes_lt := fun _ h => absurd h List.not_mem_nil, hours := [],
      days _ := false, days_cycle _ := rfl }

/-- `cron-parser` on the expressions that leave the day open. -/
def everyDayParser : CronParser where
  parses expression := (everyDay expression).isSome
  next expression t := (everyDaySchedule expression).search 210379680 t

theorem everyDay_enumerates : Enumerates everyDayParser everyDaySchedule :=
  fun _ _ _ _ => search_iff

/-! ## Accepted schedules -/

/-- A schedule that never occurs is spaced, and any other is shown by its sample where that
can be. -/
theorem spaced_of_slow (h : {t | s.occurs t = true}.Nonempty → s.Slow) (hshown : s.Shown) :
    s.Spaced := by
  intro t u ht hu
  have hinf := after_infinite ht
  have hslow := h ⟨t, ht⟩
  have hminutes := slow_minutes hinf hslow
  have hfar : ¬ s.CloseHours ∨ ∀ hour, s.fires hour = true → s.fires (hour + 1) = false := by
    obtain hclose | hfar | hfar | hearly := hshown
    · exact absurd hclose hminutes
    · exact Or.inl hfar
    · exact Or.inr hfar
    · exact Or.inl (slow_hours hinf hslow hearly)
  exact spaced_of_far hminutes hfar t u ht hu

/-- An accepted expression fires every 15 minutes at most, exactly where five intervals after
the reference show a schedule that is too fast. -/
theorem validateAutomationCron_spaced (henum : Enumerates parser schedule)
    (expression : List Char) :
    (validateAutomationCron parser expression = none → (schedule expression).Spaced) ↔
      isValidCron parser expression = false ∨ (schedule expression).Shown := by
  constructor
  · intro h
    refine or_iff_not_imp_left.mpr fun hvalid => ?_
    rw [Bool.not_eq_false] at hvalid
    by_contra hshown
    unfold Schedule.Shown at hshown
    rw [not_or, not_or, not_or, not_not, not_forall] at hshown
    obtain ⟨hminutes, ⟨m, hm, n, hn, hclose⟩, ⟨hour, hhour⟩, hearly⟩ := hshown
    rw [Classical.not_imp, Bool.not_eq_false] at hhour
    have hmlt := (schedule expression).minutes_lt m hm
    have hnlt := (schedule expression).minutes_lt n hn
    have hlast := (occurs_hour hnlt).mpr ⟨hn, hhour.1⟩
    have hfirst := (occurs_hour hmlt).mpr ⟨hm, hhour.2⟩
    have hinf := after_infinite hlast
    have hslow := slow_of_not_shown hinf hminutes hearly
    exact not_spaced hlast hfirst (by omega) (by omega)
      (h ((accepted_iff henum hvalid hinf).mpr hslow))
  · intro h haccepted
    have hvalid : isValidCron parser expression = true := by
      by_contra hinvalid
      unfold validateAutomationCron at haccepted
      rw [Bool.not_eq_true] at hinvalid
      rw [hinvalid] at haccepted
      cases haccepted
    refine spaced_of_slow (fun hsome => ?_) (h.resolve_left (by rw [hvalid]; decide))
    obtain ⟨t, ht⟩ := hsome
    exact (accepted_iff henum hvalid (after_infinite ht)).mp haccepted

/-- `0,30 * * * *` -/
def everyHalfHour : List Char := ['0', ',', '3', '0', ' ', '*', ' ', '*', ' ', '*', ' ', '*']

theorem everyHalfHour_spaced :
    validateAutomationCron everyDayParser everyHalfHour = none ∧
      (everyDaySchedule everyHalfHour).Spaced := by
  have haccepted : validateAutomationCron everyDayParser everyHalfHour = none := by decide +kernel
  refine ⟨haccepted, (validateAutomationCron_spaced everyDay_enumerates everyHalfHour).mpr
    (Or.inr (Or.inr (Or.inl ?_))) haccepted⟩
  unfold Schedule.CloseHours
  decide +kernel

/-- `0,50 0,2,4,6,8,9 * * *` -/
def everySecondHour : List Char :=
  ['0', ',', '5', '0', ' ', '0', ',', '2', ',', '4', ',', '6', ',', '8', ',', '9', ' ', '*', ' ',
    '*', ' ', '*']

/-- The sample ends at six o'clock; at ten minutes to nine and at nine it fires again. -/
theorem ten_minutes_accepted :
    Enumerates everyDayParser everyDaySchedule ∧
      validateAutomationCron everyDayParser everySecondHour = none ∧
      ¬ (everyDaySchedule everySecondHour).Spaced := by
  have hlast : (everyDaySchedule everySecondHour).occurs (reference + 530) = true := by
    decide +kernel
  have hfirst : (everyDaySchedule everySecondHour).occurs (reference + 540) = true := by
    decide +kernel
  exact ⟨everyDay_enumerates, by decide +kernel, not_spaced hlast hfirst (by omega) (by omega)⟩

end BackgroundAgents.Automation.Cron
