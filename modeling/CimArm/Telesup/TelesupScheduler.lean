import CimArm.Lib.Progress
import Mathlib.Algebra.Order.Ring.Int
import Mathlib.Data.Int.Init
import Mathlib.Tactic.SplitIfs

/-!
# When a supervision starts

A supervision has a time, which comes back every so many days, and a frame of minutes behind
it.  Beside the frame there is an emergency band of hours, in which windows of a frame follow
each other with a pause between them.  After a supervision its time is moved on past the
current day.

* `band_iff`: what the loop over the windows looks for.
* `first_iff`: when the time can be moved on.
* `meets_schedule_iff`: the answers and the next time are right exactly when neither the frame nor the
  hours of the band are left where the code does not look at them.
-/

namespace CimArm.TelesupScheduler

open Function

open Progress (runWhile)

/-! ## Times -/

/-- The day that a time is in, as a `time_t`, which has a sign. -/
def truncDateTime (date : BitVec 32) : Int := date.toInt - date.toInt % 86400

/-- What `gmtime_r` breaks a time into, as far as it is used. -/
def tm_hour (date : BitVec 32) : Int := date.toInt % 86400 / 3600

def tm_min (date : BitVec 32) : Int := date.toInt % 3600 / 60

/-- `TelesupSettings`, with the numbers as they are given; an `int` that overflows is not
modelled. -/
structure TelesupSettings : Type where
  lastSuceedTelesupDateTime : BitVec 32
  lastAttemptDateTime : BitVec 32
  nextTelesupDateTime : BitVec 32
  nextSecondaryTelesupDateTime : BitVec 32
  telesupFrame : Int
  fromHour : Int
  toHour : Int
  timeBetweenAttempts : Int
  telesupFrequency : Int

structure Scheduler : Type where
  firstTelesup : Bool
  randMinutes : Nat

inductive Fault : Type
  | divisionByZero
  deriving DecidableEq

/-! ## The band -/

def checkInFrame (aCurrentDTime aSupDTime : BitVec 32) (aFrame : Int) : Bool :=
  if aSupDTime = 0 then false
  else
    decide (aSupDTime ≤ aCurrentDTime) &&
      decide (aCurrentDTime - aSupDTime ≤ BitVec.ofInt 32 (aFrame * 60))

/-- The numbers that a band is made of. -/
structure Band : Type where
  fromHour : Int
  toHour : Int
  frame : Int
  attemptsMinutes : Int
  randMinutes : Nat

namespace Band

variable (self : Band)

def frameBegin (i : Nat) : Int :=
  self.fromHour * 60 + self.randMinutes + self.frame * i + self.attemptsMinutes * i

def frameEnd (i : Nat) : Int :=
  self.fromHour * 60 + self.randMinutes + self.frame * (i + 1) + self.attemptsMinutes * i

def framesQty : Int :=
  ((self.toHour - self.fromHour) * 60).tdiv self.frame + self.attemptsMinutes

/-- The rounds of the loop that are left, from a window on. -/
def windows (cHour : Int) : Nat → Nat → Bool
  | 0, _ => false
  | left + 1, i =>
    if cHour < self.frameBegin i then false
    else if self.frameBegin i ≤ cHour ∧ cHour < self.frameEnd i then true
    else windows cHour left (i + 1)

/-- The number of windows is computed before anything is looked at. -/
def checkInEmergencyBand (currentHour currentMinute : Int) : Except Fault Bool :=
  if self.frame = 0 then .error .divisionByZero
  else
    let cHour := currentHour * 60 + currentMinute
    if self.fromHour < 0 ∨ self.fromHour > 24 ∨ self.toHour < 0 ∨ self.toHour > 24 ∨
        self.fromHour ≥ self.toHour ∨ self.fromHour = self.toHour then .ok false
    else if cHour < self.fromHour * 60 + self.randMinutes then .ok false
    else .ok (self.windows cHour self.framesQty.toNat 0)

end Band

/-! ## The answer -/

def TelesupSettings.band (self : TelesupSettings) (randMinutes : Nat) : Band where
  fromHour := self.fromHour
  toHour := self.toHour
  frame := self.telesupFrame
  attemptsMinutes := self.timeBetweenAttempts
  randMinutes := randMinutes

namespace Scheduler

variable (self : Scheduler) (now : BitVec 32) (aTelesup : TelesupSettings)

/-- The check of a restart: a supervision that was missed is made up for. -/
def bootCheck : Bool :=
  if truncDateTime aTelesup.lastSuceedTelesupDateTime ≥
      truncDateTime aTelesup.nextTelesupDateTime then false
  else
    decide (aTelesup.nextTelesupDateTime + BitVec.ofInt 32 (aTelesup.telesupFrame * 60) ≤ now)

/-- The hour and minute of the supervision on the current day. -/
def sup1 : BitVec 32 :=
  BitVec.ofInt 32 (truncDateTime now + tm_hour aTelesup.nextTelesupDateTime * 3600 +
    tm_min aTelesup.nextTelesupDateTime * 60)

/-- `||` leaves the division out on the scheduled day. -/
def onSchedule : Except Fault Bool :=
  let days := truncDateTime now - truncDateTime aTelesup.nextTelesupDateTime
  if truncDateTime now = truncDateTime aTelesup.nextTelesupDateTime then .ok true
  else if aTelesup.telesupFrequency * 86400 = 0 then .error .divisionByZero
  else .ok (days.tmod (aTelesup.telesupFrequency * 86400) = 0)

def inBand : Except Fault Bool :=
  (aTelesup.band self.randMinutes).checkInEmergencyBand (tm_hour now) (tm_min now)

def canStartTelesupWithNewSchema : Except Fault Bool := do
  if truncDateTime now < truncDateTime aTelesup.nextTelesupDateTime then return false
  if self.firstTelesup then return bootCheck now aTelesup
  if ← onSchedule now aTelesup then
    if checkInFrame now (sup1 now aTelesup) aTelesup.telesupFrame then return true
    if aTelesup.lastAttemptDateTime < aTelesup.nextTelesupDateTime then return false
    if tm_hour now < aTelesup.fromHour then return false
    if tm_hour now ≥ aTelesup.toHour then return false
    if aTelesup.nextTelesupDateTime + BitVec.ofInt 32 (aTelesup.telesupFrame * 60) ≤ now then
      self.inBand now aTelesup
    else return false
  else self.inBand now aTelesup

end Scheduler

/-! ## The next time -/

/-- A day that is not after the current one. -/
def notAfter (now date : BitVec 32) : Bool := truncDateTime date ≤ truncDateTime now

/-- Both loops, with fuel; `frequency` is the days as seconds. -/
def configureNextTelesup (now : BitVec 32) (fuel : Nat) (aTelesup : TelesupSettings) :
    Option TelesupSettings := do
  let frequency := BitVec.ofInt 32 (aTelesup.telesupFrequency * 86400)
  let nextTelesupDateTime ←
    runWhile (notAfter now) (· + frequency) fuel aTelesup.nextTelesupDateTime
  let nextSecondaryTelesupDateTime ←
    runWhile (notAfter now) (· + frequency) fuel aTelesup.nextSecondaryTelesupDateTime
  return { aTelesup with
    nextTelesupDateTime := nextTelesupDateTime
    nextSecondaryTelesupDateTime := nextSecondaryTelesupDateTime }

/-! ## Days -/

def day (seconds : Int) : Int := seconds / 86400

theorem truncDateTime_eq (date : BitVec 32) : truncDateTime date = day date.toInt * 86400 := by
  unfold truncDateTime day
  omega

theorem truncDateTime_le {now date : BitVec 32} :
    truncDateTime date ≤ truncDateTime now ↔ day date.toInt ≤ day now.toInt := by
  rw [truncDateTime_eq, truncDateTime_eq]
  omega

theorem notAfter_iff {now date : BitVec 32} :
    notAfter now date = true ↔ day date.toInt ≤ day now.toInt :=
  decide_eq_true_iff.trans truncDateTime_le

theorem day_add_periods (seconds k frequency : Int) :
    day (seconds + k * (frequency * 86400)) = day seconds + k * frequency := by
  unfold day
  rw [← Int.mul_assoc]
  exact Int.add_mul_ediv_right _ _ (by decide)

/-! ## The first day after the current one -/

section next

variable {frequency : Int} {now stored : BitVec 32}

/-- The stored time, moved on by whole periods to the first day after the current one. -/
structure First (frequency : Int) (now stored next : BitVec 32) : Prop where
  periods : ∃ k : Nat, next.toInt = stored.toInt + k * (frequency * 86400)
  after : day now.toInt < day next.toInt
  first : ∀ k : Nat, day now.toInt < day (stored.toInt + k * (frequency * 86400)) →
    next.toInt ≤ stored.toInt + k * (frequency * 86400)

/-- The stored day is after the current one and a period back would not be, or the frequency
is positive and the first day after the current one is still a `time_t`. -/
def Fits (frequency : Int) (now stored : BitVec 32) : Prop :=
  (day now.toInt < day stored.toInt ∧
    (0 ≤ frequency ∨ day stored.toInt + frequency ≤ day now.toInt)) ∨
  (day stored.toInt ≤ day now.toInt ∧ 0 < frequency ∧
    stored.toInt + ((day now.toInt - day stored.toInt) / frequency + 1) * (frequency * 86400) <
      2 ^ 31)

/-- One call of the loop for a time. -/
def MovedOn (frequency : Int) (now stored next : BitVec 32) : Prop :=
  ∃ fuel, runWhile (notAfter now) (· + BitVec.ofInt 32 (frequency * 86400)) fuel stored = some next

theorem iterate_add_toInt (period : Int) (k : Nat) :
    ((· + BitVec.ofInt 32 period)^[k] stored).toInt =
      (stored.toInt + k * period).bmod (2 ^ 32) := by
  induction k with
  | zero =>
    rw [iterate_zero_apply, Int.natCast_zero, Int.zero_mul, Int.add_zero]
    exact BitVec.toInt_bmod_cancel stored |>.symm
  | succ k ih =>
    rw [iterate_succ_apply', BitVec.toInt_add, ih, BitVec.toInt_ofInt,
      Int.bmod_add_bmod, Int.add_bmod_bmod, Int.add_assoc, Int.natCast_succ, Int.add_mul,
      Int.one_mul]

theorem iterate_add_toInt_of_lt {k : Nat} (positive : 0 < frequency)
    (fits : stored.toInt + k * (frequency * 86400) < 2 ^ 31) :
    ((· + BitVec.ofInt 32 (frequency * 86400))^[k] stored).toInt =
      stored.toInt + k * (frequency * 86400) := by
  rw [iterate_add_toInt]
  have lower := BitVec.le_toInt stored
  have forward : 0 ≤ (k : Int) * (frequency * 86400) := Int.mul_nonneg (by omega) (by omega)
  exact Int.bmod_eq_of_le (by omega) (by omega)

theorem lt_ediv_add_one {k : Int} (positive : 0 < frequency) :
    day now.toInt < day stored.toInt + k * frequency ↔
      (day now.toInt - day stored.toInt) / frequency + 1 ≤ k := by
  rw [Int.add_one_le_iff, Int.ediv_lt_iff_lt_mul positive]
  omega

theorem Fits.movedOn (fits : Fits frequency now stored) :
    ∃ next, MovedOn frequency now stored next ∧ First frequency now stored next := by
  rcases fits with ⟨later, back⟩ | ⟨earlier, positive, below⟩
  · refine ⟨stored, ⟨1, ?_⟩, ⟨0, by simp⟩, later, fun k after => ?_⟩
    · rw [runWhile, if_neg fun stays => absurd (notAfter_iff.1 stays) (by omega)]
    · rw [day_add_periods] at after
      rcases back with forward | back
      · have steps : 0 ≤ (k : Int) * (frequency * 86400) := Int.mul_nonneg (by omega) (by omega)
        omega
      · cases k with
        | zero => simp
        | succ k =>
          have steps : ((k + 1 : Nat) : Int) * frequency ≤ 1 * frequency := by
            refine Int.mul_le_mul_of_nonpos_right (by omega) (by omega)
          omega
  · obtain ⟨k, count⟩ : ∃ k : Nat,
        (k : Int) = (day now.toInt - day stored.toInt) / frequency + 1 := by
      have whole := Int.ediv_nonneg (Int.sub_nonneg_of_le earlier) (Int.le_of_lt positive)
      exact ⟨_, Int.toNat_of_nonneg (by omega)⟩
    rw [← count] at below
    have reached := iterate_add_toInt_of_lt positive below
    have first : ∀ j : Int, day now.toInt < day stored.toInt + j * frequency ↔ (k : Int) ≤ j :=
      fun j => count ▸ lt_ediv_add_one positive
    refine ⟨_, Progress.exists_runWhile_iff.2 ⟨k, rfl, ?_, fun j hj => ?_⟩, ⟨k, reached⟩, ?_, ?_⟩
    · rw [← Bool.not_eq_true, notAfter_iff, reached, day_add_periods, Int.not_le]
      exact (first k).2 (Int.le_refl _)
    · have less : (j : Int) * (frequency * 86400) ≤ k * (frequency * 86400) :=
        Int.mul_le_mul_of_nonneg_right (by omega) (by omega)
      rw [notAfter_iff, iterate_add_toInt_of_lt positive (by omega), day_add_periods,
        ← Int.not_lt, first]
      omega
    · rw [reached, day_add_periods]
      exact (first k).2 (Int.le_refl _)
    · intro j after
      rw [day_add_periods, first] at after
      rw [reached]
      have more : (k : Int) * (frequency * 86400) ≤ j * (frequency * 86400) :=
        Int.mul_le_mul_of_nonneg_right after (by omega)
      omega

theorem First.fits {next : BitVec 32} (movedOn : MovedOn frequency now stored next)
    (first : First frequency now stored next) : Fits frequency now stored := by
  obtain ⟨k, periods⟩ := first.periods
  have after := first.after
  rcases Int.lt_or_le (day now.toInt) (day stored.toInt) with later | earlier
  · refine .inl ⟨later, ?_⟩
    by_contra back
    obtain ⟨j, rfl, -, before⟩ := Progress.exists_runWhile_iff.1 movedOn
    cases j with
    | zero =>
      have sooner := first.first 1
      rw [day_add_periods, iterate_zero_apply] at sooner
      omega
    | succ j =>
      have stays := notAfter_iff.1 (before 0 (Nat.succ_pos j))
      rw [iterate_zero_apply] at stays
      omega
  · rw [periods, day_add_periods] at after
    have positive : 0 < frequency := by
      by_contra backwards
      have steps : (k : Int) * frequency ≤ 0 :=
        Int.mul_nonpos_of_nonneg_of_nonpos (by omega) (by omega)
      omega
    have count := (lt_ediv_add_one positive).1 after
    have fewer : ((day now.toInt - day stored.toInt) / frequency + 1) * (frequency * 86400) ≤
        k * (frequency * 86400) := Int.mul_le_mul_of_nonneg_right count (by omega)
    have upper := BitVec.toInt_lt (x := next)
    refine .inr ⟨earlier, positive, ?_⟩
    omega

theorem Fits.positive (fits : Fits frequency now stored)
    (late : 0 ≤ day now.toInt - day stored.toInt) : 0 < frequency := by
  rcases fits with ⟨later, -⟩ | ⟨-, positive, -⟩
  · omega
  · exact positive

end next

/-! ## The windows -/

namespace Band

variable {self : Band} {cHour : Int}

theorem frameEnd_eq (i : Nat) : self.frameEnd i = self.frameBegin i + self.frame := by
  unfold frameEnd frameBegin
  rw [Int.mul_add, Int.mul_one]
  omega

/-- A minute of the day in one of the windows that the loop looks at; the loop ends at a window
that begins after the minute. -/
structure Contains (band : Band) (cHour : Int) : Prop where
  fromHour : 0 ≤ band.fromHour
  hours : band.fromHour < band.toHour
  toHour : band.toHour ≤ 24
  window : ∃ i : Nat, (i : Int) < band.framesQty ∧ cHour < band.frameBegin i + band.frame ∧
    ∀ j ≤ i, band.frameBegin j ≤ cHour

theorem windows_iff {left i : Nat} : self.windows cHour left i = true ↔
    ∃ k, i ≤ k ∧ k < i + left ∧ cHour < self.frameBegin k + self.frame ∧
      ∀ j, i ≤ j → j ≤ k → self.frameBegin j ≤ cHour := by
  induction left generalizing i with
  | zero =>
    rw [windows]
    refine ⟨fun none => (Bool.false_ne_true none).elim, ?_⟩
    rintro ⟨k, lower, upper, -⟩
    omega
  | succ left ih =>
    rw [windows]
    split_ifs with early inside
    · refine ⟨False.elim, ?_⟩
      rintro ⟨k, lower, -, -, begun⟩
      have here := begun i (Nat.le_refl _) lower
      omega
    · refine ⟨fun _ => ⟨i, Nat.le_refl _, by omega, ?_, fun j lower upper => ?_⟩, fun _ => rfl⟩
      · rw [← frameEnd_eq]
        exact inside.2
      · rw [Nat.le_antisymm upper lower]
        exact inside.1
    · rw [ih]
      constructor
      · rintro ⟨k, lower, upper, before, begun⟩
        refine ⟨k, by omega, by omega, before, fun j hj hk => ?_⟩
        rcases Nat.lt_or_eq_of_le hj with later | rfl
        · exact begun j later hk
        · omega
      · rintro ⟨k, lower, upper, before, begun⟩
        have other : k ≠ i := by
          rintro rfl
          rw [frameEnd_eq] at inside
          exact inside ⟨begun k (Nat.le_refl _) (Nat.le_refl _), before⟩
        exact ⟨k, by omega, by omega, before, fun j hj hk => begun j (by omega) hk⟩

/-- Unless it divides by zero, the band answers whether one of its windows has the minute. -/
theorem checkInEmergencyBand_iff (divides : self.frame ≠ 0) (hour minute : Int) :
    ∃ b, self.checkInEmergencyBand hour minute = .ok b ∧
      (b = true ↔ self.Contains (hour * 60 + minute)) := by
  unfold checkInEmergencyBand
  rw [if_neg divides]
  dsimp only
  split_ifs with wrong early
  · refine ⟨false, rfl, fun none => (Bool.false_ne_true none).elim, fun contains => ?_⟩
    have fromHour := contains.fromHour
    have hours := contains.hours
    have toHour := contains.toHour
    omega
  · refine ⟨false, rfl, fun none => (Bool.false_ne_true none).elim, fun contains => ?_⟩
    obtain ⟨i, -, -, begun⟩ := contains.window
    have first := begun 0 (Nat.zero_le _)
    simp only [frameBegin, Int.natCast_zero, Int.mul_zero] at first
    omega
  · refine ⟨_, rfl, windows_iff.trans ⟨?_, fun contains => ?_⟩⟩
    · rintro ⟨k, -, upper, before, begun⟩
      exact ⟨by omega, by omega, by omega, k, by omega, before,
        fun j hj => begun j (Nat.zero_le _) hj⟩
    · obtain ⟨i, upper, before, begun⟩ := contains.window
      exact ⟨i, Nat.zero_le _, by omega, before, fun j _ hj => begun j hj⟩

end Band

/-! ## What an answer may be -/

section answer

variable {self : Scheduler} {now : BitVec 32} {t : TelesupSettings}

/-- The supervision's hour and minute on the current day, in seconds. -/
def start (now : BitVec 32) (t : TelesupSettings) : Int :=
  day now.toInt * 86400 + tm_hour t.nextTelesupDateTime * 3600 + tm_min t.nextTelesupDateTime * 60

def minuteOfDay (now : BitVec 32) : Int := tm_hour now * 60 + tm_min now

/-- The days that have passed since the scheduled one. -/
def daysSince (now : BitVec 32) (t : TelesupSettings) : Int :=
  day now.toInt - day t.nextTelesupDateTime.toInt

/-- The frame behind the scheduled hour and minute, on a scheduled day. -/
def Timely (now : BitVec 32) (t : TelesupSettings) : Prop :=
  (∃ k : Nat, daysSince now t = k * t.telesupFrequency) ∧
    start now t ≤ now.toInt ∧ now.toInt - start now t ≤ t.telesupFrame * 60

/-- The hours of the band, and one of the windows in it. -/
def InHours (self : Scheduler) (now : BitVec 32) (t : TelesupSettings) : Prop :=
  t.fromHour ≤ tm_hour now ∧ tm_hour now < t.toHour ∧
    ∃ i : Nat, (t.band self.randMinutes).frameBegin i ≤ minuteOfDay now ∧
      minuteOfDay now < (t.band self.randMinutes).frameBegin i + t.telesupFrame

/-- No division by zero, and TRUE only where a supervision may start. -/
def Answers (self : Scheduler) (now : BitVec 32) (t : TelesupSettings) : Prop :=
  ∃ b, self.canStartTelesupWithNewSchema now t = .ok b ∧
    (b = true → 0 ≤ daysSince now t ∧ (Timely now t ∨ InHours self now t))

/-- Where the code does not look: a frame that is negative is taken for a large one, one of 0
divides where the band is looked at, and on a day between the scheduled ones the end of the
band is not looked at. -/
structure Covered (s : Scheduler) (now : BitVec 32) (t : TelesupSettings) : Prop where
  negative : t.telesupFrame < 0 → t.telesupFrequency ∣ daysSince now t →
    ¬(start now t ≠ 0 ∧ start now t ≤ now.toInt ∧
      now.toInt - start now t ≤ t.telesupFrame * 60 % 2 ^ 32)
  zero : t.telesupFrame = 0 → t.telesupFrequency ∣ daysSince now t ∧
    ((start now t ≠ 0 ∧ start now t = now.toInt) ∨
      t.lastAttemptDateTime < t.nextTelesupDateTime ∨ tm_hour now < t.fromHour ∨
      t.toHour ≤ tm_hour now ∨ now < t.nextTelesupDateTime)
  hours : 0 < t.telesupFrame → ¬t.telesupFrequency ∣ daysSince now t →
    t.toHour ≤ tm_hour now → ¬(t.band s.randMinutes).Contains (minuteOfDay now)

theorem checkInFrame_iff : checkInFrame now (Scheduler.sup1 now t) t.telesupFrame = true ↔
    start now t ≠ 0 ∧ start now t ≤ now.toInt ∧
      now.toInt - start now t ≤ t.telesupFrame * 60 % 2 ^ 32 := by
  have same : Scheduler.sup1 now t = BitVec.ofInt 32 (start now t) := by
    unfold Scheduler.sup1 start
    rw [truncDateTime_eq]
  have within : day now.toInt * 86400 ≤ start now t ∧
      start now t < day now.toInt * 86400 + 86400 := by
    unfold start tm_hour tm_min
    omega
  have today : day now.toInt * 86400 ≤ now.toInt ∧ now.toInt < day now.toInt * 86400 + 86400 := by
    unfold day
    omega
  generalize start now t = seconds at same within
  generalize day now.toInt = today at within today
  have value := BitVec.toInt_eq_toNat_cond now
  have bound := now.isLt
  have sup1 : ((Scheduler.sup1 now t).toNat : Int) = seconds % 2 ^ 32 := by
    rw [same, BitVec.toNat_ofInt]
    exact Int.toNat_of_nonneg (Int.emod_nonneg _ (by decide))
  have allowed : ((BitVec.ofInt 32 (t.telesupFrame * 60)).toNat : Int) =
      t.telesupFrame * 60 % 2 ^ 32 := by
    rw [BitVec.toNat_ofInt]
    exact Int.toNat_of_nonneg (Int.emod_nonneg _ (by decide))
  have unset : Scheduler.sup1 now t = 0 ↔ (Scheduler.sup1 now t).toNat = 0 := by
    rw [← BitVec.toNat_inj]
    rfl
  have passed := BitVec.toNat_sub now (Scheduler.sup1 now t)
  unfold checkInFrame
  split_ifs with zero
  · rw [unset] at zero
    refine ⟨False.elim, fun inside => ?_⟩
    omega
  · rw [unset] at zero
    rw [Bool.and_eq_true, decide_eq_true_eq, decide_eq_true_eq, BitVec.le_def, BitVec.le_def]
    omega

theorem onSchedule_eq (positive : 0 < t.telesupFrequency) :
    Scheduler.onSchedule now t = .ok (decide (t.telesupFrequency ∣ daysSince now t)) := by
  have days : truncDateTime now - truncDateTime t.nextTelesupDateTime =
      daysSince now t * 86400 := by
    rw [truncDateTime_eq, truncDateTime_eq]
    unfold daysSince
    omega
  have divides : (daysSince now t * 86400).tmod (t.telesupFrequency * 86400) = 0 ↔
      t.telesupFrequency ∣ daysSince now t :=
    Int.dvd_iff_tmod_eq_zero.symm.trans (Int.mul_dvd_mul_iff_right (by decide))
  unfold Scheduler.onSchedule
  dsimp only
  split_ifs with same none
  · have zero : daysSince now t = 0 := by omega
    rw [zero, decide_eq_true (Int.dvd_zero _)]
  · omega
  · rw [days]
    exact congrArg Except.ok (decide_eq_decide.2 divides)

/-- The answer on a day that is not before the scheduled one, when the boot check is over. -/
theorem canStart_eq (checked : self.firstTelesup = false) (positive : 0 < t.telesupFrequency)
    (late : 0 ≤ daysSince now t) : self.canStartTelesupWithNewSchema now t =
      if t.telesupFrequency ∣ daysSince now t then
        if checkInFrame now (Scheduler.sup1 now t) t.telesupFrame then .ok true
        else if t.lastAttemptDateTime < t.nextTelesupDateTime ∨ tm_hour now < t.fromHour ∨
            t.toHour ≤ tm_hour now ∨
            ¬t.nextTelesupDateTime + BitVec.ofInt 32 (t.telesupFrame * 60) ≤ now then .ok false
        else self.inBand now t
      else self.inBand now t := by
  have reached : ¬truncDateTime now < truncDateTime t.nextTelesupDateTime := by
    rw [truncDateTime_eq, truncDateTime_eq]
    unfold daysSince at late
    omega
  unfold Scheduler.canStartTelesupWithNewSchema
  rw [if_neg reached, checked, if_neg Bool.false_ne_true, onSchedule_eq positive]
  by_cases scheduled : t.telesupFrequency ∣ daysSince now t
  · rw [if_pos scheduled, decide_eq_true scheduled]
    dsimp only [bind, Except.bind, pure, Except.pure]
    split_ifs <;> first | rfl | grind
  · rw [if_neg scheduled, decide_eq_false scheduled]
    rfl

theorem inBand_zero (zero : t.telesupFrame = 0) :
    self.inBand now t = .error .divisionByZero := by
  unfold Scheduler.inBand Band.checkInEmergencyBand
  exact if_pos zero

theorem inBand_iff (self : Scheduler) (now : BitVec 32) (divides : t.telesupFrame ≠ 0) :
    ∃ b, self.inBand now t = .ok b ∧
      (b = true ↔ (t.band self.randMinutes).Contains (minuteOfDay now)) :=
  @Band.checkInEmergencyBand_iff (t.band self.randMinutes) divides _ _

theorem Band.Contains.fromHour_le
    (contains : (t.band self.randMinutes).Contains (minuteOfDay now)) :
    t.fromHour ≤ tm_hour now := by
  obtain ⟨i, -, -, begun⟩ := contains.window
  have first := begun 0 (Nat.zero_le _)
  simp only [Band.frameBegin, Int.natCast_zero, Int.mul_zero, TelesupSettings.band] at first
  unfold minuteOfDay tm_min at first
  omega

theorem Band.Contains.inHours (contains : (t.band self.randMinutes).Contains (minuteOfDay now))
    (before : tm_hour now < t.toHour) : InHours self now t := by
  obtain ⟨i, -, inside, begun⟩ := contains.window
  exact ⟨contains.fromHour_le, before, i, begun i (Nat.le_refl _), inside⟩

theorem Timely.dvd (timely : Timely now t) : t.telesupFrequency ∣ daysSince now t := by
  obtain ⟨⟨k, days⟩, -⟩ := timely
  exact ⟨k, days.trans (Int.mul_comm ..)⟩

theorem timely_of_dvd (positive : 0 < t.telesupFrequency) (late : 0 ≤ daysSince now t)
    (scheduled : t.telesupFrequency ∣ daysSince now t) (since : start now t ≤ now.toInt)
    (within : now.toInt - start now t ≤ t.telesupFrame * 60) : Timely now t := by
  obtain ⟨k, days⟩ := scheduled
  have whole : 0 ≤ k := by
    by_contra negative
    have back : t.telesupFrequency * k < 0 := Int.mul_neg_of_pos_of_neg positive (by omega)
    omega
  refine ⟨⟨k.toNat, ?_⟩, since, within⟩
  rw [Int.toNat_of_nonneg whole, days, Int.mul_comm]

theorem not_allowed_of_neg (negative : t.telesupFrame < 0) :
    ¬(Timely now t ∨ InHours self now t) := by
  intro allowed
  rcases allowed with ⟨-, since, within⟩ | ⟨-, -, i, begun, before⟩
  · omega
  · omega

/-- The band is looked at: on a day between the scheduled ones, or on a scheduled day behind
the frame, in its hours, after an attempt. -/
def Consults (now : BitVec 32) (t : TelesupSettings) : Prop :=
  t.telesupFrequency ∣ daysSince now t →
    checkInFrame now (Scheduler.sup1 now t) t.telesupFrame = false ∧
      ¬(t.lastAttemptDateTime < t.nextTelesupDateTime ∨ tm_hour now < t.fromHour ∨
        t.toHour ≤ tm_hour now ∨
        ¬t.nextTelesupDateTime + BitVec.ofInt 32 (t.telesupFrame * 60) ≤ now)

theorem canStart_of_consults (checked : self.firstTelesup = false) (positive : 0 < t.telesupFrequency)
    (late : 0 ≤ daysSince now t) (consults : Consults now t) :
    self.canStartTelesupWithNewSchema now t = self.inBand now t := by
  rw [canStart_eq checked positive late]
  split_ifs with scheduled inFrame wrong
  · exact absurd inFrame (by simp [(consults scheduled).1])
  · exact absurd wrong (consults scheduled).2
  · rfl
  · rfl

/-- With a frame of 0 the band is looked at unless one of the checks before it answers. -/
theorem consults_of_zero (zero : t.telesupFrame = 0)
    (open' : ¬(t.telesupFrequency ∣ daysSince now t ∧
      ((start now t ≠ 0 ∧ start now t = now.toInt) ∨
        t.lastAttemptDateTime < t.nextTelesupDateTime ∨ tm_hour now < t.fromHour ∨
        t.toHour ≤ tm_hour now ∨ now < t.nextTelesupDateTime))) : Consults now t := by
  intro scheduled
  constructor
  · rw [← Bool.not_eq_true, checkInFrame_iff, zero]
    intro inFrame
    obtain ⟨set, since, within⟩ := inFrame
    exact open' ⟨scheduled, .inl ⟨set, by omega⟩⟩
  · intro wrong
    refine open' ⟨scheduled, .inr ?_⟩
    rcases wrong with attempt | early | late | before
    · exact .inl attempt
    · exact .inr (.inl early)
    · exact .inr (.inr (.inl late))
    · rw [zero, Int.zero_mul, BitVec.ofInt_ofNat, BitVec.add_zero, BitVec.not_le] at before
      exact .inr (.inr (.inr before))

theorem Covered.divides (covered : Covered self now t) (consults : Consults now t) :
    t.telesupFrame ≠ 0 := by
  intro zero
  obtain ⟨scheduled, answered⟩ := covered.zero zero
  obtain ⟨outside, passed⟩ := consults scheduled
  rcases answered with ⟨set, exactly⟩ | attempt | early | late | before
  · rw [← Bool.not_eq_true, checkInFrame_iff, zero] at outside
    exact outside ⟨set, by omega, by omega⟩
  · exact passed (.inl attempt)
  · exact passed (.inr (.inl early))
  · exact passed (.inr (.inr (.inl late)))
  · refine passed (.inr (.inr (.inr ?_)))
    rw [zero, Int.zero_mul, BitVec.ofInt_ofNat, BitVec.add_zero, BitVec.not_le]
    exact before

/-- Where the band is looked at, and is over on no day but a scheduled one, its answer is
right. -/
theorem Covered.inBand (covered : Covered self now t) (consults : Consults now t)
    (late : 0 ≤ daysSince now t) : ∃ b, self.inBand now t = .ok b ∧
      (b = true → 0 ≤ daysSince now t ∧ (Timely now t ∨ InHours self now t)) := by
  obtain ⟨b, answer, iff⟩ := inBand_iff self now (covered.divides consults)
  refine ⟨b, answer, fun yes => ⟨late, .inr ?_⟩⟩
  have contains := iff.1 yes
  refine contains.inHours ?_
  by_contra past
  by_cases scheduled : t.telesupFrequency ∣ daysSince now t
  · exact (consults scheduled).2 (.inr (.inr (.inl (by omega))))
  · obtain ⟨i, -, inside, begun⟩ := contains.window
    have begins := begun i (Nat.le_refl _)
    have frame : 0 < t.telesupFrame := by
      change _ < _ + t.telesupFrame at inside
      omega
    exact covered.hours frame scheduled (by omega) contains

theorem answers_iff (checked : self.firstTelesup = false) (positive : 0 < t.telesupFrequency)
    (late : 0 ≤ daysSince now t) : Answers self now t ↔ Covered self now t := by
  constructor
  · intro answers
    obtain ⟨b, answer, right⟩ := answers
    refine ⟨fun negative scheduled inFrame => ?_, fun zero => ?_,
      fun positiveFrame between ended contains => ?_⟩
    · rw [canStart_eq checked positive late, if_pos scheduled, if_pos (checkInFrame_iff.2 inFrame)]
        at answer
      exact not_allowed_of_neg negative (right (Except.ok.inj answer).symm).2
    · by_contra open'
      rw [canStart_of_consults checked positive late (consults_of_zero zero open'), inBand_zero zero]
        at answer
      cases answer
    · rw [canStart_eq checked positive late, if_neg between] at answer
      obtain ⟨b', answer', iff⟩ := @inBand_iff t self now (by omega)
      obtain rfl := Except.ok.inj (answer'.symm.trans answer)
      rcases (right (iff.2 contains)).2 with timely | inHours
      · exact between timely.dvd
      · exact absurd inHours.2.1 (by omega)
  · intro covered
    by_cases consults : Consults now t
    · rw [Answers, canStart_of_consults checked positive late consults]
      exact covered.inBand consults late
    · rw [Answers, canStart_eq checked positive late]
      split_ifs with scheduled inFrame wrong
      · obtain ⟨set, since, within⟩ := checkInFrame_iff.1 inFrame
        have frame : 0 ≤ t.telesupFrame := by
          by_contra negative
          exact covered.negative (by omega) scheduled ⟨set, since, within⟩
        refine ⟨true, rfl, fun _ => ⟨late, .inl ?_⟩⟩
        exact timely_of_dvd positive late scheduled since (by omega)
      · exact ⟨false, rfl, fun none => (Bool.false_ne_true none).elim⟩
      · exact absurd (fun _ => ⟨by simpa using inFrame, wrong⟩) consults
      · exact absurd (fun yes => absurd yes scheduled) consults

theorem answers_of_early (early : daysSince now t < 0) : Answers self now t := by
  refine ⟨false, ?_, fun none => (Bool.false_ne_true none).elim⟩
  have before : truncDateTime now < truncDateTime t.nextTelesupDateTime := by
    rw [truncDateTime_eq, truncDateTime_eq]
    unfold daysSince at early
    omega
  unfold Scheduler.canStartTelesupWithNewSchema
  rw [if_pos before]
  rfl

/-- The answers are right, and both times are moved on to where they should be. -/
structure Meets (s : Scheduler) (now : BitVec 32) (t : TelesupSettings) : Prop where
  answers : Answers s now t
  next : ∃ fuel next, configureNextTelesup now fuel t = some next ∧
    First t.telesupFrequency now t.nextTelesupDateTime next.nextTelesupDateTime ∧
    First t.telesupFrequency now t.nextSecondaryTelesupDateTime next.nextSecondaryTelesupDateTime

theorem configureNext_iff : (∃ fuel next, configureNextTelesup now fuel t = some next ∧
      First t.telesupFrequency now t.nextTelesupDateTime next.nextTelesupDateTime ∧
      First t.telesupFrequency now t.nextSecondaryTelesupDateTime
        next.nextSecondaryTelesupDateTime) ↔
    Fits t.telesupFrequency now t.nextTelesupDateTime ∧
      Fits t.telesupFrequency now t.nextSecondaryTelesupDateTime := by
  constructor
  · intro moved
    obtain ⟨fuel, next, ends, first, second⟩ := moved
    obtain ⟨date, endsFirst, ends⟩ := Option.bind_eq_some_iff.1 ends
    obtain ⟨date', endsSecond, ends⟩ := Option.bind_eq_some_iff.1 ends
    obtain rfl := Option.some.inj ends
    exact ⟨first.fits ⟨fuel, endsFirst⟩, second.fits ⟨fuel, endsSecond⟩⟩
  · intro fits
    obtain ⟨date, ⟨fuel, ends⟩, first⟩ := fits.1.movedOn
    obtain ⟨date', ⟨fuel', ends'⟩, second⟩ := fits.2.movedOn
    refine ⟨max fuel fuel', { t with
      nextTelesupDateTime := date
      nextSecondaryTelesupDateTime := date' }, ?_, first, second⟩
    unfold configureNextTelesup
    dsimp only
    rw [Progress.runWhile_mono ends (Nat.le_max_left ..), Option.bind_eq_bind, Option.bind_some,
      Progress.runWhile_mono ends' (Nat.le_max_right ..)]
    rfl

/-- Once the boot check is over, the schedule is right exactly when the times can be moved on
and, from the scheduled day on, the settings stay where the code looks. -/
theorem meets_schedule_iff (checked : self.firstTelesup = false) : Meets self now t ↔
    (Fits t.telesupFrequency now t.nextTelesupDateTime ∧
      Fits t.telesupFrequency now t.nextSecondaryTelesupDateTime) ∧
    (0 ≤ daysSince now t → Covered self now t) := by
  constructor
  · intro meets
    have fits := configureNext_iff.1 meets.next
    refine ⟨fits, fun late => ?_⟩
    have positive : 0 < t.telesupFrequency := fits.1.positive late
    exact (answers_iff checked positive late).1 meets.answers
  · intro both
    obtain ⟨fits, covered⟩ := both
    refine ⟨?_, configureNext_iff.2 fits⟩
    rcases Int.lt_or_le (daysSince now t) 0 with early | late
    · exact answers_of_early early
    · exact (answers_iff checked (fits.1.positive late) late).2 (covered late)

end answer

/-! ## A window behind the last hour -/

/-- Every 7 days at 2:00, with windows of 10 minutes every 15 from 8 to 9. -/
def weekly : TelesupSettings where
  lastSuceedTelesupDateTime := 0
  lastAttemptDateTime := 0
  nextTelesupDateTime := 864007200
  nextSecondaryTelesupDateTime := 864007200
  telesupFrame := 10
  fromHour := 8
  toHour := 9
  timeBetweenAttempts := 5
  telesupFrequency := 7

/-- At 8:05 of the day behind the scheduled one. -/
theorem meets_weekly : Meets ⟨false, 0⟩ 864115500 weekly := by
  have fits : Fits 7 864115500 864007200 := by
    unfold Fits day
    decide
  refine (meets_schedule_iff rfl).2 ⟨⟨fits, fits⟩, fun _ => ⟨?_, ?_, ?_⟩⟩
  · exact fun negative => absurd negative (by decide)
  · exact fun zero => absurd zero (by decide)
  · exact fun _ _ ended => absurd ended (by decide)

/-- At 10:00 of that day, an hour behind the end of the band, a supervision starts. -/
theorem not_meets_schedule : ¬∀ (s : Scheduler) (now : BitVec 32) (t : TelesupSettings),
    s.firstTelesup = false → Meets s now t := by
  intro all
  obtain ⟨b, answer, right⟩ := (all ⟨false, 0⟩ 864122400 weekly rfl).answers
  have yes : (Scheduler.mk false 0).canStartTelesupWithNewSchema 864122400 weekly = .ok true :=
    rfl
  obtain rfl := Except.ok.inj (yes.symm.trans answer)
  rcases (right rfl).2 with ⟨⟨k, days⟩, -⟩ | ⟨-, past, -⟩
  · change 1 = (k : Int) * 7 at days
    omega
  · exact absurd past (by decide)

end CimArm.TelesupScheduler
