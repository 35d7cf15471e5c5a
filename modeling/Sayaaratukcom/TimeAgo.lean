import Mathlib.Data.Prod.Lex
import Sayaaratukcom.Models

/-!
# How long ago

`timeAgo` turns the difference of two instants into a label. It compares the
same duration in seconds, minutes, hours and days, each truncated toward zero,
and the labels tile the line of differences: one label covers each difference,
and what is older has no smaller label.
-/

namespace Sayaaratukcom

inductive TimeUnit where
  | second
  | minute
  | hour
  | day
  deriving DecidableEq

def TimeUnit.microseconds : TimeUnit → ℤ
  | .second => 1000000
  | .minute => 60000000
  | .hour => 3600000000
  | .day => 86400000000

def inSeconds (difference : ℤ) : ℤ := difference.tdiv TimeUnit.second.microseconds

def inMinutes (difference : ℤ) : ℤ := difference.tdiv TimeUnit.minute.microseconds

def inHours (difference : ℤ) : ℤ := difference.tdiv TimeUnit.hour.microseconds

def inDays (difference : ℤ) : ℤ := difference.tdiv TimeUnit.day.microseconds

inductive TimeLabel where
  | justNow
  | ago (unit : TimeUnit) (n : ℤ)
  | date (dateTime : Timestamp)
  deriving DecidableEq

def TimeUnit.text : TimeUnit → String
  | .second => "ث"
  | .minute => "د"
  | .hour => "س"
  | .day => "ي"

/-- `format` is that of `DateFormat('yyyy-MM-dd')`. -/
def TimeLabel.text (format : Timestamp → String) : TimeLabel → String
  | .justNow => "قبل قليل"
  | .ago unit n => "قبل " ++ toString n ++ " " ++ unit.text
  | .date dateTime => format dateTime

/-- Both instants are in microseconds. Their difference does not overflow: a
`Timestamp` is of the years 1 to 9999, and a `DateTime` within 10^8 days. -/
def timeAgo (now timestamp : Timestamp) : TimeLabel :=
  let difference := now - timestamp
  if inSeconds difference < 10 then .justNow
  else if inSeconds difference < 60 then .ago .second (inSeconds difference)
  else if inMinutes difference < 60 then .ago .minute (inMinutes difference)
  else if inHours difference < 24 then .ago .hour (inHours difference)
  else if inDays difference < 7 then .ago .day (inDays difference)
  else .date timestamp

/-! ## What the labels cover -/

namespace TimeUnit

def first : TimeUnit → ℤ
  | .second => 10
  | .minute | .hour | .day => 1

def last : TimeUnit → ℤ
  | .second | .minute => 59
  | .hour => 23
  | .day => 6

end TimeUnit

namespace TimeLabel

/-- The differences that a label stands for. -/
def Covers : TimeLabel → ℤ → Prop
  | .justNow, d => d < 10 * TimeUnit.second.microseconds
  | .ago unit n, d =>
    (unit.first ≤ n ∧ n ≤ unit.last) ∧ n * unit.microseconds ≤ d ∧ d < (n + 1) * unit.microseconds
  | .date _, d => 7 * TimeUnit.day.microseconds ≤ d

def unitRank : TimeLabel → ℕ
  | .justNow => 0
  | .ago .second _ => 1
  | .ago .minute _ => 2
  | .ago .hour _ => 3
  | .ago .day _ => 4
  | .date _ => 5

def count : TimeLabel → ℤ
  | .ago _ n => n
  | .justNow | .date _ => 0

/-- The order of the labels, the most recent one first: by unit, then by number. -/
def rank (l : TimeLabel) : ℕ ×ₗ ℤ := toLex (l.unitRank, l.count)

end TimeLabel

theorem TimeUnit.microseconds_pos (unit : TimeUnit) : 0 < unit.microseconds := by
  cases unit <;> decide

theorem TimeUnit.first_pos (unit : TimeUnit) : 0 < unit.first := by
  cases unit <;> decide

theorem tdiv_lt_iff {d u n : ℤ} (hu : 0 < u) (hn : 0 < n) : d.tdiv u < n ↔ d < n * u := by
  refine ⟨Int.lt_mul_of_tdiv_lt hu, fun h => ?_⟩
  rcases Int.le_total 0 d with h0 | h0
  · rw [Int.tdiv_eq_ediv_of_nonneg h0]
    exact Int.ediv_lt_of_lt_mul hu h
  · have hle := Int.tdiv_le_tdiv hu h0
    rw [Int.zero_tdiv] at hle
    omega

/-- A truncated duration is the number of its label, between the bounds of the unit. -/
theorem ago_covers (unit : TimeUnit) {d : ℤ} (h : unit.first * unit.microseconds ≤ d)
    (h' : d < (unit.last + 1) * unit.microseconds) : (TimeLabel.ago unit (d.tdiv unit.microseconds)).Covers d := by
  have hu := unit.microseconds_pos
  have hd : 0 ≤ d := le_trans (Int.mul_nonneg unit.first_pos.le hu.le) h
  have hlast : 0 < unit.last + 1 := by cases unit <;> decide
  have hlt := (tdiv_lt_iff hu hlast).mpr h'
  refine ⟨⟨Int.le_tdiv_of_mul_le hu h, by omega⟩, ?_, Int.lt_tdiv_add_one_mul_self d hu⟩
  rw [Int.mul_comm]
  exact Int.mul_tdiv_self_le hd

theorem timeAgo_covers (now timestamp : Timestamp) : (timeAgo now timestamp).Covers (now - timestamp) := by
  unfold timeAgo inSeconds inMinutes inHours inDays
  generalize now - timestamp = d
  simp only
  split
  · rename_i h
    exact (tdiv_lt_iff (by decide) (by decide)).mp h
  rename_i h10
  rw [tdiv_lt_iff (by decide) (by decide)] at h10
  split
  · rename_i h
    rw [tdiv_lt_iff (by decide) (by decide)] at h
    exact ago_covers .second (not_lt.mp h10) h
  rename_i h60
  rw [tdiv_lt_iff (by decide) (by decide)] at h60
  split
  · rename_i h
    rw [tdiv_lt_iff (by decide) (by decide)] at h
    exact ago_covers .minute (not_lt.mp h60) h
  rename_i hm
  rw [tdiv_lt_iff (by decide) (by decide)] at hm
  split
  · rename_i h
    rw [tdiv_lt_iff (by decide) (by decide)] at h
    exact ago_covers .hour (not_lt.mp hm) h
  rename_i hh
  rw [tdiv_lt_iff (by decide) (by decide)] at hh
  split
  · rename_i h
    rw [tdiv_lt_iff (by decide) (by decide)] at h
    exact ago_covers .day (not_lt.mp hh) h
  rename_i hd
  rw [tdiv_lt_iff (by decide) (by decide)] at hd
  exact not_lt.mp hd

theorem bounds_of_ago {unit : TimeUnit} {n d : ℤ} (h : (TimeLabel.ago unit n).Covers d) :
    unit.first * unit.microseconds ≤ d ∧ d < (unit.last + 1) * unit.microseconds := by
  obtain ⟨⟨hf, hl⟩, h1, h2⟩ := h
  have hu := unit.microseconds_pos.le
  exact ⟨le_trans (Int.mul_le_mul_of_nonneg_right hf hu) h1,
    lt_of_lt_of_le h2 (Int.mul_le_mul_of_nonneg_right (by omega) hu)⟩

/-- The units tile the line. -/
theorem unit_of_covers {l : TimeLabel} {d : ℤ} (h : l.Covers d) :
    l.unitRank = 0 ∧ d < 10000000 ∨ l.unitRank = 1 ∧ 10000000 ≤ d ∧ d < 60000000 ∨
    l.unitRank = 2 ∧ 60000000 ≤ d ∧ d < 3600000000 ∨ l.unitRank = 3 ∧ 3600000000 ≤ d ∧ d < 86400000000 ∨
    l.unitRank = 4 ∧ 86400000000 ≤ d ∧ d < 604800000000 ∨ l.unitRank = 5 ∧ 604800000000 ≤ d := by
  cases l with
  | justNow => exact Or.inl ⟨rfl, h⟩
  | ago unit n =>
    have hb := bounds_of_ago h
    cases unit with
    | second => exact Or.inr (Or.inl ⟨rfl, hb⟩)
    | minute => exact Or.inr (Or.inr (Or.inl ⟨rfl, hb⟩))
    | hour => exact Or.inr (Or.inr (Or.inr (Or.inl ⟨rfl, hb⟩)))
    | day => exact Or.inr (Or.inr (Or.inr (Or.inr (Or.inl ⟨rfl, hb⟩))))
  | date dateTime => exact Or.inr (Or.inr (Or.inr (Or.inr (Or.inr ⟨rfl, h⟩))))

theorem count_le_of_covers {l l' : TimeLabel} {d d' : ℤ} (h : l.Covers d) (h' : l'.Covers d') (hd : d ≤ d')
    (hu : l.unitRank = l'.unitRank) : l.count ≤ l'.count := by
  cases l with
  | justNow =>
    cases l' with
    | justNow => exact le_refl 0
    | ago unit n => cases unit <;> cases hu
    | date dateTime => cases hu
  | ago unit n =>
    cases l' with
    | justNow => cases unit <;> cases hu
    | ago unit' n' =>
      have huu : unit = unit' := by cases unit <;> cases unit' <;> first | rfl | cases hu
      subst huu
      have hlt : n * unit.microseconds < (n' + 1) * unit.microseconds := by
        calc n * unit.microseconds ≤ d := h.2.1
          _ ≤ d' := hd
          _ < (n' + 1) * unit.microseconds := h'.2.2
      exact Int.lt_add_one_iff.mp (Int.lt_of_mul_lt_mul_right hlt unit.microseconds_pos.le)
    | date dateTime => cases unit <;> cases hu
  | date dateTime =>
    cases l' with
    | justNow => cases hu
    | ago unit n => cases unit <;> cases hu
    | date dateTime' => exact le_refl 0

theorem rank_le_of_covers {l l' : TimeLabel} {d d' : ℤ} (h : l.Covers d) (h' : l'.Covers d') (hd : d ≤ d') :
    l.rank ≤ l'.rank := by
  rw [TimeLabel.rank, TimeLabel.rank, Prod.Lex.toLex_le_toLex]
  have hs := unit_of_covers h
  have hs' := unit_of_covers h'
  by_cases hu : l.unitRank = l'.unitRank
  · exact Or.inr ⟨hu, count_le_of_covers h h' hd hu⟩
  · refine Or.inl ?_
    simp only
    omega

theorem eq_justNow_iff {l : TimeLabel} {d : ℤ} (h : l.Covers d) :
    l = .justNow ↔ d < 10 * TimeUnit.second.microseconds := by
  have hu := unit_of_covers h
  refine ⟨fun hl => by rw [hl] at h; exact h, fun hd => ?_⟩
  have hd' : d < 10000000 := hd
  have h0 : l.unitRank = 0 := by omega
  cases l with
  | justNow => rfl
  | ago unit n => cases unit <;> cases h0
  | date dateTime => cases h0

theorem eq_date_iff {l : TimeLabel} {d : ℤ} (h : l.Covers d) :
    (∃ dateTime, l = .date dateTime) ↔ 7 * TimeUnit.day.microseconds ≤ d := by
  have hu := unit_of_covers h
  refine ⟨fun hl => ?_, fun hd => ?_⟩
  · obtain ⟨dateTime, rfl⟩ := hl
    exact h
  · have hd' : 604800000000 ≤ d := hd
    have h5 : l.unitRank = 5 := by omega
    cases l with
    | justNow => cases h5
    | ago unit n => cases unit <;> cases h5
    | date dateTime => exact ⟨dateTime, rfl⟩

theorem date_eq {now timestamp dateTime : Timestamp} (h : timeAgo now timestamp = .date dateTime) :
    dateTime = timestamp := by
  unfold timeAgo at h
  simp only at h
  split_ifs at h
  exact (TimeLabel.date.inj h).symm

/-- The number of a label is exact, what has no number is just now or a date, which
is that of the instant, and an older instant has no smaller label. -/
theorem timeAgo_exact (now : Timestamp) :
    (∀ timestamp unit n, timeAgo now timestamp = .ago unit n →
      (n * unit.microseconds ≤ now - timestamp ∧ now - timestamp < (n + 1) * unit.microseconds) ∧
        unit.first ≤ n ∧ n ≤ unit.last) ∧
    (∀ timestamp, timeAgo now timestamp = .justNow ↔ now - timestamp < 10 * TimeUnit.second.microseconds) ∧
    (∀ timestamp, (∃ dateTime, timeAgo now timestamp = .date dateTime) ↔
      7 * TimeUnit.day.microseconds ≤ now - timestamp) ∧
    (∀ timestamp dateTime, timeAgo now timestamp = .date dateTime → dateTime = timestamp) ∧
    ∀ t₁ t₂, t₁ ≤ t₂ → (timeAgo now t₂).rank ≤ (timeAgo now t₁).rank := by
  refine ⟨fun timestamp unit n h => ?_, fun timestamp => ?_, fun timestamp => ?_, fun _ _ => date_eq,
    fun t₁ t₂ ht => ?_⟩
  · have hc := timeAgo_covers now timestamp
    rw [h] at hc
    exact ⟨hc.2, hc.1⟩
  · exact eq_justNow_iff (timeAgo_covers now timestamp)
  · exact eq_date_iff (timeAgo_covers now timestamp)
  · exact rank_le_of_covers (timeAgo_covers now t₂) (timeAgo_covers now t₁) (Int.sub_le_sub_left ht now)

example (format : Timestamp → String) : (timeAgo 200000000 0).text format = "قبل 3 د" := rfl

end Sayaaratukcom
