/-
# The shortest decimal of a double reads back

The shortest decimal is found by trying one digit, two digits, and so on, and with each number of
digits only the two decimals next to the double.  It lies in the interval of the numbers that are
rounded to the double, so it is rounded to it.  What has to be seen is that the search finds one:
with seventeen digits the decimals are so dense that one of the two must lie in the interval.

* `rounds_of_holds`: the numbers of the interval are rounded to the double;
* `exists_best?_seventeen`: seventeen digits are enough;
* `rounds_shortest`: the shortest decimal is rounded to the double.
-/
import RowExpr.Number.Shortest
import RowExpr.Proofs.Number.Nearest

namespace RowExpr.Number

/-- The exact value of a decimal. -/
def Decimal.value (d : Decimal) : ℚ := d.digits * 10 ^ d.exponent

/-! ## Powers of two and of ten -/

lemma pow_div_pow (b : ℕ) (e : ℤ) :
    ((b ^ e.toNat : ℕ) : ℚ) / (b ^ (-e).toNat : ℕ) = (b : ℚ) ^ e := by
  rcases le_total 0 e with h | h
  · obtain ⟨n, rfl⟩ := Int.eq_ofNat_of_zero_le h
    simp
  · obtain ⟨n, hn⟩ := Int.eq_ofNat_of_zero_le (neg_nonneg.mpr h)
    obtain rfl : e = -n := by omega
    simp

lemma cast_tenPow (n : ℕ) : (tenPow n : ℚ) = 10 ^ n := by
  rw [show tenPow n = 10 ^ n from rfl]
  push_cast
  rfl

lemma tenPow_pos (n : ℕ) : 0 < tenPow n := Nat.pow_pos (by decide)

/-- Powers of ten and of two are compared through powers that are close together. -/
lemma ten_zpow_le_two_zpow_of_base {k n : ℤ} {p r : ℕ} (hr : r ≠ 0) (hk : r * k ≤ p * n)
    (hbase : ((10 : ℚ) ^ p) ^ n ≤ (2 ^ r) ^ n) : (10 : ℚ) ^ k ≤ 2 ^ n := by
  refine le_of_pow_le_pow_left₀ hr (by positivity) ?_
  calc ((10 : ℚ) ^ k) ^ r = 10 ^ (r * k) := by rw [← zpow_natCast, ← zpow_mul, mul_comm]
    _ ≤ 10 ^ (p * n) := zpow_le_zpow_right₀ (by norm_num) hk
    _ = (10 ^ p) ^ n := by rw [zpow_mul, zpow_natCast]
    _ ≤ (2 ^ r) ^ n := hbase
    _ = (2 ^ n) ^ r := by rw [← zpow_natCast, ← zpow_natCast, zpow_comm]

/-- The factor `0.30103` is a little more than the logarithm of two, so the power of ten it gives is
at most one too high as long as the power of two is not too far out. -/
lemma ten_zpow_le_two_zpow {k n : ℤ} (hlow : -20000 ≤ n) (hhigh : n ≤ 20000)
    (h : 100000 * k ≤ 30103 * n) : (10 : ℚ) ^ (k - 1) ≤ 2 ^ n := by
  -- `10 ^ 59` is a little less than `2 ^ 196`, and `2 ^ 93` a little less than `10 ^ 28`
  rcases le_or_gt 0 n with hn | hn
  · refine ten_zpow_le_two_zpow_of_base (p := 59) (r := 196) (by decide) (by omega) ?_
    exact zpow_le_zpow_left₀ hn (by positivity) (by norm_num)
  · refine ten_zpow_le_two_zpow_of_base (p := 28) (r := 93) (by decide) (by omega) ?_
    have hinv : ((2 : ℚ) ^ 93) ^ (-n) ≤ (10 ^ 28) ^ (-n) :=
      zpow_le_zpow_left₀ (Int.neg_nonneg_of_nonpos hn.le) (by positivity) (by norm_num)
    rw [zpow_neg, zpow_neg] at hinv
    exact (inv_le_inv₀ (by positivity) (by positivity)).mp hinv

/-! ## The magnitude of a fraction -/

/-- The test of the search for the magnitude compares with a power of ten. -/
lemma lt_ten_zpow_iff (num : ℕ) {den : ℕ} (hden : 0 < den) (k : ℤ) :
    (if 0 ≤ k then decide (num < den * tenPow k.toNat)
      else decide (num * tenPow (-k).toNat < den)) = true ↔ (num / den : ℚ) < 10 ^ k := by
  have hden' : (0 : ℚ) < den := by exact_mod_cast hden
  split_ifs with hk
  · obtain ⟨n, rfl⟩ := Int.eq_ofNat_of_zero_le hk
    rw [decide_eq_true_eq, div_lt_iff₀ hden', Int.toNat_natCast, zpow_natCast, ← cast_tenPow,
      mul_comm]
    norm_cast
  · obtain ⟨n, hn⟩ := Int.eq_ofNat_of_zero_le (neg_nonneg.mpr (not_le.mp hk).le)
    obtain rfl : k = -n := by omega
    rw [decide_eq_true_eq, neg_neg, Int.toNat_natCast, zpow_neg, zpow_natCast, ← cast_tenPow,
      div_lt_iff₀ hden', inv_mul_eq_div, lt_div_iff₀ (by exact_mod_cast tenPow_pos n)]
    norm_cast

lemma ten_zpow_magnitudeFrom_le (num : ℕ) {den : ℕ} (hden : 0 < den) (fuel : ℕ) (k : ℤ)
    (h : 10 ^ (k - 1) ≤ (num / den : ℚ)) :
    10 ^ (magnitudeFrom num den fuel k - 1) ≤ (num / den : ℚ) := by
  induction fuel generalizing k with
  | zero => exact h
  | succ fuel ih =>
    simp only [magnitudeFrom, lt_ten_zpow_iff num hden]
    split_ifs with hbelow
    · exact h
    · exact ih (k + 1) (by rwa [add_sub_cancel_right, ← not_lt])

/-- The number has no fewer digits before its point than its magnitude says. -/
lemma ten_zpow_magnitude_le {num den : ℕ} (hnum : num ≠ 0) (hden : den ≠ 0)
    (hlow : 2 ^ (-10000 : ℤ) ≤ (num / den : ℚ)) (hhigh : (num / den : ℚ) ≤ 2 ^ (10000 : ℤ)) :
    10 ^ (magnitude num den - 1) ≤ (num / den : ℚ) := by
  obtain ⟨hle, hlt⟩ := ratio_bracket hnum hden
  have hbitsHigh := (zpow_le_zpow_iff_right₀ one_lt_two).mp (hle.trans hhigh)
  have hbitsLow := (zpow_lt_zpow_iff_right₀ one_lt_two).mp (hlow.trans_lt hlt)
  refine ten_zpow_magnitudeFrom_le num (Nat.pos_of_ne_zero hden) 8 _ (le_trans ?_ hle)
  exact ten_zpow_le_two_zpow (by omega) (by omega) (by omega)

/-! ## Intervals -/

/-- The number lies in the interval, or is one of its ends if they belong to it. -/
def Interval.Holds (i : Interval) (q : ℚ) : Prop :=
  if i.closed then i.low ≤ q * i.den ∧ q * i.den ≤ i.high
  else i.low < q * i.den ∧ q * i.den < i.high

lemma Interval.contains_iff (i : Interval) (num : ℕ) {den : ℕ} (hden : 0 < den) :
    i.contains num den = true ↔ i.Holds (num / den) := by
  have hden' : (0 : ℚ) < den := by exact_mod_cast hden
  have hmul : (num / den : ℚ) * i.den = (num * i.den : ℕ) / den := by
    push_cast
    ring
  unfold Interval.contains Interval.Holds
  rw [hmul]
  split_ifs
  · rw [Bool.and_eq_true, decide_eq_true_eq, decide_eq_true_eq, le_div_iff₀ hden',
      div_le_iff₀ hden']
    norm_cast
  · rw [Bool.and_eq_true, decide_eq_true_eq, decide_eq_true_eq, lt_div_iff₀ hden',
      div_lt_iff₀ hden']
    norm_cast

/-- The test of the search for the digits asks whether the decimal lies in the interval. -/
lemma Interval.fits_iff (i : Interval) (digits : ℕ) (e : ℤ) :
    (if 0 ≤ e then i.contains (digits * tenPow e.toNat) 1
      else i.contains digits (tenPow (-e).toNat)) = true ↔ i.Holds (digits * 10 ^ e) := by
  split_ifs with he
  · obtain ⟨n, rfl⟩ := Int.eq_ofNat_of_zero_le he
    rw [i.contains_iff _ one_pos, Nat.cast_one, div_one, Nat.cast_mul, Int.toNat_natCast,
      cast_tenPow, zpow_natCast]
  · obtain ⟨n, hn⟩ := Int.eq_ofNat_of_zero_le (neg_nonneg.mpr (not_le.mp he).le)
    obtain rfl : e = -n := by omega
    rw [i.contains_iff _ (tenPow_pos _), neg_neg, Int.toNat_natCast, cast_tenPow, zpow_neg,
      zpow_natCast, div_eq_mul_inv]

/-- A number between the ends, and not one of them, lies in the interval. -/
lemma Interval.holds_of_lt {i : Interval} {q : ℚ} (hlow : i.low < q * i.den)
    (hhigh : q * i.den < i.high) : i.Holds q := by
  unfold Interval.Holds
  split_ifs
  · exact ⟨hlow.le, hhigh.le⟩
  · exact ⟨hlow, hhigh⟩

lemma Tie.nearest_cases (tie : Tie) (lower rest den : ℕ) :
    tie.nearest lower rest den = lower ∨ tie.nearest lower rest den = lower + 1 := by
  unfold Tie.nearest
  split_ifs
  · exact .inl rfl
  · exact .inr rfl
  · cases tie with
    | upper => exact .inr rfl
    | even =>
      rcases Nat.mod_two_eq_zero_or_one lower with h | h
      · exact .inl (by rw [h, add_zero])
      · exact .inr (by rw [h])

/-- The fraction that is divided to find the digits is the value over the power of ten of the last
of them. -/
lemma exists_scaled_ratio (num den : ℕ) (e : ℤ) :
    ∃ num' den' : ℕ, (if 0 ≤ e then (num, den * tenPow e.toNat)
        else (num * tenPow (-e).toNat, den)) = (num', den') ∧
      (num' / den' : ℚ) = num / den / 10 ^ e := by
  split_ifs with he
  · obtain ⟨n, rfl⟩ := Int.eq_ofNat_of_zero_le he
    refine ⟨_, _, rfl, ?_⟩
    rw [Nat.cast_mul, Int.toNat_natCast, cast_tenPow, zpow_natCast, div_div]
  · obtain ⟨n, hn⟩ := Int.eq_ofNat_of_zero_le (neg_nonneg.mpr (not_le.mp he).le)
    obtain rfl : e = -n := by omega
    refine ⟨_, _, rfl, ?_⟩
    rw [Nat.cast_mul, neg_neg, Int.toNat_natCast, cast_tenPow, zpow_neg, zpow_natCast,
      div_inv_eq_mul, mul_div_right_comm]

/-- With a given number of digits, two decimals are next to the value.  One that lies in the
interval is taken, and none is found only if both lie outside. -/
lemma Interval.best?_cases (i : Interval) (tie : Tie) (top : ℤ) (count : ℕ) :
    ∃ lower : ℕ, lower * 10 ^ (top - count) ≤ (i.value / i.den : ℚ) ∧
      (i.value / i.den : ℚ) < (lower + 1 : ℕ) * 10 ^ (top - count) ∧
      ((∃ d, i.best? tie top count = some d ∧ i.Holds d.value) ∨
        i.best? tie top count = none ∧ ¬ i.Holds (lower * 10 ^ (top - count)) ∧
          ¬ i.Holds ((lower + 1 : ℕ) * 10 ^ (top - count))) := by
  obtain ⟨num, den, hpair, hscale⟩ := exists_scaled_ratio i.value i.den (top - count)
  have hten : (0 : ℚ) < 10 ^ (top - count) := by positivity
  have hvalue : (num / den : ℚ) * 10 ^ (top - count) = i.value / i.den := by
    rw [hscale, div_mul_cancel₀ _ hten.ne']
  refine ⟨num / den, ?_, ?_, ?_⟩
  · rw [← hvalue]
    exact mul_le_mul_of_nonneg_right Nat.cast_div_le hten.le
  · rw [← hvalue]
    refine mul_lt_mul_of_pos_right ?_ hten
    rw [← Nat.floor_div_eq_div (K := ℚ), Nat.cast_add_one]
    exact Nat.lt_floor_add_one _
  · have hlower := i.fits_iff (num / den) (top - count)
    have hupper := i.fits_iff (num / den + 1) (top - count)
    simp only [Interval.best?, hpair]
    split
    case h_1 hl hu =>
      refine .inl ⟨_, rfl, ?_⟩
      rcases tie.nearest_cases (num / den) (num % den) den with h | h
      · rw [h]
        exact hlower.mp hl
      · rw [h]
        exact hupper.mp hu
    case h_2 hl _ => exact .inl ⟨_, rfl, hlower.mp hl⟩
    case h_3 _ hu => exact .inl ⟨_, rfl, hupper.mp hu⟩
    case h_4 hl hu =>
      rw [← hlower, ← hupper, hl, hu]
      exact .inr ⟨rfl, Bool.false_ne_true, Bool.false_ne_true⟩

/-- A decimal is found when the decimals with that number of digits are closer together than the
ends of the interval. -/
lemma Interval.exists_best? {i : Interval} (hden : 0 < i.den) (hlow : i.low < i.value)
    (hhigh : i.value < i.high) (tie : Tie) {top : ℤ} {count : ℕ}
    (hstep : 10 ^ (top - count) * i.den < ((i.high : ℚ) - i.low)) :
    ∃ d, i.best? tie top count = some d := by
  obtain ⟨lower, hle, hlt, ⟨d, hd, -⟩ | ⟨-, hlower, hupper⟩⟩ := i.best?_cases tie top count
  · exact ⟨d, hd⟩
  have hden' : (0 : ℚ) < i.den := by exact_mod_cast hden
  have hlow' : (i.low : ℚ) < i.value := by exact_mod_cast hlow
  have hhigh' : (i.value : ℚ) < i.high := by exact_mod_cast hhigh
  rw [le_div_iff₀ hden'] at hle
  rw [div_lt_iff₀ hden'] at hlt
  -- the two decimals are outside, so the interval lies between them
  have hbelow : lower * 10 ^ (top - count) * i.den ≤ (i.low : ℚ) := by
    by_contra hinside
    exact hlower (i.holds_of_lt (not_le.mp hinside) (hle.trans_lt hhigh'))
  have habove : (i.high : ℚ) ≤ (lower + 1 : ℕ) * 10 ^ (top - count) * i.den := by
    by_contra hinside
    exact hupper (i.holds_of_lt (hlow'.trans hlt) (not_le.mp hinside))
  push_cast at habove
  linarith

/-! ## The interval of a double -/

/-- A number between the middles to the next doubles is rounded to the double, and so is one of the
middles if the bits are even. -/
lemma rounds_between {q : ℚ} {bits : ℕ} (hbits : bits + 1 < infinityBits)
    (hlow : valueOfBits bits + valueOfBits (bits + 1) ≤ 2 * q)
    (hhigh : 2 * q ≤ valueOfBits (bits + 1) + valueOfBits (bits + 2))
    (hends : Even (bits + 1) ∨ valueOfBits bits + valueOfBits (bits + 1) < 2 * q ∧
      2 * q < valueOfBits (bits + 1) + valueOfBits (bits + 2)) : Rounds q (bits + 1) := by
  -- at either end two doubles are equally near, and the even one is taken
  rcases eq_or_lt_of_le hlow with heq | hlow
  · have heven : Even (bits + 1) := hends.resolve_right fun h => h.1.ne heq
    have hodd : bits % 2 = 1 := by
      obtain ⟨n, hn⟩ := heven
      omega
    simpa only [hodd] using rounds_even (by omega) heq.symm
  rcases eq_or_lt_of_le hhigh with heq | hhigh
  · have heven : Even (bits + 1) := hends.resolve_right fun h => h.2.ne heq
    simpa only [Nat.even_iff.mp heven, add_zero] using rounds_even hbits heq
  rcases lt_or_ge q (valueOfBits (bits + 1)) with hlt | hge
  · exact rounds_upper (by omega) hlt hlow
  · exact rounds_lower hbits hge hhigh

section Double

variable {k m : ℕ}

/-- How far the double below is, in halves of the step to the double above: the step halves where
the exponent changes. -/
def lowerGap (k m : ℕ) : ℕ := if m = mantissaSpan ∧ 0 < k then 1 else 2

lemma valueOfBits_above (hm : m < 2 * mantissaSpan) (hk : k = 0 ∨ mantissaSpan ≤ m) :
    valueOfBits (k * mantissaSpan + m + 1) = (m + 1) * 2 ^ (k + leastExponent) := by
  rw [add_assoc, valueOfBits_add hm (by omega)]
  push_cast
  rfl

lemma valueOfBits_below (hm : m < 2 * mantissaSpan) (hk : k = 0 ∨ mantissaSpan ≤ m) {bits : ℕ}
    (hbits : k * mantissaSpan + m = bits + 1) :
    valueOfBits bits = (m - lowerGap k m / 2) * 2 ^ (k + leastExponent) := by
  unfold lowerGap
  split_ifs with hchange
  · obtain ⟨rfl, hpos⟩ := hchange
    obtain ⟨j, rfl⟩ := Nat.exists_eq_succ_of_ne_zero hpos.ne'
    obtain rfl : bits = j * mantissaSpan + (2 * mantissaSpan - 1) := by
      unfold mantissaSpan at *
      omega
    have hexponent : ((j.succ : ℕ) : ℤ) + leastExponent = j + leastExponent + 1 := by omega
    rw [valueOfBits_add (by omega) (.inr (by unfold mantissaSpan; omega)), hexponent,
      zpow_add_one₀ two_ne_zero, Nat.cast_sub (by unfold mantissaSpan; omega)]
    push_cast
    ring
  · have hpos : 0 < m := by
      unfold mantissaSpan at *
      omega
    obtain rfl : bits = k * mantissaSpan + (m - 1) := by omega
    rw [valueOfBits_add (by omega) (by omega), Nat.cast_sub hpos]
    push_cast
    ring

lemma lowerGap_le (k m : ℕ) : lowerGap k m ≤ 2 := by
  unfold lowerGap
  split_ifs <;> omega

/-- The ends of the interval are the middles between the double and the ones next to it. -/
lemma Interval.of_spec (hpos : 0 < m) (k : ℕ) :
    0 < (Interval.of m (k + leastExponent)).den ∧
      ((Interval.of m (k + leastExponent)).low : ℚ) = (m - lowerGap k m / 4) *
        2 ^ (k + leastExponent) * (Interval.of m (k + leastExponent)).den ∧
      ((Interval.of m (k + leastExponent)).value : ℚ) =
        m * 2 ^ (k + leastExponent) * (Interval.of m (k + leastExponent)).den ∧
      ((Interval.of m (k + leastExponent)).high : ℚ) = (m + 1 / 2) *
        2 ^ (k + leastExponent) * (Interval.of m (k + leastExponent)).den := by
  set e : ℤ := k + leastExponent with he
  have hden : 0 < twoPow (-(e - 2)).toNat := Nat.pow_pos (by decide)
  have hscale : (twoPow (e - 2).toNat : ℚ) = 2 ^ e / 4 * twoPow (-(e - 2)).toNat := by
    have hratio : (twoPow (e - 2).toNat : ℚ) / twoPow (-(e - 2)).toNat = 2 ^ (e - 2) := by
      exact_mod_cast pow_div_pow 2 (e - 2)
    rw [← div_eq_iff (by exact_mod_cast hden.ne'), hratio, zpow_sub₀ two_ne_zero]
    norm_num
  have hgap : (if m = mantissaSpan ∧ leastExponent < e then 1 else 2) = lowerGap k m := by
    unfold lowerGap
    simp [he]
  have hle := lowerGap_le k m
  simp only [Interval.of, hgap]
  refine ⟨hden, ?_, ?_, ?_⟩
  · rw [Nat.cast_mul, Nat.cast_sub (by omega), hscale]
    push_cast
    ring
  · rw [Nat.cast_mul, hscale]
    push_cast
    ring
  · rw [Nat.cast_mul, hscale]
    push_cast
    ring

/-- The numbers of the interval are rounded to the double. -/
theorem rounds_of_holds (hpos : 0 < m) (hm : m < 2 * mantissaSpan) (hk : k = 0 ∨ mantissaSpan ≤ m)
    (hbits : k * mantissaSpan + m < infinityBits) {q : ℚ}
    (h : (Interval.of m (k + leastExponent)).Holds q) : Rounds q (k * mantissaSpan + m) := by
  obtain ⟨hden, hlow, -, hhigh⟩ := Interval.of_spec hpos k
  obtain ⟨bits, hpred⟩ : ∃ bits, k * mantissaSpan + m = bits + 1 :=
    Nat.exists_eq_succ_of_ne_zero (by omega)
  have hbelow := valueOfBits_below hm hk hpred
  have habove := valueOfBits_above hm hk
  have hvalue := valueOfBits_add hm.le hk
  have hden' : (0 : ℚ) < (Interval.of m (k + leastExponent)).den := by exact_mod_cast hden
  have hparity : (Interval.of m (k + leastExponent)).closed = true ↔ Even (bits + 1) := by
    rw [← hpred, Nat.even_iff]
    simp only [Interval.of, beq_iff_eq]
    unfold mantissaSpan
    omega
  unfold Interval.Holds at h
  rw [hpred] at hbits habove hvalue ⊢
  split_ifs at h with hclosed
  · rw [hlow, hhigh, mul_le_mul_iff_left₀ hden', mul_le_mul_iff_left₀ hden'] at h
    exact rounds_between hbits (by linarith) (by linarith) (.inl (hparity.mp hclosed))
  · rw [hlow, hhigh, mul_lt_mul_iff_left₀ hden', mul_lt_mul_iff_left₀ hden'] at h
    exact rounds_between hbits (by linarith) (by linarith) (.inr ⟨by linarith, by linarith⟩)

/-- The value of a finite double is within the range in which the magnitude is found. -/
lemma double_bounds (hpos : 0 < m) (hm : m < 2 * mantissaSpan)
    (hbits : k * mantissaSpan + m < infinityBits) :
    2 ^ (-10000 : ℤ) ≤ (m * 2 ^ (k + leastExponent) : ℚ) ∧
      (m * 2 ^ (k + leastExponent) : ℚ) ≤ 2 ^ (10000 : ℤ) := by
  have hk : k ≤ 2046 := by
    unfold infinityBits mantissaSpan at *
    omega
  have hone : (1 : ℚ) ≤ m := by exact_mod_cast hpos
  have htwo : (m : ℚ) ≤ 2 ^ (53 : ℤ) := by
    have : m ≤ 2 ^ 53 := by
      unfold mantissaSpan at hm
      omega
    exact_mod_cast this
  unfold leastExponent
  constructor
  · calc (2 : ℚ) ^ (-10000 : ℤ) ≤ 2 ^ (k + -1074 : ℤ) := zpow_le_zpow_right₀ one_le_two (by omega)
      _ ≤ m * 2 ^ (k + -1074 : ℤ) := le_mul_of_one_le_left (by positivity) hone
  · calc (m : ℚ) * 2 ^ (k + -1074 : ℤ) ≤ 2 ^ (53 : ℤ) * 2 ^ (k + -1074 : ℤ) := by gcongr
      _ = 2 ^ (53 + (k + -1074) : ℤ) := (zpow_add₀ two_ne_zero _ _).symm
      _ ≤ 2 ^ (10000 : ℤ) := zpow_le_zpow_right₀ one_le_two (by omega)

/-- A mantissa has less than seventeen digits, and one digit less than that where the step below is
the smaller one. -/
lemma mantissa_lt (hm : m < 2 * mantissaSpan) (k : ℕ) :
    (m : ℚ) < (1 / 2 + lowerGap k m / 4) * 10 ^ 16 := by
  unfold lowerGap
  split_ifs with hchange
  · rw [hchange.1]
    norm_num [mantissaSpan]
  · have hlt : (m : ℚ) < 2 * mantissaSpan := by exact_mod_cast hm
    norm_num [mantissaSpan] at hlt ⊢
    linarith

/-- The decimals of seventeen digits are closer together than the ends of the interval. -/
lemma ten_zpow_lt_width (hpos : 0 < m) (hm : m < 2 * mantissaSpan) {top : ℤ}
    (htop : 10 ^ (top - 1) ≤ (m * 2 ^ (k + leastExponent) : ℚ)) :
    (10 : ℚ) ^ (top - (17 : ℕ)) * (Interval.of m (k + leastExponent)).den <
      (Interval.of m (k + leastExponent)).high - (Interval.of m (k + leastExponent)).low := by
  obtain ⟨hden, hlow, -, hhigh⟩ := Interval.of_spec hpos k
  have hmantissa := mantissa_lt hm k
  have hten : (10 : ℚ) ^ (top - (17 : ℕ)) * 10 ^ 16 = 10 ^ (top - 1) := by
    rw [← zpow_natCast, ← zpow_add₀ (by norm_num)]
    congr 1
    omega
  have hstep : (10 : ℚ) ^ (top - (17 : ℕ)) * 10 ^ 16 <
      (1 / 2 + lowerGap k m / 4) * 2 ^ (k + leastExponent) * 10 ^ 16 :=
    calc _ = (10 : ℚ) ^ (top - 1) := hten
      _ ≤ m * 2 ^ (k + leastExponent) := htop
      _ < (1 / 2 + lowerGap k m / 4) * 10 ^ 16 * 2 ^ (k + leastExponent) := by gcongr
      _ = _ := by ring
  calc _ < (1 / 2 + lowerGap k m / 4) * 2 ^ (k + leastExponent) *
        ((Interval.of m (k + leastExponent)).den : ℚ) :=
          mul_lt_mul_of_pos_right (lt_of_mul_lt_mul_right hstep (by positivity))
            (by exact_mod_cast hden)
    _ = _ := by
        rw [hhigh, hlow]
        ring

/-- Seventeen digits are enough. -/
lemma exists_best?_seventeen (tie : Tie) (hpos : 0 < m) (hm : m < 2 * mantissaSpan)
    (hbits : k * mantissaSpan + m < infinityBits) :
    ∃ d, (Interval.of m (k + leastExponent)).best? tie
      (magnitude (Interval.of m (k + leastExponent)).value
        (Interval.of m (k + leastExponent)).den) 17 = some d := by
  obtain ⟨hden, hlow, hvalue, hhigh⟩ := Interval.of_spec hpos k
  have hden' : (0 : ℚ) < (Interval.of m (k + leastExponent)).den := by exact_mod_cast hden
  have hscaled : (0 : ℚ) < 2 ^ (k + leastExponent) * (Interval.of m (k + leastExponent)).den := by
    positivity
  have hgap : (0 : ℚ) < lowerGap k m := by
    unfold lowerGap
    split_ifs <;> norm_num
  have hltValue : (Interval.of m (k + leastExponent)).low <
      (Interval.of m (k + leastExponent)).value := by
    rw [← Nat.cast_lt (α := ℚ), hlow, hvalue, mul_assoc, mul_assoc]
    exact mul_lt_mul_of_pos_right (by linarith) hscaled
  have hltHigh : (Interval.of m (k + leastExponent)).value <
      (Interval.of m (k + leastExponent)).high := by
    rw [← Nat.cast_lt (α := ℚ), hhigh, hvalue, mul_assoc, mul_assoc]
    exact mul_lt_mul_of_pos_right (by linarith) hscaled
  have hratio : ((Interval.of m (k + leastExponent)).value /
      (Interval.of m (k + leastExponent)).den : ℚ) = m * 2 ^ (k + leastExponent) := by
    rw [hvalue, mul_div_cancel_right₀ _ hden'.ne']
  obtain ⟨hleast, hgreatest⟩ := double_bounds hpos hm hbits
  have htop := ten_zpow_magnitude_le (Nat.ne_of_gt (Nat.zero_lt_of_lt hltValue)) hden.ne'
    (hratio ▸ hleast) (hratio ▸ hgreatest)
  exact Interval.exists_best? hden hltValue hltHigh tie (ten_zpow_lt_width hpos hm (hratio ▸ htop))

end Double

/-! ## The decimal that is found -/

lemma stripZeros_mul (fuel n : ℕ) : (stripZeros fuel n).1 * 10 ^ (stripZeros fuel n).2 = n := by
  induction fuel generalizing n with
  | zero => simp [stripZeros]
  | succ fuel ih =>
    rw [stripZeros]
    split_ifs with hzero
    · rw [pow_succ, ← mul_assoc, ih]
      omega
    · simp

lemma Decimal.value_normalize (d : Decimal) : d.normalize.value = d.value := by
  unfold Decimal.normalize
  split_ifs with hzero
  · simp [Decimal.value, hzero]
  · have h := stripZeros_mul d.digits.log2 d.digits
    simp only [Decimal.value]
    rw [zpow_add₀ (by norm_num), zpow_natCast, mul_left_comm, ← mul_comm (10 ^ d.exponent)]
    congr 1
    exact_mod_cast h

lemma shortest_eq (tie : Tie) (m : ℕ) (e : ℤ) :
    shortest tie m e =
      match (List.range 17).findSome? fun n => (Interval.of m e).best? tie
          (magnitude (Interval.of m e).value (Interval.of m e).den) (n + 1) with
      | some d => d.normalize
      | none => ⟨m, e⟩ := by
  -- not by `simp`, which would run the search to reduce the match
  unfold shortest
  rfl

/-- The shortest decimal is one of the decimals that are tried, if there is one among them. -/
lemma exists_shortest_eq (tie : Tie) (m : ℕ) (e : ℤ) {top : ℤ}
    (htop : magnitude (Interval.of m e).value (Interval.of m e).den = top)
    (h : ∃ d, (Interval.of m e).best? tie top 17 = some d) :
    ∃ n d, (Interval.of m e).best? tie top n = some d ∧ shortest tie m e = d.normalize := by
  obtain ⟨d, hd⟩ := h
  cases hfound : (List.range 17).findSome? fun n => (Interval.of m e).best? tie top (n + 1) with
  | none =>
    have hnone := List.findSome?_eq_none_iff.mp hfound 16 (List.mem_range.mpr (by decide))
    exact absurd (hd.symm.trans hnone) (Option.some_ne_none d)
  | some d =>
    obtain ⟨n, -, hn⟩ := List.exists_of_findSome?_eq_some hfound
    refine ⟨n + 1, d, hn, ?_⟩
    rw [shortest_eq, htop, hfound]

/-- The shortest decimal of a double is rounded to the double. -/
theorem rounds_shortest (tie : Tie) {k m : ℕ} (hpos : 0 < m) (hm : m < 2 * mantissaSpan)
    (hk : k = 0 ∨ mantissaSpan ≤ m) (hbits : k * mantissaSpan + m < infinityBits) :
    Rounds (shortest tie m (k + leastExponent)).value (k * mantissaSpan + m) := by
  obtain ⟨n, d, hd, heq⟩ :=
    exists_shortest_eq tie m (k + leastExponent) rfl (exists_best?_seventeen tie hpos hm hbits)
  obtain ⟨-, -, -, ⟨d', hd', hholds⟩ | ⟨hnone, -⟩⟩ := Interval.best?_cases _ tie _ n
  · obtain rfl : d = d' := Option.some_injective _ (hd.symm.trans hd')
    rw [heq, Decimal.value_normalize]
    exact rounds_of_holds hpos hm hk hbits hholds
  · exact absurd (hd.symm.trans hnone) (Option.some_ne_none d)

end RowExpr.Number
