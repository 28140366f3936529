/-
# Rounding to the nearest double

The doubles from zero on, in the order of their bits, are a strictly growing row of dyadic
fractions, and infinity stands behind the largest of them where the next one would.  A number is
rounded to the one of them that is nearest to it, and to the one with even bits if two are equally
near.  `Rounds` says this of a number and of bits, without saying how the bits are found.

* `Rounds.unique`: there are no two ways to round a number;
* `rounds_nearestBits`: a fraction is rounded to its nearest bits;
* `isNearest_decimal`: a decimal is rounded once, from its exact value, also where its exponent is
  far out of range;
* `Rounds.eq_infinityBits`: numbers that are not close together are rounded to one double only if
  it is infinite;
* `toFloat_of_rounds`: the sign of a decimal is that of its double, and changes no other bit.
-/
import Mathlib
import RowExpr.Number.Decimal

namespace RowExpr.Number

/-! ## The row of doubles -/

/-- The number that the bits stand for, from zero on; infinity counts as the power of two behind
the largest finite number. -/
def valueOfBits (bits : ℕ) : ℚ :=
  if bits / mantissaSpan = 0 then bits * 2 ^ leastExponent
  else (mantissaSpan + bits % mantissaSpan : ℕ) *
    2 ^ ((bits / mantissaSpan : ℕ) - 1 + leastExponent)

/-- The bits of a mantissa and an exponent stand for their product.  The mantissa may have one more
value than a double has room for: it carries into the exponent. -/
lemma valueOfBits_add {k m : ℕ} (hle : m ≤ 2 * mantissaSpan) (hk : k = 0 ∨ mantissaSpan ≤ m) :
    valueOfBits (k * mantissaSpan + m) = m * 2 ^ (k + leastExponent) := by
  unfold valueOfBits
  rcases lt_or_ge m mantissaSpan with hlt | hge
  · obtain rfl : k = 0 := hk.resolve_right (by omega)
    simp [Nat.div_eq_of_lt hlt]
  · rcases eq_or_lt_of_le hle with rfl | hlt
    · have hdiv : (k * mantissaSpan + 2 * mantissaSpan) / mantissaSpan = k + 2 := by
        unfold mantissaSpan
        omega
      have hmod : (k * mantissaSpan + 2 * mantissaSpan) % mantissaSpan = 0 := by
        unfold mantissaSpan
        omega
      have hexponent : ((k + 2 : ℕ) - 1 + leastExponent : ℤ) = 1 + (k + leastExponent) := by
        push_cast
        ring
      rw [hdiv, hmod, if_neg (by omega), hexponent, zpow_one_add₀ two_ne_zero]
      push_cast
      ring
    · have hdiv : (k * mantissaSpan + m) / mantissaSpan = k + 1 := by
        unfold mantissaSpan at *
        omega
      have hmod : mantissaSpan + (k * mantissaSpan + m) % mantissaSpan = m := by
        unfold mantissaSpan at *
        omega
      rw [hdiv, hmod, if_neg (by omega)]
      push_cast
      rw [add_sub_cancel_right]

/-- All bits are those of a mantissa and an exponent. -/
lemma exists_mantissa (bits : ℕ) : ∃ k m, bits = k * mantissaSpan + m ∧ m < 2 * mantissaSpan ∧
    (k = 0 ∨ mantissaSpan ≤ m) := by
  refine ⟨bits / mantissaSpan - 1, bits - (bits / mantissaSpan - 1) * mantissaSpan, ?_⟩
  unfold mantissaSpan
  omega

lemma valueOfBits_lt_succ (bits : ℕ) : valueOfBits bits < valueOfBits (bits + 1) := by
  obtain ⟨k, m, rfl, hm, hk⟩ := exists_mantissa bits
  rw [add_assoc, valueOfBits_add hm.le hk, valueOfBits_add hm (by omega)]
  push_cast
  gcongr
  linarith

lemma strictMono_valueOfBits : StrictMono valueOfBits :=
  strictMono_nat_of_lt_succ valueOfBits_lt_succ

lemma valueOfBits_zero : valueOfBits 0 = 0 := by simp [valueOfBits]

lemma valueOfBits_infinityBits : valueOfBits infinityBits = 2 ^ 1024 := by
  have hbits : infinityBits = 2046 * mantissaSpan + mantissaSpan := rfl
  have hexponent : ((2046 : ℕ) : ℤ) + leastExponent = (972 : ℕ) := rfl
  rw [hbits, valueOfBits_add (by omega) (.inr le_rfl), hexponent, zpow_natCast,
    show (mantissaSpan : ℚ) = 2 ^ 52 by norm_num [mantissaSpan], ← pow_add]

/-! ## Rounding -/

/-- The bits stand for the double that is nearest to the number, and are even if another one is
equally near. -/
def Rounds (q : ℚ) (bits : ℕ) : Prop :=
  bits ≤ infinityBits ∧ ∀ other ≤ infinityBits,
    |q - valueOfBits bits| ≤ |q - valueOfBits other| ∧
      (other ≠ bits → |q - valueOfBits bits| = |q - valueOfBits other| → Even bits)

lemma rounds_of_lt {q : ℚ} {bits : ℕ} (hbits : bits ≤ infinityBits)
    (h : ∀ other ≤ infinityBits, other ≠ bits →
      |q - valueOfBits bits| < |q - valueOfBits other|) : Rounds q bits := by
  refine ⟨hbits, fun other hother => ⟨?_, fun hne heq => absurd heq (h other hother hne).ne⟩⟩
  by_cases hne : other = bits
  · rw [hne]
  · exact (h other hother hne).le

/-- What is not below infinity is infinite. -/
lemma rounds_infinityBits {q : ℚ} (h : valueOfBits infinityBits ≤ q) : Rounds q infinityBits := by
  refine rounds_of_lt le_rfl fun other hother hne => ?_
  have hlt := strictMono_valueOfBits (lt_of_le_of_ne hother hne)
  rw [abs_of_nonneg (by linarith), abs_of_nonneg (by linarith)]
  linarith

section Between

variable {q : ℚ} {bits other : ℕ}

lemma abs_sub_of_le (hle : valueOfBits bits ≤ q) (h : other ≤ bits) :
    |q - valueOfBits other| = q - valueOfBits other := by
  have := strictMono_valueOfBits.monotone h
  exact abs_of_nonneg (by linarith)

lemma abs_sub_of_lt (hlt : q < valueOfBits (bits + 1)) (h : bits < other) :
    |q - valueOfBits other| = valueOfBits other - q := by
  have := strictMono_valueOfBits.monotone (Nat.succ_le_of_lt h)
  rw [Nat.succ_eq_add_one] at this
  rw [abs_of_nonpos (by linarith), neg_sub]

/-- A number between two doubles is no nearer to any other. -/
lemma le_abs_sub (hle : valueOfBits bits ≤ q) (hlt : q < valueOfBits (bits + 1)) (other : ℕ) :
    q - valueOfBits bits ≤ |q - valueOfBits other| ∨
      valueOfBits (bits + 1) - q ≤ |q - valueOfBits other| := by
  rcases le_or_gt other bits with h | h
  · have := strictMono_valueOfBits.monotone h
    rw [abs_sub_of_le hle h]
    exact .inl (by linarith)
  · have := strictMono_valueOfBits.monotone (Nat.succ_le_of_lt h)
    rw [abs_sub_of_lt hlt h]
    exact .inr (by linarith)

lemma rounds_lower (hbits : bits < infinityBits) (hle : valueOfBits bits ≤ q)
    (h : 2 * q < valueOfBits bits + valueOfBits (bits + 1)) : Rounds q bits := by
  have hlt : q < valueOfBits (bits + 1) := by linarith
  refine rounds_of_lt hbits.le fun other _ hne => ?_
  rw [abs_sub_of_le hle le_rfl]
  rcases lt_or_gt_of_ne hne with hother | hother
  · have := strictMono_valueOfBits hother
    rw [abs_sub_of_le hle hother.le]
    linarith
  · have := strictMono_valueOfBits.monotone (Nat.succ_le_of_lt hother)
    rw [abs_sub_of_lt hlt hother]
    linarith

lemma rounds_upper (hbits : bits < infinityBits) (hlt : q < valueOfBits (bits + 1))
    (h : valueOfBits bits + valueOfBits (bits + 1) < 2 * q) : Rounds q (bits + 1) := by
  have hle : valueOfBits bits ≤ q := by linarith
  refine rounds_of_lt hbits fun other _ hne => ?_
  rw [abs_sub_of_lt hlt (Nat.lt_succ_self bits)]
  rcases lt_or_gt_of_ne hne with hother | hother
  · have := strictMono_valueOfBits.monotone (Nat.le_of_lt_succ hother)
    rw [abs_sub_of_le hle (Nat.le_of_lt_succ hother)]
    linarith
  · have := strictMono_valueOfBits hother
    rw [abs_sub_of_lt hlt (Nat.lt_of_succ_lt hother)]
    linarith

/-- A number halfway between two doubles is rounded to the one with even bits. -/
lemma rounds_even (hbits : bits < infinityBits)
    (h : 2 * q = valueOfBits bits + valueOfBits (bits + 1)) : Rounds q (bits + bits % 2) := by
  have hstep := valueOfBits_lt_succ bits
  have hle : valueOfBits bits ≤ q := by linarith
  have hlt : q < valueOfBits (bits + 1) := by linarith
  have hdistance : |q - valueOfBits (bits + bits % 2)| = q - valueOfBits bits := by
    rcases Nat.mod_two_eq_zero_or_one bits with hmod | hmod
    · rw [hmod, add_zero, abs_sub_of_le hle le_rfl]
    · rw [hmod, abs_sub_of_lt hlt (Nat.lt_succ_self bits)]
      linarith
  have heven : Even (bits + bits % 2) := by
    rw [Nat.even_add, Nat.even_iff, Nat.even_iff, Nat.mod_mod]
  refine ⟨by omega, fun other _ => ⟨?_, fun _ _ => heven⟩⟩
  rw [hdistance]
  rcases le_abs_sub hle hlt other with hother | hother
  · exact hother
  · linarith

end Between

/-- A number is rounded in one way. -/
theorem Rounds.unique {q : ℚ} {bits bits' : ℕ} (h : Rounds q bits) (h' : Rounds q bits') :
    bits = bits' := by
  wlog hlt : bits < bits' generalizing bits bits'
  · rcases Nat.lt_or_ge bits' bits with hlt' | hge
    · exact (this h' h hlt').symm
    · exact le_antisymm hge (Nat.le_of_not_lt hlt)
  exfalso
  have heq := le_antisymm (h.2 bits' h'.1).1 (h'.2 bits h.1).1
  -- Both are even, so there is a third one between them, which is nearer.
  have heven := (h.2 bits' h'.1).2 hlt.ne' heq
  have heven' := (h'.2 bits h.1).2 hlt.ne heq.symm
  have hnext : bits + 1 < bits' := by
    rw [Nat.even_iff] at heven heven'
    omega
  have hlower := valueOfBits_lt_succ bits
  have hupper := strictMono_valueOfBits hnext
  have hnearest := (h.2 (bits + 1) (hnext.le.trans h'.1)).1
  rcases abs_eq_abs.mp heq with hsame | hmid
  · linarith
  · have hpos : 0 ≤ q - valueOfBits bits := by linarith
    rw [abs_of_nonneg hpos] at hnearest
    have := abs_lt.mpr (⟨by linarith, by linarith⟩ :
      -(q - valueOfBits bits) < q - valueOfBits (bits + 1) ∧
        q - valueOfBits (bits + 1) < q - valueOfBits bits)
    linarith

section Apart

variable {q q' a b : ℚ} {bits : ℕ}

lemma abs_sub_le_abs_sub_iff (h : a < b) : |q - a| ≤ |q - b| ↔ 2 * q ≤ a + b := by
  have hsquares : (q - b) ^ 2 - (q - a) ^ 2 = (b - a) * (a + b - 2 * q) := by ring
  rw [← sq_le_sq, ← sub_nonneg, hsquares, mul_nonneg_iff_of_pos_left (sub_pos.mpr h), sub_nonneg]

lemma abs_sub_le_abs_sub_iff' (h : a < b) : |q - b| ≤ |q - a| ↔ a + b ≤ 2 * q := by
  have hsquares : (q - a) ^ 2 - (q - b) ^ 2 = (b - a) * (2 * q - (a + b)) := by ring
  rw [← sq_le_sq, ← sub_nonneg, hsquares, mul_nonneg_iff_of_pos_left (sub_pos.mpr h), sub_nonneg]

/-- What is larger than an infinite number is infinite. -/
lemma Rounds.infinityBits_mono (h : Rounds q infinityBits) (hle : q ≤ q') :
    Rounds q' infinityBits := by
  have heven : Even infinityBits := by decide
  refine ⟨le_rfl, fun other hother => ⟨?_, fun _ _ => heven⟩⟩
  rcases eq_or_lt_of_le hother with rfl | hlt
  · exact le_rfl
  · have hvalue := strictMono_valueOfBits hlt
    have hq := (abs_sub_le_abs_sub_iff' hvalue).mp (h.2 other hother).1
    exact (abs_sub_le_abs_sub_iff' hvalue).mpr (by linarith)

/-- The doubles become no denser. -/
lemma step_le_step (bits : ℕ) :
    valueOfBits (bits + 1) - valueOfBits bits ≤
      valueOfBits (bits + 2) - valueOfBits (bits + 1) := by
  obtain ⟨k, m, rfl, hm, hk⟩ := exists_mantissa bits
  have hpos : (0 : ℚ) < 2 ^ (k + leastExponent) := by positivity
  rw [add_assoc, add_assoc, valueOfBits_add hm.le hk, valueOfBits_add hm (by omega)]
  rcases eq_or_lt_of_le (Nat.succ_le_of_lt hm) with hfull | hroom
  · -- The next double has the next exponent.
    have hbits : k * mantissaSpan + (m + 2) = (k + 1) * mantissaSpan + (mantissaSpan + 1) := by
      rw [Nat.succ_mul]
      omega
    have hm' : (m : ℚ) = 2 * mantissaSpan - 1 := by
      rw [eq_sub_iff_add_eq]
      exact_mod_cast hfull
    rw [hbits, valueOfBits_add (by unfold mantissaSpan; omega) (by omega), Nat.cast_succ k,
      add_right_comm, zpow_add_one₀ two_ne_zero]
    push_cast
    rw [hm']
    linarith
  · rw [valueOfBits_add hroom (by omega)]
    push_cast
    linarith

/-- Numbers that are not close together are rounded to one double only if it is infinite. -/
lemma Rounds.eq_infinityBits (h : Rounds q bits) (h' : Rounds q' bits) (hone : 1 ≤ q)
    (hapart : 17 * q ≤ 15 * q') : bits = infinityBits := by
  by_contra hne
  have hlt : bits < infinityBits := lt_of_le_of_ne h.1 hne
  have hupper := (abs_sub_le_abs_sub_iff (valueOfBits_lt_succ bits)).mp (h'.2 (bits + 1) hlt).1
  have hleast : (2 : ℚ) ^ leastExponent ≤ 1 / 32 := by
    have := zpow_le_zpow_right₀ (by norm_num : (1 : ℚ) ≤ 2) (show leastExponent ≤ -5 by decide)
    exact this.trans_eq (by norm_num)
  cases bits with
  | zero =>
    have hstep : valueOfBits (0 + 1) = 2 ^ leastExponent := by simp [valueOfBits, mantissaSpan]
    rw [hstep, valueOfBits_zero] at hupper
    linarith
  | succ b =>
    have hlower := (abs_sub_le_abs_sub_iff' (valueOfBits_lt_succ b)).mp
      (h.2 b ((Nat.lt_succ_self b).le.trans h.1)).1
    have hstep := step_le_step b
    obtain ⟨k, m, hbits, hm, hk⟩ := exists_mantissa (b + 1)
    have hvalue : valueOfBits (b + 1) = m * 2 ^ (k + leastExponent) := by
      rw [hbits, valueOfBits_add hm.le hk]
    have hnext : valueOfBits (b + 2) = (m + 1) * 2 ^ (k + leastExponent) := by
      rw [show b + 2 = k * mantissaSpan + (m + 1) by omega, valueOfBits_add hm (by omega)]
      push_cast
      rfl
    rw [hvalue, hnext] at hstep hupper
    rw [hvalue] at hlower
    have hpos : (0 : ℚ) < 2 ^ (k + leastExponent) := by positivity
    have hfew : (m : ℚ) ≤ 8 := by
      refine le_of_mul_le_mul_right ?_ hpos
      linarith
    have hm : m ≤ 8 := by exact_mod_cast hfew
    obtain rfl : k = 0 := hk.resolve_right (by unfold mantissaSpan; omega)
    rw [Nat.cast_zero, zero_add] at hupper
    have := mul_le_mul hfew hleast (by positivity) (by norm_num)
    linarith

end Apart

/-! ## The nearest bits of a fraction -/

lemma divNearest_cases (num : ℕ) {den : ℕ} (hden : 0 < den) :
    (2 * (num / den : ℚ) < 2 * (num / den : ℕ) + 1 ∧ divNearest num den = num / den) ∨
      (2 * (num / den : ℕ) + 1 < 2 * (num / den : ℚ) ∧ divNearest num den = num / den + 1) ∨
      (2 * (num / den : ℚ) = 2 * (num / den : ℕ) + 1 ∧
        divNearest num den = num / den + num / den % 2) := by
  have hden' : (0 : ℚ) < den := by exact_mod_cast hden
  have hratio : (num / den : ℚ) = (num / den : ℕ) + (num % den : ℕ) / den := by
    rw [eq_comm, ← eq_sub_iff_add_eq', eq_comm, sub_eq_iff_eq_add, div_add' _ _ _ hden'.ne']
    congr 1
    exact_mod_cast (Nat.mod_add_div' num den).symm
  have htwice : 2 * ((num % den : ℕ) / den : ℚ) = (2 * (num % den) : ℕ) / den := by
    push_cast
    ring
  rw [hratio, mul_add, htwice]
  unfold divNearest
  dsimp only
  split_ifs with hlt hgt
  · have : ((2 * (num % den) : ℕ) / den : ℚ) < 1 := (div_lt_one hden').mpr (by exact_mod_cast hlt)
    exact .inl ⟨by linarith, rfl⟩
  · have : 1 < ((2 * (num % den) : ℕ) / den : ℚ) := (one_lt_div hden').mpr (by exact_mod_cast hgt)
    exact .inr (.inl ⟨by linarith, rfl⟩)
  · have : ((2 * (num % den) : ℕ) / den : ℚ) = 1 :=
      (div_eq_one_iff_eq hden'.ne').mpr (by exact_mod_cast (by omega : 2 * (num % den) = den))
    exact .inr (.inr ⟨by linarith, rfl⟩)

section Scale

variable {num den : ℕ} {e : ℤ}

lemma div_scale_of_nonneg (he : 0 ≤ e) :
    (num : ℚ) / (den * twoPow e.toNat : ℕ) = num / den / 2 ^ e := by
  obtain ⟨n, rfl⟩ := Int.eq_ofNat_of_zero_le he
  have htwo : twoPow n = 2 ^ n := rfl
  rw [Int.toNat_natCast, htwo, div_div, zpow_natCast]
  push_cast
  rfl

lemma div_scale_of_neg (he : e < 0) :
    ((num * twoPow (-e).toNat : ℕ) : ℚ) / den = num / den / 2 ^ e := by
  obtain ⟨n, hn⟩ := Int.eq_ofNat_of_zero_le (neg_nonneg.mpr he.le)
  have htwo : twoPow n = 2 ^ n := rfl
  rw [← neg_neg e, hn, neg_neg, Int.toNat_natCast, htwo, zpow_neg, zpow_natCast, div_inv_eq_mul]
  push_cast
  ring

end Scale

/-- A fraction lies between two powers of two that the lengths of its parts give. -/
lemma ratio_bracket {num den : ℕ} (hnum : num ≠ 0) (hden : den ≠ 0) :
    2 ^ ((num.log2 : ℤ) - den.log2 - 1) ≤ (num / den : ℚ) ∧
      (num / den : ℚ) < 2 ^ ((num.log2 : ℤ) - den.log2 + 1) := by
  have hden' : (0 : ℚ) < den := by exact_mod_cast Nat.pos_of_ne_zero hden
  have hnumLow : (2 : ℚ) ^ num.log2 ≤ num := by exact_mod_cast Nat.log2_self_le hnum
  have hnumHigh : (num : ℚ) < 2 ^ (num.log2 + 1) := by exact_mod_cast Nat.lt_log2_self
  have hdenLow : (2 : ℚ) ^ den.log2 ≤ den := by exact_mod_cast Nat.log2_self_le hden
  have hdenHigh : (den : ℚ) < 2 ^ (den.log2 + 1) := by exact_mod_cast Nat.lt_log2_self
  constructor
  · have hexponent : (num.log2 : ℤ) - den.log2 - 1 = (num.log2 : ℤ) - (den.log2 + 1 : ℕ) := by omega
    rw [hexponent, zpow_sub₀ two_ne_zero, zpow_natCast, zpow_natCast]
    exact div_le_div₀ (by positivity) hnumLow hden' hdenHigh.le
  · have hexponent : (num.log2 : ℤ) - den.log2 + 1 = (num.log2 + 1 : ℕ) - (den.log2 : ℤ) := by omega
    rw [hexponent, zpow_sub₀ two_ne_zero, zpow_natCast, zpow_natCast]
    exact div_lt_div₀ hnumHigh hdenLow (by positivity) (by positivity)

/-- The exponent leaves a mantissa of 53 bits, or is the least. -/
lemma exponentOf_spec {num den : ℕ} (hnum : num ≠ 0) (hden : den ≠ 0) :
    leastExponent ≤ exponentOf num den ∧ (num / den : ℚ) < 2 ^ (exponentOf num den + 53) ∧
      (exponentOf num den = leastExponent ∨ 2 ^ (exponentOf num den + 52) ≤ (num / den : ℚ)) := by
  set q : ℚ := num / den with hq
  set guess : ℤ := (num.log2 : ℤ) - den.log2 - 53 with hguess
  have hden' : (0 : ℚ) < den := by exact_mod_cast Nat.pos_of_ne_zero hden
  obtain ⟨hlow, hhigh⟩ := ratio_bracket hnum hden
  rw [← hq, show (num.log2 : ℤ) - den.log2 - 1 = guess + 52 by omega] at hlow
  rw [← hq, show (num.log2 : ℤ) - den.log2 + 1 = guess + 54 by omega] at hhigh
  have hreaches : (if 0 ≤ guess then
      decide (0x20000000000000 * (den * twoPow guess.toNat) ≤ num)
      else decide (0x20000000000000 * den ≤ num * twoPow (-guess).toNat)) =
        decide (2 ^ (guess + 53) ≤ q) := by
    have hscaled : 2 ^ (guess + 53) ≤ q ↔ (0x20000000000000 : ℕ) ≤ q / 2 ^ guess := by
      rw [add_comm, zpow_add₀ two_ne_zero, ← le_div_iff₀ (zpow_pos two_pos guess)]
      norm_num
    split_ifs with hsign <;> rw [decide_eq_decide, hscaled]
    · have hpos : 0 < den * twoPow guess.toNat :=
        Nat.mul_pos (Nat.pos_of_ne_zero hden) (Nat.pow_pos two_pos)
      rw [← div_scale_of_nonneg hsign, le_div_iff₀ (by exact_mod_cast hpos)]
      exact_mod_cast Iff.rfl
    · rw [← div_scale_of_neg (not_le.mp hsign), le_div_iff₀ hden']
      exact_mod_cast Iff.rfl
  have hchoice : ∃ e, exponentOf num den = max e leastExponent ∧ q < 2 ^ (e + 53) ∧
      2 ^ (e + 52) ≤ q := by
    unfold exponentOf
    dsimp only
    rw [← hguess, hreaches]
    by_cases hle : 2 ^ (guess + 53) ≤ q
    · refine ⟨guess + 1, by simp [hle], ?_, ?_⟩
      · rwa [add_assoc]
      · rwa [add_assoc]
    · exact ⟨guess, by simp [hle], not_le.mp hle, hlow⟩
  obtain ⟨e, he, hupper, hlower⟩ := hchoice
  rw [he]
  refine ⟨le_max_right _ _, hupper.trans_le ?_, ?_⟩
  · exact zpow_le_zpow_right₀ one_le_two (by omega)
  · rcases le_total e leastExponent with h | h
    · exact .inl (max_eq_right h)
    · exact .inr (by rwa [max_eq_left h])

/-- A number is rounded by its mantissa, if the exponent is that of a double next to it. -/
lemma rounds_divNearest {q : ℚ} {e : ℤ} {num den : ℕ} (hden : 0 < den)
    (hscale : (num / den : ℚ) = q / 2 ^ e) (he : leastExponent ≤ e) (hupper : q < 2 ^ (e + 53))
    (hlower : e = leastExponent ∨ 2 ^ (e + 52) ≤ q) :
    Rounds q (min ((e - leastExponent).toNat * mantissaSpan + divNearest num den)
      infinityBits) := by
  obtain ⟨k, hk⟩ := Int.eq_ofNat_of_zero_le (sub_nonneg.mpr he)
  have hexponent : e = k + leastExponent := by omega
  rw [hk, Int.toNat_natCast]
  have hpos : (0 : ℚ) < 2 ^ e := by positivity
  set f := num / den with hf
  have hfloor : ⌊q / 2 ^ e⌋₊ = f := by rw [← hscale, Nat.floor_div_eq_div]
  have hle : f * 2 ^ e ≤ q := by
    rw [← le_div_iff₀ hpos, ← hfloor]
    exact Nat.floor_le (by rw [← hscale]; positivity)
  have hlt : q < (f + 1) * 2 ^ e := by
    rw [← div_lt_iff₀ hpos, ← hfloor]
    exact Nat.lt_floor_add_one _
  have hfew : f < 2 * mantissaSpan := by
    rw [← hfloor, Nat.floor_lt (by rw [← hscale]; positivity), div_lt_iff₀ hpos]
    rw [zpow_add₀ two_ne_zero, mul_comm] at hupper
    exact hupper.trans_eq (by norm_num [mantissaSpan])
  have hmany : k = 0 ∨ mantissaSpan ≤ f := by
    refine hlower.imp (by omega) fun hlower => ?_
    rw [← hfloor, Nat.le_floor_iff (by rw [← hscale]; positivity), le_div_iff₀ hpos]
    rw [zpow_add₀ two_ne_zero, mul_comm] at hlower
    exact (by norm_num [mantissaSpan] : _ = _).trans_le hlower
  have hvalue : valueOfBits (k * mantissaSpan + f) = f * 2 ^ e := by
    rw [valueOfBits_add hfew.le hmany, hexponent]
  have hnext : valueOfBits (k * mantissaSpan + f + 1) = (f + 1) * 2 ^ e := by
    rw [add_assoc, valueOfBits_add hfew (by omega), hexponent]
    push_cast
    rfl
  have hmod : (k * mantissaSpan + f) % 2 = f % 2 := by
    unfold mantissaSpan
    omega
  have htwice : 2 * q = 2 * (num / den) * 2 ^ e := by
    rw [hscale]
    field_simp
  rcases lt_or_ge (k * mantissaSpan + f) infinityBits with hfinite | hinfinite
  · rcases divNearest_cases num hden with ⟨h, hdiv⟩ | ⟨h, hdiv⟩ | ⟨h, hdiv⟩
    · rw [hdiv, min_eq_left hfinite.le]
      refine rounds_lower hfinite (by rwa [hvalue]) ?_
      rw [hvalue, hnext, htwice]
      linarith [mul_lt_mul_of_pos_right h hpos]
    · rw [hdiv, ← add_assoc, min_eq_left hfinite]
      refine rounds_upper hfinite (by rwa [hnext]) ?_
      rw [hvalue, hnext, htwice]
      linarith [mul_lt_mul_of_pos_right h hpos]
    · rw [hdiv, ← add_assoc, ← hmod, min_eq_left (by omega)]
      refine rounds_even hfinite ?_
      rw [hvalue, hnext, htwice, h]
      ring
  · have hdiv : f ≤ divNearest num den := by
      rcases divNearest_cases num hden with ⟨_, h⟩ | ⟨_, h⟩ | ⟨_, h⟩ <;> omega
    rw [min_eq_right (by omega)]
    refine rounds_infinityBits ((strictMono_valueOfBits.monotone hinfinite).trans ?_)
    rwa [hvalue]

/-- A fraction is rounded to its nearest bits. -/
theorem rounds_nearestBits (num : ℕ) {den : ℕ} (hden : den ≠ 0) :
    Rounds (num / den) (nearestBits num den) := by
  unfold nearestBits
  split_ifs with hnum
  · rw [hnum, Nat.cast_zero, zero_div]
    have hstep := valueOfBits_lt_succ 0
    rw [valueOfBits_zero] at hstep
    refine rounds_lower (by decide) valueOfBits_zero.le ?_
    rw [valueOfBits_zero]
    linarith
  · obtain ⟨hleast, hupper, hlower⟩ := exponentOf_spec hnum hden
    dsimp only
    split_ifs with hexponent
    · refine rounds_divNearest ?_ (div_scale_of_nonneg hexponent) hleast hupper hlower
      exact Nat.mul_pos (Nat.pos_of_ne_zero hden) (Nat.pow_pos two_pos)
    · exact rounds_divNearest (Nat.pos_of_ne_zero hden) (div_scale_of_neg (by omega)) hleast hupper
        hlower

/-! ## The bits of a double -/

/-- The bits are those of a number, infinity included, with its sign in front.  All other patterns
stand for no number. -/
def IsNumberBits (bits : ℕ) : Prop := bits < 2 * signBit ∧ bits % signBit ≤ infinityBits

lemma isNumberBits_add {bits : ℕ} (h : bits ≤ infinityBits) (negative : Bool) :
    IsNumberBits ((if negative then signBit else 0) + bits) := by
  unfold IsNumberBits infinityBits signBit at *
  split_ifs <;> omega

lemma isNumberBits_of_le {bits : ℕ} (h : bits ≤ infinityBits) : IsNumberBits bits := by
  simpa using isNumberBits_add h false

section Bits

open Float.Model Float.Model.UnpackedFloat

lemma isNaNBits_iff (w : UInt64) :
    @isNaNBits .binary64 w.toBitVec = true ↔ infinityBits < w.toNat % signBit := by
  have hlt : w.toNat < 2 ^ 64 := w.toNat_lt
  have hfield : @unpackExponent .binary64 w.toBitVec = -1#11 ↔
      w.toNat / 2 ^ 52 % 2 ^ 11 = 2047 := by
    rw [unpackExponent_def, ← BitVec.toNat_inj, BitVec.extractLsb'_toNat, Nat.shiftRight_eq_div_pow]
    rfl
  have hfraction : @unpackMantissa .binary64 w.toBitVec = 0#52 ↔ w.toNat % 2 ^ 52 = 0 := by
    rw [unpackMantissa_def, ← BitVec.toNat_inj, BitVec.extractLsb'_toNat, Nat.shiftRight_zero]
    rfl
  rw [isNaNBits, decide_eq_true_eq, hfield, Ne, hfraction]
  unfold infinityBits signBit
  omega

/-- A number has the bits that it was made of. -/
lemma toBits_ofBits {bits : ℕ} (h : IsNumberBits bits) :
    (Float.ofBits (UInt64.ofNat bits)).toBits = UInt64.ofNat bits := by
  have hnat : (UInt64.ofNat bits).toNat = bits := UInt64.toNat_ofNat_of_lt' h.1
  have hnumber : @isNaNBits .binary64 (UInt64.ofNat bits).toBitVec = false := by
    rw [← Bool.not_eq_true, isNaNBits_iff, hnat, not_lt]
    exact h.2
  have hpack := @pack_unpack .binary64 (UInt64.ofNat bits).toBitVec (by decide)
  rw [hnumber] at hpack
  exact congrArg UInt64.ofBitVec hpack

lemma isNaN_ofBits {bits : ℕ} (h : IsNumberBits bits) :
    (Float.ofBits (UInt64.ofNat bits)).isNaN = false := by
  rw [Float.isNaN_eq_decide_eq_nan, decide_eq_false_iff_not]
  intro heq
  have hbits := toBits_ofBits h
  rw [heq] at hbits
  have hnan : infinityBits < Float.nan.toBits.toNat % signBit := by decide
  rw [hbits, UInt64.toNat_ofNat_of_lt' h.1] at hnan
  exact absurd h.2 (not_le.mpr hnan)

/-- The bits of all that is a number are those of a number. -/
lemma isNumberBits_toBits {x : Float} (h : x.isNaN = false) : IsNumberBits x.toBits.toNat := by
  refine ⟨x.toBits.toNat_lt, ?_⟩
  by_contra hnan
  rw [not_le, ← isNaNBits_iff, isNaNBits, decide_eq_true_eq] at hnan
  have hbits : x.toBits = Float.nan.toBits :=
    congrArg UInt64.ofBitVec (x.toModel.valid.eq_packedNaN hnan.1 hnan.2)
  rw [Float.isNaN_eq_decide_eq_nan, Float.toBits_inj.mp hbits] at h
  simp at h

end Bits

lemma ofBits_inj {bits bits' : ℕ} (h : bits ≤ infinityBits) (h' : bits' ≤ infinityBits) :
    Float.ofBits (UInt64.ofNat bits) = Float.ofBits (UInt64.ofNat bits') ↔ bits = bits' := by
  refine ⟨fun heq => ?_, fun heq => by rw [heq]⟩
  have hbits := congrArg Float.toBits heq
  rw [toBits_ofBits (isNumberBits_of_le h), toBits_ofBits (isNumberBits_of_le h')] at hbits
  have hnat := congrArg UInt64.toNat hbits
  have hsize : infinityBits < 2 ^ 64 := by decide
  rwa [UInt64.toNat_ofNat_of_lt' (h.trans_lt hsize), UInt64.toNat_ofNat_of_lt' (h'.trans_lt hsize)]
    at hnat

/-- The double is the nearest to the number. -/
def IsNearest (q : ℚ) (x : Float) : Prop :=
  ∃ bits, Rounds q bits ∧ x = Float.ofBits (UInt64.ofNat bits)

theorem IsNearest.unique {q : ℚ} {x x' : Float} (h : IsNearest q x) (h' : IsNearest q x') :
    x = x' := by
  obtain ⟨bits, hbits, rfl⟩ := h
  obtain ⟨bits', hbits', rfl⟩ := h'
  rw [hbits.unique hbits']

lemma isNearest_ofRatio (num : ℕ) {den : ℕ} (hden : den ≠ 0) :
    IsNearest (num / den) (ofRatio false num den) :=
  ⟨nearestBits num den, rounds_nearestBits num hden, by simp [ofRatio]⟩

lemma isNearest_ofInt (n : ℕ) : IsNearest n (ofInt n) := by
  have h := isNearest_ofRatio n one_ne_zero
  rw [Nat.cast_one, div_one] at h
  have hsign : decide ((n : ℤ) < 0) = false := decide_eq_false (by omega)
  rwa [ofInt, hsign]

lemma isNearest_zero {q : ℚ} (hnonneg : 0 ≤ q) (hsmall : 2 * q < 2 ^ leastExponent) :
    IsNearest q (ofRatio false 0 1) := by
  have hone : valueOfBits 1 = 2 ^ leastExponent := by
    rw [valueOfBits, if_pos (by decide), Nat.cast_one, one_mul]
  refine ⟨0, rounds_lower (by decide) (by rwa [valueOfBits_zero]) ?_, rfl⟩
  rwa [valueOfBits_zero, zero_add, zero_add, hone]

lemma isNearest_infinity {q : ℚ} (h : 2 ^ 1024 ≤ q) : IsNearest q infinity :=
  ⟨infinityBits, rounds_infinityBits (by rwa [valueOfBits_infinityBits]), rfl⟩

lemma two_pow_le_ten_pow {k n : ℕ} (h : k ≤ 3 * n) : (2 : ℚ) ^ k ≤ 10 ^ n :=
  calc (2 : ℚ) ^ k ≤ 2 ^ (3 * n) := pow_le_pow_right₀ one_le_two h
    _ = (2 ^ 3) ^ n := pow_mul 2 3 n
    _ ≤ 10 ^ n := pow_le_pow_left₀ (by norm_num) (by norm_num) n

/-- A decimal is rounded once, from its exact value. -/
theorem isNearest_decimal (d : Decimal) :
    IsNearest (d.digits * 10 ^ d.exponent) (d.toFloat false) := by
  obtain ⟨digits, exponent⟩ := d
  simp only [Decimal.toFloat, Bool.false_eq_true, if_false]
  split_ifs with hzero hlarge hsmall hwhole
  · rw [hzero, Nat.cast_zero, zero_mul]
    exact isNearest_zero le_rfl (by rw [mul_zero]; positivity)
  · have hdigits : (1 : ℚ) ≤ digits := by exact_mod_cast Nat.one_le_iff_ne_zero.mpr hzero
    have hpower : (10 : ℚ) ^ ((401 : ℕ) : ℤ) ≤ 10 ^ exponent :=
      zpow_le_zpow_right₀ (by norm_num) (by omega)
    rw [zpow_natCast] at hpower
    refine isNearest_infinity ?_
    calc (2 : ℚ) ^ 1024 ≤ 10 ^ 401 := two_pow_le_ten_pow (by norm_num)
      _ = 1 * 10 ^ 401 := (one_mul _).symm
      _ ≤ digits * 10 ^ exponent := mul_le_mul hdigits hpower (by positivity) (by positivity)
  · have hdigits : (digits : ℚ) ≤ 10 ^ (digits.log2 + 1) := by
      have hpow : 2 ^ (digits.log2 + 1) ≤ 10 ^ (digits.log2 + 1) :=
        Nat.pow_le_pow_left (by norm_num) _
      exact_mod_cast Nat.lt_log2_self.le.trans hpow
    refine isNearest_zero (by positivity) ?_
    calc (2 : ℚ) * (digits * 10 ^ exponent)
        ≤ 2 * (10 ^ (digits.log2 + 1) * 10 ^ exponent) := by gcongr
      _ = 2 * 10 ^ ((digits.log2 + 1 : ℕ) + exponent) := by
        rw [zpow_add₀ (by norm_num), zpow_natCast]
      _ ≤ 2 * 10 ^ (-(401 : ℕ) : ℤ) := by
        gcongr
        · norm_num
        · omega
      _ < 2 ^ leastExponent := by
        have hleast : leastExponent = -(1074 : ℕ) := rfl
        have hpower : (2 : ℚ) * 2 ^ 1074 < 10 ^ 401 := by
          rw [← pow_succ']
          exact (pow_lt_pow_right₀ one_lt_two (Nat.lt_succ_self 1075)).trans_le
            (two_pow_le_ten_pow (by norm_num))
        rw [hleast, zpow_neg, zpow_neg, zpow_natCast, zpow_natCast, ← div_eq_mul_inv,
          div_lt_iff₀ (by positivity), inv_mul_eq_div, lt_div_iff₀ (by positivity)]
        exact hpower
  · obtain ⟨n, rfl⟩ := Int.eq_ofNat_of_zero_le hwhole
    have h := isNearest_ofRatio (digits * tenPow n) one_ne_zero
    have htenPow : tenPow n = 10 ^ n := rfl
    rw [Nat.cast_one, div_one, htenPow] at h
    rw [Int.toNat_natCast, zpow_natCast, htenPow]
    exact_mod_cast h
  · obtain ⟨n, hn⟩ := Int.eq_ofNat_of_zero_le (neg_nonneg.mpr (not_le.mp hwhole).le)
    have htenPow : tenPow n = 10 ^ n := rfl
    have h := isNearest_ofRatio digits (pow_ne_zero n (by norm_num : 10 ≠ 0))
    rw [← neg_neg exponent, hn, neg_neg, Int.toNat_natCast, zpow_neg, zpow_natCast, htenPow,
      ← div_eq_mul_inv]
    exact_mod_cast h

/-! ## Signs -/

/-- The double with the bits of a number from zero on, and with a sign. -/
def signed (negative : Bool) (bits : ℕ) : Float :=
  Float.ofBits (UInt64.ofNat ((if negative then signBit else 0) + bits))

lemma isNaN_signed {bits : ℕ} (h : bits ≤ infinityBits) (negative : Bool) :
    (signed negative bits).isNaN = false :=
  isNaN_ofBits (isNumberBits_add h negative)

lemma nearestBits_le (num : ℕ) {den : ℕ} (hden : den ≠ 0) : nearestBits num den ≤ infinityBits :=
  (rounds_nearestBits num hden).1

lemma isNaN_ofInt (n : ℤ) : (ofInt n).isNaN = false :=
  isNaN_signed (nearestBits_le n.natAbs one_ne_zero) _

/-- A decimal has the same bits with either sign, apart from that of the sign. -/
lemma exists_toFloat_eq_signed (d : Decimal) :
    ∃ bits ≤ infinityBits, ∀ negative, d.toFloat negative = signed negative bits := by
  unfold Decimal.toFloat
  split_ifs
  · exact ⟨_, nearestBits_le 0 one_ne_zero, fun _ => rfl⟩
  · refine ⟨infinityBits, le_rfl, fun negative => ?_⟩
    cases negative
    · rfl
    · decide
  · exact ⟨_, nearestBits_le 0 one_ne_zero, fun _ => rfl⟩
  · exact ⟨_, nearestBits_le _ one_ne_zero, fun _ => rfl⟩
  · exact ⟨_, nearestBits_le _ (Nat.pow_pos (by decide)).ne', fun _ => rfl⟩

lemma toFloat_of_rounds {d : Decimal} {bits : ℕ} (h : Rounds (d.digits * 10 ^ d.exponent) bits)
    (negative : Bool) : d.toFloat negative = signed negative bits := by
  obtain ⟨bits', hle, heq⟩ := exists_toFloat_eq_signed d
  have hnearest : d.toFloat false = Float.ofBits (UInt64.ofNat bits) :=
    (isNearest_decimal d).unique ⟨bits, h, rfl⟩
  rw [heq false, signed, if_neg Bool.false_ne_true, zero_add, ofBits_inj hle h.1] at hnearest
  rw [heq, hnearest]

end RowExpr.Number
