/-
# Rows of digits

A whole number is written as a row of decimal digits, and read back digit by digit.  Reading accepts
more than writing makes: it takes any number of zeros in front.

* `ofDigits_append`: a row of digits is read from the left;
* `ofDigits_toDigits`: the digits of a number are read as that number;
* `readDigits?_eq_some_iff`: the rows of digits that are read as a number.
-/
import Mathlib
import RowExpr.Number.Numeral

namespace RowExpr.Number

/-! ## Digits -/

/-- The decimal digits are the ten characters from `0` on. -/
lemma isDigit_iff {c : Char} : isDigit c = true ↔ '0'.toNat ≤ c.toNat ∧ c.toNat ≤ '9'.toNat := by
  have hzero : '0'.toNat = 48 := rfl
  have hnine : '9'.toNat = 57 := rfl
  unfold isDigit isDigitOf digitValue
  dsimp only
  split_ifs with hdigit
  · exact iff_of_true (decide_eq_true (by omega)) hdigit
  · exact iff_of_false (by simp) hdigit
  · exact iff_of_false (by simp) hdigit
  · exact iff_of_false (by simp) hdigit

lemma isDigit_eq (c : Char) : isDigit c = c.isDigit := by
  rw [Bool.eq_iff_iff, isDigit_iff]
  simp only [Char.isDigit, Bool.and_eq_true, decide_eq_true_eq, ge_iff_le, UInt32.le_iff_toNat_le]
  exact Iff.rfl

lemma digitValue_of_isDigit {c : Char} (h : isDigit c = true) :
    digitValue c = some (c.toNat - '0'.toNat) ∧ c.toNat - '0'.toNat < 10 := by
  rw [isDigit_iff] at h
  refine ⟨by rw [digitValue, if_pos h], ?_⟩
  have hzero : '0'.toNat = 48 := rfl
  have hnine : '9'.toNat = 57 := rfl
  omega

/-- A decimal digit is the character of its value. -/
lemma exists_digitChar {c : Char} (h : isDigit c = true) :
    ∃ d < 10, digitValue c = some d ∧ Nat.digitChar d = c := by
  obtain ⟨hvalue, hlt⟩ := digitValue_of_isDigit h
  refine ⟨_, hlt, hvalue, Char.toNat_inj.mp ?_⟩
  rw [Nat.toNat_digitChar_of_lt_ten hlt]
  have hzero : '0'.toNat = 48 := rfl
  have hle := (isDigit_iff.mp h).1
  omega

lemma isDigit_of_mem_toDigits {n : ℕ} {c : Char} (h : c ∈ Nat.toDigits 10 n) :
    isDigit c = true := by
  rw [isDigit_eq]
  exact Nat.isDigit_of_mem_toDigits (by decide) (by decide) h

/-! ## Reading digits -/

lemma ofDigits_append (radix : ℕ) (digits more : List Char) :
    ofDigits radix (digits ++ more) =
      ofDigits radix digits * radix ^ more.length + ofDigits radix more := by
  have hfold : ∀ (cs : List Char) (n : ℕ),
      cs.foldl (fun n c => n * radix + (digitValue c).getD 0) n =
        n * radix ^ cs.length + ofDigits radix cs := by
    intro cs
    induction cs with
    | nil => simp [ofDigits]
    | cons c cs ih =>
      intro n
      rw [ofDigits, List.foldl_cons, List.foldl_cons, ih, ih, List.length_cons]
      ring
  rw [ofDigits, List.foldl_append, hfold]
  rfl

/-- Digits in front of a point and behind it are read like one row of digits with an exponent. -/
lemma ofDigits_fraction (whole fraction : List Char) (e : ℤ) :
    (ofDigits 10 whole + ofDigits 10 fraction * 10 ^ (-(fraction.length : ℤ))) * 10 ^ e =
      (ofDigits 10 (whole ++ fraction) : ℚ) * 10 ^ (e - fraction.length) := by
  rw [ofDigits_append, sub_eq_add_neg, zpow_add₀ (by norm_num), zpow_neg, zpow_natCast]
  push_cast
  field_simp

lemma ofDigits_singleton (radix : ℕ) (d : Char) :
    ofDigits radix [d] = (digitValue d).getD 0 := by
  simp [ofDigits]

lemma ofDigits_zero (radix : ℕ) (digits : List Char) :
    ofDigits radix ('0' :: digits) = ofDigits radix digits := by
  rw [← List.singleton_append, ofDigits_append]
  simp [ofDigits, digitValue]

lemma ofDigits_zeros (radix count : ℕ) (digits : List Char) :
    ofDigits radix (List.replicate count '0' ++ digits) = ofDigits radix digits := by
  induction count with
  | zero => rfl
  | succ count ih => rw [List.replicate_succ, List.cons_append, ofDigits_zero, ih]

/-- The digits that a number is printed with are read as that number. -/
theorem ofDigits_toDigits (n : ℕ) : ofDigits 10 (Nat.toDigits 10 n) = n := by
  have hfold : ∀ cs : List Char, (∀ c ∈ cs, isDigit c = true) → ∀ m,
      cs.foldl (fun m c => m * 10 + (digitValue c).getD 0) m = Nat.ofDigitChars 10 cs m := by
    intro cs hcs
    induction cs with
    | nil => exact fun _ => rfl
    | cons c cs ih =>
      intro m
      rw [List.foldl_cons, ih fun d hd => hcs d (List.mem_cons_of_mem c hd),
        (digitValue_of_isDigit (hcs c List.mem_cons_self)).1, Nat.mul_comm m 10]
      rfl
  rw [ofDigits, hfold _ fun c hc => isDigit_of_mem_toDigits hc]
  exact Nat.ofDigitChars_toDigits (by decide) (by decide)

/-- All digits are the digits of the number that they are read as, behind some zeros. -/
lemma exists_zeros_append_toDigits {digits : List Char} (hne : digits ≠ [])
    (hdigits : ∀ d ∈ digits, isDigit d) :
    ∃ count, digits = List.replicate count '0' ++ Nat.toDigits 10 (ofDigits 10 digits) := by
  induction digits using List.reverseRecOn with
  | nil => exact absurd rfl hne
  | append_singleton ds d ih =>
    obtain ⟨v, hlt, hvalue, rfl⟩ := exists_digitChar (hdigits d (by simp))
    have hlast : Nat.toDigits 10 v = [v.digitChar] := Nat.toDigits_of_lt_base hlt
    rw [ofDigits_append, ofDigits_singleton, hvalue, Option.getD_some, List.length_singleton,
      pow_one]
    by_cases hnil : ds = []
    · subst hnil
      refine ⟨0, ?_⟩
      simp [ofDigits, hlast]
    · obtain ⟨count, hds⟩ := ih hnil fun c hc => hdigits c (by simp [hc])
      generalize ofDigits 10 ds = n at hds ⊢
      rcases Nat.eq_zero_or_pos n with rfl | hpos
      · -- nothing but zeros stands in front of the last digit
        refine ⟨count + 1, ?_⟩
        rw [hds, zero_mul, zero_add, hlast, Nat.toDigits_zero, List.replicate_succ']
      · refine ⟨count, ?_⟩
        rw [hds, List.append_assoc, ← hlast,
          Nat.toDigits_append_toDigits (by decide) hpos hlt, mul_comm]

/-- A row of digits is read as a number if it is the digits of that number behind some zeros. -/
theorem readDigits?_eq_some_iff {digits : List Char} {n : ℕ} :
    readDigits? 10 digits = some n ↔
      ∃ count, digits = List.replicate count '0' ++ Nat.toDigits 10 n := by
  unfold readDigits?
  constructor
  · intro h
    split_ifs at h with hall
    simp only [Bool.and_eq_true, Bool.not_eq_true', List.isEmpty_eq_false_iff,
      List.all_eq_true] at hall
    obtain rfl := Option.some.inj h
    exact exists_zeros_append_toDigits hall.1 hall.2
  · rintro ⟨count, rfl⟩
    have hall : ∀ d ∈ List.replicate count '0' ++ Nat.toDigits 10 n, isDigit d := by
      intro d hd
      rcases List.mem_append.mp hd with hd | hd
      · rw [List.eq_of_mem_replicate hd]
        decide
      · exact isDigit_of_mem_toDigits hd
    have hne : List.replicate count '0' ++ Nat.toDigits 10 n ≠ [] :=
      List.append_ne_nil_of_right_ne_nil _ Nat.toDigits_ne_nil
    rw [if_pos, ofDigits_zeros, ofDigits_toDigits]
    rw [Bool.and_eq_true, List.all_eq_true, Bool.not_eq_true', List.isEmpty_eq_false_iff]
    exact ⟨hne, hall⟩

end RowExpr.Number
