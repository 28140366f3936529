/-
# Numbers through their text

The text of a number is its shortest decimal, laid out without an exponent.  Reading the text gives
the number back: the layout is a numeral of the same value, and the decimal is rounded to the
number.  Only the sign of zero is lost, and what is no number has a text that is none.

* `exists_writes_plainText`: a row of digits with a point is a numeral of its value;
* `ofText_format`: the text of a number other than zero is converted to that very number;
* `sameNumber_ofText_format`: the text of any number is converted to the same number.
-/
import RowExpr.Proofs.Number.Digits
import RowExpr.Proofs.Number.Shortest
import RowExpr.Proofs.Number.Text

namespace RowExpr.Number

open RowExpr.Token (Sign Exponent Fraction)

/-! ## The parts of a double -/

lemma eq_ofBits (x : Float) : x = Float.ofBits (UInt64.ofNat x.toBits.toNat) := by
  rw [UInt64.ofNat_toNat, Float.ofBits_toBits]

/-- A finite double is made of its sign, its exponent and its mantissa. -/
lemma exists_of_ofFloat?_eq_some {x : Float} {d : Dyadic} (h : Dyadic.ofFloat? x = some d) :
    ∃ k : ℕ, d.exponent = k + leastExponent ∧ d.mantissa < 2 * mantissaSpan ∧
      (k = 0 ∨ mantissaSpan ≤ d.mantissa) ∧ k * mantissaSpan + d.mantissa < infinityBits ∧
      x = signed d.negative (k * mantissaSpan + d.mantissa) := by
  have hx := eq_ofBits x
  have hlt : x.toBits.toNat < 2 ^ 64 := x.toBits.toNat_lt
  unfold Dyadic.ofFloat? at h
  generalize x.toBits.toNat = bits at h hx hlt
  unfold signed
  simp only at h
  split_ifs at h with hinfinite hsubnormal
  -- below the least normal double the exponent field is zero and the mantissa has no hidden bit
  · obtain rfl := Option.some.inj h
    unfold mantissaSpan signBit infinityBits at *
    dsimp only
    refine ⟨0, by simp, by omega, .inl rfl, by omega, ?_⟩
    rw [hx]
    congr 2
    simp only [decide_eq_true_eq]
    split_ifs <;> omega
  · obtain rfl := Option.some.inj h
    unfold mantissaSpan signBit infinityBits at *
    dsimp only
    refine ⟨bits % 0x8000000000000000 / 0x10000000000000 - 1, by omega, by omega, .inr (by omega),
      by omega, ?_⟩
    rw [hx]
    congr 2
    simp only [decide_eq_true_eq]
    split_ifs <;> omega

/-- A double without a finite value that is a number is infinite. -/
lemma exists_eq_infinity {x : Float} (h : Dyadic.ofFloat? x = none) (hnan : x.isNaN = false) :
    ∃ negative, x = signed negative infinityBits := by
  have hx := eq_ofBits x
  obtain ⟨hlt, hle⟩ := isNumberBits_toBits hnan
  unfold Dyadic.ofFloat? at h
  generalize x.toBits.toNat = bits at h hx hlt hle
  simp only at h
  split_ifs at h with hinfinite
  refine ⟨decide (signBit ≤ bits), ?_⟩
  rw [hx, signed]
  congr 2
  simp only [decide_eq_true_eq]
  unfold mantissaSpan signBit infinityBits at *
  split_ifs <;> omega

/-! ## The layout of digits -/

lemma isDigit_of_mem_zeros {count : ℕ} {d : Char} (h : d ∈ List.replicate count '0') :
    isDigit d := by
  rw [List.eq_of_mem_replicate h]
  decide

lemma toList_zeros (count : ℕ) : (zeros count).toList = List.replicate count '0' := by
  simp [zeros]

lemma value_decimal (whole fraction : List Char) :
    (Numeral.decimal ⟨whole, fraction, false, []⟩).value =
      ofDigits 10 (whole ++ fraction) * 10 ^ (-(fraction.length : ℤ)) := by
  simp [Numeral.decimal, Decimal.value, ofDigits]

/-- The digits with a point among them are a numeral, and its value is that of the digits times the
power of ten that belongs to the last of them. -/
lemma exists_writes_plainText {digits : List Char} (hne : digits ≠ [])
    (hdigits : ∀ d ∈ digits, isDigit d) (point : ℤ) :
    ∃ n, Numeral.Writes (plainText valueLayout digits point).toList n ∧
      n.decimal.value = ofDigits 10 digits * 10 ^ (point - digits.length) := by
  unfold plainText
  split_ifs with hpoint hwhole hkeeps
  · obtain ⟨count, hcount⟩ := Int.eq_ofNat_of_zero_le (neg_nonneg.mpr hpoint)
    have hfraction : ∀ d ∈ List.replicate count '0' ++ digits, isDigit d :=
      List.forall_mem_append.mpr ⟨fun _ => isDigit_of_mem_zeros, hdigits⟩
    refine ⟨⟨['0'], List.replicate count '0' ++ digits, false, []⟩, ?_, ?_⟩
    · have hwrites := Numeral.Writes.intro (List.forall_mem_singleton.mpr (by decide))
        (.given hfraction) .missing (.inl (List.cons_ne_nil '0' []))
      simpa [toList_zeros, hcount] using hwrites
    · rw [value_decimal, List.singleton_append, ofDigits_zero, ofDigits_zeros, List.length_append,
        List.length_replicate]
      congr 2
      omega
  · exact absurd hkeeps Bool.false_ne_true
  · have hall : ∀ d ∈ digits ++ List.replicate (point.toNat - digits.length) '0', isDigit d :=
      List.forall_mem_append.mpr ⟨hdigits, fun _ => isDigit_of_mem_zeros⟩
    refine ⟨⟨digits ++ List.replicate (point.toNat - digits.length) '0', [], false, []⟩, ?_, ?_⟩
    · have hwrites := Numeral.Writes.intro hall .missing .missing
        (.inl (List.append_ne_nil_of_left_ne_nil hne _))
      simpa [toList_zeros] using hwrites
    · have hzeros := ofDigits_zeros 10 (point.toNat - digits.length) []
      rw [List.append_nil] at hzeros
      rw [value_decimal, List.append_nil, ofDigits_append, hzeros, List.length_replicate]
      have hpower : point - digits.length = (point.toNat - digits.length : ℕ) := by omega
      rw [hpower, zpow_natCast]
      simp [ofDigits]
  · refine ⟨⟨digits.take point.toNat, digits.drop point.toNat, false, []⟩, ?_, ?_⟩
    · have hfraction : digits.drop point.toNat ≠ [] := by
        rw [Ne, List.drop_eq_nil_iff]
        exact hwhole
      have hwrites := Numeral.Writes.intro
        (fun d (hd : d ∈ digits.take point.toNat) => hdigits d (List.mem_of_mem_take hd))
        (.given fun d hd => hdigits d (List.mem_of_mem_drop hd)) .missing (.inr hfraction)
      simpa using hwrites
    · rw [value_decimal, List.take_append_drop, List.length_drop]
      congr 2
      omega

/-- The text of a positive number is a numeral, and with either sign it is rounded to the number. -/
lemma exists_writes_positiveText {k m : ℕ} (hpos : 0 < m) (hm : m < 2 * mantissaSpan)
    (hk : k = 0 ∨ mantissaSpan ≤ m) (hbits : k * mantissaSpan + m < infinityBits) :
    ∃ n, Numeral.Writes (positiveText valueLayout m (k + leastExponent)).toList n ∧
      ∀ negative, n.toFloat negative = signed negative (k * mantissaSpan + m) := by
  have hrounds := rounds_shortest valueLayout.tie hpos hm hk hbits
  generalize hd : shortest valueLayout.tie m (k + leastExponent) = d at hrounds
  have hne : Nat.toDigits 10 d.digits ≠ [] := Nat.toDigits_ne_nil
  obtain ⟨n, hwrites, hvalue⟩ := exists_writes_plainText hne
    (fun c hc => isDigit_of_mem_toDigits hc) ((Nat.toDigits 10 d.digits).length + d.exponent)
  refine ⟨n, ?_, fun negative => toFloat_of_rounds ?_ negative⟩
  · simp only [positiveText, hd]
    exact hwrites
  · rw [ofDigits_toDigits, add_sub_cancel_left] at hvalue
    change Rounds n.decimal.value _
    rw [hvalue]
    exact hrounds

/-! ## Reading the text of a number -/

lemma isBlank_of_isDigitOf {radix : ℕ} {c : Char} (h : isDigitOf radix c) :
    Text.isBlank c = false := by
  have hrange : 48 ≤ c.toNat ∧ c.toNat ≤ 122 := by
    unfold isDigitOf digitValue at h
    have hzero : '0'.toNat = 48 := rfl
    have hnine : '9'.toNat = 57 := rfl
    have ha : 'a'.toNat = 97 := rfl
    have hz : 'z'.toNat = 122 := rfl
    have hA : 'A'.toNat = 65 := rfl
    have hZ : 'Z'.toNat = 90 := rfl
    simp only at h
    split_ifs at h
    · omega
    · omega
    · omega
  by_contra hblank
  rw [Bool.not_eq_false] at hblank
  obtain ⟨r, hr, hlow, hhigh⟩ := Text.Ranges.exists_of_contains hblank
  simp only [Text.blankRanges, List.mem_cons, List.not_mem_nil, or_false] at hr
  rcases hr with rfl | rfl | rfl | rfl | rfl | rfl | rfl | rfl | rfl | rfl <;>
    simp only at hlow hhigh <;> omega

lemma ofText_of_written {text : String} {x : Float} (h : Written text.toList x) :
    ofText text = x := by
  rw [ofText_eq_iff h.isNaN, Text.trim_eq_self]
  · exact h
  intro c hc
  rcases h.forall_mem c hc with hdigit | hmark
  · exact isBlank_of_isDigitOf hdigit
  · simp only [List.mem_cons, List.not_mem_nil, or_false] at hmark
    rcases hmark with rfl | rfl | rfl <;> decide

/-- The text of a number other than zero is converted to that very number. -/
theorem ofText_format {x : Float} (hnan : x.isNaN = false) (hzero : (x == 0) = false) :
    ofText (format x) = x := by
  refine ofText_of_written ?_
  unfold format Layout.text
  cases hx : Dyadic.ofFloat? x with
  | none =>
    obtain ⟨negative, rfl⟩ := exists_eq_infinity hx hnan
    simp only [hnan, Bool.false_eq_true, if_false]
    cases negative with
    | false =>
      rw [if_neg (by decide)]
      exact .infinity .missing
    | true =>
      rw [if_pos (by decide), show signed true infinityBits = -infinity by decide]
      exact .infinity .minus
  | some d =>
    obtain ⟨k, hexponent, hm, hk, hbits, heq⟩ := exists_of_ofFloat?_eq_some hx
    -- a mantissa of zero would make a zero of either sign
    have hpos : 0 < d.mantissa := by
      rw [Nat.pos_iff_ne_zero]
      rintro hnone
      obtain rfl : k = 0 := hk.resolve_right (by rw [hnone]; decide)
      rw [heq, hnone] at hzero
      generalize d.negative = negative at hzero
      cases negative <;> exact absurd hzero (by decide)
    obtain ⟨n, hwrites, hfloat⟩ := exists_writes_positiveText hpos hm hk hbits
    simp only [if_neg hpos.ne']
    rw [hexponent, heq, ← hfloat]
    cases d.negative with
    | false => simpa using Written.decimal .missing hwrites
    | true => simpa using Written.decimal .minus hwrites

/-- Two numbers are the same if they are equal or if neither of them is a number. -/
def SameNumber (x y : Float) : Prop := (x == y) = true ∨ x.isNaN = true ∧ y.isNaN = true

lemma sameNumber_refl (x : Float) : SameNumber x x := by
  by_cases hnan : x = Float.nan
  · right
    rw [hnan]
    decide
  · exact .inl (Float.beq_self_iff.mpr hnan)

/-- The text of any number is converted to the same number. -/
theorem sameNumber_ofText_format (x : Float) : SameNumber (ofText (format x)) x := by
  by_cases hnan : x = Float.nan
  · subst hnan
    exact .inr (by decide)
  by_cases hzero : (x == 0) = true
  · rw [Float.beq_iff_ne_nan_and_eq] at hzero
    obtain ⟨-, -, heq | ⟨heq, -⟩ | ⟨heq, -⟩⟩ := hzero
    · exact .inl (heq ▸ by decide)
    · exact .inl (heq ▸ by decide)
    · exact .inl (heq ▸ by decide)
  · rw [Bool.not_eq_true] at hzero
    have hnumber : x.isNaN = false := by
      rw [Float.isNaN_eq_decide_eq_nan]
      exact decide_eq_false hnan
    rw [ofText_format hnumber hzero]
    exact sameNumber_refl x

end RowExpr.Number
