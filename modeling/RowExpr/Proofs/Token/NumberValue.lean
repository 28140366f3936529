/-
# The value of a number literal

Generated code repeats a number literal as it was written, and the host reads it by the rules of
ECMAScript, while folding takes the value that the scanner made of it.  This file writes down the
rules of ECMAScript for number literals and their exact values, and compares the two readings.  The
scanner reads a literal as decimal wherever it does not begin with the letter of a radix; the host
reads an integer with a leading zero and without the digits eight and nine as octal, and knows no
fraction and no exponent behind it.

* `Ecma.NumericLiteral`: the literals of ECMAScript and their exact values;
* `Token.isNearest_of_literal`: all other literals have the same value for both;
* `Token.number_value_iff`: the literals on which the two readings agree.
-/
import RowExpr.Expr.Code
import RowExpr.Expr.Fold
import RowExpr.Proofs.Number.Digits
import RowExpr.Proofs.Number.Nearest
import RowExpr.Proofs.Token.Run
import RowExpr.Proofs.Token.StringValue

namespace RowExpr.Ecma

open RowExpr.Number (isDigit isDigitOf ofDigits IsNearest)

/-! ## Number literals of ECMAScript -/

/-- The digits in front of a decimal point or of an exponent.  Behind a leading zero one of them
must not be octal. -/
inductive DecimalInteger : List Char → Prop
  | zero : DecimalInteger ['0']
  | nonzero {c : Char} {digits : List Char} (hc : isDigit c) (hzero : c ≠ '0')
      (hdigits : ∀ d ∈ digits, isDigit d) : DecimalInteger (c :: digits)
  | nonOctal {digits : List Char} (hdigits : ∀ d ∈ digits, isDigit d)
      (hoctal : ∃ d ∈ digits, ¬ isDigitOf 8 d) : DecimalInteger ('0' :: digits)

/-- The exponent of a literal, and the power of ten it stands for. -/
inductive ExponentPart : List Char → ℤ → Prop
  | missing : ExponentPart [] 0
  | unsigned {e : Char} {digits : List Char} (he : e = 'e' ∨ e = 'E') (hne : digits ≠ [])
      (hdigits : ∀ d ∈ digits, isDigit d) : ExponentPart (e :: digits) (ofDigits 10 digits)
  | plus {e : Char} {digits : List Char} (he : e = 'e' ∨ e = 'E') (hne : digits ≠ [])
      (hdigits : ∀ d ∈ digits, isDigit d) : ExponentPart (e :: '+' :: digits) (ofDigits 10 digits)
  | minus {e : Char} {digits : List Char} (he : e = 'e' ∨ e = 'E') (hne : digits ≠ [])
      (hdigits : ∀ d ∈ digits, isDigit d) :
      ExponentPart (e :: '-' :: digits) (-(ofDigits 10 digits : ℤ))

/-- The letters that announce a radix behind a leading zero. -/
inductive RadixMark : Char → ℕ → Prop
  | hex : RadixMark 'x' 16
  | hexUpper : RadixMark 'X' 16
  | octal : RadixMark 'o' 8
  | octalUpper : RadixMark 'O' 8
  | binary : RadixMark 'b' 2
  | binaryUpper : RadixMark 'B' 2

/-- The text is a number literal, and its exact value is `q`.  Separators between digits and the
suffix of big integers are left out, because the scanner knows neither. -/
inductive NumericLiteral : List Char → ℚ → Prop
  | whole {digits power : List Char} {e : ℤ} (hdigits : DecimalInteger digits)
      (hpower : ExponentPart power e) :
      NumericLiteral (digits ++ power) (ofDigits 10 digits * 10 ^ e)
  | fraction {digits fraction power : List Char} {e : ℤ} (hdigits : DecimalInteger digits)
      (hfraction : ∀ d ∈ fraction, isDigit d) (hpower : ExponentPart power e) :
      NumericLiteral (digits ++ '.' :: (fraction ++ power))
        ((ofDigits 10 digits + ofDigits 10 fraction * 10 ^ (-(fraction.length : ℤ))) * 10 ^ e)
  | point {fraction power : List Char} {e : ℤ} (hne : fraction ≠ [])
      (hfraction : ∀ d ∈ fraction, isDigit d) (hpower : ExponentPart power e) :
      NumericLiteral ('.' :: (fraction ++ power))
        (ofDigits 10 fraction * 10 ^ (-(fraction.length : ℤ)) * 10 ^ e)
  | radix {x : Char} {radix : ℕ} {digits : List Char} (hx : RadixMark x radix) (hne : digits ≠ [])
      (hdigits : ∀ d ∈ digits, isDigitOf radix d) :
      NumericLiteral ('0' :: x :: digits) (ofDigits radix digits)
  | legacyOctal {digits : List Char} (hne : digits ≠ []) (hdigits : ∀ d ∈ digits, isDigitOf 8 d) :
      NumericLiteral ('0' :: digits) (ofDigits 8 digits)

/-- The text is a number literal, and its value is the double `x`. -/
def NumberValue (text : String) (x : Float) : Prop :=
  ∃ q, NumericLiteral text.toList q ∧ IsNearest q x

/-- Whether the text begins like an octal integer of older programs: a leading zero, and behind it
digits that are all octal. -/
def isOctalLike : List Char → Bool
  | '0' :: r => !(r.takeWhile isDigit).isEmpty && (r.takeWhile isDigit).all (isDigitOf 8)
  | _ => false

lemma DecimalInteger.exists_cons {digits : List Char} (h : DecimalInteger digits) :
    ∃ c ds, digits = c :: ds ∧ isDigit c ∧ ∀ d ∈ ds, isDigit d := by
  cases h with
  | zero => exact ⟨'0', [], rfl, by decide, nofun⟩
  | nonzero hc _ hdigits => exact ⟨_, _, rfl, hc, hdigits⟩
  | nonOctal hdigits _ => exact ⟨'0', _, rfl, by decide, hdigits⟩

lemma isOctalLike_cons (digits rest : List Char) (hdigits : ∀ d ∈ digits, isDigit d)
    (hrest : ∀ c, rest.head? = some c → isDigit c = false) :
    isOctalLike ('0' :: (digits ++ rest)) ↔ digits ≠ [] ∧ ∀ d ∈ digits, isDigitOf 8 d := by
  rw [isOctalLike, (span_append hdigits hrest).1]
  simp

/-- The integer in front of a point or of an exponent does not look like an octal one. -/
lemma DecimalInteger.not_isOctalLike {digits rest : List Char} (h : DecimalInteger digits)
    (hrest : ∀ c, rest.head? = some c → isDigit c = false) :
    ¬ isOctalLike (digits ++ rest) := by
  cases h with
  | zero => exact fun hlike => ((isOctalLike_cons [] rest nofun hrest).mp hlike).1 rfl
  | nonzero hc hzero hdigits =>
    unfold isOctalLike
    split
    case h_1 heq => exact absurd (List.cons.inj heq).1 hzero
    case h_2 => exact Bool.false_ne_true
  | nonOctal hdigits hoctal =>
    obtain ⟨d, hd, hoctal⟩ := hoctal
    exact fun hlike => hoctal (((isOctalLike_cons _ rest hdigits hrest).mp hlike).2 d hd)

end RowExpr.Ecma

namespace RowExpr.Number

/-! ## Rows of digits -/

/-- Octal digits stand for the same number if they are read as decimal ones, if that is below
eight, and for a much smaller one if not. -/
lemma ofDigits_octal {digits : List Char} (h : ∀ d ∈ digits, isDigitOf 8 d) :
    (ofDigits 10 digits < 8 → ofDigits 8 digits = ofDigits 10 digits) ∧
      (8 ≤ ofDigits 10 digits → 8 ≤ ofDigits 8 digits ∧
        17 * ofDigits 8 digits ≤ 15 * ofDigits 10 digits) := by
  induction digits using List.reverseRecOn with
  | nil => simp [ofDigits]
  | append_singleton digits d ih =>
    have hd : (digitValue d).getD 0 < 8 := by
      have := h d (by simp)
      unfold isDigitOf at this
      cases hvalue : digitValue d with
      | none => simp
      | some n => simpa [hvalue] using this
    obtain ⟨hsmall, hlarge⟩ := ih fun c hc => h c (by simp [hc])
    rw [ofDigits_append, ofDigits_append, ofDigits_singleton, ofDigits_singleton,
      List.length_singleton, pow_one, pow_one]
    omega

/-- The double of a numeral is the nearest to its exact value. -/
lemma isNearest_numeral (whole fraction exponent : List Char) (negative : Bool) :
    IsNearest
      ((ofDigits 10 whole + ofDigits 10 fraction * 10 ^ (-(fraction.length : ℤ))) *
        10 ^ (if negative then -(ofDigits 10 exponent : ℤ) else ofDigits 10 exponent))
      (Numeral.toFloat false ⟨whole, fraction, negative, exponent⟩) := by
  rw [ofDigits_fraction]
  exact isNearest_decimal (Numeral.decimal ⟨whole, fraction, negative, exponent⟩)

end RowExpr.Number

namespace RowExpr.Token

open RowExpr.Number (isDigit isDigitOf ofDigits readDigits? IsNearest)
open RowExpr.Ecma (DecimalInteger ExponentPart RadixMark NumericLiteral NumberValue isOctalLike)

/-! ## The two readings -/

lemma stopsNumber_nil : StopsNumber [] := nofun

lemma NumberBody.unique {c : Char} {body : List Char} {v w : Float} (h : NumberBody c body v)
    (h' : NumberBody c body w) : v = w :=
  ((scans_value h stopsNumber_nil).unique (scans_value h' stopsNumber_nil)).1

lemma exists_exponent {power : List Char} {e : ℤ} (h : ExponentPart power e) :
    ∃ negative digits, Exponent power negative digits ∧
      e = if negative then -(ofDigits 10 digits : ℤ) else ofDigits 10 digits := by
  cases h with
  | missing => exact ⟨false, [], .missing, rfl⟩
  | unsigned he hne hdigits => exact ⟨false, _, .given he .missing hne hdigits, rfl⟩
  | plus he hne hdigits => exact ⟨false, _, .given he .plus hne hdigits, rfl⟩
  | minus he hne hdigits => exact ⟨true, _, .given he .minus hne hdigits, rfl⟩

lemma exists_exponentPart {power digits : List Char} {negative : Bool}
    (h : Exponent power negative digits) : ∃ e, ExponentPart power e := by
  cases h with
  | missing => exact ⟨_, .missing⟩
  | given he hsign hne hdigits =>
    cases hsign with
    | missing => exact ⟨_, .unsigned he hne hdigits⟩
    | plus => exact ⟨_, .plus he hne hdigits⟩
    | minus => exact ⟨_, .minus he hne hdigits⟩

lemma head?_exponentPart {power : List Char} {e : ℤ} (h : ExponentPart power e) {c : Char}
    (hc : power.head? = some c) : isDigit c = false := by
  obtain ⟨_, _, hpower, _⟩ := exists_exponent h
  refine (head?_afterDigits .missing hpower stopsNumber_nil.ends ?_).1
  rwa [List.nil_append, List.append_nil]

lemma radixOf?_of_radixMark {x : Char} {radix : ℕ} (h : RadixMark x radix) :
    radixOf? x = some radix ∧ isDigit x = false := by
  cases h <;> decide

lemma isDigit_of_octal {digits : List Char} (h : ∀ d ∈ digits, isDigitOf 8 d) :
    ∀ d ∈ digits, isDigit d :=
  fun d hd => isDigit_of_isDigitOf (by omega) (h d hd)

lemma isOctalLike_of_octal {digits : List Char} (hne : digits ≠ [])
    (hdigits : ∀ d ∈ digits, isDigitOf 8 d) : isOctalLike ('0' :: digits) := by
  have hlike := Ecma.isOctalLike_cons digits [] (isDigit_of_octal hdigits) nofun
  rw [List.append_nil] at hlike
  exact hlike.mpr ⟨hne, hdigits⟩

/-- The digits behind the letter of a radix are read as a whole number. -/
lemma NumberBody.eq_ofInt {x : Char} {radix : ℕ} {digits : List Char} {value : Float}
    (h : NumberBody '0' (x :: digits) value) (hx : radixOf? x = some radix)
    (hdigits : ∀ d ∈ digits, isDigitOf radix d) : value = Number.ofInt (ofDigits radix digits) := by
  have hscan := scans_value h stopsNumber_nil
  rw [List.append_nil, scanValue, hx] at hscan
  obtain ⟨n, hread, _, rfl, _⟩ := scans_radix.1 (scans_within.1 hscan)
  rw [List.takeWhile_eq_self_iff.2 hdigits, readDigits?] at hread
  split_ifs at hread
  rw [← Option.some.inj hread]

/-- A literal that does not look like an octal integer has the value of ECMAScript. -/
theorem isNearest_of_literal {c : Char} {body : List Char} {value : Float} {q : ℚ}
    (hbody : NumberBody c body value) (h : NumericLiteral (c :: body) q)
    (hoctal : ¬ isOctalLike (c :: body)) : IsNearest q value := by
  generalize htext : c :: body = text at h hoctal
  cases h with
  | whole hdigits hpower =>
    obtain ⟨d, ds, rfl, hd, hds⟩ := hdigits.exists_cons
    obtain ⟨rfl, rfl⟩ := List.cons.inj htext
    obtain ⟨negative, exponent, hexponent, rfl⟩ := exists_exponent hpower
    obtain rfl := hbody.unique (.whole hd hds .missing hexponent)
    simpa [ofDigits] using Number.isNearest_numeral (c :: ds) [] exponent negative
  | fraction hdigits hfraction hpower =>
    obtain ⟨d, ds, rfl, hd, hds⟩ := hdigits.exists_cons
    obtain ⟨rfl, rfl⟩ := List.cons.inj htext
    obtain ⟨negative, exponent, hexponent, rfl⟩ := exists_exponent hpower
    obtain rfl := hbody.unique (.whole hd hds (.given hfraction) hexponent)
    exact Number.isNearest_numeral _ _ exponent negative
  | @point fraction _ _ hne hfraction hpower =>
    obtain ⟨rfl, rfl⟩ := List.cons.inj htext
    obtain ⟨negative, exponent, hexponent, rfl⟩ := exists_exponent hpower
    obtain rfl := hbody.unique (.point hne hfraction hexponent)
    simpa [ofDigits] using Number.isNearest_numeral [] fraction exponent negative
  | radix hx _ hdigits =>
    obtain ⟨rfl, rfl⟩ := List.cons.inj htext
    rw [hbody.eq_ofInt (radixOf?_of_radixMark hx).1 hdigits]
    exact Number.isNearest_ofInt _
  | legacyOctal hne hdigits => exact absurd (isOctalLike_of_octal hne hdigits) hoctal

/-- A literal of ECMAScript that looks like an octal integer is one, and has nothing but digits. -/
lemma exists_octal_of_literal {text : List Char} {q : ℚ} (h : NumericLiteral text q)
    (hoctal : isOctalLike text) :
    ∃ digits, text = '0' :: digits ∧ (∀ d ∈ digits, isDigitOf 8 d) ∧ q = ofDigits 8 digits := by
  cases h with
  | whole hdigits hpower =>
    exact absurd hoctal (hdigits.not_isOctalLike fun _ hc => head?_exponentPart hpower hc)
  | fraction hdigits _ _ =>
    exact absurd hoctal (hdigits.not_isOctalLike fun c hc => by cases hc; decide)
  | point => cases hoctal
  | @radix x _ digits hx _ _ =>
    have hrest : ∀ c, (x :: digits).head? = some c → isDigit c = false := by
      rintro c ⟨⟩
      exact (radixOf?_of_radixMark hx).2
    exact absurd rfl ((Ecma.isOctalLike_cons [] (x :: digits) nofun hrest).mp hoctal).1
  | legacyOctal _ hdigits => exact ⟨_, rfl, hdigits, rfl⟩

lemma exists_literal_of_integer {digits point fraction power exponent : List Char} {negative : Bool}
    (hdigits : DecimalInteger digits) (hpoint : Fraction point fraction)
    (hpower : Exponent power negative exponent) :
    ∃ q, NumericLiteral (digits ++ (point ++ power)) q := by
  obtain ⟨e, he⟩ := exists_exponentPart hpower
  cases hpoint with
  | missing => exact ⟨_, .whole hdigits he⟩
  | given hfraction => exact ⟨_, .fraction hdigits hfraction he⟩

/-- What the scanner accepts is a literal of ECMAScript, unless it looks like an octal integer and
has more than digits. -/
lemma exists_literal_iff {c : Char} {body : List Char} {value : Float}
    (h : NumberBody c body value) :
    (∃ q, NumericLiteral (c :: body) q) ↔
      (isOctalLike (c :: body) → ∀ d ∈ c :: body, isDigit d) := by
  constructor
  · rintro ⟨q, hq⟩ hoctal
    obtain ⟨digits, htext, hdigits, _⟩ := exists_octal_of_literal hq hoctal
    rw [htext]
    exact List.forall_mem_cons.mpr ⟨by decide, isDigit_of_octal hdigits⟩
  · intro himp
    cases h with
    | @whole _ digits point _ power _ _ hc hdigits hpoint hpower =>
      have hafter : ∀ x, (point ++ power).head? = some x → isDigit x = false := by
        intro x hx
        rw [← List.append_nil power] at hx
        exact (head?_afterDigits hpoint hpower stopsNumber_nil.ends hx).1
      by_cases hzero : c = '0'
      · subst hzero
        have hlike := Ecma.isOctalLike_cons digits (point ++ power) hdigits hafter
        by_cases hoctal : digits ≠ [] ∧ ∀ d ∈ digits, isDigitOf 8 d
        · have hall := himp (hlike.mpr hoctal)
          cases hrest : point ++ power with
          | nil =>
            rw [List.append_nil]
            exact ⟨_, .legacyOctal hoctal.1 hoctal.2⟩
          | cons x rest =>
            rw [hrest] at hall hafter
            exact absurd (hall x (by simp)) (by simp [hafter x rfl])
        · rw [← List.cons_append]
          refine exists_literal_of_integer ?_ hpoint hpower
          cases digits with
          | nil => exact .zero
          | cons d ds =>
            refine .nonOctal hdigits ?_
            by_contra hall
            simp only [not_exists, not_and, not_not] at hall
            exact hoctal ⟨List.cons_ne_nil _ _, hall⟩
      · rw [← List.cons_append]
        exact exists_literal_of_integer (.nonzero hc hzero hdigits) hpoint hpower
    | point hne hdigits hpower =>
      obtain ⟨e, he⟩ := exists_exponentPart hpower
      exact ⟨_, .point hne hdigits he⟩
    | @radix x radix _ digits hx hread _ =>
      have hmark : RadixMark x radix := by
        unfold radixOf? at hx
        split at hx <;> cases hx <;> constructor
      have hne : digits ≠ [] := by
        rintro rfl
        simp [readDigits?] at hread
      exact ⟨_, .radix hmark hne (forall_isDigitOf_of_readDigits? hread)⟩

lemma exists_isNearest {c : Char} {body : List Char} {value : Float} {q : ℚ}
    (hbody : NumberBody c body value) (h : NumericLiteral (c :: body) q) : ∃ x, IsNearest q x := by
  by_cases hoctal : isOctalLike (c :: body)
  · obtain ⟨digits, _, _, rfl⟩ := exists_octal_of_literal h hoctal
    exact ⟨_, Number.isNearest_ofInt _⟩
  · exact ⟨value, isNearest_of_literal hbody h hoctal⟩

/-- An octal integer has the value that the scanner gives it exactly if it is below eight, read as
decimal, or infinite. -/
lemma eq_octal_iff {digits : List Char} {value x : Float} (hdigits : ∀ d ∈ digits, isDigitOf 8 d)
    (hbody : NumberBody '0' digits value) (hx : IsNearest (ofDigits 8 digits) x) :
    value = x ↔ ofDigits 10 digits < 8 ∨ x = Number.infinity := by
  have hvalue : IsNearest (ofDigits 10 digits) value := by
    have hwhole : NumberBody '0' (digits ++ ([] ++ [])) _ :=
      .whole (by decide) (isDigit_of_octal hdigits) .missing .missing
    rw [List.append_nil, List.append_nil] at hwhole
    obtain rfl := hbody.unique hwhole
    have hnearest := Number.isNearest_numeral ('0' :: digits) [] [] false
    rw [Number.ofDigits_zero] at hnearest
    simpa [ofDigits] using hnearest
  obtain ⟨hsmall, hlarge⟩ := Number.ofDigits_octal hdigits
  rcases lt_or_ge (ofDigits 10 digits) 8 with hlt | hge
  · rw [hsmall hlt] at hx
    exact iff_of_true (hvalue.unique hx) (.inl hlt)
  · obtain ⟨hlow, hratio⟩ := hlarge hge
    rw [or_iff_right (not_lt.mpr hge)]
    obtain ⟨bits, hbits, rfl⟩ := hx
    obtain ⟨bits', hbits', rfl⟩ := hvalue
    rw [Number.infinity, Number.ofBits_inj hbits'.1 hbits.1, Number.ofBits_inj hbits.1 le_rfl]
    constructor
    · rintro rfl
      exact hbits.eq_infinityBits hbits' (by exact_mod_cast le_trans (by norm_num) hlow)
        (by exact_mod_cast hratio)
    · rintro rfl
      exact hbits'.unique (hbits.infinityBits_mono (by exact_mod_cast (by omega)))

/-- A number literal is repeated in generated code as it was written, and is folded to the value
that the scanner gave it.  Generated code is malformed there if and only if the literal has a
fraction or an exponent behind an integer that looks octal.  If it is not, the literal has the same
value by the rules of ECMAScript as for folding, unless it is an octal integer that reads as eight
or more in decimal and is not infinite. -/
theorem number_value_iff {offset : ℕ} {text raw : String} {lexeme : Lexeme} {value : Float}
    (hmem : lexeme ∈ (TokenRun.ofText offset text).tokens)
    (htoken : lexeme.token = .number value raw) :
    (Expr.literal (.number value raw)).code = raw ∧
      (∀ registry, (Expr.literal (.number value raw)).fold registry = .ok (.number value)) ∧
      ((∃ x, NumberValue raw x) ↔ (isOctalLike raw.toList → ∀ c ∈ raw.toList, isDigit c)) ∧
      ∀ x, NumberValue raw x →
        (value = x ↔
          (isOctalLike raw.toList → ofDigits 10 raw.toList < 8 ∨ x = Number.infinity)) := by
  have hsound := TokenRun.sound_scan _ _ lexeme hmem
  rw [htoken] at hsound
  obtain ⟨c, body, hraw, hbody⟩ := hsound
  refine ⟨rfl, fun _ => rfl, ?_, ?_⟩
  · unfold NumberValue
    rw [hraw, ← exists_literal_iff hbody, exists_comm]
    refine exists_congr fun q => ?_
    rw [exists_and_left, and_iff_left_iff_imp]
    exact exists_isNearest hbody
  · rintro x ⟨q, hq, hx⟩
    rw [hraw] at hq ⊢
    by_cases hoctal : isOctalLike (c :: body)
    · rw [forall_prop_of_true hoctal]
      obtain ⟨digits, htext, hdigits, rfl⟩ := exists_octal_of_literal hq hoctal
      obtain ⟨rfl, rfl⟩ := List.cons.inj htext
      rw [Number.ofDigits_zero]
      exact eq_octal_iff hdigits hbody hx
    · exact iff_of_true ((isNearest_of_literal hbody hq hoctal).unique hx) fun h => absurd h hoctal

lemma exists_lexeme_of_numberText {raw : String} {value : Float} (h : NumberText value raw) :
    ∃ lexeme ∈ (TokenRun.ofText 0 raw).tokens, lexeme.token = .number value raw := by
  have hrun : ∃ run, (TokenRun.ofText 0 raw).Starts (.number value raw) run := by
    unfold TokenRun.ofText
    rw [← List.append_nil raw.toList]
    exact ⟨_, TokenRun.starts_number h stopsNumber_nil⟩
  obtain ⟨run, position, hrun⟩ := hrun
  rw [hrun]
  exact ⟨⟨position, _⟩, List.mem_cons_self, rfl⟩

/-- A leading zero in front of a digit that is not octal, and a fraction. -/
theorem number_value_iff_nineAndHalf :
    ∃ lexeme ∈ (TokenRun.ofText 0 "09.5").tokens, ∃ value, lexeme.token = .number value "09.5" ∧
      (∃ x, NumberValue "09.5" x) ∧ ∀ x, NumberValue "09.5" x → value = x := by
  have hdigits : ∀ d ∈ ['9'], isDigit d := forall_mem_of_all (by decide)
  have hfraction : Fraction ['.', '5'] ['5'] := .given (forall_mem_of_all (by decide))
  have htext : NumberText _ "09.5" := ⟨_, _, rfl, .whole (by decide) hdigits hfraction .missing⟩
  obtain ⟨lexeme, hmem, htoken⟩ := exists_lexeme_of_numberText htext
  obtain ⟨_, _, hliteral, hvalue⟩ := number_value_iff hmem htoken
  have hoctal : ¬ isOctalLike "09.5".toList := by decide
  exact ⟨lexeme, hmem, _, htoken, hliteral.mpr fun h => absurd h hoctal,
    fun x hx => (hvalue x hx).mpr fun h => absurd h hoctal⟩

/-- Eight for the host, and ten for the scanner. -/
theorem number_value_ne_leadingZero :
    ∃ lexeme ∈ (TokenRun.ofText 0 "010").tokens, ∃ value, lexeme.token = .number value "010" ∧
      NumberValue "010" (Number.ofInt 8) ∧ value ≠ Number.ofInt 8 := by
  have hoctal : ∀ d ∈ ['1', '0'], isDigitOf 8 d := forall_mem_of_all (by decide)
  have hbody : NumberBody '0' ['1', '0'] _ :=
    .whole (by decide) (isDigit_of_octal hoctal) .missing .missing
  have htext : NumberText _ "010" := ⟨_, _, rfl, hbody⟩
  obtain ⟨lexeme, hmem, htoken⟩ := exists_lexeme_of_numberText htext
  have hnearest : IsNearest (ofDigits 8 ['1', '0']) (Number.ofInt 8) := Number.isNearest_ofInt 8
  refine ⟨lexeme, hmem, _, htoken, ⟨_, .legacyOctal (by decide) hoctal, hnearest⟩, ?_⟩
  rw [Ne, eq_octal_iff hoctal hbody hnearest]
  rintro (hlt | hinfinite)
  · exact absurd hlt (by decide)
  · exact absurd (congrArg Float.toBits hinfinite) (by decide)

end RowExpr.Token
