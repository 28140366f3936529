/-
# Numeric texts and number literals

A number can be read in two ways: as a literal in a source, and by converting a text.  The two agree
on decimal numerals and on small hexadecimal numbers, whatever stands in them.  Where they part is
written down as `Misread`: the conversion knows neither octal nor binary digits, it has one bit less
for hexadecimal ones and allows a sign in front of them; and a source may end in a comment.

* `TokenRun.ofText_number_iff`: the sources that are a single number;
* `Token.numeric_text_iff`: the conversion of a text and the literal agree on all texts that are not
  misread, and on no other one.
-/
import RowExpr.Proofs.Number.Text
import RowExpr.Proofs.Token.Layout

namespace RowExpr

/-! ## Sources that are a number -/

open RowExpr.Number (isDigit isDigitOf readDigits? readInt? ofInt Written)

/-- Nothing continues a number in front of a gap. -/
lemma IsGap.stopsNumber {last : Bool} {gap : List Char} (h : IsGap last gap) :
    Token.StopsNumber gap := by
  have hslash : Token.isNameStart '/' = false ∧ isDigit '/' = false ∧ '/' ≠ '.' := by decide
  cases h with
  | nil => exact nofun
  | @blank c gap hc _ =>
    rintro _ ⟨⟩
    refine ⟨?_, ?_, ?_⟩
    · by_contra hname
      rw [Token.isBlank_eq_false_of_isNameStart (by simpa using hname)] at hc
      exact Bool.noConfusion hc
    · by_contra hdigit
      rw [(Token.startsToken_of_isDigit (by simpa using hdigit) []).1.1] at hc
      exact Bool.noConfusion hc
    · rintro rfl
      exact absurd hc (by decide)
  | line _ _ =>
    rintro _ ⟨⟩
    exact hslash
  | block _ _ =>
    rintro _ ⟨⟩
    exact hslash
  | unended _ _ =>
    rintro _ ⟨⟩
    exact hslash

/-- A source that begins with a digit is a single number if it is a literal and then a gap. -/
theorem TokenRun.ofText_number_iff {text : String} (hdigit : text.toList.head?.any isDigit)
    {v : Float} :
    (∃ position raw stop, ofText 0 text = ⟨[⟨position, .number v raw⟩], .eof stop⟩) ↔
      ∃ raw gap, text.toList = raw.toList ++ gap ∧ Token.NumberText v raw ∧ IsGap true gap := by
  have hlength : text.toList.length ≤ 0 + text.toList.length := Nat.le_add_left _ _
  unfold ofText
  generalize 0 + text.toList.length = stop at hlength
  constructor
  · rintro ⟨position, raw, finish, h⟩
    cases htext : text.toList with
    | nil =>
      rw [htext] at hdigit
      exact absurd hdigit Bool.false_ne_true
    | cons c r =>
      rw [htext] at hdigit h hlength
      obtain ⟨hstart, hquote, hback, hname⟩ := Token.startsToken_of_isDigit hdigit r
      cases hs : Token.scanToken stop c r with
      | error f =>
        rw [scan_of_fault hstart hs] at h
        cases h
      | ok s =>
        have hscans : Scans (Token.scanToken stop c r) s.value s.rest := ⟨s.suffix, hs⟩
        rw [scan_of_scans hstart hscans] at h
        rw [Token.scanToken, if_neg hquote, if_neg hback, if_neg (by simp [hname]),
          if_pos (.inl hdigit)] at hscans
        obtain ⟨body, value, hr, hbody, htoken⟩ :=
          Token.numberBody_of_scans_number (.inl hdigit) hscans
        cases hrun : scan stop s.rest with
        | mk tokens ending =>
          rw [hrun, htoken] at h
          cases h
          have hle : s.rest.length ≤ stop := by
            have := s.length_le
            rw [List.length_cons] at hlength
            omega
          obtain ⟨-, hlaid⟩ := laid_of_scan hrun hle
          cases hlaid with
          | last hgap =>
            refine ⟨_, s.rest, ?_, ⟨c, body, String.toList_ofList, hbody⟩, hgap⟩
            rw [String.toList_ofList, List.cons_append, ← hr]
  · rintro ⟨raw, gap, htext, hraw, hgap⟩
    obtain ⟨position, hscan⟩ : (scan stop (raw.toList ++ gap)).Starts (.number v raw)
      (scan stop gap) := starts_number hraw hgap.stopsNumber
    rw [scan_of_isGap hgap, ← htext] at hscan
    exact ⟨position, raw, stop, hscan⟩

namespace Token

/-! ## Where the two readings part -/

/-- The texts that begin with a digit and are read as a literal and converted with different
results. -/
inductive Misread : List Char → Prop
  /-- The source goes on with a comment. -/
  | comment {raw : String} {value : Float} {gap : List Char} (hraw : NumberText value raw)
      (hne : gap ≠ []) (hgap : IsGap true gap) : Misread (raw.toList ++ gap)
  /-- The conversion knows no octal and no binary digits. -/
  | radix {x : Char} {radix n : ℕ} {digits : List Char} (hx : radixOf? x = some radix)
      (hradix : radix ≠ 16) (hread : readDigits? radix digits = some n)
      (hn : n < 0x10000000000000000) : Misread ('0' :: x :: digits)
  /-- The number needs all 64 bits, and the conversion keeps one of them for a sign. -/
  | large {x : Char} {n : ℕ} {digits : List Char} (hx : radixOf? x = some 16)
      (hread : readDigits? 16 digits = some n) (hlow : 0x8000000000000000 ≤ n)
      (hn : n < 0x10000000000000000) : Misread ('0' :: x :: digits)
  /-- A sign stands between the letter of the radix and the digits. -/
  | signed {x sign : Char} {n : ℤ} {digits : List Char} (hx : radixOf? x = some 16)
      (hsign : sign = '+' ∨ sign = '-') (hread : readInt? 16 (sign :: digits) = some n)
      (hn : -0x8000000000000000 ≤ n ∧ n < 0x8000000000000000) :
      Misread ('0' :: x :: sign :: digits)

lemma radixOf?_eq_sixteen {x : Char} : radixOf? x = some 16 ↔ x = 'x' ∨ x = 'X' := by
  constructor
  · intro h
    unfold radixOf? at h
    split at h
    · exact .inl rfl
    · exact .inr rfl
    all_goals cases h
  · rintro (rfl | rfl) <;> rfl

/-- What is written behind a zero and the letter of a radix is a hexadecimal number. -/
lemma readInt?_of_written {x : Char} {radix : ℕ} {digits : List Char} {v : Float}
    (hx : radixOf? x = some radix) (h : Written ('0' :: x :: digits) v) :
    radix = 16 ∧ ∃ n, readInt? 16 digits = some n ∧ n < 0x8000000000000000 := by
  generalize hcs : '0' :: x :: digits = cs at h
  cases h with
  | empty => cases hcs
  | hex hx' hread hn =>
    cases hcs
    rw [radixOf?_eq_sixteen.mpr hx'] at hx
    exact ⟨(Option.some.inj hx).symm, _, hread, hn.2⟩
  | infinity hsign =>
    cases hsign
    · exact absurd (show some '0' = some 'I' from congrArg List.head? hcs) (by decide)
    · exact absurd (show some '0' = some '+' from congrArg List.head? hcs) (by decide)
    · exact absurd (show some '0' = some '-' from congrArg List.head? hcs) (by decide)
  | decimal hsign hn =>
    cases hsign
    · rw [List.nil_append] at hcs
      subst hcs
      have hmem := hn.forall_mem x (by simp)
      unfold radixOf? at hx
      split at hx
      case h_7 => cases hx
      all_goals exact absurd hmem (by decide)
    · exact absurd (show some '0' = some '+' from congrArg List.head? hcs) (by decide)
    · exact absurd (show some '0' = some '-' from congrArg List.head? hcs) (by decide)

/-- A gap that does not end in a blank has a slash in it. -/
lemma slash_mem_of_isGap {gap : List Char} (h : IsGap true gap) (hne : gap ≠ [])
    (hlast : ∀ c, gap.getLast? = some c → Text.isBlank c = false) : '/' ∈ gap := by
  induction h with
  | nil => exact absurd rfl hne
  | @blank c gap hc _ ih =>
    cases gap with
    | nil =>
      rw [hlast c rfl] at hc
      exact Bool.noConfusion hc
    | cons d gap => exact List.mem_cons_of_mem c (ih (List.cons_ne_nil d gap) hlast)
  | line _ _ _ => exact List.mem_cons_self
  | block _ _ _ => exact List.mem_cons_self
  | unended _ _ => exact List.mem_cons_self

/-- A text that writes a number and begins with a digit is a literal, unless it is misread. -/
lemma numberText_of_written {text : String} (hdigit : text.toList.head?.any isDigit) {v : Float}
    (h : Written text.toList v) (hmisread : ¬ Misread text.toList) : NumberText v text := by
  generalize hcs : text.toList = cs at h hdigit hmisread
  cases h with
  | empty => exact absurd hdigit Bool.false_ne_true
  | @hex x _ _ hx hread hn =>
    obtain ⟨sign, negative, digits, m, hsign, rfl, hm, rfl⟩ :=
      Number.readInt?_eq_some_iff.mp hread
    cases hsign with
    | missing =>
      refine ⟨'0', x :: digits, hcs, .radix (radixOf?_eq_sixteen.mpr hx) hm ?_⟩
      simp only [Bool.false_eq_true, if_false] at hn
      omega
    | plus =>
      exact absurd (.signed (radixOf?_eq_sixteen.mpr hx) (.inl rfl) hread hn) hmisread
    | minus =>
      exact absurd (.signed (radixOf?_eq_sixteen.mpr hx) (.inr rfl) hread hn) hmisread
  | infinity hsign => cases hsign <;> exact absurd hdigit (by decide)
  | decimal hsign hn =>
    cases hsign with
    | plus => exact absurd (show isDigit '+' = true from hdigit) (by decide)
    | minus => exact absurd (show isDigit '-' = true from hdigit) (by decide)
    | missing =>
      cases hn with
      | @intro whole _ _ _ _ _ hwhole hpoint hpower hne =>
        cases whole with
        | cons d digits =>
          rw [List.forall_mem_cons] at hwhole
          exact ⟨d, _, hcs, .whole hwhole.1 hwhole.2 hpoint hpower⟩
        | nil =>
          cases hpoint with
          | missing => exact hne.elim (absurd rfl) (absurd rfl)
          | given _ => exact absurd (show isDigit '.' = true from hdigit) (by decide)

/-- A literal that begins with a digit writes a number, unless it is misread. -/
lemma written_of_numberText {text : String} (hdigit : text.toList.head?.any isDigit) {v : Float}
    (h : NumberText v text) (hmisread : ¬ Misread text.toList) : Written text.toList v := by
  obtain ⟨c, body, hraw, hbody⟩ := h
  rw [hraw] at hdigit hmisread ⊢
  cases hbody with
  | whole hc hdigits hpoint hpower =>
    refine .decimal .missing (.intro (List.forall_mem_cons.mpr ⟨hc, hdigits⟩) hpoint hpower ?_)
    exact .inl (List.cons_ne_nil _ _)
  | point _ _ _ => exact absurd (show isDigit '.' = true from hdigit) (by decide)
  | @radix x radix n digits hx hread hn =>
    obtain rfl : radix = 16 := by
      by_contra hradix
      exact hmisread (.radix hx hradix hread hn)
    have hsmall : n < 0x8000000000000000 := by
      by_contra hlarge
      exact hmisread (.large hx hread (not_lt.mp hlarge) hn)
    have hint : readInt? 16 digits = some n :=
      Number.readInt?_eq_some_iff.mpr ⟨[], false, digits, n, .missing, rfl, hread, rfl⟩
    exact .hex (radixOf?_eq_sixteen.mp hx) hint ⟨by omega, by omega⟩

/-- A sign behind the letter of a radix ends no literal, and begins no gap. -/
lemma not_numberText_signed {x sign : Char} {digits gap : List Char} {raw : String} {v : Float}
    (hx : radixOf? x = some 16) (hsign : sign = '+' ∨ sign = '-')
    (htext : '0' :: x :: sign :: digits = raw.toList ++ gap) (hgap : IsGap true gap) :
    ¬ NumberText v raw := by
  rintro ⟨c, body, hraw, hbody⟩
  rw [hraw, List.cons_append] at htext
  obtain ⟨rfl, hbodyText⟩ := List.cons.inj htext
  cases hbody with
  | @whole _ whole _ _ _ _ _ hc hwhole hpoint hpower =>
    rw [List.append_assoc, List.append_assoc] at hbodyText
    cases whole with
    | nil =>
      -- what follows the zero is a point, an exponent or a gap, and none begins with `x`
      have hhead := congrArg List.head? hbodyText
      have hnone := (head?_afterDigits hpoint hpower hgap.stopsNumber.ends hhead.symm).2
      exact absurd (hx.symm.trans hnone) nofun
    | cons d whole =>
      obtain ⟨rfl, -⟩ := List.cons.inj hbodyText
      have hdigit := hwhole x List.mem_cons_self
      rcases radixOf?_eq_sixteen.mp hx with rfl | rfl <;> exact absurd hdigit (by decide)
  | @radix y radix n rdigits hy hread hn =>
    obtain ⟨rfl, hdigits⟩ := List.cons.inj hbodyText
    cases rdigits with
    | nil => exact absurd hread nofun
    | cons d rdigits =>
      obtain ⟨rfl, -⟩ := List.cons.inj hdigits
      have hdigit := forall_isDigitOf_of_readDigits? hread sign List.mem_cons_self
      rcases hsign with rfl | rfl <;> exact absurd hdigit Bool.false_ne_true

/-- A text that begins with a digit and has no blanks around it is converted to a number if and only
if it is a source of that single number, unless it is misread. -/
theorem numeric_text_iff {text : String} (hdigit : text.toList.head?.any isDigit)
    (htrim : Text.trim text.toList = text.toList) :
    (∀ v : Float, (Value.string text).toNumber = v ∧ v.isNaN = false ↔
      ∃ position raw stop,
        TokenRun.ofText 0 text = ⟨[⟨position, .number v raw⟩], .eof stop⟩) ↔
      ¬ Misread text.toList := by
  have hwritten : ∀ v : Float,
      (Value.string text).toNumber = v ∧ v.isNaN = false ↔ Written text.toList v := by
    intro v
    constructor
    · rintro ⟨h, hnan⟩
      exact htrim ▸ (Number.ofText_eq_iff hnan).mp h
    · intro h
      exact ⟨(Number.ofText_eq_iff h.isNaN).mpr (htrim.symm ▸ h), h.isNaN⟩
  simp only [hwritten, TokenRun.ofText_number_iff hdigit]
  constructor
  · intro h hmisread
    generalize hcs : text.toList = cs at hmisread
    cases hmisread with
    | @comment raw value gap hraw hne hgap =>
      -- the text does not end in a blank, so there is a comment, and no number has a slash in it
      have hslash : '/' ∈ gap := by
        refine slash_mem_of_isGap hgap hne fun c hc => ?_
        have hlast : (Text.trim text.toList).getLast? = some c := by
          rw [htrim, hcs, List.getLast?_append, hc, Option.some_or]
        exact Text.isBlank_of_getLast?_trim hlast
      have hmem := ((h value).mpr ⟨raw, gap, hcs, hraw, hgap⟩).forall_mem '/'
        (by rw [hcs]; exact List.mem_append_right _ hslash)
      exact absurd hmem (by decide)
    | radix hx hradix hread hn =>
      have hw := (h _).mpr ⟨text, [], (List.append_nil _).symm,
        ⟨'0', _, hcs, .radix hx hread hn⟩, .nil⟩
      rw [hcs] at hw
      exact hradix (readInt?_of_written hx hw).1
    | @large x n digits hx hread hlow hn =>
      have hw := (h _).mpr ⟨text, [], (List.append_nil _).symm,
        ⟨'0', _, hcs, .radix hx hread hn⟩, .nil⟩
      rw [hcs] at hw
      obtain ⟨-, n', hread', hlt⟩ := readInt?_of_written hx hw
      have hint : readInt? 16 digits = some n :=
        Number.readInt?_eq_some_iff.mpr ⟨[], false, digits, n, .missing, rfl, hread, rfl⟩
      have heq : n' = n := Option.some.inj (hread'.symm.trans hint)
      omega
    | signed hx hsign hread hn =>
      -- here it is the conversion that accepts too much
      have hw := Written.hex (radixOf?_eq_sixteen.mp hx) hread hn
      obtain ⟨raw, gap, htext, hraw, hgap⟩ := (h _).mp (hcs ▸ hw)
      exact not_numberText_signed hx hsign (hcs ▸ htext) hgap hraw
  · intro hmisread v
    constructor
    · intro h
      exact ⟨text, [], (List.append_nil _).symm, numberText_of_written hdigit h hmisread, .nil⟩
    · rintro ⟨raw, gap, htext, hraw, hgap⟩
      by_cases hne : gap = []
      · rw [hne, List.append_nil, String.toList_inj] at htext
        subst htext
        exact written_of_numberText hdigit hraw hmisread
      · exact absurd (htext ▸ .comment hraw hne hgap) hmisread

lemma not_misread_hexThirtyOne : ¬ Misread "0x1F".toList := by
  intro h
  generalize hcs : "0x1F".toList = cs at h
  cases h with
  | @comment raw value gap hraw hne hgap =>
    -- a gap at the end is a blank or has a slash in it
    have hslash : '/' ∈ gap := by
      refine slash_mem_of_isGap hgap hne fun c hc => ?_
      have hlast : "0x1F".toList.getLast? = some c := by
        rw [hcs, List.getLast?_append, hc, Option.some_or]
      cases hlast
      decide
    have hmem : '/' ∈ "0x1F".toList := hcs ▸ List.mem_append_right _ hslash
    exact absurd hmem (by decide)
  | radix hx hradix hread hn =>
    cases hcs
    cases hx
    exact hradix rfl
  | large hx hread hlow hn =>
    cases hcs
    cases hread
    exact absurd hlow (by decide)
  | signed hx hsign hread hn =>
    cases hcs
    exact absurd hsign (by decide)

/-- Thirty-one in hexadecimal digits is converted to that number and is a literal of it. -/
theorem numeric_text_iff_hexThirtyOne :
    "0x1F".toList.head?.any isDigit = true ∧ Text.trim "0x1F".toList = "0x1F".toList ∧
      ¬ Misread "0x1F".toList ∧ (Value.string "0x1F").toNumber = ofInt 31 ∧
      ∃ position raw stop,
        TokenRun.ofText 0 "0x1F" = ⟨[⟨position, .number (ofInt 31) raw⟩], .eof stop⟩ := by
  have hdigit : "0x1F".toList.head?.any isDigit = true := by decide
  have htrim : Text.trim "0x1F".toList = "0x1F".toList := by decide
  have hagree := (numeric_text_iff hdigit htrim).mpr not_misread_hexThirtyOne (ofInt 31)
  have hwritten : Written "0x1F".toList (ofInt 31) := .hex (.inl rfl) rfl (by decide)
  have hnumber : (Value.string "0x1F").toNumber = ofInt 31 :=
    (Number.ofText_eq_iff hwritten.isNaN).mpr hwritten
  exact ⟨hdigit, htrim, not_misread_hexThirtyOne, hnumber, hagree.mp ⟨hnumber, hwritten.isNaN⟩⟩

/-- Three in binary digits is a literal, but the conversion does not know it. -/
theorem not_numeric_text_binaryThree :
    "0b11".toList.head?.any isDigit = true ∧ Text.trim "0b11".toList = "0b11".toList ∧
      ¬ ∀ v : Float, (Value.string "0b11").toNumber = v ∧ v.isNaN = false ↔
        ∃ position raw stop,
          TokenRun.ofText 0 "0b11" = ⟨[⟨position, .number v raw⟩], .eof stop⟩ := by
  refine ⟨by decide, by decide, fun h => ?_⟩
  have hliteral : NumberText (ofInt 3) "0b11" :=
    ⟨'0', ['b', '1', '1'], rfl, .radix (n := 3) rfl rfl (by decide)⟩
  obtain ⟨hnumber, hnan⟩ := (h (ofInt 3)).mpr
    ((TokenRun.ofText_number_iff (by decide)).mpr ⟨"0b11", [], rfl, hliteral, .nil⟩)
  rw [← hnumber] at hnan
  exact absurd hnan (by decide)

end Token

end RowExpr
