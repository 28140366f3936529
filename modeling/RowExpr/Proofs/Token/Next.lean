/-
# One token after the other

The tokens of a text are found one by one: what is next in a text is a fault, the end, or a token
with the text behind it.  A token takes at least one character, and a fault is found in the text, so
a reader that asks again and again comes to an end and never leaves the text.

* `TokenRun.scan_eq`: the run of a text is what is next, and then the run of what is left;
* `TokenRun.isNext_next`: what can be next in a text;
* `Token.failsWithin_scanToken`: a fault is found where the token is read;
* `TokenRun.progresses_next`: what is next makes the text shorter, or is the last of it.
-/
import RowExpr.Proofs.Token.Layout

namespace RowExpr

/-- What is next in a text: a fault, its end, or a token with the text behind it. -/
inductive Next where
  | fault (malformed : Malformed)
  | eof
  | token (lexeme : Lexeme) (rest : List Char)

namespace TokenRun

/-- What is next in a text that ends at `stop`. -/
def next (stop : Nat) (cs : List Char) : Next :=
  match Token.skipGap .blanks cs with
  | .error f => .fault ⟨f.fault, stop - f.left⟩
  | .ok ⟨[], _⟩ => .eof
  | .ok ⟨c :: r, _⟩ =>
    match Token.scanToken stop c r with
    | .error f => .fault ⟨f.fault, stop - f.left⟩
    | .ok s => .token ⟨stop - (r.length + 1), s.value⟩ s.rest

/-- The run of a text is what is next in it, and then the run of the text behind that. -/
lemma scan_eq (stop : Nat) (cs : List Char) :
    scan stop cs =
      match next stop cs with
      | .fault malformed => ⟨[], .fault malformed⟩
      | .eof => ⟨[], .eof stop⟩
      | .token lexeme rest => (scan stop rest).cons lexeme := by
  rw [scan, next]
  cases Token.skipGap .blanks cs with
  | error f => rfl
  | ok left =>
    obtain ⟨_ | ⟨c, r⟩, suffix⟩ := left
    · rfl
    · dsimp only
      cases Token.scanToken stop c r with
      | error f => rfl
      | ok s => rfl

end TokenRun

/-! ## What is behind a gap -/

namespace Token

variable {cs : List Char}

/-- What is left behind a gap is nothing, or begins with a token. -/
def LeavesToken (result : Except ScanFault { rest : List Char // rest <:+ cs }) : Prop :=
  ∀ left c r, result = .ok left → left.1 = c :: r → StartsToken c r

lemma LeavesToken.step {r : List Char}
    {result : Except ScanFault { rest : List Char // rest <:+ r }} (h : LeavesToken result)
    {hsuffix : ∀ rest, rest <:+ r → rest <:+ cs} :
    LeavesToken (do
      let ⟨rest, hrest⟩ ← result
      return ⟨rest, hsuffix rest hrest⟩ : Except ScanFault _) := by
  intro left c r' hleft hrest
  cases hresult : result with
  | error f =>
    rw [hresult] at hleft
    cases hleft
  | ok inner =>
    rw [hresult] at hleft
    have hsame : inner.1 = left.1 := congrArg Subtype.val (Except.ok.inj hleft)
    exact h inner c r' hresult (hsame.trans hrest)

lemma leavesToken_skipGap (mode : Gap) (cs : List Char) : LeavesToken (skipGap mode cs) := by
  fun_induction skipGap mode cs with
  | case1 r ih => exact ih.step
  | case2 r ih => exact ih.step
  | case3 c r _ _ hc ih => exact ih.step
  | case4 c r hline hblock hc =>
    rintro _ _ _ ⟨⟩ ⟨⟩
    refine ⟨by simpa using hc, fun hslash => ⟨fun hhead => ?_, fun hhead => ?_⟩⟩
    · obtain ⟨r', rfl⟩ := List.head?_eq_some_iff.mp hhead
      exact hline r' hslash rfl
    · obtain ⟨r', rfl⟩ := List.head?_eq_some_iff.mp hhead
      exact hblock r' hslash rfl
  | case5 c r ih => exact ih.step
  | case6 r ih => exact ih.step
  | case7 c r _ ih => exact ih.step
  | case8 => rintro _ _ _ ⟨⟩
  | case9 => rintro _ _ _ ⟨⟩ ⟨⟩
  | case10 => rintro _ _ _ ⟨⟩ ⟨⟩

end Token

/-- The text `cs` is a gap and then `c` and `r`, which begin with a token. -/
structure TokenAt (cs : List Char) (c : Char) (r : List Char) : Prop where
  text : ∃ gap, IsGap false gap ∧ cs = gap ++ c :: r
  starts : StartsToken c r

/-- What can be next in a text: the end if there is a last gap and nothing else, a token behind a
gap, or a fault, in a comment or where a token begins. -/
inductive IsNext (stop : Nat) (cs : List Char) : Next → Prop
  | eof (hgap : IsGap true cs) : IsNext stop cs .eof
  | token {c : Char} {r rest : List Char} {token : Token} (hat : TokenAt cs c r)
      (hscan : Scans (Token.scanToken stop c r) token rest) :
      IsNext stop cs (.token ⟨stop - (r.length + 1), token⟩ rest)
  | gapFault {f : ScanFault} (hskip : Token.skipGap .blanks cs = .error f) :
      IsNext stop cs (.fault ⟨f.fault, stop - f.left⟩)
  | tokenFault {c : Char} {r : List Char} {f : ScanFault} (hat : TokenAt cs c r)
      (hscan : Token.scanToken stop c r = .error f) :
      IsNext stop cs (.fault ⟨f.fault, stop - f.left⟩)

theorem TokenRun.isNext_next (stop : Nat) (cs : List Char) : IsNext stop cs (next stop cs) := by
  have hskips := Token.skipsGap_skipGap .blanks cs
  have hleaves := Token.leavesToken_skipGap .blanks cs
  unfold next
  cases hskip : Token.skipGap .blanks cs with
  | error f => exact .gapFault hskip
  | ok left =>
    obtain ⟨gap, hcs, hgap⟩ := hskips left hskip
    obtain ⟨_ | ⟨c, r⟩, suffix⟩ := left
    · rw [List.append_nil] at hcs
      subst hcs
      exact .eof hgap
    · have hat : TokenAt cs c r := ⟨⟨gap, hgap, hcs.symm⟩, hleaves _ c r hskip rfl⟩
      dsimp only
      cases hscan : Token.scanToken stop c r with
      | error f => exact .tokenFault hat hscan
      | ok s => exact .token hat ⟨s.suffix, hscan⟩

/-- The first token of a run is read where its place says, and the others are the run of the text
behind it. -/
lemma TokenRun.first_of_scan {stop : Nat} {cs : List Char} {l : Lexeme} {tokens : List Lexeme}
    {ending : Ending} (h : scan stop cs = ⟨l :: tokens, ending⟩) :
    ∃ c r rest, TokenAt cs c r ∧ l.position = stop - (r.length + 1) ∧
      Scans (Token.scanToken stop c r) l.token rest ∧ scan stop rest = ⟨tokens, ending⟩ := by
  have hnext := isNext_next stop cs
  rw [scan_eq] at h
  generalize next stop cs = what at h hnext
  cases hnext with
  | eof => cases h
  | gapFault => cases h
  | tokenFault => cases h
  | @token c r rest token hat hscan =>
    dsimp only at h
    cases hrun : scan stop rest with
    | mk tokens' ending' =>
      rw [hrun] at h
      cases h
      exact ⟨c, r, rest, hat, rfl, hscan, hrun⟩

namespace Token

/-! ## Faults -/

section Faults

variable {α β : Type} {n m : Nat}

/-- If the reading fails, then where at most `n` characters are left. -/
def FailsWithin (n : Nat) (result : Except ScanFault α) : Prop :=
  ∀ f, result = .error f → f.left ≤ n

lemma failsWithin_ok (a : α) : FailsWithin n (.ok a : Except ScanFault α) := by
  rintro _ ⟨⟩

lemma failsWithin_error {f : ScanFault} (h : f.left ≤ n) :
    FailsWithin n (.error f : Except ScanFault α) := by
  rintro _ ⟨⟩
  exact h

lemma FailsWithin.mono {result : Except ScanFault α} (h : FailsWithin m result) (hle : m ≤ n) :
    FailsWithin n result :=
  fun f hf => (h f hf).trans hle

lemma FailsWithin.bind {result : Except ScanFault α} {next : α → Except ScanFault β}
    (h : FailsWithin n result) (hnext : ∀ a, FailsWithin n (next a)) :
    FailsWithin n (result >>= next) := by
  cases result with
  | error f => exact failsWithin_error (h f rfl)
  | ok a => exact hnext a

lemma failsWithin_skipGap (mode : Gap) (cs : List Char) :
    FailsWithin 0 (skipGap mode cs) := by
  fun_induction skipGap mode cs with
  | case1 r ih => exact ih.bind fun _ => failsWithin_ok _
  | case2 r ih => exact ih.bind fun _ => failsWithin_ok _
  | case3 c r _ _ hc ih => exact ih.bind fun _ => failsWithin_ok _
  | case4 c r => exact failsWithin_ok _
  | case5 c r ih => exact ih.bind fun _ => failsWithin_ok _
  | case6 r ih => exact ih.bind fun _ => failsWithin_ok _
  | case7 c r _ ih => exact ih.bind fun _ => failsWithin_ok _
  | case8 => exact failsWithin_error le_rfl
  | case9 => exact failsWithin_ok _
  | case10 => exact failsWithin_ok _

lemma failsWithin_scanHex (count : Nat) (cs : List Char) :
    FailsWithin cs.length (scanHex count cs) := by
  unfold scanHex
  dsimp only
  split
  · exact failsWithin_ok _
  · exact failsWithin_error (Nat.sub_le _ _)

lemma failsWithin_scanCode (cs : List Char) : FailsWithin cs.length (scanCode cs) := by
  unfold scanCode
  split
  · rename_i r
    dsimp only
    split
    · exact failsWithin_error (Nat.zero_le _)
    · rename_i c rest hdrop
      have hle : (c :: rest).length ≤ r.length := hdrop ▸ (List.dropWhile_suffix _).length_le
      rw [List.length_cons] at hle
      split
      · exact failsWithin_ok _
      · refine failsWithin_error ?_
        simp only [List.length_cons]
        omega
  · exact failsWithin_scanHex 4 cs

lemma failsWithin_characterOf {code left : Nat} (h : left ≤ n) :
    FailsWithin n (characterOf code left) := by
  unfold characterOf
  split
  · exact failsWithin_ok _
  · exact failsWithin_error h

lemma failsWithin_scanEscape (cs : List Char) : FailsWithin cs.length (scanEscape cs) := by
  unfold scanEscape
  split
  · exact failsWithin_error le_rfl
  · rename_i c r
    have hle : r.length ≤ (c :: r).length := Nat.le_succ _
    split
    · exact failsWithin_ok _
    · split_ifs
      · exact failsWithin_ok _
      · refine ((failsWithin_scanHex 2 r).mono hle).bind fun s => ?_
        exact (failsWithin_characterOf (s.length_le.trans hle)).bind fun _ => failsWithin_ok _
      · refine ((failsWithin_scanCode r).mono hle).bind fun s => ?_
        exact (failsWithin_characterOf (s.length_le.trans hle)).bind fun _ => failsWithin_ok _
      · exact failsWithin_ok _
      · exact failsWithin_error hle
      · exact failsWithin_ok _

lemma failsWithin_scanString (quote : Char) (cs : List Char) :
    FailsWithin cs.length (scanString quote cs) := by
  induction hn : cs.length using Nat.strong_induction_on generalizing cs with
  | _ n ih =>
    subst hn
    cases cs with
    | nil =>
      rw [scanString]
      exact failsWithin_error le_rfl
    | cons c r =>
      have hle : r.length ≤ (c :: r).length := Nat.le_succ _
      rw [scanString]
      split_ifs
      · exact failsWithin_ok _
      · exact failsWithin_error le_rfl
      · refine ((failsWithin_scanEscape r).mono hle).bind fun e => ?_
        have hlt : e.rest.length < (c :: r).length := Nat.lt_succ_of_le e.length_le
        exact ((ih _ hlt e.rest rfl).mono hlt.le).bind fun _ => failsWithin_ok _
      · exact ((ih r.length (Nat.lt_succ_self _) r rfl).mono hle).bind fun _ => failsWithin_ok _

/-- Holes and templates fail within the text that they are read from. -/
structure TemplateFails (cs : List Char) : Prop where
  hole : ∀ depth, FailsWithin cs.length (scanHole depth cs)
  template : FailsWithin cs.length (scanTemplate cs)

lemma templateFails (cs : List Char) : TemplateFails cs := by
  induction hn : cs.length using Nat.strong_induction_on generalizing cs with
  | _ n ih =>
    subst hn
    cases cs with
    | nil =>
      refine ⟨fun depth => ?_, ?_⟩
      · rw [scanHole]
        exact failsWithin_error le_rfl
      · rw [scanTemplate]
        exact failsWithin_error le_rfl
    | cons c r =>
      have hle : r.length ≤ (c :: r).length := Nat.le_succ _
      have hshorter : ∀ cs' : List Char, cs'.length ≤ r.length → TemplateFails cs' :=
        fun cs' h => ih _ (Nat.lt_succ_of_le h) cs' rfl
      have hgo : ∀ depth, FailsWithin (c :: r).length (scanHole depth r) :=
        fun depth => ((hshorter r le_rfl).hole depth).mono hle
      refine ⟨fun depth => ?_, ?_⟩
      · rw [scanHole.eq_def]
        dsimp only
        split_ifs
        · exact (hgo _).bind fun _ => failsWithin_ok _
        · cases depth with
          | zero => exact failsWithin_ok _
          | succ depth => exact (hgo _).bind fun _ => failsWithin_ok _
        · refine ((failsWithin_scanString c r).mono hle).bind fun inner => ?_
          exact (((hshorter inner.rest inner.length_le).hole depth).mono
            (inner.length_le.trans hle)).bind fun _ => failsWithin_ok _
        · refine ((hshorter r le_rfl).template.mono hle).bind fun inner => ?_
          exact (((hshorter inner.rest inner.length_le).hole depth).mono
            (inner.length_le.trans hle)).bind fun _ => failsWithin_ok _
        · exact (hgo _).bind fun _ => failsWithin_ok _
      · rw [scanTemplate.eq_def]
        dsimp only
        split_ifs
        · exact failsWithin_ok _
        · cases r with
          | nil => exact failsWithin_error (Nat.zero_le _)
          | cons d r' =>
            have hle' : r'.length ≤ (d :: r').length := Nat.le_succ _
            exact ((hshorter r' hle').template.mono (hle'.trans hle)).bind fun _ => failsWithin_ok _
        · have htail : r.tail.length ≤ r.length := r.tail_suffix.length_le
          refine (((hshorter r.tail htail).hole 0).mono (htail.trans hle)).bind fun hole => ?_
          have hrest := hole.length_le.trans htail
          exact ((hshorter hole.rest hrest).template.mono (hrest.trans hle)).bind
            fun _ => failsWithin_ok _
        · exact ((hshorter r le_rfl).template.mono hle).bind fun _ => failsWithin_ok _

lemma failsWithin_scanNumeral (whole fraction cs : List Char) :
    FailsWithin cs.length (scanNumeral whole fraction cs) := by
  have hexponent : FailsWithin cs.length (scanExponent cs) := by
    unfold scanExponent
    split
    · exact failsWithin_ok _
    · dsimp only
      split_ifs
      · exact failsWithin_ok _
      · exact failsWithin_error le_rfl
      · exact failsWithin_ok _
  exact hexponent.bind fun _ => failsWithin_ok _

lemma failsWithin_scanDecimal (c : Char) (r : List Char) :
    FailsWithin r.length (scanDecimal c r) := by
  have hdigits : (r.dropWhile Number.isDigit).length ≤ r.length :=
    (List.dropWhile_suffix _).length_le
  unfold scanDecimal
  dsimp only
  split_ifs
  · exact ((failsWithin_scanNumeral _ _ _).mono hdigits).bind fun _ => failsWithin_ok _
  · refine ((failsWithin_scanNumeral _ _ _).mono ?_).bind fun _ => failsWithin_ok _
    exact (splitFraction_suffix _).length_le.trans hdigits

lemma failsWithin_scanRadix (start : List Char) (radix : Nat) (cs : List Char) :
    FailsWithin cs.length (scanRadix start radix cs) := by
  unfold scanRadix
  dsimp only
  split
  · exact failsWithin_ok _
  · exact failsWithin_error (List.dropWhile_suffix _).length_le

lemma failsWithin_scanNumber (c : Char) (r : List Char) :
    FailsWithin r.length (scanNumber c r) := by
  have hvalue : FailsWithin r.length (scanValue c r) := by
    unfold scanValue
    split
    · exact failsWithin_scanDecimal c []
    · rename_i x r'
      split
      · split_ifs
        · exact ((failsWithin_scanRadix _ _ r').mono (Nat.le_succ _)).bind
            fun _ => failsWithin_ok _
        · exact failsWithin_scanDecimal c _
      · exact failsWithin_scanDecimal c _
  refine hvalue.bind fun s => ?_
  dsimp only
  split_ifs
  · exact failsWithin_error s.length_le
  · exact failsWithin_ok _

/-- A token fails within the text that begins with it. -/
lemma failsWithin_scanToken (stop : Nat) (c : Char) (r : List Char) :
    FailsWithin (r.length + 1) (scanToken stop c r) := by
  have hle : r.length ≤ r.length + 1 := Nat.le_succ _
  unfold scanToken
  split_ifs
  · exact ((failsWithin_scanString c r).mono hle).bind fun _ => failsWithin_ok _
  · exact ((templateFails r).template.mono hle).bind fun _ => failsWithin_ok _
  · exact failsWithin_ok _
  · exact (failsWithin_scanNumber c r).mono hle
  · split
    · exact failsWithin_ok _
    · exact failsWithin_error le_rfl
    · exact failsWithin_error le_rfl

/-- The fault of a token does not depend on where the text ends. -/
lemma scanToken_fault {stop : Nat} (stop' : Nat) {c : Char} {r : List Char} {f : ScanFault}
    (h : scanToken stop c r = .error f) : scanToken stop' c r = .error f := by
  unfold scanToken at h ⊢
  split_ifs at h ⊢ with hquote hback hname hnumber
  · exact h
  · cases ht : scanTemplate r with
    | error f' =>
      rw [ht] at h
      cases h
      rfl
    | ok t =>
      rw [ht] at h
      cases h
  · exact h
  · exact h

end Faults

end Token

/-! ## Progress -/

lemma TokenAt.length_le {cs r : List Char} {c : Char} (h : TokenAt cs c r) :
    r.length + 1 ≤ cs.length := by
  obtain ⟨gap, _, hcs⟩ := h.text
  rw [hcs, List.length_append, List.length_cons]
  omega

/-- What is next in a text makes the text shorter, or is the last of it.  A token lies in what it
takes of the text, and a fault in the text. -/
def Next.Progresses (stop : Nat) (cs : List Char) : Next → Prop
  | .fault malformed => stop - cs.length ≤ malformed.position ∧ malformed.position ≤ stop
  | .eof => IsGap true cs
  | .token lexeme rest =>
    rest <:+ cs ∧ stop - cs.length ≤ lexeme.position ∧ lexeme.position < stop - rest.length

lemma TokenRun.progresses_next {stop : Nat} {cs : List Char} (hstop : cs.length ≤ stop) :
    (next stop cs).Progresses stop cs := by
  have hnext := isNext_next stop cs
  generalize next stop cs = what at hnext ⊢
  cases hnext with
  | eof hgap => exact hgap
  | @token c r rest token hat hscan =>
    have hle := hat.length_le
    have hrest := hscan.1.length_le
    obtain ⟨gap, _, hcs⟩ := hat.text
    refine ⟨?_, ?_, ?_⟩
    · rw [hcs]
      exact (hscan.1.trans (List.suffix_cons c r)).trans (List.suffix_append gap _)
    · dsimp only
      omega
    · dsimp only
      omega
  | @gapFault f hskip =>
    have hleft := Token.failsWithin_skipGap _ _ f hskip
    exact ⟨by dsimp only; omega, Nat.sub_le _ _⟩
  | @tokenFault c r f hat hscan =>
    have hle := hat.length_le
    have hleft := Token.failsWithin_scanToken _ _ _ f hscan
    exact ⟨by dsimp only; omega, Nat.sub_le _ _⟩

/-- A token takes at least one character. -/
lemma TokenRun.length_next {stop : Nat} {cs rest : List Char} {l : Lexeme}
    (h : next stop cs = .token l rest) : rest.length < cs.length := by
  have hnext := isNext_next stop cs
  rw [h] at hnext
  cases hnext with
  | token hat hscan => exact (Nat.lt_succ_of_le hscan.1.length_le).trans_le hat.length_le

end RowExpr
