/-
# Texts that begin later

Where a text begins in a larger one does not matter for how it is read: the same tokens are found
and the same fault, and every place is moved by as much, those of the holes in templates included.

* `Token.shift_of_alike`: tokens that know where their holes are differ by a shift;
* `TokenRun.scan_add`: the run of a text that begins later.
-/
import RowExpr.Proofs.Token.Alike
import RowExpr.Proofs.Token.Next

namespace RowExpr

/-- The hole in a text that begins `k` characters later. -/
def Hole.shift (k : Nat) (hole : Hole) : Hole := ⟨hole.source, hole.position + k⟩

/-- The token in a text that begins `k` characters later: only holes have places of their own. -/
def Token.shift (k : Nat) : Token → Token
  | .template head parts => .template head (parts.map fun part => (part.1.shift k, part.2))
  | token => token

/-- The token with its place in a text that begins `k` characters later. -/
def Lexeme.shift (k : Nat) (l : Lexeme) : Lexeme := ⟨l.position + k, l.token.shift k⟩

/-- The fault in a text that begins `k` characters later. -/
def Malformed.shift (k : Nat) (m : Malformed) : Malformed := ⟨m.fault, m.position + k⟩

/-- The end of a run in a text that begins `k` characters later. -/
def Ending.shift (k : Nat) : Ending → Ending
  | .eof position => .eof (position + k)
  | .fault malformed => .fault (malformed.shift k)

/-- The run of a text that begins `k` characters later. -/
def TokenRun.shift (k : Nat) (run : TokenRun) : TokenRun :=
  ⟨run.tokens.map (Lexeme.shift k), run.ending.shift k⟩

/-- What is next in a text that begins `k` characters later. -/
def Next.shift (k : Nat) : Next → Next
  | .fault malformed => .fault (malformed.shift k)
  | .eof => .eof
  | .token lexeme rest => .token (lexeme.shift k) rest

/-- Holes that stand `k` characters later are the same holes, moved by `k`. -/
lemma holes_shift {k position : Nat} {parts parts' : List (Hole × String)}
    (halike : HolesAlike parts parts') (h : Token.HolesAt position parts)
    (h' : Token.HolesAt (position + k) parts') :
    parts' = parts.map fun part => (part.1.shift k, part.2) := by
  induction halike generalizing position with
  | nil => rfl
  | @cons part part' others others' hpart _ ih =>
    obtain ⟨⟨source, start⟩, text⟩ := part
    obtain ⟨⟨source', start'⟩, text'⟩ := part'
    obtain ⟨rfl, rfl⟩ : source = source' ∧ text = text' := hpart
    obtain ⟨hstart, hothers⟩ := h
    obtain ⟨hstart', hothers'⟩ := h'
    dsimp only at hstart hothers hstart' hothers'
    have hnext : position + k + 2 + source.toList.length + 1 + text.toList.length =
        position + 2 + source.toList.length + 1 + text.toList.length + k := by omega
    rw [hnext] at hothers'
    have hplace : start' = start + k := by omega
    rw [List.map_cons, ← ih hothers hothers', hplace]
    rfl

lemma Token.shift_of_alike {k position : Nat} {token token' : Token} (halike : token.Alike token')
    (h : token.KnowsHoles position) (h' : token'.KnowsHoles (position + k)) :
    token' = token.shift k := by
  have htemplate : ∀ {head : String} {parts parts' : List (Hole × String)},
      HolesAlike parts parts' → (Token.template head parts).KnowsHoles position →
        (Token.template head parts').KnowsHoles (position + k) →
          Token.template head parts' = (Token.template head parts).shift k := by
    intro head parts parts' hparts h h'
    simp only [KnowsHoles] at h h'
    rw [show position + k + 1 + head.toList.length = position + 1 + head.toList.length + k by omega]
      at h'
    rw [shift, ← holes_shift hparts h h']
  cases halike with
  | refl =>
    cases token with
    | template head parts => exact htemplate (List.forall₂_same.mpr fun _ _ => ⟨rfl, rfl⟩) h h'
    | _ => rfl
  | template hparts => exact htemplate hparts h h'

/-- What is read as a token is read as the same token where the text ends later. -/
lemma Token.scans_shift {stop : Nat} (k : Nat) {c : Char} {r rest : List Char} {token : Token}
    (h : Scans (scanToken stop c r) token rest) (hstop : r.length + 1 ≤ stop) :
    Scans (scanToken (stop + k) c r) (token.shift k) rest := by
  obtain ⟨token', h', halike⟩ := alike_of_scans (stop + k) h
  have hholes := (laidToken_of_scans h hstop).holes
  have hholes' := (laidToken_of_scans h' (by omega)).holes
  rw [List.length_cons] at hholes hholes'
  rw [show stop + k - (r.length + 1) = stop - (r.length + 1) + k by omega] at hholes'
  rwa [← shift_of_alike halike hholes hholes']

namespace TokenRun

variable {stop : Nat} {cs : List Char}

lemma next_add (k : Nat) (hstop : cs.length ≤ stop) :
    next (stop + k) cs = (next stop cs).shift k := by
  have hle : ∀ left, left ≤ cs.length → stop + k - left = stop - left + k := by
    intro left hleft
    omega
  unfold next
  cases hskip : Token.skipGap .blanks cs with
  | error f =>
    have hleft := Token.failsWithin_skipGap _ _ f hskip
    dsimp only
    rw [hle _ (by omega)]
    rfl
  | ok left =>
    obtain ⟨_ | ⟨c, r⟩, suffix⟩ := left
    · rfl
    · have hlength : r.length + 1 ≤ cs.length := suffix.length_le
      dsimp only
      cases hscan : Token.scanToken stop c r with
      | error f =>
        have hleft := Token.failsWithin_scanToken _ _ _ f hscan
        rw [Token.scanToken_fault (stop + k) hscan]
        dsimp only
        rw [hle _ (by omega)]
        rfl
      | ok s =>
        obtain ⟨_, hscan'⟩ := Token.scans_shift k ⟨s.suffix, hscan⟩ (by omega)
        rw [hscan']
        dsimp only
        rw [hle _ (by omega)]
        rfl

/-- A text that begins later has the same run, with all places moved by as much. -/
theorem scan_add (k : Nat) (hstop : cs.length ≤ stop) :
    scan (stop + k) cs = (scan stop cs).shift k := by
  induction hn : cs.length using Nat.strong_induction_on generalizing cs with
  | _ n ih =>
    subst hn
    rw [scan_eq, scan_eq stop, next_add k hstop]
    cases hnext : next stop cs with
    | fault m => rfl
    | eof => rfl
    | token l rest =>
      have hlt := length_next hnext
      dsimp only [Next.shift]
      rw [ih rest.length hlt (by omega) rfl]
      rfl

end TokenRun

end RowExpr
