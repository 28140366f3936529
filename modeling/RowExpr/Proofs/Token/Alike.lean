/-
# The same tokens in other places

Where a text stands in a larger one shows in the places of its tokens and of the holes in its
templates, and in nothing else.

* `TokenRun.alike_scan`: the tokens of a text are the same wherever the text ends.
-/
import RowExpr.Proofs.Token.Run
import Mathlib

namespace RowExpr

/-- The holes have the same sources, and the same texts behind them. -/
def HolesAlike (parts parts' : List (Hole × String)) : Prop :=
  List.Forall₂ (fun part part' => part.1.source = part'.1.source ∧ part.2 = part'.2) parts parts'

/-- The tokens differ in the places of holes only. -/
inductive Token.Alike : Token → Token → Prop
  | refl (token : Token) : Token.Alike token token
  | template {head : String} {parts parts' : List (Hole × String)} (h : HolesAlike parts parts') :
      Token.Alike (.template head parts) (.template head parts')

lemma Token.Alike.exists_template {head : String} {parts : List (Hole × String)} {token' : Token}
    (h : (Token.template head parts).Alike token') :
    ∃ parts', token' = .template head parts' ∧ HolesAlike parts parts' := by
  cases h with
  | refl => exact ⟨parts, rfl, List.forall₂_same.mpr fun _ _ => ⟨rfl, rfl⟩⟩
  | template h => exact ⟨_, rfl, h⟩

/-- The rows differ in the places of tokens and holes only. -/
abbrev Alike : List Lexeme → List Lexeme → Prop :=
  List.Forall₂ fun l l' => l.token.Alike l'.token

/-- The second row ends with the text if the first one does. -/
def Ending.Alike (ending ending' : Ending) : Prop :=
  (∃ stop, ending = .eof stop) → ∃ stop, ending' = .eof stop

lemma Ending.alike_fault (f : Malformed) (ending : Ending) : (Ending.fault f).Alike ending := by
  rintro ⟨_, h⟩
  cases h

lemma Token.alike_ofTemplate (stop stop' : Nat) (t : Token.RawTemplate) :
    (Token.ofTemplate stop t).Alike (Token.ofTemplate stop' t) := by
  refine .template ?_
  rw [HolesAlike, List.forall₂_map_left_iff, List.forall₂_map_right_iff, List.forall₂_same]
  exact fun _ _ => ⟨rfl, rfl⟩

/-- What is read as a token does not depend on where the text ends, but for the places of holes. -/
lemma Token.alike_of_scans {stop : Nat} (stop' : Nat) {c : Char} {r rest : List Char}
    {token : Token} (h : Scans (Token.scanToken stop c r) token rest) :
    ∃ token', Scans (Token.scanToken stop' c r) token' rest ∧ token.Alike token' := by
  unfold scanToken at h ⊢
  split_ifs at h ⊢ with hquote hback hname hnumber
  · exact ⟨token, h, .refl token⟩
  · obtain ⟨t, left, _, ht, h⟩ := scans_bind_ok.1 h
    obtain ⟨rfl, rfl⟩ := scans_ok.1 h
    exact ⟨_, scans_bind_ok.2 ⟨t, left, ht.1, ht, scans_ok.2 ⟨rfl, rfl⟩⟩, alike_ofTemplate _ _ t⟩
  · exact ⟨token, h, .refl token⟩
  · exact ⟨token, h, .refl token⟩
  · exact ⟨token, h, .refl token⟩

/-- The tokens of a text are the same wherever the text ends. -/
theorem TokenRun.alike_scan (stop stop' : Nat) (cs : List Char) :
    Alike (scan stop cs).tokens (scan stop' cs).tokens ∧
      (scan stop cs).ending.Alike (scan stop' cs).ending := by
  induction hn : cs.length using Nat.strong_induction_on generalizing cs with
  | _ n ih =>
    subst hn
    rw [scan, scan]
    cases hskip : Token.skipGap .blanks cs with
    | error f => exact ⟨.nil, Ending.alike_fault _ _⟩
    | ok left =>
      obtain ⟨_ | ⟨c, r⟩, suffix⟩ := left
      · exact ⟨.nil, fun _ => ⟨stop', rfl⟩⟩
      · have hlt : r.length < cs.length := suffix.length_le
        dsimp only
        cases hs : Token.scanToken stop c r with
        | error f =>
          cases hs' : Token.scanToken stop' c r with
          | error f' => exact ⟨.nil, Ending.alike_fault _ _⟩
          | ok s' =>
            obtain ⟨_, ⟨_, htoken⟩, _⟩ := Token.alike_of_scans stop ⟨s'.suffix, hs'⟩
            rw [hs] at htoken
            cases htoken
        | ok s =>
          obtain ⟨token', ⟨_, hs'⟩, htoken⟩ := Token.alike_of_scans stop' ⟨s.suffix, hs⟩
          have hle := s.length_le
          obtain ⟨htokens, hending⟩ := ih s.rest.length (by omega) s.rest rfl
          rw [hs']
          exact ⟨.cons htoken htokens, hending⟩

lemma TokenRun.alike_ofText (base base' : Nat) (text : String) :
    Alike (ofText base text).tokens (ofText base' text).tokens ∧
      (ofText base text).ending.Alike (ofText base' text).ending :=
  alike_scan _ _ _

end RowExpr
