/-
# Reading comes to an end

Every reader makes progress.  What is next in a text is a fault in it, its end, or a token that
takes some of it, holes and templates inside each other included; statements and expressions take
some of the tokens; and the source of a hole is shorter than the text around it.  So a text is read
in at most as many steps as it has characters, and every text is a row function or has an error in
it.

* `TokenRun.scanWithin_eq`: how often it is asked what is next in a text;
* `Token.advances_scanHole`, `Token.advances_scanTemplate`: holes and templates take characters;
* `RowFunction.ending_eq_of_parse`: a row function is read to the end of its text;
* `RowFunction.parse_total`: all readers make progress, and every text has an outcome.
-/
import RowExpr.Proofs.Grammar.Places
import RowExpr.Proofs.Grammar.Placement

namespace RowExpr

namespace TokenRun

/-- The run of a text, if what is next is asked at most `count` times before its end is reached. -/
def scanWithin (stop : Nat) : (count : Nat) → List Char → Option TokenRun
  | 0, _ => none
  | count + 1, cs =>
    match next stop cs with
    | .fault malformed => some ⟨[], .fault malformed⟩
    | .eof => some ⟨[], .eof stop⟩
    | .token lexeme rest => (scanWithin stop count rest).map (·.cons lexeme)

/-- What is next is asked at most once for each character, and once at the end. -/
lemma scanWithin_eq (stop : Nat) {count : Nat} {cs : List Char} (h : cs.length < count) :
    scanWithin stop count cs = some (scan stop cs) := by
  induction count generalizing cs with
  | zero => exact absurd h (Nat.not_lt_zero _)
  | succ count ih =>
    rw [scanWithin, scan_eq]
    cases hnext : next stop cs with
    | fault m => rfl
    | eof => rfl
    | token l rest =>
      -- the token takes a character, so one less is enough for the rest
      have hlt := length_next hnext
      dsimp only
      rw [ih (by omega)]
      rfl

end TokenRun

namespace Token

/-- A reading fails in the text, or it takes some of its characters. -/
structure Advances {α : Type} {cs : List Char} (result : Except ScanFault (Scanned cs α)) :
    Prop where
  fails : FailsWithin cs.length result
  takes : ∀ s, result = .ok s → s.rest.length < cs.length

lemma advances_scanHole (depth : Nat) (cs : List Char) : Advances (scanHole depth cs) where
  fails := (templateFails cs).hole depth
  takes s h := by
    have hlength := length_scanHole h
    omega

lemma advances_scanTemplate (cs : List Char) : Advances (scanTemplate cs) where
  fails := (templateFails cs).template
  takes s h := by
    have hlength := length_scanTemplate h
    omega

end Token

/-- A rule fails, or it takes some of the tokens from the front of the row. -/
def Grammar.TakesSome {α : Type} {ts : List Lexeme}
    (result : Except Malformed (Step (weight ts) α)) : Prop :=
  ∀ s, result = .ok s → ∃ taken, taken ≠ [] ∧ ts = taken ++ s.rest

namespace RowFunction

/-- A text that is a row function is read to its end. -/
lemma ending_eq_of_parse {text : String} {f : RowFunction} (h : parse text = .ok f) :
    (TokenRun.ofText 0 text).ending = .eof text.toList.length := by
  obtain ⟨stop, hending⟩ := ending_of_parse h
  cases hrun : TokenRun.ofText 0 text with
  | mk tokens ending =>
    rw [hrun] at hending
    cases hending
    rw [(TokenRun.laid_of_eof hrun).1, Nat.zero_add]

/-- Reading always comes to an end.  What is next in a text is in it and makes it shorter, as do
holes and templates, and it is asked for at most once for each character and once at the end.  A
statement and an expression take tokens, and a hole is shorter than the text around it.  So every
text is a row function, read to its end, or has an error at a place in it. -/
theorem parse_total :
    (∀ (stop : Nat) (cs : List Char), cs.length ≤ stop →
      (TokenRun.next stop cs).Progresses stop cs ∧
        TokenRun.scanWithin stop (cs.length + 1) cs = some (TokenRun.scan stop cs)) ∧
    (∀ cs : List Char, (∀ depth, Token.Advances (Token.scanHole depth cs)) ∧
      Token.Advances (Token.scanTemplate cs)) ∧
    (∀ (ending : Ending) (ts : List Lexeme), Grammar.TakesSome (Grammar.statement ending ts) ∧
      Grammar.TakesSome (Grammar.assignment ending ts)) ∧
    (∀ outer inner : Hole, outer.Contains inner →
      inner.source.toList.length < outer.source.toList.length) ∧
    (∀ text : String,
      (∃ f, parse text = .ok f ∧ (TokenRun.ofText 0 text).ending = .eof text.toList.length) ∨
        ∃ m, parse text = .error m ∧ m.position ≤ text.toList.length) := by
  refine ⟨fun stop cs hstop => ?_, fun cs => ?_, fun ending ts => ?_, fun outer inner h => ?_,
    fun text => ?_⟩
  · exact ⟨TokenRun.progresses_next hstop, TokenRun.scanWithin_eq stop (Nat.lt_succ_self _)⟩
  · exact ⟨fun depth => Token.advances_scanHole depth cs, Token.advances_scanTemplate cs⟩
  · have hts := List.suffix_refl ts
    exact ⟨fun _ h => (Grammar.tracks_statement ending ts hts).exists_taken h,
      fun _ h => (Grammar.tracks_assignment ending ts hts).exists_taken h⟩
  · exact (Hole.encloses_of_contains h).length_lt
  · cases h : parse text with
    | ok f => exact .inl ⟨f, rfl, ending_eq_of_parse h⟩
    | error m =>
      have hspans := (raised_of_parse h).spans
      exact .inr ⟨m, rfl, hspans.2.trans_eq (Nat.zero_add _)⟩

theorem parse_total_nestedHole :
    (nestedHole.toList.length ≤ 18 ∧
      (TokenRun.next 18 nestedHole.toList).Progresses 18 nestedHole.toList) ∧
    (Hole.Contains ⟨nestedHole, 0⟩ ⟨"\x60b$\x7b+\x7d\x60", 9⟩ ∧
      "\x60b$\x7b+\x7d\x60".toList.length < nestedHole.toList.length) := by
  obtain ⟨hnext, -, -, hholes, -⟩ := parse_total
  have hlength : nestedHole.toList.length ≤ 18 := by decide
  exact ⟨⟨hlength, (hnext 18 _ hlength).1⟩, contains_nestedHole.1, hholes _ _ contains_nestedHole.1⟩

end RowFunction

end RowExpr
