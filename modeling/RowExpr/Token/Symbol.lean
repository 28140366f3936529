/-
# Marks

The spellings of punctuation and operators. A text that starts with several of them starts with
the longest, so in the list a spelling stands before every shorter one that begins it. A few
spellings are recognised only to be refused.
-/
import RowExpr.Error.Malformed

namespace RowExpr.Token

/-- What a spelling stands for. -/
inductive Symbol where
  | token (token : Token)
  | refused (fault : TextFault)

/-- The marks of one kind that the given spellings stand for. -/
def punctSymbols : List Punct → List (List Char × Symbol) :=
  List.map fun mark => (mark.spelling.toList, .token (.punct mark))

/-- The assignments that the given spellings stand for. -/
def assignSymbols : List AssignOp → List (List Char × Symbol) :=
  List.map fun op => (op.spelling.toList, .token (.assign op))

/-- Every spelling, longer ones first. -/
def symbols : List (List Char × Symbol) :=
  punctSymbols [.eqEqEq, .notEqEq, .ushr]
    ++ assignSymbols [.power]
    ++ [("<<=".toList, .refused .shiftAssignment), (">>=".toList, .refused .shiftAssignment)]
    ++ punctSymbols [.arrow, .starStar, .plusPlus, .minusMinus, .eqEq, .notEq, .ltEq, .gtEq,
        .andAnd, .orOr, .questionQuestion, .shl, .shr]
    ++ assignSymbols [.add, .subtract, .multiply, .divide, .modulo]
    ++ [("..".toList, .refused .spread), ("?.".toList, .refused .optionalChaining),
        ("&=".toList, .refused .bitwiseAssignment), ("|=".toList, .refused .bitwiseAssignment)]
    ++ punctSymbols [.dot, .comma, .semicolon, .colon, .question, .lparen, .rparen, .lbracket,
        .rbracket, .lbrace, .rbrace, .plus, .minus, .star, .slash, .percent, .lt, .gt, .bang,
        .tilde, .amp, .pipe, .caret]
    ++ assignSymbols [.plain]

/-- The longest spelling that `cs` starts with, and what it stands for. -/
def symbolAt? (cs : List Char) : Option (List Char × Symbol) :=
  symbols.find? fun (spelling, _) => spelling.isPrefixOf cs

/-- A mark is punctuation or an assignment, and is spelled as it. -/
theorem mark_of_symbolAt? {cs spelling : List Char} {token : Token}
    (h : symbolAt? cs = some (spelling, .token token)) :
    (∃ mark : Punct, token = .punct mark ∧ spelling = mark.spelling.toList) ∨
      ∃ op : AssignOp, token = .assign op ∧ spelling = op.spelling.toList := by
  have hpunct : ∀ marks, (spelling, Symbol.token token) ∈ punctSymbols marks →
      ∃ mark : Punct, token = .punct mark ∧ spelling = mark.spelling.toList := by
    intro marks hmem
    obtain ⟨mark, _, heq⟩ := List.mem_map.mp hmem
    cases heq
    exact ⟨mark, rfl, rfl⟩
  have hassign : ∀ ops, (spelling, Symbol.token token) ∈ assignSymbols ops →
      ∃ op : AssignOp, token = .assign op ∧ spelling = op.spelling.toList := by
    intro ops hmem
    obtain ⟨op, _, heq⟩ := List.mem_map.mp hmem
    cases heq
    exact ⟨op, rfl, rfl⟩
  have hmem := List.mem_of_find?_eq_some h
  simp only [symbols, List.mem_append] at hmem
  obtain ((((((hmem | hmem) | hmem) | hmem) | hmem) | hmem) | hmem) | hmem := hmem
  · exact .inl (hpunct _ hmem)
  · exact .inr (hassign _ hmem)
  · simp at hmem
  · exact .inl (hpunct _ hmem)
  · exact .inr (hassign _ hmem)
  · simp at hmem
  · exact .inl (hpunct _ hmem)
  · exact .inr (hassign _ hmem)

end RowExpr.Token
