/-
# What can be wrong with a source text

Every reason for which a text is not a row function, first those found among the characters, then
those found among the tokens, and the wording of each.
-/
import RowExpr.Token.Describe

namespace RowExpr

/-- Where a token stood that the grammar does not allow there. -/
inductive Place where
  | functionBody
  | parameter
  | parameterList
  | declaration
  | declarationKind
  | loopHead
  | whileKeyword
  | switchBody
  | propertyName
  | expression
  | computedKey
  | objectKey
deriving DecidableEq, Repr

/-- The wording of a place. -/
def Place.phrase : Place → String
  | functionBody => "where a function body was expected"
  | parameter => "where a function parameter was expected"
  | parameterList => "in parameter list"
  | declaration => "in declaration"
  | declarationKind => "where a declaration was expected"
  | loopHead => "in for loop head"
  | whileKeyword => "where 'while' was expected"
  | switchBody => "in switch body"
  | propertyName => "after '.'"
  | expression => "in expression"
  | computedKey => "in computed property key"
  | objectKey => "where an object key was expected"

/-- A reason for which a text is not a row function. -/
inductive TextFault where
  /- Among the characters. -/
  | unclosedComment
  | lineBreakInString
  | unclosedString
  | danglingBackslash
  | badHexEscape
  | unclosedUnicodeEscape
  | badUnicodeEscape (digits : String)
  | badCodePoint (code : Nat)
  | octalEscape (digit : Char)
  | unclosedTemplate
  | unclosedHole
  | badNumber (raw : String)
  | missingExponent
  | nameAfterNumber
  | spread
  | optionalChaining
  | bitwiseAssignment
  | shiftAssignment
  | unexpectedCharacter (c : Char)
  /- Among the tokens. -/
  | unexpectedToken (found : Token) (place : Place)
  | expectedToken (wanted found : Token)
  | severalParameters
  | unclosedBlock
  | functionDeclaration
  | constWithoutValue (name : String)
  | severalNames
  | assignmentTarget
  | unaryPower
  | taggedTemplate
  | nestedFunction
  | functionExpression
  | arrayHole
  /-- A reason in the words of whoever raised it. -/
  | described (text : String)

/-- The wording of a reason. -/
def TextFault.message : TextFault → String
  | unclosedComment => "Unterminated comment"
  | lineBreakInString => "Unterminated string: line break in literal"
  | unclosedString => "Unterminated string: missing closing quote"
  | danglingBackslash => "Unterminated string: unexpected end after backslash"
  | badHexEscape => "Invalid hexadecimal escape sequence"
  | unclosedUnicodeEscape => "Unterminated unicode escape"
  | badUnicodeEscape digits => "Invalid unicode escape: \\u\x7b" ++ digits ++ "\x7d"
  | badCodePoint code => "Invalid code point: 0x" ++ String.ofList (Text.hex code)
  | octalEscape digit => "Octal escape sequences are not supported: \\" ++ toString digit
  | unclosedTemplate => "Unterminated template literal"
  | unclosedHole => "Unterminated template interpolation"
  | badNumber raw => "Invalid numeric literal: " ++ raw
  | missingExponent => "Invalid numeric literal: missing exponent"
  | nameAfterNumber => "Identifier directly after number"
  | spread => "Spread syntax is not supported"
  | optionalChaining => "Optional chaining is not supported"
  | bitwiseAssignment => "Bitwise assignment is not supported"
  | shiftAssignment => "Shift assignment is not supported"
  | unexpectedCharacter c => "Unexpected character '" ++ toString c ++ "'"
  | unexpectedToken found place => "Unexpected " ++ found.describe ++ " " ++ place.phrase
  | expectedToken wanted found => "Expected " ++ wanted.describe ++ ", got " ++ found.describe
  | severalParameters => "Expression functions take a single row parameter"
  | unclosedBlock => "Unterminated block: missing '\x7d'"
  | functionDeclaration => "Function declarations are not supported"
  | constWithoutValue name => "Missing initializer in const declaration of '" ++ name ++ "'"
  | severalNames => "Declarations may bind a single name"
  | assignmentTarget => "Invalid assignment target"
  | unaryPower => "Unary operand of '**' must be parenthesized"
  | taggedTemplate => "Tagged templates are not supported"
  | nestedFunction => "Nested functions are not supported"
  | functionExpression => "Function expressions are not supported"
  | arrayHole => "Array holes are not supported"
  | described text => text

/-- A fault of a text and the position where it was found. -/
structure Malformed where
  fault : TextFault
  position : Nat

end RowExpr
