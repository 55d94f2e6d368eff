import DocTree.Decimal.Reader

/-!
# Faults of literals

Why a text is not a literal, and where.
-/

namespace DocTree

/-- Why a text is no literal. -/
inductive LiteralFault where
  /-- The text ends where a literal should stand. -/
  | noLiteral
  | unexpected (c : Char)
  /-- Two dots without the third. -/
  | noEllipsis
  | expected (c : Char)
  /-- Neither a comma nor the bracket that closes a display. -/
  | expectedCommaOr (close : Char)
  /-- A name that stands for no value. -/
  | notLiteral (word : String)
  | noNumber
  | numberSuffix
  | badDigits (fault : Decimal.DigitsFault)
  | badFloat
  | mixedStrings
  /-- A character above ASCII in bytes. -/
  | nonAsciiBytes
  | unterminatedString
  | newlineInString
  | unterminatedEscape
  | badEscape (escape : Char) (digits : String)
  deriving DecidableEq, Repr

namespace LiteralFault

/-- The wording of a fault. -/
def message : LiteralFault → String
  | noLiteral => "expected a literal"
  | unexpected c => "unexpected `" ++ c.toString ++ "`"
  | noEllipsis => "expected `...`"
  | expected c => "expected `" ++ c.toString ++ "`"
  | expectedCommaOr close => "expected `,` or `" ++ close.toString ++ "`"
  | notLiteral word => "`" ++ word ++ "` is not a literal"
  | noNumber => "expected a number"
  | numberSuffix => "unsupported numeric suffix"
  | badDigits .empty => "cannot parse integer from empty string"
  | badDigits .invalid => "invalid digit found in string"
  | badDigits .overflow => "integer out of range for i64"
  | badFloat => "invalid float"
  | mixedStrings => "cannot mix bytes and str literals"
  | nonAsciiBytes => "bytes can only contain ASCII characters"
  | unterminatedString => "unterminated string"
  | newlineInString => "newline in single-quoted string"
  | unterminatedEscape => "unterminated escape"
  | badEscape escape digits => "invalid escape `\\" ++ escape.toString ++ digits ++ "`"

end LiteralFault

/-- A fault and the byte of the text at which reading stopped. -/
structure LiteralError where
  offset : Nat
  fault : LiteralFault
  deriving DecidableEq, Repr

/-- The wording of an error. -/
def LiteralError.message (e : LiteralError) : String :=
  "invalid literal at offset " ++ toString e.offset ++ ": " ++ e.fault.message

end DocTree
