import DocTree.Text.Basic
import DocTree.Text.Letter

/-!
# Identifiers

The names that an argument may have, and the dotted names that are looked up in a host.
-/

namespace DocTree

open Text

/-- The reserved words, which are no names. -/
def keywords : List String :=
  ["False", "None", "True", "and", "as", "assert", "async", "await", "break", "class", "continue",
    "def", "del", "elif", "else", "except", "finally", "for", "from", "global", "if", "import",
    "in", "is", "lambda", "nonlocal", "not", "or", "pass", "raise", "return", "try", "while",
    "with", "yield"]

/-- Whether `name` may name an argument: letters, numbers and underscores, no number first, and
not a reserved word. -/
def isIdentifier (name : String) : Bool :=
  (match name.toList with
    | [] => false
    | c :: cs => (isAlphabetic c || c == '_') && cs.all fun c => isAlphanumeric c || c == '_') &&
  !keywords.contains name

/-- An ASCII letter or underscore, and further ones or digits. -/
def isAsciiName (cs : List Char) : Bool :=
  match cs with
  | [] => false
  | c :: cs => (c.isAlpha || c == '_') && cs.all fun c => c.isAlphanum || c == '_'

/-- Whether `token` has the form of a dotted name: ASCII names with single dots between them. -/
def isDottedName (token : String) : Bool :=
  (splitWhere (· == '.') token.toList).all isAsciiName

end DocTree
