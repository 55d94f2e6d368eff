import DocTree.Text.Letter
import DocTree.Text.Basic

/-!
# Marker lines

The two kinds of line that open a block of their own: a field `:name: text` and a directive
`.. kind:: title`. Both start at column zero.
-/

namespace DocTree

open Text

/-- What a marker line says. -/
inductive Marker where
  /-- The line `:name: text`. -/
  | field (name text : String)
  /-- The line `.. kind:: title`. -/
  | directive (kind title : String)
  deriving DecidableEq, Repr

namespace Marker

/-- The text behind a keyword: it is empty, or a blank sets it apart and it is a single line. -/
def textBehind? : List Char → Option (List Char)
  | [] => some []
  | c :: cs => if isHardBlank c && !cs.contains '\n' then some cs else none

/-- A field marker. Its name holds no colon and does not start with white space. -/
def field? (line : List Char) : Option Marker :=
  match line with
  | ':' :: cs =>
    match cs.takeWhile (· != ':'), cs.dropWhile (· != ':') with
    | c :: name, _ :: behind =>
      if isSpace c then none
      else (textBehind? behind).map fun text =>
        .field (trim (.ofList (c :: name))) (trim (.ofList text))
    | _, _ => none
  | _ => none

/-- A character of a directive's kind. -/
def isKindChar (c : Char) : Bool := isWord c || c == '-'

/-- A directive marker. Its kind starts with an ASCII letter. -/
def directive? (line : List Char) : Option Marker :=
  match line with
  | '.' :: '.' :: blank :: cs =>
    let cs := cs.dropWhile isHardBlank
    match cs.takeWhile isKindChar, cs.dropWhile isKindChar with
    | c :: kind, ':' :: ':' :: title =>
      if isHardBlank blank && c.isAlpha && !title.contains '\n' then
        some (.directive (.ofList (c :: kind)) (trim (.ofList title)))
      else none
    | _, _ => none
  | _ => none

/-- The marker that a line is, if it is one. -/
def ofLine? (line : String) : Option Marker :=
  (field? line.toList).or (directive? line.toList)

end Marker

end DocTree
