import DocTree.Markup.Section
import DocTree.Text.Scan

/-!
# The indented dialect

A section is a known title with a colon at column zero, and the blank and indented lines below it.
Its entries read `name (type): description`.
-/

namespace DocTree.Google

open Text

/-- The titles that open a section. -/
def titles : List String :=
  ["args", "arguments", "parameters", "params", "other parameters", "other params",
    "keyword args", "keyword arguments", "kwargs", "attributes", "returns", "return", "yields",
    "yield", "raises", "raise", "note", "notes", "example", "examples", "warning", "warnings",
    "see also", "references", "todo", "methods"]

/-- The title of a line that opens a section. It is made of letters and spaces, and nothing but
white space follows its colon. -/
def title? (line : String) : Option String :=
  let cs := line.toList
  let isTitleChar (c : Char) : Bool := c.isAlpha || c == ' '
  let title := String.ofList (cs.takeWhile isTitleChar)
  match cs.dropWhile isTitleChar with
  | ':' :: behind =>
    if cs.head?.any Char.isAlpha && behind.all isSpace &&
        titles.contains (toLowerAscii (trim title)) then some title
    else none
  | _ => none

/-- The segments of the lines, given the section that is open. -/
def segmentsFrom (current : Option (String × List String)) : List String → List Segment
  | [] => Segment.ofOpen current
  | line :: rest =>
    if current.isSome && (isBlank line || indent line > 0) then
      segmentsFrom (current.map fun (title, body) => (title, body ++ [line])) rest
    else Segment.ofOpen current ++ match title? line with
      | some title => segmentsFrom (some (title, [])) rest
      | none => .text line :: segmentsFrom none rest

/-- An ASCII identifier at the start of a text, behind at most two asterisks, and what follows. -/
def name? (cs : List Char) : Option (List Char × List Char) :=
  let stars := cs.takeWhile (· == '*')
  let cs := cs.dropWhile (· == '*')
  let isNameChar (c : Char) : Bool := c.isAlphanum || c == '_'
  match cs with
  | c :: _ =>
    if stars.length ≤ 2 && (c.isAlpha || c == '_') then
      some (stars ++ cs.takeWhile isNameChar, cs.dropWhile isNameChar)
    else none
  | [] => none

/-- A name with its type in brackets: the bracket that closes the type ends the text. -/
def nameAndType? (lead : List Char) : Option (String × String) :=
  match name? lead with
  | some (name, behind) =>
    match behind.dropWhile isSpace with
    | '(' :: type =>
      if type.getLast? = some ')' ∧ ¬ type.contains '\n' then
        some (.ofList name, trim (.ofList type.dropLast))
      else none
    | _ => none
  | none => none

/-- The entry with the given head. A colon sets the description apart; without one, a result is
all description and anything else has none. -/
def entry (kind : SectionKind) (head : String) (below : List String) : Entry :=
  let (lead, first) := match cutColon head.toList with
    | some (lead, first) => (trim (.ofList lead), trim (.ofList first))
    | none => if kind.isResult then ("", head) else (head, "")
  let description := if first.isEmpty then below else first :: below
  if kind.isResult then ⟨"", lead, description⟩
  else match nameAndType? lead.toList with
    | some (name, type) => ⟨name, type, description⟩
    | none => ⟨lead, "", description⟩

/-- The lines in field markup. -/
def toFields (ls : List String) : List String := layout entry (segmentsFrom none ls)

end DocTree.Google
