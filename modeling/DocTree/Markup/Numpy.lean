import DocTree.Markup.Section
import DocTree.Text.Scan

/-!
# The underlined dialect

A section is a title at column zero over an underline, and reaches to the next such title. Its
entries read `name : type`, with the description indented below.
-/

namespace DocTree.Numpy

open Text

def isUnderlineChar (c : Char) : Bool :=
  c == '-' || c == '=' || c == '~' || c == '^' || c == '*' || c == '+' || c == '#'

/-- Whether a line underlines the line above it. -/
def isUnderline (line : String) : Bool :=
  3 ≤ (line.toList.takeWhile isUnderlineChar).length &&
    (line.toList.dropWhile isUnderlineChar).all isSpace

/-- Whether two neighbouring lines open a section. -/
def isHeader (title under : String) : Bool :=
  !isBlank title && indent title == 0 && isUnderline under

/-- A plain line, or one more line of the section that is open. -/
def addLine (line : String) : Option (String × List String) →
    List Segment × Option (String × List String)
  | none => ([.text line], none)
  | some (title, body) => ([], some (title, body ++ [line]))

/-- The segments of the lines, given the section that is open. -/
def segmentsFrom (current : Option (String × List String)) : List String → List Segment
  | [] => Segment.ofOpen current
  | [line] =>
    let (segs, current) := addLine line current
    segs ++ Segment.ofOpen current
  | title :: under :: rest =>
    if isHeader title under then
      Segment.ofOpen current ++ segmentsFrom (some (trim title, [])) rest
    else
      let (segs, current) := addLine title current
      segs ++ segmentsFrom current (under :: rest)

/-- The entry with the given head. A colon sets the type apart from the name; without one, a
result is a type and all else a name. -/
def entry (kind : SectionKind) (head : String) (below : List String) : Entry :=
  match cutColon head.toList with
  | some (name, type) => ⟨trim (.ofList name), trim (.ofList type), below⟩
  | none => if kind.isResult then ⟨"", head, below⟩ else ⟨head, "", below⟩

/-- The lines in field markup. -/
def toFields (ls : List String) : List String := layout entry (segmentsFrom none ls)

end DocTree.Numpy
