import DocTree.Text.Margin

/-!
# Titled sections

What the two prose dialects share: sections under a title, whose bodies list entries, and the
field markup that says the same.

* `SectionKind.ofTitle`: what kind of section a title announces;
* `groupEntries`: the body of a section as entries, each with the lines below it;
* `Entry`, `SectionKind.render`: the field markup of a section;
* `Segment`, `layout`: a text as plain lines and sections, and its field markup.
-/

namespace DocTree

open Text

/-! ## Kinds -/

/-- What a titled section documents. -/
inductive SectionKind where
  | params
  | attributes
  | returns
  | yields
  | raises
  | other
  deriving DecidableEq, Repr

namespace SectionKind

/-- The kind of section that a title announces; its case does not matter. -/
def ofTitle (title : String) : SectionKind :=
  match toLowerAscii (trim title) with
  | "args" | "arguments" | "parameters" | "params" | "other parameters" | "other params"
  | "keyword args" | "keyword arguments" | "kwargs" => params
  | "attributes" => attributes
  | "returns" | "return" => returns
  | "yields" | "yield" => yields
  | "raises" | "raise" => raises
  | _ => other

/-- Whether entries are results, which need no name. -/
def isResult : SectionKind → Bool
  | returns | yields => true
  | _ => false

end SectionKind

/-! ## Entries -/

/-- The lines of a body from one that opens an entry on, given the entry that is still open.
Lines before the first entry belong to none. -/
def groupsFrom (base : Nat) (current : Option (String × List String)) :
    List String → List (String × List String)
  | [] => current.toList
  | line :: rest =>
    if !isBlank line && indent line == base then
      current.toList ++ groupsFrom base (some (trim line, [])) rest
    else groupsFrom base (current.map fun (head, below) => (head, below ++ [line])) rest

/-- **The entries of a body.** Every line at the margin of the body opens an entry; the lines
below it lose their own margin and the blank lines at the end. -/
def groupEntries (body : List String) : List (String × List String) :=
  (groupsFrom (margin body) none body).map fun (head, below) =>
    (head, dropEndWhile (·.isEmpty) (dedent below))

/-- One entry of a section. Name and type may be empty. -/
structure Entry where
  name : String
  type : String
  description : List String
  deriving DecidableEq, Repr

/-! ## Field markup -/

/-- A line moved right, unless it is empty. -/
def indented (width : Nat) (line : String) : String :=
  if line.isEmpty then "" else .ofList (List.replicate width ' ') ++ line

/-- A field. Its first description line stands on the marker line, unless it is empty. -/
def fieldLines (name : String) (description : List String) : List String :=
  match description with
  | [] => [":" ++ name ++ ":"]
  | first :: rest =>
    if first.isEmpty then (":" ++ name ++ ":") :: (first :: rest).map (indented 4)
    else (":" ++ name ++ ": " ++ first) :: rest.map (indented 4)

/-- The line `start` followed by a type, if there is one. -/
def typeLine (start type : String) : List String :=
  if type.isEmpty then [] else [start ++ type]

/-- An entry on one line. -/
def bullet (e : Entry) : String :=
  let head :=
    if e.name.isEmpty then e.type
    else if e.type.isEmpty then e.name
    else e.name ++ " (" ++ e.type ++ ")"
  let text := trim (" ".intercalate e.description)
  if text.isEmpty then "* " ++ head else "* " ++ head ++ " -- " ++ text

/-- The markup of an attribute. -/
def attributeLines (e : Entry) : List String :=
  (".. attribute:: " ++ e.name) :: typeLine "   :type: " e.type ++
    (if e.description.isEmpty then [] else "" :: e.description.map (indented 3)) ++ [""]

/-- **The field markup of a section**, ending with a blank line. `body` are the lines that the
entries were read from; a section of kind `other` shows them in place of the entries. -/
def SectionKind.render (kind : SectionKind) (title : String) (entries : List Entry)
    (body : List String) : List String :=
  let markup := match kind, entries with
    | .params, _ => entries.flatMap fun e =>
        fieldLines ("param " ++ e.name) e.description ++
          typeLine (":type " ++ e.name ++ ": ") e.type
    | .attributes, _ => entries.flatMap attributeLines
    | .returns, [single] =>
        fieldLines "returns" single.description ++ typeLine ":rtype: " single.type
    | .returns, _ => fieldLines "returns" (entries.map bullet)
    | .yields, _ => fieldLines "yields" (entries.map bullet)
    | .raises, _ => entries.flatMap fun e => fieldLines ("raises " ++ e.name) e.description
    | .other, _ => (".. rubric:: " ++ trim title) :: "" :: (dedent body).map (indented 3)
  markup ++ [""]

/-! ## Layout -/

/-- A plain line, or a section with its title and its body. -/
inductive Segment where
  | text (line : String)
  | titled (title : String) (body : List String)
  deriving DecidableEq, Repr

/-- The segment of a section that is still open, given by its title and its body so far. -/
def Segment.ofOpen (current : Option (String × List String)) : List Segment :=
  (current.map fun (title, body) => Segment.titled title body).toList

/-- The field markup of a section, its entries being read by `entry`. -/
def renderTitled (entry : SectionKind → String → List String → Entry) (title : String)
    (body : List String) : List String :=
  let kind := SectionKind.ofTitle title
  kind.render title ((groupEntries body).map fun (head, below) => entry kind head below) body

/-- Add the markup of a segment to `out`. A blank line sets a section apart from what precedes
it. -/
def layoutStep (entry : SectionKind → String → List String → Entry) (out : List String) :
    Segment → List String
  | .text line => out ++ [line]
  | .titled title body =>
    out ++ (if out.getLast?.any (!·.isEmpty) then [""] else []) ++ renderTitled entry title body

/-- The segments as field markup; plain lines stay as they are. -/
def layout (entry : SectionKind → String → List String → Entry) (segs : List Segment) :
    List String :=
  segs.foldl (layoutStep entry) []

end DocTree
