import DocTree.Text.Basic

/-!
# Margins

How a raw docstring becomes lines that start at column zero.

* `margin`: the least indentation of the non-blank lines;
* `dedent`: the lines without their margin;
* `prepare`: a docstring as it stands in source text, with its tabs expanded, its margin removed
  and the blank lines at its ends dropped;
* `joinTrimmed`: lines as one text, without the blank lines at its ends.
-/

namespace DocTree.Text

/-- The distance between tab stops. -/
def tabWidth : Nat := 8

/-- Replace each tab by the spaces up to the next tab stop, `col` being the column reached. -/
def expandTabsFrom (col : Nat) : List Char → List Char
  | [] => []
  | c :: cs =>
    if c = '\t' then
      let pad := tabWidth - col % tabWidth
      List.replicate pad ' ' ++ expandTabsFrom (col + pad) cs
    else c :: expandTabsFrom (col + 1) cs

/-- A line with spaces for its tabs. A column is one character. -/
def expandTabs (line : String) : String := .ofList (expandTabsFrom 0 line.toList)

/-- The least indentation of the non-blank lines, zero if there are none. -/
def margin (ls : List String) : Nat :=
  ((ls.filter (!isBlank ·)).map indent).min?.getD 0

/-- A line without its first `n` characters and without white space at its end; a blank line
becomes empty. -/
def dropMargin (n : Nat) (line : String) : String :=
  if isBlank line then "" else .ofList (dropEndWhile isSpace (line.toList.drop n))

/-- The lines without their margin. -/
def dedent (ls : List String) : List String := ls.map (dropMargin (margin ls))

/-- The lines without the blank ones at the ends. -/
def stripBlank (ls : List String) : List String := stripWhile isBlank ls

/-- The lines as one text, without the blank ones at the ends. -/
def joinTrimmed (ls : List String) : String := unlines (stripBlank ls)

/-- **The lines of a docstring.** The first line stands behind the opening quotes, so it has no
part in the margin and loses all white space around it. -/
def prepare (raw : String) : List String :=
  match (lines raw).map expandTabs with
  | [] => []
  | first :: rest => stripBlank (trim first :: dedent rest)

theorem length_dedent (ls : List String) : (dedent ls).length = ls.length := by
  simp [dedent]

end DocTree.Text
