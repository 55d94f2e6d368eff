import DocTree.Text.Space

/-!
# Words, lines and trimming

The operations on plain text that every later stage is written with. Each is a function on
characters with a `String` face.

* `splitWhere`: cutting at every character that satisfies a predicate. Lines, words and the
  segments of a dotted name are all cut by it (`flatten_splitWhere` says that nothing is lost);
* `stripWhile`: dropping at both ends, used for white space and for blank lines;
* `trim`, `words`, `isBlank`, `indent`: the same on `String`;
* `lines`: the lines of a text, whose line ends are `\n` and `\r\n`.
-/

namespace DocTree.Text

/-! ## Lists -/

section Lists

variable {α : Type}

/-- Drop the elements at the end that satisfy `p`. -/
def dropEndWhile (p : α → Bool) (l : List α) : List α := (l.reverse.dropWhile p).reverse

/-- Drop the elements at both ends that satisfy `p`. -/
def stripWhile (p : α → Bool) (l : List α) : List α := dropEndWhile p (l.dropWhile p)

/-- The pieces of `l` between the elements that satisfy `p`. There is one more piece than there
are such elements, so `[]` has the one piece `[]`. -/
def splitWhere (p : α → Bool) : List α → List (List α)
  | [] => [[]]
  | a :: l =>
    if p a then [] :: splitWhere p l
    else match splitWhere p l with
      | [] => [[a]]
      | piece :: pieces => (a :: piece) :: pieces

theorem splitWhere_ne_nil (p : α → Bool) (l : List α) : splitWhere p l ≠ [] := by
  cases l with
  | nil => simp [splitWhere]
  | cons a l =>
    simp only [splitWhere]
    split
    · simp
    · split <;> simp

/-- **Nothing but the separators is lost.** -/
theorem flatten_splitWhere (p : α → Bool) (l : List α) :
    (splitWhere p l).flatten = l.filter (fun a => !p a) := by
  induction l with
  | nil => rfl
  | cons a l ih =>
    simp only [splitWhere]
    split
    · next h => simp [h, ih]
    · next h =>
      rw [List.filter_cons_of_pos (by simpa using h), ← ih]
      split
      · next h' => exact absurd h' (splitWhere_ne_nil p l)
      · next h' => simp [h']

end Lists

/-! ## Strings -/

/-- `s` without the white space at its ends. -/
def trim (s : String) : String := .ofList (stripWhile isSpace s.toList)

/-- Whether `s` holds nothing but white space. -/
def isBlank (s : String) : Bool := s.toList.all isSpace

/-- The words of `s`: its longest runs without white space. -/
def words (s : String) : List String :=
  ((splitWhere isSpace s.toList).filter (!·.isEmpty)).map String.ofList

/-- The number of spaces that `s` starts with. Tabs and other white space do not count. -/
def indent (s : String) : Nat := (s.toList.takeWhile (· == ' ')).length

/-- `s` with its ASCII capitals made small. -/
def toLowerAscii (s : String) : String := .ofList (s.toList.map Char.toLower)

/-- The segments of a dotted name. -/
def segments (s : String) : List String := (splitWhere (· == '.') s.toList).map String.ofList

/-- The dotted name of the given segments. -/
def dotted (names : List String) : String := ".".intercalate names

/-- Whether the text `s` starts with `start`, and what follows then. -/
def dropStart? (start s : List Char) : Option (List Char) :=
  if start.isPrefixOf s then some (s.drop start.length) else none

/-- The text without the white space around it, or none if nothing is left. -/
def nonBlank? (s : String) : Option String :=
  let t := trim s
  if t.isEmpty then none else some t

/-! ## Lines -/

/-- A line without the carriage return that may end it. -/
def dropReturn (line : List Char) : List Char :=
  if line.getLast? = some '\r' then line.dropLast else line

/-- Lines from the pieces between newlines: a piece that a newline ended loses one carriage
return, and an empty last piece is no line. -/
def linesOfPieces : List (List Char) → List (List Char)
  | [] => []
  | [last] => if last.isEmpty then [] else [last]
  | piece :: pieces => dropReturn piece :: linesOfPieces pieces

/-- The lines of a text. A line ends at `\n` or `\r\n`; a carriage return elsewhere, even one at
the end of the text, belongs to its line. -/
def lines (s : String) : List String :=
  (linesOfPieces (splitWhere (· == '\n') s.toList)).map String.ofList

/-- The lines as one text, with a newline between neighbours. -/
def unlines (ls : List String) : String := "\n".intercalate ls

end DocTree.Text
