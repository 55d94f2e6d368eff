import DocTree.Literal.Number

/-!
# Reading literals

The literal that a text is: numbers, strings, bytes, the named constants, and displays of tuples,
lists, dicts and sets. Nothing is evaluated, and no other name is accepted.

* `readWord`: a constant, or the letters in front of a quote;
* `readItems`, `readSequence`, `readTuple`, `readBrace`: the displays, given how their parts are
  read;
* `readValue`: a value with displays nested within bounds. Each bracket takes a character, so a
  text of `n` characters nests at most `n` deep, and where the bound runs out the text has too;
* `Literal.read`: **reading a text as one literal**.
-/

namespace DocTree.Literal

open Text

def skipSpace (cs : List Char) : List Char := cs.dropWhile isSpace

/-! ## Words -/

/-- The letters that may stand directly before a quote. -/
def stringLetters : List String := ["r", "u", "b", "br", "rb"]

def isWordChar (c : Char) : Bool := isAlphanumeric c || c == '_'

/-- A constant, or a string with letters in front. -/
def readWord (cs : List Char) : Except Stopped (Front Value) :=
  let word := String.ofList (cs.takeWhile isWordChar)
  let rest := cs.dropWhile isWordChar
  if rest.head?.any isQuote && stringLetters.contains (toLowerAscii word) then strings cs
  else match word, rest with
    | "None", rest => .ok (.none, rest)
    | "True", rest => .ok (.bool true, rest)
    | "False", rest => .ok (.bool false, rest)
    | "Ellipsis", rest => .ok (.ellipsis, rest)
    | "set", '(' :: ')' :: rest => .ok (.set [], rest)
    | _, _ => stop cs (.notLiteral word)

/-- Three dots, two of which have been seen. -/
def readDots : List Char → Except Stopped (Front Value)
  | '.' :: '.' :: '.' :: rest => .ok (.ellipsis, rest)
  | cs => stop (cs.drop 2) .noEllipsis

/-! ## Displays -/

section Displays

-- How the parts of a display are read.
variable (part : List Char → Except Stopped (Front Value))

/-- Values up to `close`, a comma between neighbours and perhaps one at the end. -/
def readItems (close : Char) : Nat → List Char → Except Stopped (Front (List Value))
  | 0, cs => stop cs .noLiteral
  | bound + 1, cs =>
    let cs := skipSpace cs
    if cs.head? = some close then .ok ([], cs.drop 1)
    else do
      let (item, cs) ← part cs
      let cs := skipSpace cs
      if cs.head? = some ',' then
        let (items, cs) ← readItems close bound (cs.drop 1)
        return (item :: items, cs)
      else if cs.head? = some close then return ([item], cs.drop 1)
      else stop cs (.expectedCommaOr close)

/-- The values behind the first one of a sequence, each after a comma. `close` is the bracket that
ends the sequence, if there is one. -/
def readTail (close : Option Char) : Nat → List Char → Except Stopped (Front (List Value))
  | 0, cs => .ok ([], cs)
  | bound + 1, cs =>
    if cs.head? ≠ some ',' then .ok ([], cs)
    else
      let cs := skipSpace (cs.drop 1)
      if cs.isEmpty || cs.head? = close then .ok ([], cs)
      else do
        let (item, cs) ← part cs
        let (items, cs) ← readTail close bound (skipSpace cs)
        return (item :: items, cs)

/-- A value, or a tuple if a comma follows it. -/
def readSequence (close : Option Char) (cs : List Char) : Except Stopped (Front Value) := do
  let (first, cs) ← part cs
  let cs := skipSpace cs
  if cs.head? ≠ some ',' then return (first, cs)
  else
    let (items, cs) ← readTail part close cs.length cs
    return (.tuple (first :: items), cs)

/-- A value or a tuple behind an opening parenthesis. -/
def readTuple (cs : List Char) : Except Stopped (Front Value) := do
  let cs := skipSpace cs
  if cs.head? = some ')' then return (.tuple [], cs.drop 1)
  else
    let (inner, cs) ← readSequence part (some ')') cs
    let cs := skipSpace cs
    if cs.head? = some ')' then return (inner, cs.drop 1)
    else stop cs (.expected ')')

/-- The pairs of a dict behind the colon of the first one, whose key is given. -/
def readPairs : Nat → Value → List Char → Except Stopped (Front (List (Value × Value)))
  | 0, _, cs => stop cs .noLiteral
  | bound + 1, key, cs => do
    let (value, cs) ← part cs
    let cs := skipSpace cs
    let more := cs.head? = some ','
    let cs := if more then skipSpace (cs.drop 1) else cs
    if cs.head? = some '}' then return ([(key, value)], cs.drop 1)
    else if !more then stop cs (.expectedCommaOr '}')
    else
      let (next, cs) ← part cs
      let cs := skipSpace cs
      if cs.head? ≠ some ':' then stop cs (.expected ':')
      else
        let (pairs, cs) ← readPairs bound next (cs.drop 1)
        return ((key, value) :: pairs, cs)

/-- The pairs with one more; a key that is there already keeps its place and takes the new
value. -/
def insertPair : List (Value × Value) → Value × Value → List (Value × Value)
  | [], new => [new]
  | (k, v) :: pairs, new =>
    if k == new.1 then (k, new.2) :: pairs else (k, v) :: insertPair pairs new

/-- A dict or a set behind an opening brace. -/
def readBrace (cs : List Char) : Except Stopped (Front Value) := do
  let cs := skipSpace cs
  if cs.head? = some '}' then return (.dict [], cs.drop 1)
  else
    let (first, cs) ← part cs
    let cs := skipSpace cs
    if cs.head? = some ':' then
      let (pairs, cs) ← readPairs part cs.length first (cs.drop 1)
      return (.dict (pairs.foldl insertPair []), cs)
    else if cs.head? = some ',' then
      let (items, cs) ← readItems part '}' cs.length (cs.drop 1)
      return (.set (dedup (first :: items)), cs)
    else if cs.head? = some '}' then return (.set [first], cs.drop 1)
    else stop cs (.expectedCommaOr '}')

/-- A value; the first character decides of what kind. -/
def readForm (cs : List Char) : Except Stopped (Front Value) :=
  let cs := skipSpace cs
  match cs with
  | [] => stop [] .noLiteral
  | c :: rest =>
    if c = '(' then readTuple part rest
    else if c = '[' then (readItems part ']' rest.length rest).map fun (items, rest) =>
      (.list items, rest)
    else if c = '{' then readBrace part rest
    else if isQuote c then strings cs
    else if c = '.' ∧ rest.head? = some '.' then readDots cs
    else if c.isDigit || c == '-' || c == '+' || c == '.' then number cs
    else if isAlphabetic c || c == '_' then readWord cs
    else stop cs (.unexpected c)

end Displays

/-! ## Texts -/

/-- A value with displays nested at most `depth` deep. -/
def readValue : Nat → List Char → Except Stopped (Front Value)
  | 0, cs => stop cs .noLiteral
  | depth + 1, cs => readForm (readValue depth) cs

/-- A whole text: a value, or several with commas between them as a tuple. -/
def readAll (cs : List Char) : Except Stopped Value := do
  let (value, rest) ← readSequence (readValue cs.length) none cs
  match skipSpace rest with
  | [] => return value
  | c :: rest => stop (c :: rest) (.unexpected c)

/-- The length of a text in bytes. -/
def byteLength (cs : List Char) : Nat := cs.foldr (fun c n => c.utf8Size + n) 0

/-- **Reading a text as one literal.** -/
def read (text : String) : Except LiteralError Value :=
  (readAll text.toList).mapError fun stopped =>
    ⟨byteLength text.toList - byteLength stopped.rest, stopped.fault⟩

end DocTree.Literal
