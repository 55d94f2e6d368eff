import DocTree.Text.Basic

/-!
# Quotes and brackets

A scanner that knows which characters of a text stand outside quotes and brackets.

* `ScanState`, `ScanState.step`: the state between two characters. Both quote marks open a string
  in which a backslash hides the next character; the three kinds of bracket count as one, and a
  closing bracket with nothing to close is refused;
* `balanced`: a text that leaves the scanner where it started;
* `splitTop`, `cutTop`: cutting a balanced text where a character stands outside;
* `cutAssignment`, `cutColon`: the two cuts of the field grammar.
-/

namespace DocTree.Text

/-- Where the scanner stands: in `depth` open brackets, or within a string that began there. -/
inductive ScanState where
  | plain (depth : Nat)
  | quoted (depth : Nat) (quote : Char) (escaped : Bool)
  deriving DecidableEq, Repr

/-- A quote mark, which opens and closes a string. -/
def isQuote (c : Char) : Bool := c == '\'' || c == '"'

def isOpening (c : Char) : Bool := c == '(' || c == '[' || c == '{'

def isClosing (c : Char) : Bool := c == ')' || c == ']' || c == '}'

/-- A character that the scanner itself reads. -/
def isDelimiter (c : Char) : Bool := isQuote c || isOpening c || isClosing c

namespace ScanState

/-- The state at the start of a text and at the end of a balanced one. -/
def outside : ScanState := .plain 0

/-- The state after `c`, or none if `c` closes a bracket that was not opened. -/
def step : ScanState → Char → Option ScanState
  | .quoted d q true, _ => some (.quoted d q false)
  | .quoted d q false, c =>
    some (if c = '\\' then .quoted d q true else if c = q then .plain d else .quoted d q false)
  | .plain d, c =>
    if isQuote c then some (.quoted d c false)
    else if isOpening c then some (.plain (d + 1))
    else if isClosing c then
      match d with
      | 0 => none
      | d + 1 => some (.plain d)
    else some (.plain d)

/-- The state after a text. -/
def run (st : ScanState) (cs : List Char) : Option ScanState := cs.foldlM step st

end ScanState

open ScanState

/-- Whether `cs`, read from `st` on, ends outside all quotes and brackets. -/
def balancedFrom (st : ScanState) (cs : List Char) : Bool := st.run cs == some outside

/-- Whether the quotes and brackets of `cs` are balanced. -/
def balanced (cs : List Char) : Bool := balancedFrom outside cs

/-- Add a character to the first piece. -/
def consPiece (c : Char) : List (List Char) → List (List Char)
  | [] => [[c]]
  | piece :: pieces => (c :: piece) :: pieces

/-- The pieces of a text between the occurrences of `sep` outside quotes and brackets, or none
if the text is not balanced. -/
def splitTopFrom (sep : Char) (st : ScanState) : List Char → Option (List (List Char))
  | [] => if st = outside then some [[]] else none
  | c :: cs =>
    if st = outside ∧ ¬ isDelimiter c ∧ c = sep then
      (splitTopFrom sep st cs).map ([] :: ·)
    else (st.step c).bind fun st' => (splitTopFrom sep st' cs).map (consPiece c)

/-- Cut at every `sep` that stands outside quotes and brackets. -/
def splitTop (sep : Char) (cs : List Char) : Option (List (List Char)) :=
  splitTopFrom sep outside cs

/-- The parts before and behind the first character outside quotes and brackets that `hit`
accepts, given its neighbours; `some none` if there is no such character, and `none` if the text
is not balanced. `before` is the character that precedes the text. -/
def cutTopFrom (hit : Option Char → Char → Option Char → Bool) (st : ScanState)
    (before : Option Char) : List Char → Option (Option (List Char × List Char))
  | [] => if st = outside then some none else none
  | c :: cs =>
    if st = outside ∧ ¬ isDelimiter c ∧ hit before c cs.head? then
      if balancedFrom st cs then some (some ([], cs)) else none
    else (st.step c).bind fun st' =>
      (cutTopFrom hit st' (some c) cs).map (Option.map fun (l, r) => (c :: l, r))

/-- Whether `c`, between the given neighbours, is an equals sign that assigns and does not
compare: no other equals sign follows it, and none of `=<>!` precedes it. -/
def isAssignment (before : Option Char) (c : Char) (after : Option Char) : Bool :=
  c == '=' && after != some '=' &&
    !(before == some '=' || before == some '<' || before == some '>' || before == some '!')

/-- Whether `c` is a colon with white space or nothing behind it. -/
def isFieldColon (_ : Option Char) (c : Char) (after : Option Char) : Bool :=
  c == ':' && after.all isAsciiSpace

/-- Cut at the first assignment outside quotes and brackets. -/
def cutAssignment (cs : List Char) : Option (Option (List Char × List Char)) :=
  cutTopFrom isAssignment outside none cs

/-- Cut at the first field colon outside quotes and brackets. A text that is not balanced has
none. -/
def cutColon (cs : List Char) : Option (List Char × List Char) :=
  (cutTopFrom isFieldColon outside none cs).join

end DocTree.Text
