import DocTree.Literal.Error
import DocTree.Text.Scan
import DocTree.Value.Basic

/-!
# Quoted strings

Reading strings between quotes, with or without escapes, and several of them in a row.

* `Front`, `Stopped`: the outcome of reading the start of a text. A fault keeps the text that is
  left, so that its place can be told;
* `quotedFrom`: a string up to its closing quote;
* `strings`: adjacent strings as one value.
-/

namespace DocTree.Literal

open Text

/-- A fault and the text that was not yet read. -/
structure Stopped where
  rest : List Char
  fault : LiteralFault
  deriving DecidableEq, Repr

/-- What was read, and the text behind it. -/
abbrev Front (α : Type) := α × List Char

def stop {α : Type} (rest : List Char) (fault : LiteralFault) : Except Stopped α :=
  .error ⟨rest, fault⟩

/-- Put a character in front of the string that was read. -/
def prepend (c : Char) (r : Except Stopped (Front (List Char))) :
    Except Stopped (Front (List Char)) :=
  r.map fun (cs, rest) => (c :: cs, rest)

/-! ## One string -/

/-- How a string is delimited and whether backslashes stand for themselves. -/
structure QuoteForm where
  mark : Char
  triple : Bool
  raw : Bool
  deriving DecidableEq, Repr

/-- Where a reader stands within a string. -/
inductive QuoteState where
  | text
  /-- Behind a backslash that opens an escape. -/
  | escape
  /-- Behind a backslash that stands for itself and hides the next character. -/
  | rawEscape
  /-- Within a numeric escape: its letter, the characters read and the number still to read. -/
  | digits (letter : Char) (seen : List Char) (missing : Nat)
  deriving DecidableEq, Repr

/-- The character of a numeric escape: hexadecimal digits, after an optional plus sign, of a code
point that is no surrogate. -/
def codePoint? (cs : List Char) : Option Char :=
  let cs := match cs with
    | '+' :: cs => cs
    | cs => cs
  match Decimal.readDigits 16 0x10FFFF cs with
  | .ok n => if n < 0xD800 ∨ 0xDFFF < n then some (Char.ofNat n) else none
  | .error _ => none

/-- The characters that a one-letter escape stands for; an unknown escape stands for itself, and
one before a newline for nothing. -/
def simpleEscape (c : Char) : List Char :=
  if c = 'n' then ['\n']
  else if c = 't' then ['\t']
  else if c = 'r' then ['\r']
  else if c = '0' then ['\x00']
  else if c = '\\' ∨ isQuote c then [c]
  else if c = '\n' then []
  else ['\\', c]

/-- The number of digits of a numeric escape. -/
def escapeWidth? (c : Char) : Option Nat :=
  if c = 'x' then some 2 else if c = 'u' then some 4 else none

/-- The string up to the closing quote, and the text behind it. -/
def quotedFrom (form : QuoteForm) : QuoteState → List Char → Except Stopped (Front (List Char))
  | .text, [] => stop [] .unterminatedString
  | .text, c :: cs =>
    if c = form.mark then
      if !form.triple then .ok ([], cs)
      else match cs with
        | a :: b :: rest =>
          if a = form.mark ∧ b = form.mark then .ok ([], rest)
          else prepend c (quotedFrom form .text (a :: b :: rest))
        | cs => prepend c (quotedFrom form .text cs)
    else if c = '\n' ∧ !form.triple then stop cs .newlineInString
    else if c ≠ '\\' then prepend c (quotedFrom form .text cs)
    else if form.raw then prepend c (quotedFrom form .rawEscape cs)
    else quotedFrom form .escape cs
  | .rawEscape, [] => stop [] .unterminatedString
  | .rawEscape, c :: cs => prepend c (quotedFrom form .text cs)
  | .escape, [] => stop [] .unterminatedEscape
  | .escape, c :: cs =>
    match escapeWidth? c with
    | some width => quotedFrom form (.digits c [] width) cs
    | none => (simpleEscape c).foldr prepend (quotedFrom form .text cs)
  | .digits letter seen _, [] =>
    match codePoint? seen with
    | some _ => stop [] .unterminatedString
    | none => stop [] (.badEscape letter (.ofList seen))
  | .digits letter seen missing, c :: cs =>
    let seen := seen ++ [c]
    if missing ≤ 1 then
      match codePoint? seen with
      | some c => prepend c (quotedFrom form .text cs)
      | none => stop cs (.badEscape letter (.ofList seen))
    else quotedFrom form (.digits letter seen (missing - 1)) cs

/-- The string behind an opening quote. Three quotes in a row open a string that may hold
newlines. -/
def quoted (raw : Bool) (mark : Char) (cs : List Char) : Except Stopped (Front (List Char)) :=
  match cs with
  | a :: b :: rest =>
    if a = mark ∧ b = mark then quotedFrom ⟨mark, true, raw⟩ .text rest
    else quotedFrom ⟨mark, false, raw⟩ .text cs
  | cs => quotedFrom ⟨mark, false, raw⟩ .text cs

/-! ## Adjacent strings -/

/-- At most `bound` adjacent strings: whether they are bytes, and their contents joined. `kind` is
the kind of the strings before, if there are any; all must be of one kind. -/
def stringsWithin : Nat → Option Bool → List Char → Except Stopped (Front (Bool × List Char))
  | 0, kind, cs => .ok ((kind.getD false, []), cs)
  | bound + 1, kind, cs =>
    let cs := cs.dropWhile isSpace
    let letters := (cs.takeWhile Char.isAlpha).map Char.toLower
    match cs.dropWhile Char.isAlpha with
    | [] => .ok ((kind.getD false, []), cs)
    | mark :: body =>
      if !isQuote mark then .ok ((kind.getD false, []), cs)
      else
        let isBytes := letters.contains 'b'
        if kind.any (· != isBytes) then stop (mark :: body) .mixedStrings
        else do
          let (text, rest) ← quoted (letters.contains 'r') mark body
          if isBytes && !text.all (·.toNat < 0x80) then stop rest .nonAsciiBytes
          else
            let ((isBytes, more), rest) ← stringsWithin bound (some isBytes) rest
            return ((isBytes, text ++ more), rest)

/-- One or more adjacent strings as one value. Every string is at least two characters long, which
bounds their number. -/
def strings (cs : List Char) : Except Stopped (Front Value) :=
  (stringsWithin cs.length none cs).map fun ((isBytes, text), rest) =>
    (if isBytes then .bytes (text.map fun c => c.toNat.toUInt8) else .str (.ofList text), rest)

end DocTree.Literal
