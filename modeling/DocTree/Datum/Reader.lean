import DocTree.Datum.Decode

/-!
# Reading flow notation

The data that a text is. Each reader takes the start of a text and gives what it read with the text
behind it, or else the text at which it stopped.

* `readString`, `readPlain`: scalars;
* `readItems`, `readEntries`: the insides of sequences and maps, given how their parts are read;
* `readValue`: a value with sequences and maps nested within bounds. Each bracket takes a character,
  so the length of the text is bound enough;
* `Datum.read`: **reading a text as one value**. Keys are in quotes, do not occur twice in a map and
  have their colon within reach (`keyReach`).
-/

namespace DocTree.Datum

/-! ## Strings -/

/-- The character that a backslash and a letter stand for. -/
def escaped? (c : Char) : Option Char :=
  if c = '"' ∨ c = '\\' ∨ c = '/' then some c
  else if c = 'b' then some '\x08'
  else if c = 'f' then some '\x0c'
  else if c = 'n' then some '\n'
  else if c = 'r' then some '\r'
  else if c = 't' then some '\t'
  else none

/-- The character whose code point the hexadecimal digits give. -/
def coded? (digits : List Char) : Option Char :=
  match Decimal.readDigits 16 0x10FFFF digits with
  | .ok n => if n < 0xD800 ∨ 0xDFFF < n then some (.ofNat n) else none
  | .error _ => none

/-- The characters of a string behind its opening quote. -/
def readChars : List Char → Except (List Char) (List Char × List Char)
  | [] => .error []
  | '\\' :: 'u' :: d₁ :: d₂ :: d₃ :: d₄ :: cs =>
    match coded? [d₁, d₂, d₃, d₄] with
    | some c => (readChars cs).map fun (text, cs) => (c :: text, cs)
    | none => .error cs
  | '\\' :: 'U' :: d₁ :: d₂ :: d₃ :: d₄ :: d₅ :: d₆ :: d₇ :: d₈ :: cs =>
    match coded? [d₁, d₂, d₃, d₄, d₅, d₆, d₇, d₈] with
    | some c => (readChars cs).map fun (text, cs) => (c :: text, cs)
    | none => .error cs
  | '\\' :: c :: cs =>
    match escaped? c with
    | some c => (readChars cs).map fun (text, cs) => (c :: text, cs)
    | none => .error (c :: cs)
  | c :: cs =>
    if c = '"' then .ok ([], cs)
    else if c.toNat < 0x20 ∨ c = '\\' then .error (c :: cs)
    else (readChars cs).map fun (text, cs) => (c :: text, cs)

/-- A string behind its opening quote. -/
def readString (cs : List Char) : Except (List Char) (String × List Char) :=
  (readChars cs).map fun (text, cs) => (.ofList text, cs)

/-! ## Numbers and words -/

/-- Whether a text is a number: digits without needless zeros, behind a minus sign perhaps, and then
perhaps a fraction and perhaps an exponent. -/
def isNumber (cs : List Char) : Bool :=
  let cs := match cs with
    | '-' :: cs => cs
    | cs => cs
  let whole := cs.takeWhile Char.isDigit
  let exponent := match cs.dropWhile Char.isDigit with
    | '.' :: c :: cs => if c.isDigit then cs.dropWhile Char.isDigit else '.' :: c :: cs
    | cs => cs
  !whole.isEmpty && (whole.head? != some '0' || whole == ['0']) &&
    (Decimal.readExponent? exponent).isSome

/-- Whether a text is a word that stands without quotes. -/
def isKeyword (cs : List Char) : Bool :=
  ["null".toList, "true".toList, "false".toList].contains cs

/-- A character that a number or a word may hold. -/
def isPlainChar (c : Char) : Bool := c.isAlphanum || ['-', '+', '.'].contains c

/-- A number or a word at the start of a text. -/
def readPlain (cs : List Char) : Except (List Char) (Datum × List Char) :=
  let token := cs.takeWhile isPlainChar
  if isKeyword token || isNumber token then .ok (.plain (.ofList token), cs.dropWhile isPlainChar)
  else .error cs

/-! ## Sequences and maps -/

/-- White space between the parts of a text. -/
def isBlank (c : Char) : Bool := [' ', '\t', '\n', '\r'].contains c

def skipBlank (cs : List Char) : List Char := cs.dropWhile isBlank

/-- The number of characters from the start of a key within which its colon must come. -/
def keyReach : Nat := 1024

/-- A key and the colon behind it. -/
def readKey (cs : List Char) : Except (List Char) (String × List Char) :=
  match skipBlank cs with
  | '"' :: cs => do
    let (key, behind) ← readString cs
    match skipBlank behind with
    | ':' :: rest =>
      if cs.length ≤ keyReach + rest.length then return (key, rest) else .error rest
    | rest => .error rest
  | cs => .error cs

section Containers

-- How the parts of a sequence or a map are read.
variable (part : List Char → Except (List Char) (Datum × List Char))

/-- One or more values up to the closing bracket. -/
def readItems : Nat → List Char → Except (List Char) (List Datum × List Char)
  | 0, cs => .error cs
  | bound + 1, cs => do
    let (item, cs) ← part cs
    match skipBlank cs with
    | ',' :: cs =>
      let (items, cs) ← readItems bound cs
      return (item :: items, cs)
    | ']' :: cs => return ([item], cs)
    | cs => .error cs

/-- One or more entries up to the closing brace. -/
def readEntries : Nat → List Char → Except (List Char) (Entries × List Char)
  | 0, cs => .error cs
  | bound + 1, cs => do
    let (key, cs) ← readKey cs
    let (value, cs) ← part cs
    match skipBlank cs with
    | ',' :: cs =>
      let (entries, cs) ← readEntries bound cs
      return ((key, value) :: entries, cs)
    | '}' :: cs => return ([(key, value)], cs)
    | cs => .error cs

/-- A sequence behind its opening bracket. -/
def readSeq (cs : List Char) : Except (List Char) (Datum × List Char) :=
  match skipBlank cs with
  | ']' :: cs => .ok (.seq [], cs)
  | cs => (readItems part cs.length cs).map fun (items, cs) => (.seq items, cs)

/-- A map behind its opening brace. -/
def readMap (cs : List Char) : Except (List Char) (Datum × List Char) :=
  match skipBlank cs with
  | '}' :: cs => .ok (.map [], cs)
  | cs => do
    let (entries, rest) ← readEntries part cs.length cs
    if (entries.map (·.1)).Nodup then return (.map entries, rest) else .error cs

/-- A value; the first character decides of what kind. -/
def readForm (cs : List Char) : Except (List Char) (Datum × List Char) :=
  match skipBlank cs with
  | '[' :: cs => readSeq part cs
  | '{' :: cs => readMap part cs
  | '"' :: cs => (readString cs).map fun (text, cs) => (.quoted text, cs)
  | cs => readPlain cs

end Containers

/-! ## Texts -/

/-- A value with sequences and maps nested at most `depth` deep. -/
def readValue : Nat → List Char → Except (List Char) (Datum × List Char)
  | 0, cs => .error cs
  | depth + 1, cs => readForm (readValue depth) cs

/-- A value and nothing but white space behind it. -/
def readAll (cs : List Char) : Except (List Char) Datum := do
  let (value, rest) ← readValue (cs.length + 1) cs
  match skipBlank rest with
  | [] => return value
  | rest => .error rest

/-- **Reading a text as one value.** A text without any is a map without entries. -/
def read (text : String) : Except DataFault Datum :=
  if (skipBlank text.toList).isEmpty then .ok (.map [])
  else (readAll text.toList).mapError fun rest => .unreadable (text.length - rest.length)

end DocTree.Datum
