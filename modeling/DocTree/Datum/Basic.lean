/-!
# Datum notation

The notation of manifests and configurations: scalars, sequences in brackets and maps in braces, as
in JSON.

* `Datum`: data in this notation. A scalar is kept by its text, since what it stands for depends on
  what is asked for: `5` may be a number, and it is the text `5` where a text is wanted;
* `Datum.text`: the written form, on one line and within printable ASCII.
-/

namespace DocTree

/-- A piece of data in flow notation. -/
inductive Datum where
  /-- A scalar without quotes: a number, `true`, `false` or `null`. -/
  | plain (text : String)
  | quoted (text : String)
  | seq (items : List Datum)
  | map (entries : List (String × Datum))

instance : Inhabited Datum := ⟨.plain "null"⟩

namespace Datum

/-- The entries of a map in their order. -/
abbrev Entries := List (String × Datum)

def isNull : Datum → Bool
  | plain text => text == "null"
  | _ => false

/-! ## The written form -/

/-- The last `count` hexadecimal digits of a number. -/
def hexDigits : Nat → Nat → List Char
  | 0, _ => []
  | count + 1, n => hexDigits count (n / 16) ++ [Nat.digitChar (n % 16)]

/-- A character within a string. Quotes and backslashes are escaped, and what is not printable ASCII
is written as its code point in eight digits. -/
def escape (c : Char) : List Char :=
  if c = '"' ∨ c = '\\' then ['\\', c]
  else if ' ' ≤ c ∧ c ≤ '~' then [c]
  else '\\' :: 'U' :: hexDigits 8 c.toNat

/-- A string in quotes. -/
def quote (s : String) : String := .ofList ('"' :: s.toList.flatMap escape ++ ['"'])

mutual

/-- The written form. A blank follows each comma and colon. -/
def text : Datum → String
  | plain text => text
  | quoted text => quote text
  | seq items => "[" ++ ", ".intercalate (itemTexts items) ++ "]"
  | map entries => "\x7b" ++ ", ".intercalate (entryTexts entries) ++ "\x7d"

def itemTexts : List Datum → List String
  | [] => []
  | item :: items => text item :: itemTexts items

def entryTexts : Entries → List String
  | [] => []
  | (key, value) :: entries => (quote key ++ ": " ++ text value) :: entryTexts entries

end

end Datum

end DocTree
