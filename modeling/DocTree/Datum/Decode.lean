import DocTree.Decimal.Reader
import DocTree.Datum.Basic

/-!
# Decoding data

Reading typed data out of flow notation.

* `asText`: a text, which any scalar is, by what is written. Quotes make no difference;
* `asString`: a text that has to be in quotes;
* `required`, `orElse`, `optional`: the entries of a map by their keys. Where one is optional,
  `null` is the same as nothing;
* `byPlace`: the entries of a sequence that gives values in the order of their keys.
-/

namespace DocTree

/-- What is wrong with a piece of data that was to be decoded. -/
inductive DataFault where
  /-- The text is not in flow notation; the number counts the characters read. -/
  | unreadable (position : Nat)
  | mismatch (expected : String)
  | missing (key : String)
  | unknown (key : String)
  /-- There are more values than keys. -/
  | excess (keys : Nat)
  | invalid (reason : String)
  deriving DecidableEq, Repr

/-- The wording of a fault. -/
def DataFault.message : DataFault → String
  | unreadable position => "unexpected character at position " ++ toString position
  | mismatch expected => "invalid type: expected " ++ expected
  | missing key => "missing field `" ++ key ++ "`"
  | unknown key => "unknown field `" ++ key ++ "`"
  | excess keys => "invalid length: expected at most " ++ toString keys ++ " values"
  | invalid reason => reason

namespace Datum

/-- What a piece of data is decoded by. -/
abbrev Decoder (α : Type) := Datum → Except DataFault α

/-! ## Values -/

/-- A text by what is written, in quotes or not. -/
def asText : Decoder String
  | plain text | quoted text => .ok text
  | _ => .error (.mismatch "a string")

/-- A text in quotes. -/
def asString : Decoder String
  | quoted text => .ok text
  | _ => .error (.mismatch "a string")

/-- A natural number of 64 bits. -/
def asUInt64 : Decoder Nat
  | plain text =>
    match Decimal.readUInt64? text.toList with
    | some n => .ok n
    | none => .error (.mismatch "an unsigned integer")
  | _ => .error (.mismatch "an unsigned integer")

def asItems : Decoder (List Datum)
  | seq items => .ok items
  | _ => .error (.mismatch "a sequence")

def asEntries : Decoder Entries
  | map entries => .ok entries
  | _ => .error (.mismatch "a map")

variable {α : Type}

/-- A sequence of values of one type. -/
def asListOf (decode : Decoder α) : Decoder (List α) := fun d => do
  (← d.asItems).mapM decode

/-- A map to values of one type. -/
def asMapTo (decode : Decoder α) : Decoder (List (String × α)) := fun d => do
  (← d.asEntries).mapM fun (key, value) => return (key, ← decode value)

/-! ## Entries -/

/-- The value of a key. -/
def field? (entries : Entries) (key : String) : Option Datum :=
  (entries.find? (·.1 == key)).map (·.2)

def required (entries : Entries) (key : String) (decode : Decoder α) : Except DataFault α :=
  match field? entries key with
  | some d => decode d
  | none => .error (.missing key)

def orElse (entries : Entries) (key : String) (default : α) (decode : Decoder α) :
    Except DataFault α :=
  match field? entries key with
  | some d => decode d
  | none => .ok default

def optional (entries : Entries) (key : String) (decode : Decoder α) :
    Except DataFault (Option α) :=
  match field? entries key with
  | some d => if d.isNull then .ok none else (decode d).map some
  | none => .ok none

/-- Refuse any key but the given ones. -/
def onlyKeys (entries : Entries) (keys : List String) : Except DataFault Unit :=
  match entries.find? (!keys.contains ·.1) with
  | some (key, _) => .error (.unknown key)
  | none => .ok ()

/-- Values given in the order of their keys. The last keys may have none. -/
def byPlace (keys : List String) (values : List Datum) : Except DataFault Entries :=
  if values.length ≤ keys.length then .ok (keys.zip values) else .error (.excess keys.length)

end Datum

end DocTree
