/-!
# UTF-8

Bytes as text. A sequence that is no UTF-8 shows as one replacement character for each of its
longest beginnings that could have become a character.

* `Utf8.lead?`: what may follow the first byte of a character;
* `Utf8.decodeLossy`: the text of any bytes.
-/

namespace DocTree.Text.Utf8

/-- A character that is not complete: the bits read so far, the bounds of the next byte and the
number of bytes missing. -/
structure Pending where
  bits : Nat
  low : Nat
  high : Nat
  missing : Nat

/-- The character that a leading byte above ASCII begins. The bounds of the second byte rule out
surrogates, overlong forms and code points beyond the last. -/
def lead? (b : Nat) : Option Pending :=
  if 0xC2 ≤ b ∧ b ≤ 0xDF then some ⟨b - 0xC0, 0x80, 0xBF, 1⟩
  else if 0xE0 ≤ b ∧ b ≤ 0xEF then
    some ⟨b - 0xE0, if b = 0xE0 then 0xA0 else 0x80, if b = 0xED then 0x9F else 0xBF, 2⟩
  else if 0xF0 ≤ b ∧ b ≤ 0xF4 then
    some ⟨b - 0xF0, if b = 0xF0 then 0x90 else 0x80, if b = 0xF4 then 0x8F else 0xBF, 3⟩
  else none

def replacement : Char := '\uFFFD'

/-- What a byte between two characters gives, and the character it begins. -/
def fresh (b : Nat) : List Char × Option Pending :=
  if b < 0x80 then ([Char.ofNat b], none)
  else match lead? b with
    | some p => ([], some p)
    | none => ([replacement], none)

/-- One more byte. -/
def step : Option Pending → Nat → List Char × Option Pending
  | none, b => fresh b
  | some p, b =>
    if p.low ≤ b ∧ b ≤ p.high then
      let bits := p.bits * 64 + (b - 0x80)
      if p.missing ≤ 1 then ([Char.ofNat bits], none)
      else ([], some ⟨bits, 0x80, 0xBF, p.missing - 1⟩)
    else
      let (cs, next) := fresh b
      (replacement :: cs, next)

def decodeFrom (pending : Option Pending) : List UInt8 → List Char
  | [] => if pending.isSome then [replacement] else []
  | b :: bs =>
    let (cs, next) := step pending b.toNat
    cs ++ decodeFrom next bs

/-- The text of the bytes. -/
def decodeLossy (bytes : List UInt8) : String := .ofList (decodeFrom none bytes)

/-- The bytes of a text. -/
def encode (s : String) : List UInt8 := s.toUTF8.toList

end DocTree.Text.Utf8
