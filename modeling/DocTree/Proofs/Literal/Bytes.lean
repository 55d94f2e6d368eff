import DocTree.Proofs.Literal.RoundTrip

/-!
# Bytes in their source form

The source form has a text for every byte. Reading it first makes a character of each byte and asks
for ASCII only then, so bytes from 128 on are written but not read.

* `readValue_bytesText`, **`read_display_bytes`**: what is read from the source form of any bytes;
* `high_byte_not_read`: the least byte that is lost.
-/

namespace DocTree.Literal

/-- What is read before the end of the text is looked at. -/
theorem readValue_bytesText (data : List UInt8) :
    readValue (Value.bytesText data).toList.length (Value.bytesText data).toList =
      if data.all (·.toNat < 0x80) then .ok (.bytes data, []) else stop [] .nonAsciiBytes := by
  have htext : (Value.bytesText data).toList =
      'b' :: '\'' :: (data.flatMap Value.byteText ++ ['\'']) := by
    rw [← toList_bytesText, List.append_nil]
  obtain ⟨depth, hvalue⟩ := readValue_of_ne_nil (htext ▸ List.cons_ne_nil _ _)
  have hform : readForm (readValue depth) ((Value.bytesText data).toList ++ []) = _ :=
    readForm_bytesText data stops_nil
  rw [List.append_nil] at hform
  rw [hvalue, hform]

/-- **Bytes are read back from their source form exactly if all of them are ASCII.** One that is not
is a fault at the end of the text, though its escape is well formed. -/
theorem read_display_bytes (data : List UInt8) :
    read (Value.bytes data).display =
      if data.all (·.toNat < 0x80) then .ok (.bytes data)
      else .error ⟨byteLength (Value.bytesText data).toList, .nonAsciiBytes⟩ := by
  have hvalue := readValue_bytesText data
  have hend : (skipSpace []).head? ≠ some ',' := by
    intro h
    cases h
  rw [Value.display]
  split_ifs at hvalue ⊢
  · exact read_of_readValue hvalue hend
  · exact read_of_readValue_error hvalue

/-- **The least byte that is not read back.** -/
theorem high_byte_not_read :
    (Value.bytes [0x80]).display = "b'\\x80'" ∧
      read "b'\\x80'" = .error ⟨7, .nonAsciiBytes⟩ ∧
        ¬ ∀ data : List UInt8, read (Value.bytes data).display = .ok (.bytes data) := by
  have htext : (Value.bytes [0x80]).display = "b'\\x80'" := by decide +kernel
  have hvalue := readValue_bytesText [0x80]
  rw [if_neg (by decide)] at hvalue
  have hread : read (Value.bytes [0x80]).display = .error ⟨7, .nonAsciiBytes⟩ :=
    read_of_readValue_error hvalue
  refine ⟨htext, htext ▸ hread, fun hall => ?_⟩
  rw [hall [0x80]] at hread
  cases hread

end DocTree.Literal
