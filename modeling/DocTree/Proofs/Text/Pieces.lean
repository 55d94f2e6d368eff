import DocTree.Proofs.Text.Scans

/-!
# Cutting apart and joining

Cutting a text at a separator that stands outside quotes and brackets, and joining the pieces with
this separator, undo each other.

* `IsPiece`: a text that is balanced and is cut nowhere, **which is how the scanner passes over it**
  (`isPiece_iff_scans`);
* `isSome_splitTop`: a text is cut apart exactly if it is balanced;
* `splitTop_eq_some_iff`: the pieces of a text are the only ones that it is joined of;
* **`splitTop_inverse`**: both together;
* `cutsFrom`, `slices`, **`splitTop_slices`**: the same pieces as slices of the bytes of the text,
  with the places of the cuts counted in bytes.
-/

namespace DocTree.Text

open ScanState

/-- A text that is balanced, and in which no `sep` stands outside quotes and brackets. -/
structure IsPiece (sep : Char) (piece : List Char) : Prop where
  balanced : balanced piece = true
  /-- The scanner is never outside where a separator stands. -/
  uncut : ∀ l r, piece = l ++ sep :: r → outside.run l ≠ some outside

section Pieces

variable {sep : Char} {st : ScanState} {cs : List Char}

/-- The scanner passes over a piece on its own as it does within the whole text. -/
theorem isPiece_iff_scans : IsPiece sep cs ↔ Scans (· == sep) outside cs outside := by
  constructor
  · intro h
    have hclear : Clear (fun _ c _ => c == sep) outside none cs none := by
      intro l c r hcs hl
      refine beq_eq_false_iff_ne.mpr ?_
      rintro rfl
      exact h.uncut l r hcs hl
    exact scans_of_clear (beq_iff_eq.mp h.balanced) hclear
  · intro h
    refine ⟨beq_iff_eq.mpr h.run, ?_⟩
    rintro l r rfl hl
    exact absurd (h.not_outside hl) (by simp)

/-! ## Which texts are cut -/

theorem balancedFrom_cons (c : Char) (cs : List Char) :
    balancedFrom st (c :: cs) = (st.step c).any (balancedFrom · cs) := by
  rw [balancedFrom, ScanState.run, List.foldlM_cons]
  cases st.step c <;> rfl

/-- Cutting fails only where the scanner fails. -/
theorem isSome_splitTopFrom (hsep : isDelimiter sep = false) :
    (splitTopFrom sep st cs).isSome = balancedFrom st cs := by
  induction cs generalizing st with
  | nil =>
    rw [splitTopFrom, balancedFrom, run, List.foldlM_nil]
    split
    · next hst => simp [hst]
    · next hst => simp [hst]
  | cons c cs ih =>
    rw [splitTopFrom, balancedFrom_cons]
    split
    · next hcut =>
      obtain ⟨rfl, -, rfl⟩ := hcut
      rw [Option.isSome_map, ih, outside, step_of_not_isDelimiter hsep, Option.any_some]
    · cases st.step c with
      | none => rfl
      | some mid => rw [Option.bind_some, Option.isSome_map, ih, Option.any_some]

theorem isSome_splitTop (hsep : isDelimiter sep = false) :
    (splitTop sep cs).isSome = balanced cs :=
  isSome_splitTopFrom hsep

/-! ## The pieces -/

/-- **A text is cut into some pieces exactly if it is joined of them** and they are cut no further. -/
theorem splitTop_eq_some_iff (hsep : isDelimiter sep = false) {pieces : List (List Char)} :
    splitTop sep cs = some pieces ↔
      pieces ≠ [] ∧ [sep].intercalate pieces = cs ∧ ∀ piece ∈ pieces, IsPiece sep piece := by
  constructor
  · intro h
    have hne := splitTopFrom_ne_nil h
    obtain ⟨first, rest, rfl⟩ := List.exists_cons_of_ne_nil hne
    obtain ⟨hjoin, hfirst, hrest⟩ := scans_of_splitTopFrom hsep h
    refine ⟨hne, hjoin, List.forall_mem_cons.mpr ⟨isPiece_iff_scans.mpr hfirst, ?_⟩⟩
    exact fun piece hpiece => isPiece_iff_scans.mpr (hrest piece hpiece)
  · rintro ⟨hne, rfl, hpieces⟩
    obtain ⟨first, rest, rfl⟩ := List.exists_cons_of_ne_nil hne
    exact splitTop_pieces hsep (p := (· == sep)) (by simp) fun piece hpiece =>
      isPiece_iff_scans.mp (hpieces piece hpiece)

/-- **Cutting and joining undo each other.** The pieces of a text are the only ones that are joined
to it with separators between them, are balanced, and have no separator outside quotes and brackets.
A text has no pieces exactly if it is not balanced itself. -/
theorem splitTop_inverse (hsep : isDelimiter sep = false) (cs : List Char) :
    (∀ pieces, splitTop sep cs = some pieces ↔
      pieces ≠ [] ∧ [sep].intercalate pieces = cs ∧ ∀ piece ∈ pieces, IsPiece sep piece) ∧
    (splitTop sep cs = none ↔ balanced cs = false) := by
  refine ⟨fun pieces => splitTop_eq_some_iff hsep, ?_⟩
  rw [← isSome_splitTop hsep, Option.isSome_eq_false_iff, Option.isNone_iff_eq_none]

/-- A text with separators of more than one byte, in a string and in brackets as well. -/
theorem splitTop_inverse_of_arrows :
    isDelimiter '→' = false ∧
    (∀ pieces, splitTop '→' "é→'→\\''→[(→)]".toList = some pieces ↔
      pieces ≠ [] ∧ ['→'].intercalate pieces = "é→'→\\''→[(→)]".toList ∧
        ∀ piece ∈ pieces, IsPiece '→' piece) ∧
    (splitTop '→' "é→'→\\''→[(→)]".toList = none ↔ balanced "é→'→\\''→[(→)]".toList = false) := by
  have hsep : isDelimiter '→' = false := by decide
  exact ⟨hsep, splitTop_inverse hsep _⟩

/-- The pieces of this text. -/
example : splitTop '→' "é→'→\\''→[(→)]".toList =
    some ["é".toList, "'→\\''".toList, "[(→)]".toList] := by decide +kernel

end Pieces

/-! ## Cuts in bytes -/

/-- The bytes of a text in UTF-8. -/
def utf8 (cs : List Char) : List UInt8 := cs.flatMap String.utf8EncodeChar

theorem utf8_nil : utf8 [] = [] := rfl

theorem utf8_append (cs ds : List Char) : utf8 (cs ++ ds) = utf8 cs ++ utf8 ds :=
  List.flatMap_append

theorem utf8_cons (c : Char) (cs : List Char) : utf8 (c :: cs) = utf8 [c] ++ utf8 cs :=
  utf8_append [c] cs

theorem length_utf8_singleton (c : Char) : (utf8 [c]).length = c.utf8Size := by
  rw [utf8, List.flatMap_singleton, String.length_utf8EncodeChar]

/-- The places of the separators outside quotes and brackets, or none if the text is not balanced.
A place is the number of bytes in front of it; there are `offset` in front of the text. -/
def cutsFrom (sep : Char) (st : ScanState) (offset : Nat) : List Char → Option (List Nat)
  | [] => if st = outside then some [] else none
  | c :: cs =>
    if st = outside ∧ ¬ isDelimiter c ∧ c = sep then
      (cutsFrom sep st (offset + c.utf8Size) cs).map (offset :: ·)
    else (st.step c).bind fun st' => cutsFrom sep st' (offset + c.utf8Size) cs

/-- The bytes from `start` on, up to each cut and from behind its `width` bytes on. -/
def slices (width start : Nat) (bytes : List UInt8) : List Nat → List (List UInt8)
  | [] => [bytes.drop start]
  | cut :: cuts =>
    (bytes.drop start).take (cut - start) :: slices width (cut + width) bytes cuts

/-- The slice in front of the first cut. -/
theorem slices_cons (width : Nat) (front piece rest : List UInt8) (cuts : List Nat) :
    slices width front.length (front ++ (piece ++ rest))
        ((front.length + piece.length) :: cuts) =
      piece :: slices width (front.length + piece.length + width)
        (front ++ (piece ++ rest)) cuts := by
  rw [slices, List.drop_left, Nat.add_sub_cancel_left, List.take_left]

/-- The slices of a text of which `piece` has been scanned since the last cut. The bytes up to there
are `front`. -/
theorem splitTopFrom_slices (sep : Char) (st : ScanState) (front : List UInt8)
    (piece cs : List Char) :
    (splitTopFrom sep st cs).map (fun pieces => (piece.foldr consPiece pieces).map utf8) =
      (cutsFrom sep st (front.length + (utf8 piece).length) cs).map
        (slices sep.utf8Size front.length (front ++ (utf8 piece ++ utf8 cs))) := by
  induction cs generalizing st front piece with
  | nil =>
    rw [splitTopFrom, cutsFrom]
    split
    · rw [Option.map_some, Option.map_some, foldr_consPiece, List.append_nil, slices,
        List.drop_left, utf8, utf8, List.flatMap_nil, List.append_nil]
      rfl
    · rfl
  | cons c cs ih =>
    rw [splitTopFrom, cutsFrom]
    split
    · next hcut =>
      -- The next slice begins behind the separator.
      obtain ⟨-, -, rfl⟩ := hcut
      have hnext := ih st (front ++ (utf8 piece ++ utf8 [c])) []
      have hbytes : front ++ (utf8 piece ++ utf8 [c]) ++ (utf8 [] ++ utf8 cs) =
          front ++ (utf8 piece ++ utf8 (c :: cs)) := by
        rw [utf8_cons c cs, utf8_nil, List.nil_append, List.append_assoc, List.append_assoc]
      have hlength : (front ++ (utf8 piece ++ utf8 [c])).length =
          front.length + (utf8 piece).length + c.utf8Size := by
        rw [List.length_append, List.length_append, Nat.add_assoc, length_utf8_singleton]
      rw [hbytes, hlength, utf8_nil, List.length_nil, Nat.add_zero] at hnext
      calc _ = ((splitTopFrom c st cs).map (·.map utf8)).map (utf8 piece :: ·) := by
            rw [Option.map_map, Option.map_map]
            refine congrArg (Option.map · _) (funext fun pieces => ?_)
            rw [Function.comp_apply, foldr_consPiece, List.append_nil, List.map_cons]
            rfl
        _ = _ := by
            refine (congrArg (Option.map (utf8 piece :: ·)) hnext).trans ?_
            rw [Option.map_map, Option.map_map]
            refine congrArg (Option.map · _) (funext fun cuts => ?_)
            exact (slices_cons _ front (utf8 piece) (utf8 (c :: cs)) cuts).symm
    · cases st.step c with
      | none => rfl
      | some mid =>
        have hnext := ih mid front (piece ++ [c])
        rw [utf8_append, List.length_append, length_utf8_singleton, ← Nat.add_assoc,
          List.append_assoc, ← utf8_cons] at hnext
        rw [Option.bind_some, Option.bind_some, Option.map_map, ← hnext]
        refine congrArg (Option.map · _) (funext fun pieces => ?_)
        rw [Function.comp_apply, List.foldr_append]
        rfl

/-- **The pieces of a text are the slices of its bytes between the cuts.** -/
theorem splitTop_slices (sep : Char) (cs : List Char) :
    (splitTop sep cs).map (·.map utf8) =
      (cutsFrom sep outside 0 cs).map (slices sep.utf8Size 0 (utf8 cs)) :=
  splitTopFrom_slices sep outside [] [] cs

end DocTree.Text
