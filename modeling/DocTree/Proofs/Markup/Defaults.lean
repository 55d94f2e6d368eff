import DocTree.Proofs.Literal.Scanned
import DocTree.Proofs.Markup.TypeBody

/-!
# Literals as defaults

Whether a literal can be written behind the sign of a type body.

* `isDefault_iff_splitTop`: a text that may be a default is one piece between bars;
* `TypeBody.read_assigned_iff`: **what stands behind the sign is read exactly if it may be a
  default**;
* `Literal.isDefault_of_read`: a literal may be one, if the strings in triple quotes end at their
  first marks;
* **`TypeBody.read_literal_default`**.
-/

namespace DocTree

open Text ScanState Value

theorem isBar_of_isSpace (c : Char) (hc : isSpace c = true) : isBar c = false := by
  refine Bool.eq_false_iff.mpr fun hbar => ?_
  obtain rfl := beq_iff_eq.mp hbar
  cases hc

/-- A text that may be a default is one piece between bars. -/
theorem isDefault_iff_splitTop {s : String} (h : Tight isSpace s.toList) :
    IsDefault s ↔ splitTop '|' s.toList = some [s.toList] := by
  constructor
  · intro hdefault
    have hbar : isDelimiter '|' = false := rfl
    have hsplit := splitTop_pieces (p := isBar) hbar rfl
      (List.forall_mem_singleton.mpr hdefault.scans)
    rwa [List.intercalate_singleton] at hsplit
  · intro hsplit
    obtain ⟨-, hscans, -⟩ := scans_of_splitTopFrom (by decide) hsplit
    exact
      { nonempty := by simpa using h.ne_nil
        trimmed := trim_of_tight h
        balanced := beq_iff_eq.mpr hscans.run
        noBar := hscans.clear (fun _ _ _ hbar => hbar) none none }

namespace TypeBody

section Assigned

variable {first t : String}

/-- White space at the end of a default is not read, and neither is the one in front of it. -/
theorem exists_trim_assigned (hfirst : IsAlternative first) (ht : trim t ≠ "") :
    ∃ before : List Char, (∀ c ∈ before, isSpace c = true) ∧
      (trim (first ++ " = " ++ t)).toList =
        first.toList ++ ' ' :: '=' :: ' ' :: (before ++ (trim t).toList) := by
  obtain ⟨before, behind, htext, hbefore, hbehind⟩ := exists_stripWhile isSpace t.toList
  have hbody := hfirst.tight.append (' ' :: '=' :: ' ' :: before) (tight_trim ht)
  refine ⟨before, hbefore, ?_⟩
  have hwhole : (first ++ " = " ++ t).toList =
      [] ++ ((first.toList ++ ((' ' :: '=' :: ' ' :: before) ++ (trim t).toList)) ++ behind) := by
    rw [trim, String.toList_ofList]
    conv_lhs => rw [String.toList_append, htext]
    simp
  rw [trim, String.toList_ofList, hwhole, hbody.strip (List.forall_mem_nil _) hbehind]
  rfl

/-- The text up to the default has no bar, so it belongs to the first piece. -/
theorem splitTop_assigned (hfirst : IsAlternative first) {before : List Char}
    (hbefore : ∀ c ∈ before, isSpace c = true) (cs : List Char) :
    splitTop '|' (first.toList ++ ' ' :: '=' :: ' ' :: (before ++ cs)) =
      (splitTop '|' cs).map fun pieces =>
        (first.toList ++ ' ' :: '=' :: ' ' :: before).foldr consPiece pieces := by
  have hsigns : Scans isBar outside [' ', '=', ' '] outside :=
    scans_of_forall (by decide) (by decide)
  have hfront : Scans isBar outside (first.toList ++ ' ' :: '=' :: ' ' :: before) outside :=
    hfirst.scans.append (hsigns.append (scans_space isBar_of_isSpace hbefore 0))
  have hbar : isBar '|' = true := rfl
  have hsplit := hfront.splitTopFrom hbar cs
  rwa [List.append_assoc] at hsplit

/-- Behind the sign of the last alternative its default is read. -/
theorem readAlternative_default (body : String) (hfirst : IsAlternative first)
    (hdefault : IsDefault (trim t)) {before : List Char}
    (hbefore : ∀ c ∈ before, isSpace c = true) :
    readAlternative body true (first.toList ++ ' ' :: '=' :: ' ' :: (before ++ (trim t).toList)) =
      .ok ⟨first, some (trim t)⟩ := by
  have hscans := scans_space isBar_of_isSpace hbefore 0
  have hbalanced : balanced (before ++ (trim t).toList) = true :=
    (hscans.balancedFrom_append _).trans hdefault.balanced
  have hvalue : trim (.ofList (before ++ (trim t).toList)) = trim t := by
    have hstrip := hdefault.tight.strip hbefore (List.forall_mem_nil _)
    rw [List.append_nil] at hstrip
    conv_lhs => rw [trim, String.toList_ofList, hstrip, String.ofList_toList]
  have hread := readAlternative_assigned body true hfirst (.inl rfl) (before ++ (trim t).toList)
  rw [List.nil_append] at hread
  rw [hread, if_pos hbalanced, if_pos rfl, hvalue, hdefault.isEmpty]
  rfl

/-- A default in front of a bar is a fault, whatever stands behind the bar. -/
theorem readAlternatives_misplaced (body : String) (hfirst : IsAlternative first)
    (value : List Char) {parts : List (List Char)} (hparts : parts ≠ []) (alts : List Alternative) :
    readAlternatives body ((first.toList ++ ' ' :: '=' :: ' ' :: value) :: parts) ≠ .ok alts := by
  have hlast : parts.isEmpty = false := List.isEmpty_eq_false_iff.mpr hparts
  have hread := readAlternative_assigned body false hfirst (.inl rfl) value
  rw [List.nil_append] at hread
  rw [readAlternatives, hlast, hread, if_neg Bool.false_ne_true]
  intro h
  split at h <;> cases h

/-- **What stands behind the sign is read exactly if it may be a default.** -/
theorem read_assigned_iff {body : TypeBody} (hfirst : IsAlternative first)
    (hsee : first.toList.takeWhile (!isSpace ·) ≠ ['s', 'e', 'e']) (ht : trim t ≠ "") :
    read (first ++ " = " ++ t) = .ok body ↔
      IsDefault (trim t) ∧ body = .alternatives [⟨first, some (trim t)⟩] := by
  obtain ⟨before, hbefore, hbody⟩ := exists_trim_assigned hfirst ht
  have htight := tight_trim ht
  have hwhole : Tight isSpace (trim (first ++ " = " ++ t)).toList := by
    rw [hbody]
    exact hfirst.tight.append (' ' :: '=' :: ' ' :: before) htight
  have hone := isDefault_iff_splitTop htight
  rw [read_of_not_see hwhole (by rwa [hbody, takeWhile_append_space]), hbody,
    splitTop_assigned hfirst hbefore]
  generalize trim (first ++ " = " ++ t) = whole
  cases hpieces : splitTop '|' (trim t).toList with
  | none =>
    rw [hpieces] at hone
    exact ⟨nofun, fun h => nomatch hone.mp h.1⟩
  | some pieces =>
    obtain ⟨piece, parts, rfl⟩ := List.exists_cons_of_ne_nil (splitTopFrom_ne_nil hpieces)
    rw [Option.map_some, foldr_consPiece]
    dsimp only
    rw [List.append_assoc, List.cons_append, List.cons_append, List.cons_append]
    by_cases hparts : parts = []
    · subst hparts
      obtain ⟨hpiece, -⟩ := scans_of_splitTopFrom (by decide) hpieces
      obtain rfl := List.intercalate_singleton.symm.trans hpiece
      have hdefault := hone.mpr hpieces
      rw [readAlternatives, List.isEmpty_nil, readAlternative_default _ hfirst hdefault hbefore]
      exact ⟨fun h => ⟨hdefault, (Except.ok.inj h).symm⟩, fun h => congrArg Except.ok h.2.symm⟩
    · rw [hpieces] at hone
      refine ⟨fun h => ?_, fun h => ?_⟩
      · obtain ⟨alts, halts, -⟩ := ok_of_map h
        exact absurd halts (readAlternatives_misplaced _ hfirst _ hparts alts)
      · exact absurd (List.cons_eq_cons.mp (Option.some.inj (hone.mp h.1))).2 hparts

end Assigned

end TypeBody

/-! ## Literals -/

namespace Literal

variable {t : String} {v : Value}

/-- A literal is not blank. -/
theorem trim_ne_of_read (h : read t = .ok v) : trim t ≠ "" := by
  intro hblank
  obtain ⟨before, behind, htext, hbefore, hbehind⟩ := exists_stripWhile isSpace t.toList
  have hnil : stripWhile isSpace t.toList = [] := by
    rw [trim] at hblank
    exact String.ofList_injective hblank
  rw [hnil, List.nil_append] at htext
  have hspace : skipSpace t.toList = [] := by
    rw [htext]
    exact List.dropWhile_eq_nil_iff.mpr (List.forall_mem_append.mpr ⟨hbefore, hbehind⟩)
  obtain ⟨_, hseq, -⟩ := ok_of_bind (ok_of_mapError h)
  obtain ⟨_, hfirst, -⟩ := ok_of_bind hseq
  cases hlength : t.toList.length with
  | zero =>
    rw [hlength] at hfirst
    cases hfirst
  | succ n =>
    rw [hlength, readValue, readForm, hspace] at hfirst
    cases hfirst

/-- **A literal may be a default**, if its strings in triple quotes end at their first marks. -/
theorem isDefault_of_read (h : read t = .ok v) (hmarks : marksHidden .outside t.toList = true) :
    IsDefault (trim t) := by
  have htight := tight_trim (trim_ne_of_read h)
  obtain ⟨before, behind, htext, hbefore, hbehind⟩ := exists_stripWhile isSpace t.toList
  have htrim : (trim t).toList = stripWhile isSpace t.toList := String.toList_ofList
  rw [← htrim] at htext
  have hscans := scans_of_read h hmarks
  rw [htext] at hscans
  -- The white space in front leaves the scanner outside, so it is outside in front of the rest.
  obtain ⟨first, hfirst, hrest⟩ := hscans.of_append
  have hspaces : Scans (fun _ => false) outside before outside :=
    scans_space (fun _ _ => rfl) hbefore 0
  obtain rfl := Option.some.inj (hspaces.run.symm.trans hfirst.run)
  obtain ⟨last, htext, hlast⟩ := hrest.of_append
  have hproper : outside.Proper := trivial
  obtain rfl := (hproper.run htext.run).eq_outside hbehind hlast.run
  exact
    { nonempty := trim_ne_of_read h
      trimmed := trim_of_tight htight
      balanced := beq_iff_eq.mpr htext.run
      noBar := htext.clear isSeparator_of_isBar none none }

end Literal

namespace TypeBody

/-- **A literal can be given as a default exactly if the scanner finds it balanced and no bar
outside.** It does unless a string in triple quotes holds its own mark. -/
theorem read_literal_default {t : String} {v : Value} (h : Literal.read t = .ok v) :
    (∀ body, read ("str = " ++ t) = .ok body ↔
        IsDefault (trim t) ∧ body = .alternatives [⟨"str", some (trim t)⟩]) ∧
      (Literal.marksHidden .outside t.toList = true → IsDefault (trim t)) ∧
        ((∀ mark, isQuote mark = true → ¬ [mark, mark, mark] <:+: t.toList) →
          IsDefault (trim t)) := by
  have hstr : IsAlternative "str" := ⟨⟨by decide, by decide, by decide, by decide⟩, by decide⟩
  have htext : "str = " = "str" ++ " = " := by decide
  have hsee : "str".toList.takeWhile (!isSpace ·) ≠ ['s', 'e', 'e'] := by decide
  refine ⟨fun body => ?_, Literal.isDefault_of_read h, fun hinfix => ?_⟩
  · rw [htext]
    exact read_assigned_iff hstr hsee (Literal.trim_ne_of_read h)
  · exact Literal.isDefault_of_read h (Literal.marksHidden_of_not_infix hinfix).1

/-- A pair on two lines: a string in two pieces, and bytes, with marks, bars and signs in them. -/
theorem read_literal_default_of_tuple :
    Literal.read " ('''a\\'|b''' \"=\",\n rb'(|')\n" =
        .ok (tuple [str "a'|b=", bytes [40, 124]]) ∧
      read ("str = " ++ " ('''a\\'|b''' \"=\",\n rb'(|')\n") =
        .ok (.alternatives [⟨"str", some "('''a\\'|b''' \"=\",\n rb'(|')"⟩]) := by
  have hfree : (tuple [str "a'|b=", bytes [40, 124]]).FloatFree := by
    refine everywhere_iff.mpr
      ⟨nofun, List.forall_mem_cons.mpr ⟨?_, List.forall_mem_singleton.mpr ?_⟩⟩
    · exact everywhere_of_leaf rfl nofun
    · exact everywhere_of_leaf rfl nofun
  have hread := Literal.read_eq_of_same (t := " ('''a\\'|b''' \"=\",\n rb'(|')\n") hfree
    (by decide +kernel)
  obtain ⟨hiff, hmarks, -⟩ := read_literal_default hread
  exact ⟨hread, (hiff _).mpr ⟨hmarks (by decide +kernel), by decide +kernel⟩⟩

/-- A mark within a string in triple quotes. -/
theorem triple_quotes_not_default :
    Literal.read "'''x'y'''" = .ok (.str "x'y") ∧
      read ("str = " ++ "'''x'y'''") = .error (.unbalanced "str = '''x'y'''") := by
  refine ⟨?_, ?_⟩
  · exact Literal.read_eq_of_same (everywhere_of_leaf rfl nofun) (by decide +kernel)
  · decide +kernel

end TypeBody

end DocTree
