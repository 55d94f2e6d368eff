import DocTree.Markup.TypeBody
import DocTree.Proofs.Literal.Inline
import DocTree.Proofs.Text.Margins

/-!
# Reading back type bodies

Alternatives between bars, with a default behind the last one, are read as they were written.

* `IsDefault`, `IsAlternative`: the texts that may be a default or an alternative, of which
  `TypeItem` are those that stand on a line;
* `Alternative.ofTexts`, `TypeBody.write`: the alternatives and the body that is written for them;
* `splitTop_write`, `readAlternatives_pieces`: cutting the body, and reading the pieces;
* `readAlternative_assigned`: what stands behind the sign of an alternative is its default;
* **`TypeBody.read_write`**, **`TypeBody.read_alternatives`**.
-/

namespace DocTree

open Text Literal ScanState

/-- A character that begins no piece of a type body. -/
def isBar (c : Char) : Bool := c == '|'

/-- A text that may be a default: there is no white space around it, its quotes and brackets are
balanced, and no bar stands outside them. -/
structure IsDefault (s : String) : Prop where
  nonempty : s ≠ ""
  trimmed : trim s = s
  balanced : balanced s.toList = true
  noBar : Clear (fun _ c _ => isBar c) outside none s.toList none

/-- A text that may be an alternative: no assignment stands outside its quotes and brackets
either. -/
structure IsAlternative (s : String) : Prop extends IsDefault s where
  noAssignment : Clear isAssignment outside none s.toList none

namespace IsDefault

variable {s : String}

theorem tight (h : IsDefault s) : Tight isSpace s.toList := by
  have htight := tight_trim (s := s) (by rw [h.trimmed]; exact h.nonempty)
  rwa [h.trimmed] at htight

theorem run (h : IsDefault s) : ScanState.run outside s.toList = some outside :=
  beq_iff_eq.mp h.balanced

theorem scans (h : IsDefault s) : Scans isBar outside s.toList outside :=
  scans_of_clear h.run h.noBar

theorem isEmpty (h : IsDefault s) : s.isEmpty = false := by
  simpa using h.nonempty

end IsDefault

/-- A text that may be an alternative or a default on a line. -/
structure TypeItem (s : String) : Prop where
  inline : Inline s.toList
  tight : Tight isSpace s.toList

theorem isSeparator_of_isAssignment (before : Option Char) (c : Char) (after : Option Char)
    (h : isAssignment before c after = true) : isSeparator c = true := by
  rw [eq_of_isAssignment h]
  rfl

theorem isSeparator_of_isBar (_ : Option Char) (c : Char) (_ : Option Char) (h : isBar c = true) :
    isSeparator c = true := by
  rw [isSeparator, Bool.or_eq_true]
  exact .inl h

theorem TypeItem.isAlternative {text : String} (h : TypeItem text) : IsAlternative text where
  nonempty := by simpa using h.tight.ne_nil
  trimmed := trim_of_tight h.tight
  balanced := beq_iff_eq.mpr (h.inline.scans 0).run
  noBar := (h.inline.scans 0).clear isSeparator_of_isBar none none
  noAssignment := (h.inline.scans 0).clear isSeparator_of_isAssignment none none

/-- A default on a line. -/
theorem TypeItem.isDefault {value : Option String} (h : ∀ text ∈ value, TypeItem text) :
    ∀ text ∈ value, IsDefault text := fun text ht => (h text ht).isAlternative.toIsDefault

/-- The alternatives of the given types, of which there is at least one; the last one has the
default. -/
def Alternative.ofTexts (value : Option String) : String → List String → List Alternative
  | first, [] => [⟨first, value⟩]
  | first, second :: texts => ⟨first, none⟩ :: ofTexts value second texts

namespace Alternative

variable (value : Option String)

theorem types_ofTexts (first : String) (texts : List String) :
    (ofTexts value first texts).map type = first :: texts := by
  induction texts generalizing first with
  | nil => rfl
  | cons second texts ih => exact congrArg (first :: ·) (ih second)

/-- Only the last alternative may have a default. -/
theorem defaults_ofTexts (first : String) (texts : List String) :
    (ofTexts value first texts).map default = List.replicate texts.length none ++ [value] := by
  induction texts generalizing first with
  | nil => rfl
  | cons second texts ih => exact congrArg (none :: ·) (ih second)

theorem default_ofTexts (first : String) (texts : List String) :
    (TypeBody.alternatives (ofTexts value first texts)).default? = value := by
  induction texts generalizing first with
  | nil => rfl
  | cons second texts ih =>
    refine Eq.trans ?_ (ih second)
    rw [ofTexts, TypeBody.default?, TypeBody.default?, List.getLast?_cons]
    cases texts <;> rfl

end Alternative

namespace TypeBody

variable {value : Option String}

/-- What stands behind the last alternative. -/
def behind (value : Option String) : List Char :=
  match value with
  | none => []
  | some text => ' ' :: '=' :: ' ' :: text.toList

/-- The body that is written for alternatives. -/
def write (first : String) (texts : List String) (value : Option String) : String :=
  " | ".intercalate (first :: texts) ++ .ofList (behind value)

/-- The pieces of the body between its bars, the first of them behind `lead`. -/
def pieces (value : Option String) (lead : List Char) : String → List String → List (List Char)
  | first, [] => [lead ++ (first.toList ++ behind value)]
  | first, second :: texts =>
    (lead ++ (first.toList ++ [' '])) :: pieces value [' '] second texts

theorem toList_write (first : String) (texts : List String) (value : Option String) :
    (write first texts value).toList = ['|'].intercalate (pieces value [] first texts) := by
  suffices h : ∀ lead : List Char, ['|'].intercalate (pieces value lead first texts) =
      lead ++ ([' ', '|', ' '].intercalate ((first :: texts).map String.toList) ++
        behind value) by
    have hbehind : (String.ofList (behind value)).toList = behind value := String.toList_ofList
    rw [h, write, String.toList_append, String.toList_intercalate, hbehind]
    rfl
  induction texts generalizing first with
  | nil => simp [pieces]
  | cons second texts ih =>
    intro lead
    obtain ⟨piece, more, hpieces⟩ : ∃ piece more, pieces value [' '] second texts = piece :: more :=
      by cases texts <;> exact ⟨_, _, rfl⟩
    have hrest := ih second [' ']
    rw [hpieces] at hrest
    change _ = lead ++
      ([' ', '|', ' '].intercalate (first.toList :: second.toList :: texts.map String.toList) ++
        behind value)
    rw [pieces, hpieces, List.intercalate_cons_cons, hrest, List.intercalate_cons_cons]
    simp

/-! ## Cutting -/

theorem scans_behind (h : ∀ text ∈ value, IsDefault text) :
    Scans isBar outside (behind value) outside := by
  cases value with
  | none => exact .nil _
  | some text =>
    have hsigns : Scans isBar outside [' ', '=', ' '] outside :=
      scans_of_forall (by decide) (by decide)
    exact hsigns.append (h text rfl).scans

theorem scans_pieces {lead : List Char} (hlead : Scans isBar outside lead outside) {first : String}
    {texts : List String} (hitems : ∀ text ∈ first :: texts, IsAlternative text)
    (hvalue : ∀ text ∈ value, IsDefault text) :
    ∀ piece ∈ pieces value lead first texts, Scans isBar outside piece outside := by
  have hspace : Scans isBar outside [' '] outside := scans_one (fun _ => rfl) rfl
  induction texts generalizing first lead with
  | nil =>
    have hfirst := (hitems first List.mem_cons_self).scans
    exact List.forall_mem_singleton.mpr (hlead.append (hfirst.append (scans_behind hvalue)))
  | cons second texts ih =>
    obtain ⟨hfirst, hrest⟩ := List.forall_mem_cons.mp hitems
    refine List.forall_mem_cons.mpr ⟨?_, ?_⟩
    · exact hlead.append (hfirst.scans.append hspace)
    · exact ih hspace hrest

theorem splitTop_write {first : String} {texts : List String}
    (hitems : ∀ text ∈ first :: texts, IsAlternative text)
    (hvalue : ∀ text ∈ value, IsDefault text) :
    splitTop '|' (write first texts value).toList = some (pieces value [] first texts) := by
  have hscans := scans_pieces (.nil _) hitems hvalue
  rw [toList_write]
  cases texts <;> exact splitTop_pieces rfl rfl hscans

/-! ## Reading the pieces -/

/-- White space in front of a piece. -/
def IsLead (lead : List Char) : Prop := lead = [] ∨ lead = [' ']

section Lead

variable {lead behind : List Char}

theorem IsLead.forall_mem (h : IsLead lead) : ∀ c ∈ lead, c = ' ' := by
  rcases h with rfl | rfl
  · exact fun _ h => nomatch h
  · exact List.forall_mem_singleton.mpr rfl

theorem IsLead.scans (h : IsLead lead) : Scans isSeparator outside lead outside := by
  have hspace : ∀ c ∈ lead, isSeparator c = false ∧ step outside c = some outside := by
    intro c hc
    rw [h.forall_mem c hc]
    exact ⟨rfl, rfl⟩
  exact scans_of_forall (fun c hc => (hspace c hc).1) fun c hc => (hspace c hc).2

theorem IsLead.clear (h : IsLead lead) (before after : Option Char) :
    Clear isAssignment outside before lead after :=
  h.scans.clear isSeparator_of_isAssignment before after

theorem trim_padded {text : String} (h : IsDefault text) (hlead : IsLead lead)
    (hbehind : IsLead behind) : trim (.ofList (lead ++ (text.toList ++ behind))) = text := by
  have hspace : ∀ cs : List Char, IsLead cs → ∀ c ∈ cs, isSpace c = true := by
    intro cs hcs c hc
    rw [hcs.forall_mem c hc]
    rfl
  rw [trim, String.toList_ofList, h.tight.strip (hspace _ hlead) (hspace _ hbehind),
    String.ofList_toList]

theorem run_padded {text : String} (h : IsDefault text) (hlead : IsLead lead)
    (hbehind : IsLead behind) : run outside (lead ++ (text.toList ++ behind)) = some outside :=
  (hlead.scans.mono (q := fun _ => false) fun _ _ => rfl).append
    ((h.scans.mono fun _ _ => rfl).append (hbehind.scans.mono fun _ _ => rfl)) |>.run

/-- Between spaces an alternative has no assignment. -/
theorem clear_padded {text : String} (h : IsAlternative text) (hlead : IsLead lead)
    (hbehind : IsLead behind) {after : Option Char}
    (hafter : ∀ c ∈ behind.head?.or after, c = ' ') :
    Clear isAssignment outside none (lead ++ (text.toList ++ behind)) after := by
  have hbefore : ∀ c ∈ lead.getLast?.or none, c = ' ' := by
    rw [Option.or_none]
    exact fun c hc => hlead.forall_mem c (List.mem_of_getLast? hc)
  have htext := h.noAssignment.spaced hbefore hafter
  exact (hlead.clear _ _).append hlead.scans.run (htext.append h.run (hbehind.clear _ _))

theorem readAlternative_plain (body : String) (isLast : Bool) {text : String}
    (h : IsAlternative text) (hlead : IsLead lead) (hbehind : IsLead behind) :
    readAlternative body isLast (lead ++ (text.toList ++ behind)) = .ok ⟨text, none⟩ := by
  have hafter : ∀ c ∈ behind.head?.or none, c = ' ' := by
    rw [Option.or_none]
    exact fun c hc => hbehind.forall_mem c (List.mem_of_head? hc)
  have hcut := cutAssignment_none (run_padded h.toIsDefault hlead hbehind)
    (clear_padded h hlead hbehind hafter)
  rw [readAlternative, hcut]
  dsimp only
  rw [Option.elim_none, trim_padded h.toIsDefault hlead hbehind, h.isEmpty]
  rfl

/-- **What stands behind the sign of an alternative is its default**, if it is balanced. -/
theorem readAlternative_assigned (body : String) (isLast : Bool) {first : String}
    (hfirst : IsAlternative first) (hlead : IsLead lead) (value : List Char) :
    readAlternative body isLast (lead ++ (first.toList ++ ' ' :: '=' :: ' ' :: value)) =
      if balanced value then
        if isLast then
          if (trim (.ofList value)).isEmpty then .error (.emptyDefault body)
          else .ok ⟨first, some (trim (.ofList value))⟩
        else .error (.misplacedDefault body)
      else .error (.unbalanced body) := by
  have htext : lead ++ (first.toList ++ ' ' :: '=' :: ' ' :: value) =
      (lead ++ (first.toList ++ [' '])) ++ '=' :: ' ' :: value := by simp
  have hlast : (lead ++ (first.toList ++ [' '])).getLast? = some ' ' := by
    rw [← List.append_assoc, List.getLast?_concat]
  have hcut := cutAssignment_append (' ' :: value) (run_padded hfirst.toIsDefault hlead (.inr rfl))
    (clear_padded hfirst hlead (.inr rfl) (by simp)) (by rw [hlast]; rfl)
  have hbalanced : balanced (' ' :: value) = balanced value := rfl
  have hvalue : trim (.ofList (' ' :: value)) = trim (.ofList value) := by
    rw [trim, trim, String.toList_ofList, String.toList_ofList, stripWhile,
      List.dropWhile_cons_of_pos rfl, stripWhile]
  rw [htext, readAlternative, hcut, hbalanced]
  cases balanced value with
  | false => rfl
  | true =>
    rw [if_pos rfl, if_pos rfl]
    dsimp only
    rw [Option.elim_some, Option.map_some, trim_padded hfirst.toIsDefault hlead (.inr rfl),
      hfirst.isEmpty, hvalue, Option.any_some]
    generalize trim (.ofList value) = default
    cases isLast with
    | false => rfl
    | true => rfl

end Lead

/-- **The pieces between the bars are the alternatives.** -/
theorem readAlternatives_pieces (body : String) {lead : List Char} (hlead : IsLead lead)
    {first : String} {texts : List String} (hitems : ∀ text ∈ first :: texts, IsAlternative text)
    (hvalue : ∀ text ∈ value, IsDefault text) :
    readAlternatives body (pieces value lead first texts) =
      .ok (Alternative.ofTexts value first texts) := by
  induction texts generalizing first lead with
  | nil =>
    have hfirst := hitems first List.mem_cons_self
    have hread : readAlternative body true (lead ++ (first.toList ++ behind value)) =
        .ok ⟨first, value⟩ := by
      cases value with
      | none => exact readAlternative_plain body true hfirst hlead (.inl rfl)
      | some text =>
        have htext := hvalue text rfl
        rw [behind, readAlternative_assigned body true hfirst hlead, String.ofList_toList,
          htext.balanced, htext.trimmed, htext.isEmpty]
        rfl
    rw [pieces, readAlternatives, List.isEmpty_nil, hread]
    rfl
  | cons second texts ih =>
    obtain ⟨hfirst, hrest⟩ := List.forall_mem_cons.mp hitems
    rw [pieces, readAlternatives, readAlternative_plain body _ hfirst hlead (.inr rfl),
      ih (.inr rfl) hrest]
    rfl

/-! ## The whole body -/

/-- The characters of a body, behind those of its first alternative. -/
theorem toList_write_cons (first second : String) (texts : List String) (value : Option String) :
    (write first (second :: texts) value).toList =
      first.toList ++ ([' ', '|', ' '] ++ (write second texts value).toList) := by
  have hbehind : (String.ofList (behind value)).toList = behind value := String.toList_ofList
  simp only [write, String.toList_append, String.toList_intercalate, hbehind, List.map_cons]
  rw [List.intercalate_cons_cons]
  simp only [List.append_assoc]
  rfl

theorem toList_write_nil (first : String) (value : Option String) :
    (write first [] value).toList = first.toList ++ behind value := by
  have hbehind : (String.ofList (behind value)).toList = behind value := String.toList_ofList
  rw [write, String.toList_append, hbehind, String.toList_intercalate]
  exact congrArg (· ++ behind value) List.intercalate_singleton

theorem tight_write {first : String} {texts : List String}
    (hitems : ∀ text ∈ first :: texts, IsAlternative text)
    (hvalue : ∀ text ∈ value, IsDefault text) :
    Tight isSpace (write first texts value).toList := by
  induction texts generalizing first with
  | nil =>
    have hfirst := (hitems first List.mem_cons_self).tight
    rw [toList_write_nil]
    cases value with
    | none => rwa [behind, List.append_nil]
    | some text => exact hfirst.append [' ', '=', ' '] (hvalue text rfl).tight
  | cons second texts ih =>
    obtain ⟨hfirst, hrest⟩ := List.forall_mem_cons.mp hitems
    rw [toList_write_cons]
    exact hfirst.tight.append _ (ih hrest)

theorem noBreak_write {first : String} {texts : List String}
    (hitems : ∀ text ∈ first :: texts, TypeItem text) (hvalue : ∀ text ∈ value, TypeItem text) :
    ∀ c ∈ (write first texts value).toList, c ≠ '\t' ∧ c ≠ '\n' := by
  induction texts generalizing first with
  | nil =>
    have hbehind : ∀ c ∈ behind value, c ≠ '\t' ∧ c ≠ '\n' := by
      cases value with
      | none => exact fun _ h => nomatch h
      | some text =>
        have hsigns : ∀ c ∈ [' ', '=', ' '], c ≠ '\t' ∧ c ≠ '\n' := by decide
        exact List.forall_mem_append.mpr ⟨hsigns, (hvalue text rfl).inline.noBreak⟩
    rw [toList_write_nil]
    exact List.forall_mem_append.mpr ⟨(hitems first List.mem_cons_self).inline.noBreak, hbehind⟩
  | cons second texts ih =>
    obtain ⟨hfirst, hrest⟩ := List.forall_mem_cons.mp hitems
    have hsigns : ∀ c ∈ [' ', '|', ' '], c ≠ '\t' ∧ c ≠ '\n' := by decide
    rw [toList_write_cons]
    exact List.forall_mem_append.mpr
      ⟨hfirst.inline.noBreak, List.forall_mem_append.mpr ⟨hsigns, ih hrest⟩⟩

theorem plainLine_write {first : String} {texts : List String}
    (hitems : ∀ text ∈ first :: texts, TypeItem text) (hvalue : ∀ text ∈ value, TypeItem text) :
    PlainLine (write first texts value) where
  tight := tight_write (fun text ht => (hitems text ht).isAlternative) (TypeItem.isDefault hvalue)
  noTab h := (noBreak_write hitems hvalue _ h).1 rfl
  noNewline h := (noBreak_write hitems hvalue _ h).2 rfl

/-- A space ends the first word. -/
theorem takeWhile_append_space (cs tail : List Char) :
    (cs ++ ' ' :: tail).takeWhile (!isSpace ·) = cs.takeWhile (!isSpace ·) := by
  rw [List.takeWhile_append]
  split
  · next hlength =>
    have hall := (List.takeWhile_prefix _).eq_of_length hlength
    rw [List.takeWhile_cons_of_neg (by decide), List.append_nil, hall]
  · rfl

/-- The first word of a body is the one of its first alternative. -/
theorem takeWhile_write (first : String) (texts : List String) (value : Option String) :
    (write first texts value).toList.takeWhile (!isSpace ·) =
      first.toList.takeWhile (!isSpace ·) := by
  cases texts with
  | nil =>
    rw [toList_write_nil]
    cases value with
    | none => rw [behind, List.append_nil]
    | some text => exact takeWhile_append_space _ _
  | cons second texts =>
    rw [toList_write_cons]
    exact takeWhile_append_space _ _

/-- A text that does not look like a link is cut at its bars. -/
theorem read_of_not_see {text : String} (htight : Tight isSpace (trim text).toList)
    (hsee : (trim text).toList.takeWhile (!isSpace ·) ≠ ['s', 'e', 'e']) :
    read text = match splitTop '|' (trim text).toList with
      | none => .error (.unbalanced (trim text))
      | some parts => (readAlternatives (trim text) parts).map .alternatives := by
  have hwords : ∀ target, words (trim text) ≠ "see" :: target := by
    intro target htarget
    obtain ⟨rest, hrest⟩ := words_eq_cons htight
    rw [htarget] at hrest
    refine hsee ?_
    rw [← String.toList_ofList (l := (trim text).toList.takeWhile _),
      ← (List.cons_eq_cons.mp hrest).1]
    rfl
  rw [read]
  split
  · next h => exact absurd h (hwords [])
  · next h => exact absurd h (hwords _)
  · rfl

/-- **A type body is read as it was written**, unless it looks like a link. -/
theorem read_write {first : String} {texts : List String}
    (hitems : ∀ text ∈ first :: texts, IsAlternative text) (hvalue : ∀ text ∈ value, IsDefault text)
    (hsee : first.toList.takeWhile (!isSpace ·) ≠ ['s', 'e', 'e']) :
    read (write first texts value) =
      .ok (.alternatives (Alternative.ofTexts value first texts)) := by
  have htight := tight_write hitems hvalue
  have htrim := trim_of_tight htight
  rw [read_of_not_see (by rwa [htrim]) (by rwa [htrim, takeWhile_write]), htrim,
    splitTop_write hitems hvalue]
  dsimp only
  rw [readAlternatives_pieces _ (.inl rfl) hitems hvalue]
  rfl

/-- **Reading a type body undoes writing it.** The types are the texts between the bars, in their
order, and the text behind the last sign is the default of the last one. -/
theorem read_alternatives {first : String} {texts : List String}
    (hitems : ∀ text ∈ first :: texts, IsAlternative text) (hvalue : ∀ text ∈ value, IsDefault text)
    (hsee : (words first).head? ≠ some "see") :
    ∃ alts, read (write first texts value) = .ok (.alternatives alts) ∧
      alts.map Alternative.type = first :: texts ∧
      alts.map Alternative.default = List.replicate texts.length none ++ [value] := by
  have hfirst : first.toList.takeWhile (!isSpace ·) ≠ ['s', 'e', 'e'] := by
    intro hword
    obtain ⟨rest, hrest⟩ := words_eq_cons (hitems first List.mem_cons_self).tight
    rw [hrest, hword] at hsee
    exact hsee rfl
  exact ⟨_, read_write hitems hvalue hfirst, Alternative.types_ofTexts _ _ _,
    Alternative.defaults_ofTexts _ _ _⟩

/-- A comparison at the end of an alternative, a bar in quotes, an assignment in brackets, and a
default with a sign of its own. -/
theorem read_alternatives_of_comparisons :
    (∀ text ∈ ["x >=", "'a|\\'b'", "d == (e = [1, 2])"], IsAlternative text) ∧
      IsDefault "'=' if y = 1 else ()" ∧
        ∃ alts, read "x >= | 'a|\\'b' | d == (e = [1, 2]) = '=' if y = 1 else ()" =
            .ok (.alternatives alts) ∧
          alts.map Alternative.type = ["x >=", "'a|\\'b'", "d == (e = [1, 2])"] ∧
          alts.map Alternative.default = [none, none, some "'=' if y = 1 else ()"] := by
  have hitems : ∀ text ∈ ["x >=", "'a|\\'b'", "d == (e = [1, 2])"], IsAlternative text := by
    simp only [List.forall_mem_cons]
    exact ⟨⟨⟨by decide, by decide, by decide, by decide⟩, by decide⟩,
      ⟨⟨by decide, by decide, by decide, by decide⟩, by decide⟩,
      ⟨⟨by decide, by decide, by decide, by decide⟩, by decide⟩, List.forall_mem_nil _⟩
  have hvalue : IsDefault "'=' if y = 1 else ()" :=
    ⟨by decide, by decide, by decide, by decide⟩
  have hdefault : ∀ text ∈ some "'=' if y = 1 else ()", IsDefault text := by
    rintro _ ⟨⟩
    exact hvalue
  have hwrite : write "x >=" ["'a|\\'b'", "d == (e = [1, 2])"] (some "'=' if y = 1 else ()") =
      "x >= | 'a|\\'b' | d == (e = [1, 2]) = '=' if y = 1 else ()" := by decide
  have hread := read_alternatives hitems hdefault (by decide)
  rw [hwrite] at hread
  exact ⟨hitems, hvalue, hread⟩

/-! ## Any body -/

theorem readAlternatives_ne_nil {body : String} {parts : List (List Char)}
    {alts : List Alternative} (hparts : parts ≠ []) (h : readAlternatives body parts = .ok alts) :
    alts ≠ [] := by
  cases parts with
  | nil => exact absurd rfl hparts
  | cons part parts =>
    rw [readAlternatives] at h
    cases hfirst : readAlternative body parts.isEmpty part with
    | error e =>
      rw [hfirst] at h
      cases h
    | ok alt =>
      cases hrest : readAlternatives body parts with
      | error e =>
        rw [hfirst, hrest] at h
        cases h
      | ok alts' =>
        rw [hfirst, hrest] at h
        cases h
        exact List.cons_ne_nil _ _

/-- A body that is no link has an alternative. -/
theorem alternatives_ne_nil {text : String} {alts : List Alternative}
    (h : read text = .ok (.alternatives alts)) : alts ≠ [] := by
  rw [read] at h
  split at h
  · cases h
  · cases h
  · split at h
    · cases h
    · next parts hparts =>
      cases halts : readAlternatives (trim text) parts with
      | error e =>
        rw [halts] at h
        cases h
      | ok alts' =>
        rw [halts] at h
        obtain rfl := TypeBody.alternatives.inj (Except.ok.inj h)
        exact readAlternatives_ne_nil (splitTopFrom_ne_nil hparts) halts

end TypeBody

end DocTree
