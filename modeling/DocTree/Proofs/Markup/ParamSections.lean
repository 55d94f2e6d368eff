import DocTree.Identifier
import DocTree.Proofs.Markup.ParamLines
import DocTree.Proofs.Text.Scans

/-!
# Parameter sections

Parameters written as a section of either prose dialect, and the fields that they are read as.

* `ParamText`: a parameter with its name, its type and the lines of its description;
* `ParamText.numpyHead_entry`, `ParamText.googleHead_entry`: each dialect reads its head back;
* **`paramSections_read`**: both sections are read as the same fields;
* **`googleHead_read_iff`**: in the indented dialect the description is scanned together with the
  type. It is read back exactly if its own quotes and brackets are balanced.
-/

namespace DocTree

open Text ScanState

/-! ## ASCII names -/

section AsciiName

variable {c : Char} {name : List Char}

theorem chars_of_isAsciiName (h : isAsciiName name = true) :
    name ≠ [] ∧ ∀ c ∈ name, c.isAlphanum = true ∨ c = '_' := by
  cases name with
  | nil => cases h
  | cons c cs =>
    simp only [isAsciiName, Bool.and_eq_true, Bool.or_eq_true, beq_iff_eq, List.all_eq_true] at h
    refine ⟨List.cons_ne_nil _ _, List.forall_mem_cons.mpr ⟨?_, h.2⟩⟩
    exact h.1.imp_left fun halpha => by simp [Char.isAlphanum, halpha]

theorem toNat_of_nameChar (h : c.isAlphanum = true ∨ c = '_') :
    (48 ≤ c.toNat ∧ c.toNat ≤ 57) ∨ (65 ≤ c.toNat ∧ c.toNat ≤ 90) ∨ c.toNat = 95 ∨
      (97 ≤ c.toNat ∧ c.toNat ≤ 122) := by
  rcases h with h | rfl
  · rw [Char.isAlphanum, Bool.or_eq_true] at h
    rcases h with halpha | hdigit
    · have hletter := letter_range halpha
      omega
    · have hrange : 48 ≤ c.toNat ∧ c.toNat ≤ 57 := by
        simpa [Char.isDigit, UInt32.le_iff_toNat_le] using hdigit
      omega
  · decide

theorem not_isSpace_of_nameChar (h : c.isAlphanum = true ∨ c = '_') : isSpace c = false := by
  have hcode := toNat_of_nameChar h
  rw [Bool.eq_false_iff]
  intro hspace
  simp [isSpace] at hspace
  omega

theorem ne_of_nameChar (h : c.isAlphanum = true ∨ c = '_') :
    c ∉ [':', '\n', '*', '\'', '"', '(', '[', '{', ')', ']', '}', '-', '=', '~', '^', '+', '#'] := by
  intro hmem
  have hother : ([':', '\n', '*', '\'', '"', '(', '[', '{', ')', ']', '}', '-', '=', '~', '^', '+',
      '#'].all fun c => !(c.isAlphanum || c == '_')) = true := rfl
  have hc := List.all_eq_true.mp hother c hmem
  rcases h with h | rfl
  · rw [h] at hc
    cases hc
  · cases hc

/-- The scanner passes over a name. -/
theorem step_of_nameChar (h : c.isAlphanum = true ∨ c = '_') : step outside c = some outside := by
  have hne := ne_of_nameChar h
  simp only [List.mem_cons, List.not_mem_nil, or_false, not_or] at hne
  obtain ⟨-, -, -, h1, h2, h3, h4, h5, h6, h7, h8, -⟩ := hne
  simp [step, outside, isQuote, isOpening, isClosing, h1, h2, h3, h4, h5, h6, h7, h8]

variable (hname : isAsciiName name = true)

include hname

theorem tight_of_isAsciiName : Tight isSpace name :=
  tight_of_forall (chars_of_isAsciiName hname).1 fun c hc =>
    not_isSpace_of_nameChar ((chars_of_isAsciiName hname).2 c hc)

theorem not_mem_of_isAsciiName : ':' ∉ name ∧ '\n' ∉ name ∧ '*' ∉ name := by
  have hne := fun c hc => ne_of_nameChar ((chars_of_isAsciiName hname).2 c hc)
  refine ⟨fun h => ?_, fun h => ?_, fun h => ?_⟩ <;> exact absurd (hne _ h) (by decide)

theorem scans_of_isAsciiName : Scans (· == ':') outside name outside := by
  refine scans_of_forall (fun c hc => ?_) fun c hc =>
    step_of_nameChar ((chars_of_isAsciiName hname).2 c hc)
  have hne : c ≠ ':' := fun heq => (not_mem_of_isAsciiName hname).1 (heq ▸ hc)
  simpa using hne

omit hname

end AsciiName

/-! ## Heads -/

/-- A parameter as it is written down in a section of a prose dialect. -/
structure ParamText where
  name : String
  type : String
  /-- The first line of the description. -/
  first : String
  /-- The other lines of the description. -/
  later : List String

namespace ParamText

variable {p : ParamText}

/-- The head in the underlined dialect. -/
def numpyHead (p : ParamText) : String := p.name ++ " : " ++ p.type

/-- The head in the indented dialect, where the description begins behind it. -/
def googleHead (p : ParamText) : String := p.name ++ " (" ++ p.type ++ "): " ++ p.first

/-- The name is an ASCII identifier; type and description are on a line each, without white space
around them; and the quotes and brackets of the type are balanced. -/
structure IsPlain (p : ParamText) : Prop where
  name : isAsciiName p.name.toList = true
  type : Tight isSpace p.type.toList
  oneLineType : '\n' ∉ p.type.toList
  balancedType : balanced p.type.toList = true
  first : Tight isSpace p.first.toList
  oneLineFirst : '\n' ∉ p.first.toList

theorem balanced_space_cons (cs : List Char) : balanced (' ' :: cs) = balanced cs := by
  have hspace : Scans (· == ':') outside [' '] outside := scans_one (fun _ => rfl) rfl
  exact hspace.balancedFrom_append cs

/-- The scanner passes over a name with its type in brackets. -/
theorem IsPlain.scans (hp : p.IsPlain) :
    Scans (· == ':') outside (p.name.toList ++ ([' ', '('] ++ (p.type.toList ++ [')']))) outside := by
  have hrun : ScanState.run outside p.type.toList = some outside := by
    simpa [balanced, balancedFrom] using hp.balancedType
  have hopen : Scans (· == ':') outside [' ', '('] (deeper outside) :=
    .cons (fun _ => rfl) rfl (scans_one (fun _ => rfl) rfl)
  have hclose : Scans (· == ':') (deeper outside) [')'] outside := scans_one (fun _ => rfl) rfl
  exact (scans_of_isAsciiName hp.name).append (hopen.append ((run_deeper hrun).append hclose))

theorem toList_numpyHead (p : ParamText) :
    p.numpyHead.toList = (p.name.toList ++ [' ']) ++ ':' :: ' ' :: p.type.toList := by
  simp [numpyHead]

theorem toList_googleHead (p : ParamText) :
    p.googleHead.toList =
      (p.name.toList ++ ([' ', '('] ++ (p.type.toList ++ [')']))) ++
        ':' :: ' ' :: p.first.toList := by
  simp [googleHead]

/-- The first colon that may end the name is the right one, in both heads. -/
theorem IsPlain.cutColon_numpyHead (hp : p.IsPlain) :
    cutColon p.numpyHead.toList = some (p.name.toList ++ [' '], ' ' :: p.type.toList) := by
  have hspace : Scans (· == ':') outside [' '] outside := scans_one (fun _ => rfl) rfl
  rw [toList_numpyHead, cutColon_append rfl ((scans_of_isAsciiName hp.name).append hspace) rfl,
    balanced_space_cons, hp.balancedType, if_pos rfl]

theorem IsPlain.cutColon_googleHead (hp : p.IsPlain) :
    cutColon p.googleHead.toList =
      if balanced p.first.toList then
        some (p.name.toList ++ ([' ', '('] ++ (p.type.toList ++ [')'])), ' ' :: p.first.toList)
      else none := by
  rw [toList_googleHead, cutColon_append rfl hp.scans rfl, balanced_space_cons]

theorem IsPlain.balanced_googleHead (hp : p.IsPlain) :
    balanced p.googleHead.toList = balanced p.first.toList := by
  have hcolon : Scans (fun _ => false) outside [':', ' '] outside :=
    scans_of_forall (fun _ _ => rfl)
      (List.forall_mem_cons.mpr ⟨rfl, List.forall_mem_singleton.mpr rfl⟩)
  rw [toList_googleHead, balanced, hp.scans.balancedFrom_append]
  exact hcolon.balancedFrom_append _

theorem trim_space {text : List Char} (h : Tight isSpace text) :
    trim (.ofList (text ++ [' '])) = .ofList text ∧ trim (.ofList (' ' :: text)) = .ofList text := by
  have hspace : ∀ c ∈ [' '], isSpace c = true := List.forall_mem_singleton.mpr rfl
  have hbehind : stripWhile isSpace ([] ++ (text ++ [' '])) = text :=
    h.strip (fun _ hc => nomatch hc) hspace
  have hbefore : stripWhile isSpace ([' '] ++ (text ++ [])) = text :=
    h.strip hspace fun _ hc => nomatch hc
  rw [List.append_nil] at hbefore
  constructor
  · rw [trim, String.toList_ofList]
    exact congrArg String.ofList hbehind
  · rw [trim, String.toList_ofList]
    exact congrArg String.ofList hbefore

/-- **The underlined dialect reads its head back.** -/
theorem IsPlain.numpy_entry (hp : p.IsPlain) (below : List String) :
    Numpy.entry .params p.numpyHead below = ⟨p.name, p.type, below⟩ := by
  have hname := (trim_space (tight_of_isAsciiName hp.name)).1
  have htype := (trim_space hp.type).2
  simp only [Numpy.entry, hp.cutColon_numpyHead, hname, htype, String.ofList_toList]

/-- A name and a bracket behind it. -/
theorem nameAndType?_append {name : List Char} (hname : isAsciiName name = true)
    (rest : List Char) :
    Google.nameAndType? (name ++ ' ' :: '(' :: rest) =
      if rest.getLast? = some ')' ∧ ¬ rest.contains '\n' then
        some (.ofList name, trim (.ofList rest.dropLast))
      else none := by
  obtain ⟨hne, hchars⟩ := chars_of_isAsciiName hname
  have hnameChar : ∀ c ∈ name, (c.isAlphanum || c == '_') = true := by simpa using hchars
  have htake : (name ++ ' ' :: '(' :: rest).takeWhile (fun c => c.isAlphanum || c == '_') = name := by
    rw [List.takeWhile_append_of_pos hnameChar, List.takeWhile_cons_of_neg (by decide),
      List.append_nil]
  have hdrop : (name ++ ' ' :: '(' :: rest).dropWhile (fun c => c.isAlphanum || c == '_') =
      ' ' :: '(' :: rest := by
    rw [List.dropWhile_append_of_pos hnameChar, List.dropWhile_cons_of_neg (by decide)]
  have hname? : Google.name? (name ++ ' ' :: '(' :: rest) = some (name, ' ' :: '(' :: rest) := by
    cases name with
    | nil => exact absurd rfl hne
    | cons c cs =>
      have hstar : ¬ (c == '*') = true := by
        intro heq
        exact (not_mem_of_isAsciiName hname).2.2 (by simp [beq_iff_eq.mp heq])
      have hfirst : (c.isAlpha || c == '_') = true := by
        simp only [isAsciiName, Bool.and_eq_true] at hname
        exact hname.1
      rw [List.cons_append] at htake hdrop ⊢
      simp [Google.name?, hstar, hfirst, htake, hdrop]
  have hspace : (' ' :: '(' :: rest).dropWhile isSpace = '(' :: rest := by
    rw [List.dropWhile_cons_of_pos rfl, List.dropWhile_cons_of_neg (by decide)]
  rw [Google.nameAndType?, hname?]
  simp only [hspace]

/-- **The indented dialect reads its head back**, if the description is balanced as well. -/
theorem IsPlain.google_entry (hp : p.IsPlain) (hfirst : balanced p.first.toList = true)
    (below : List String) :
    Google.entry .params p.googleHead below = ⟨p.name, p.type, p.first :: below⟩ := by
  have hlead : trim (.ofList (p.name.toList ++ ([' ', '('] ++ (p.type.toList ++ [')'])))) =
      .ofList (p.name.toList ++ ' ' :: '(' :: (p.type.toList ++ [')'])) := by
    have htight : Tight isSpace (p.name.toList ++ ([' ', '('] ++ (p.type.toList ++ [')']))) := by
      have hbracket : Tight isSpace [')'] := by decide
      simpa using (tight_of_isAsciiName hp.name).append ([' ', '('] ++ p.type.toList) hbracket
    rw [trim, String.toList_ofList, htight.stripWhile]
    rfl
  have htext : trim (.ofList (' ' :: p.first.toList)) = p.first := by
    rw [(trim_space hp.first).2, String.ofList_toList]
  have hread : Google.nameAndType? (p.name.toList ++ ' ' :: '(' :: (p.type.toList ++ [')'])) =
      some (p.name, p.type) := by
    rw [nameAndType?_append hp.name, if_pos ⟨by simp, by simpa using hp.oneLineType⟩]
    simp [trim_of_tight hp.type]
  have hne : p.first.isEmpty = false := by simpa using hp.first.ne_nil
  rw [Google.entry, hp.cutColon_googleHead, hfirst, if_pos rfl]
  simp only [hlead, htext, hne, String.toList_ofList, hread, SectionKind.isResult,
    Bool.false_eq_true, if_false]

/-- Otherwise the whole head is taken for the name, or for the name and the type. -/
theorem IsPlain.google_entry_of_not_balanced (hp : p.IsPlain)
    (hfirst : balanced p.first.toList = false) :
    Google.entry .params p.googleHead [] = ⟨p.googleHead, "", []⟩ ∨
      ∃ type, '\n' ∉ type.toList ∧
        Google.entry .params p.googleHead [] = ⟨p.name, type, []⟩ := by
  have hhead : p.googleHead.toList =
      p.name.toList ++ ' ' :: '(' :: (p.type.toList ++ ')' :: ':' :: ' ' :: p.first.toList) := by
    simp [toList_googleHead]
  have hentry : Google.entry .params p.googleHead [] =
      (Google.nameAndType? p.googleHead.toList).elim ⟨p.googleHead, "", []⟩
        fun found => ⟨found.1, found.2, []⟩ := by
    have hresult : SectionKind.params.isResult = false := rfl
    rw [Google.entry, hp.cutColon_googleHead, hfirst, if_neg Bool.false_ne_true]
    simp only [hresult, Bool.false_eq_true, if_false]
    cases Google.nameAndType? p.googleHead.toList <;> rfl
  rw [hentry, hhead, nameAndType?_append hp.name]
  split_ifs
  · right
    refine ⟨_, fun hmem => ?_, by rw [String.ofList_toList, Option.elim_some]⟩
    rw [trim, String.toList_ofList, String.toList_ofList] at hmem
    have hmem := List.dropLast_subset _ (mem_of_mem_stripWhile hmem)
    simp [hp.oneLineType, hp.oneLineFirst] at hmem
  · exact .inl rfl

/-! ## Sections -/

/-- The entry in the underlined dialect, its description being moved right. -/
def numpyEntry (move : Nat → String → String) (p : ParamText) : EntryText :=
  ⟨p.numpyHead, (p.first :: p.later).map (move 4)⟩

/-- The entry in the indented dialect. -/
def googleEntry (move : Nat → String → String) (p : ParamText) : EntryText :=
  ⟨p.googleHead, p.later.map (move 8)⟩

/-- The fields that document the parameter. -/
def blocks (p : ParamText) : List Block :=
  [.field ("param " ++ p.name) (joinTrimmed (p.first :: dedent p.later)),
    .field ("type " ++ p.name) p.type]

/-- The entry of the parameter, with these lines of the description below the first one. -/
def toEntry (p : ParamText) (rest : List String) : Entry := ⟨p.name, p.type, p.first :: rest⟩

/-- **Entries with the names, the types and the first lines of parameters** are read as the fields
of the parameters, if the other lines differ only in their margin and in blank lines at the end. -/
theorem ofLines_toEntry {params : List ParamText} (hparams : ∀ p ∈ params, p.IsPlain)
    {rest : ParamText → List String}
    (hrest : ∀ p, joinTrimmed (p.first :: dedent (rest p)) =
      joinTrimmed (p.first :: dedent p.later)) :
    Document.ofLines ((params.map fun p => p.toEntry (rest p)).flatMap Entry.paramLines ++ [""]) =
      .ok ⟨params.flatMap blocks⟩ := by
  have hname : ∀ e ∈ params.map (fun p => p.toEntry (rest p)), e.IsNamed := by
    intro e he
    obtain ⟨p, hp, rfl⟩ := List.mem_map.mp he
    have hname := (hparams p hp).name
    exact ⟨tight_of_isAsciiName hname, (not_mem_of_isAsciiName hname).1⟩
  have hline : ∀ e ∈ params.map (fun p => p.toEntry (rest p)), e.IsOneLine := by
    intro e he
    obtain ⟨p, hp, rfl⟩ := List.mem_map.mp he
    have hplain := hparams p hp
    exact ⟨(not_mem_of_isAsciiName hplain.name).2.1, hplain.oneLineType, by
      simpa [toEntry] using hplain.oneLineFirst⟩
  have hblocks : ((params.map fun p => p.toEntry (rest p)).flatMap Entry.fields).map
      FieldLines.block = params.flatMap blocks := by
    rw [List.flatMap_map, List.map_flatMap]
    refine List.flatMap_congr fun p hp => ?_
    have hdescription : (p.toEntry (rest p)).description = p.first :: rest p := rfl
    have htype : Tight isSpace (p.toEntry (rest p)).type.toList := (hparams p hp).type
    rw [Entry.blocks_fields hdescription (hparams p hp).first htype, hrest]
    rfl
  rw [Entry.ofLines_paramLines hname hline, hblocks]

theorem IsPlain.isNamed (hp : p.IsPlain) (type : String) (description : List String) :
    (Entry.mk p.name type description).IsNamed where
  tight := tight_of_isAsciiName hp.name
  noColon := (not_mem_of_isAsciiName hp.name).1

variable {move : Nat → String → String}

/-- The lines of the description below its first one, as the underlined dialect reads them. -/
theorem IsPlain.read_numpyEntry (hp : p.IsPlain) (hmove : MovesRight 4 (move 4)) :
    (p.numpyEntry move).read Numpy.entry =
      p.toEntry (dropEndWhile (·.isEmpty) (p.later.map (dropMargin 0))) := by
  have hmargin : margin (p.first :: p.later) = 0 := by
    have hle := margin_le (List.mem_cons_self (l := p.later)) (not_isBlank_of_tight hp.first)
    rw [indent_of_tight hp.first] at hle
    omega
  have hdedent : dedent ((p.first :: p.later).map (move 4)) =
      p.first :: p.later.map (dropMargin 0) := by
    rw [hmove.dedent_map, dedent, hmargin, List.map_cons, dropMargin_zero_of_tight hp.first]
  have hfirst : Tight (·.isEmpty) [p.first] := tight_singleton (by simpa using hp.first.ne_nil)
  rw [EntryText.read, numpyEntry, hdedent, hp.numpy_entry, toEntry, ← List.singleton_append,
    hfirst.dropEndWhile_append]
  rfl

theorem IsPlain.isAt_numpyEntry (hp : p.IsPlain) (hmove : MovesRight 4 (move 4)) :
    (p.numpyEntry move).IsAt 0 where
  head := by
    have hhead := (tight_of_isAsciiName hp.name).append [' ', ':', ' '] hp.type
    simpa [numpyEntry, numpyHead] using hhead
  below := hmove.right_of (by omega)

theorem IsPlain.not_isUnderline_numpyHead (hp : p.IsPlain) :
    Numpy.isUnderline p.numpyHead = false := by
  by_contra hunder
  obtain ⟨c, cs, hhead, hc⟩ := Numpy.exists_cons_of_isUnderline (by simpa using hunder)
  obtain ⟨hne, hchars⟩ := chars_of_isAsciiName hp.name
  have hmem : c ∈ p.name.toList := by
    rw [toList_numpyHead] at hhead
    cases hname : p.name.toList with
    | nil => exact absurd hname hne
    | cons d ds =>
      rw [hname] at hhead
      obtain rfl : d = c := (List.cons_eq_cons.mp hhead).1
      exact List.mem_cons_self
  have hnone := ne_of_nameChar (hchars c hmem)
  simp only [Numpy.isUnderlineChar, Bool.or_eq_true, beq_iff_eq] at hc
  rcases hc with (((((rfl | rfl) | rfl) | rfl) | rfl) | rfl) | rfl <;> exact hnone (by decide)

theorem IsPlain.read_googleEntry (hp : p.IsPlain) (hfirst : balanced p.first.toList = true)
    (move : Nat → String → String) :
    (p.googleEntry move).read Google.entry =
      p.toEntry (dropEndWhile (·.isEmpty) (dedent (p.later.map (move 8)))) := by
  rw [EntryText.read, googleEntry, hp.google_entry hfirst]
  rfl

theorem IsPlain.isAt_googleEntry (hp : p.IsPlain) (hmove : MovesRight 8 (move 8)) :
    (p.googleEntry move).IsAt 4 where
  head := by
    have hhead := (tight_of_isAsciiName hp.name).append
      ([' ', '('] ++ p.type.toList ++ [')', ':', ' ']) hp.first
    simpa [googleEntry, googleHead] using hhead
  below := hmove.right_of (by omega)

end ParamText

/-- **A section of parameters is read as their fields in both dialects.** Of the blank lines in a
description it does not matter whether they are moved right with the others. -/
theorem paramSections_read {params : List ParamText} (hplain : ∀ p ∈ params, p.IsPlain)
    (hbalanced : ∀ p ∈ params, balanced p.googleHead.toList = true) {move : Nat → String → String}
    (hmove : ∀ width, MovesRight width (move width)) :
    Document.ofLines (Numpy.toFields (Numpy.paramSection (params.map (·.numpyEntry move)))) =
        .ok ⟨params.flatMap ParamText.blocks⟩ ∧
      Document.ofLines (Google.toFields (Google.paramSection 4 (params.map (·.googleEntry move)))) =
        .ok ⟨params.flatMap ParamText.blocks⟩ := by
  constructor
  · have hat : ∀ e ∈ params.map (·.numpyEntry move), e.IsAt 0 := by
      intro e he
      obtain ⟨p, hp, rfl⟩ := List.mem_map.mp he
      exact (hplain p hp).isAt_numpyEntry (hmove 4)
    have hunder : ∀ e ∈ params.map (·.numpyEntry move), Numpy.isUnderline e.head = false := by
      intro e he
      obtain ⟨p, hp, rfl⟩ := List.mem_map.mp he
      exact (hplain p hp).not_isUnderline_numpyHead
    have hread : (params.map (·.numpyEntry move)).map (EntryText.read Numpy.entry) =
        params.map fun p =>
          p.toEntry (dropEndWhile (·.isEmpty) (p.later.map (dropMargin 0))) := by
      simp only [List.map_map, List.map_inj_left, Function.comp_apply]
      intro p hp
      rw [(hplain p hp).read_numpyEntry (hmove 4)]
    rw [Numpy.toFields_paramSection hat hunder, hread, ParamText.ofLines_toEntry hplain]
    intro p
    rw [joinTrimmed_dedent, dedent_dropMargin (Nat.zero_le _)]
  · have hat : ∀ e ∈ params.map (·.googleEntry move), e.IsAt 4 := by
      intro e he
      obtain ⟨p, hp, rfl⟩ := List.mem_map.mp he
      exact (hplain p hp).isAt_googleEntry (hmove 8)
    have hread : (params.map (·.googleEntry move)).map (EntryText.read Google.entry) =
        params.map fun p =>
          p.toEntry (dropEndWhile (·.isEmpty) (dedent (p.later.map (move 8)))) := by
      simp only [List.map_map, List.map_inj_left, Function.comp_apply]
      intro p hp
      have hfirst := (hplain p hp).balanced_googleHead.symm.trans (hbalanced p hp)
      rw [(hplain p hp).read_googleEntry hfirst]
    rw [Google.toFields_paramSection (by omega) hat, hread, ParamText.ofLines_toEntry hplain]
    intro p
    rw [joinTrimmed_dedent, dedent_dedent, (hmove 8).dedent_map]

namespace ParamText

/-- A parameter with a description of several lines, in which a word is quoted. -/
def count : ParamText :=
  ⟨"count", "int", "How \"many\" (at most).", ["  - of each", "", "None if unknown."]⟩

theorem count_isPlain : count.IsPlain where
  name := by decide
  type := by decide
  oneLineType := by decide
  balancedType := by decide
  first := by decide
  oneLineFirst := by decide

theorem paramSections_read_of_count :
    Document.ofLines (Numpy.toFields (Numpy.paramSection [count.numpyEntry shift])) =
        .ok ⟨[.field "param count"
          "How \"many\" (at most).\n  - of each\n\nNone if unknown.", .field "type count" "int"]⟩ ∧
      Document.ofLines (Google.toFields (Google.paramSection 4 [count.googleEntry shift])) =
        .ok ⟨[.field "param count"
          "How \"many\" (at most).\n  - of each\n\nNone if unknown.", .field "type count" "int"]⟩ :=
  paramSections_read (List.forall_mem_singleton.mpr count_isPlain)
    (List.forall_mem_singleton.mpr (by decide)) movesRight_shift

/-! ## Descriptions in the indented dialect -/

variable {p : ParamText}

/-- The lines of a section with one parameter, whose description is on one line. -/
theorem paramSection_googleHead (p : ParamText) :
    ["Args:", "    " ++ p.googleHead] = Google.paramSection 4 [⟨p.googleHead, []⟩] := by
  simp [Google.paramSection, EntryText.lines, shift]

theorem IsPlain.toFields_googleHead (hp : p.IsPlain) :
    Google.toFields ["Args:", "    " ++ p.googleHead] =
      [Google.entry .params p.googleHead []].flatMap Entry.paramLines ++ [""] := by
  have hhead : Tight isSpace p.googleHead.toList := by
    have happend := (tight_of_isAsciiName hp.name).append
      ([' ', '('] ++ p.type.toList ++ [')', ':', ' ']) hp.first
    simpa [googleHead] using happend
  have hat : (EntryText.mk p.googleHead []).IsAt 4 := ⟨hhead, fun _ h => nomatch h⟩
  rw [paramSection_googleHead, Google.toFields_paramSection (by omega)
    (List.forall_mem_singleton.mpr hat)]
  rfl

/-- **The description is read back exactly if its own quotes and brackets are balanced.** If they
are not, no colon is found, and the parameter gets no description or is no parameter at all. -/
theorem IsPlain.googleHead_read_iff (hp : p.IsPlain) :
    Document.ofLines (Google.toFields ["Args:", "    " ++ p.googleHead]) =
        .ok ⟨[.field ("param " ++ p.name) p.first, .field ("type " ++ p.name) p.type]⟩ ↔
      balanced p.first.toList = true := by
  rw [hp.toFields_googleHead]
  constructor
  · intro hdoc
    by_contra hfirst
    rcases hp.google_entry_of_not_balanced (by simpa using hfirst) with hentry | ⟨type, htype, hentry⟩
    · -- The marker line is the only line that is not blank, so there is one block at most.
      rw [hentry] at hdoc
      have hle := length_blocks_le hdoc
      have hlines : [Entry.mk p.googleHead "" []].flatMap Entry.paramLines ++ [""] =
          [":" ++ ("param " ++ p.googleHead) ++ ":", ""] := rfl
      have hblank : isBlank "" = true := rfl
      rw [hlines, List.filter_cons, List.filter_cons_of_neg (by simp [hblank])] at hle
      split at hle <;> simp at hle
    · -- The description has become a part of the type, and the body is empty.
      rw [hentry, Entry.ofLines_paramLines (List.forall_mem_singleton.mpr (hp.isNamed type []))
        (List.forall_mem_singleton.mpr ⟨(not_mem_of_isAsciiName hp.name).2.1, htype,
          fun _ h => nomatch h⟩)] at hdoc
      have hempty : p.first = joinTrimmed ("" :: dedent []) := by
        simp only [List.flatMap_singleton, Entry.fields, List.map_cons, Except.ok.injEq,
          Document.mk.injEq, List.cons.injEq] at hdoc
        exact (Block.field.inj hdoc.1).2.symm
      have hne := hp.first.ne_nil
      rw [hempty] at hne
      exact hne rfl
  · intro hfirst
    have hbody : joinTrimmed (p.first :: dedent []) = p.first := joinTrimmed_singleton hp.first
    have hdescription : (p.toEntry []).description = p.first :: [] := rfl
    have hblocks := Entry.blocks_fields hdescription hp.first hp.type
    rw [hp.google_entry hfirst,
      Entry.ofLines_paramLines (List.forall_mem_singleton.mpr (hp.isNamed p.type [p.first]))
        (List.forall_mem_singleton.mpr ⟨(not_mem_of_isAsciiName hp.name).2.1, hp.oneLineType,
          by simpa using hp.oneLineFirst⟩), List.flatMap_singleton]
    change Except.ok (Document.mk ((p.toEntry []).fields.map FieldLines.block)) = _
    rw [hblocks, hbody]
    rfl

/-- A parameter with an apostrophe in its description. -/
def lazy : ParamText := ⟨"lazy", "bool", "Don't wait.", []⟩

theorem lazy_isPlain : lazy.IsPlain where
  name := by decide
  type := by decide
  oneLineType := by decide
  balancedType := by decide
  first := by decide
  oneLineFirst := by decide

/-- **An apostrophe turns the whole head into the name**, and the type and the description with it. -/
theorem lazy_not_read :
    lazy.IsPlain ∧
    Document.ofLines (Google.toFields ["Args:", "    lazy (bool): Don't wait."]) =
      .ok ⟨[.field "param lazy (bool)" "Don't wait.:"]⟩ ∧
    ¬ ∀ p : ParamText, p.IsPlain →
      Document.ofLines (Google.toFields ["Args:", "    " ++ p.googleHead]) =
        .ok ⟨[.field ("param " ++ p.name) p.first, .field ("type " ++ p.name) p.type]⟩ := by
  have hdoc : Document.ofLines (Google.toFields ["Args:", "    lazy (bool): Don't wait."]) =
      .ok ⟨[.field "param lazy (bool)" "Don't wait.:"]⟩ := rfl
  refine ⟨lazy_isPlain, hdoc, fun hall => ?_⟩
  have hread := hall lazy lazy_isPlain
  have hhead : "    " ++ lazy.googleHead = "    lazy (bool): Don't wait." := rfl
  rw [hhead, hdoc] at hread
  simp at hread

/-- Quotes and brackets that match do no harm. -/
theorem googleHead_read_of_count :
    count.IsPlain ∧ Document.ofLines (Google.toFields ["Args:", "    " ++ count.googleHead]) =
      .ok ⟨[.field "param count" "How \"many\" (at most).", .field "type count" "int"]⟩ :=
  ⟨count_isPlain, count_isPlain.googleHead_read_iff.mpr (by decide)⟩

end ParamText

end DocTree
