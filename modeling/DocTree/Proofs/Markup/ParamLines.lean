import DocTree.Proofs.Markup.BlankLines
import DocTree.Proofs.Markup.FieldList
import DocTree.Proofs.Markup.Sections

/-!
# Parameters as fields

What the field markup of a parameter is read as. A marker line repeats the name of the parameter as
it stands, and its name ends at the first colon.

* `Entry.fields`, **`Entry.ofLines_paramLines`**: names without a colon, with the fields and their
  bodies;
* `shownName?`, **`Entry.paramNames_of_paramLines`**: any names, with the names of the fields.
-/

namespace DocTree

open Text

/-! ## Indented lines -/

theorem movesRight_indented (width : Nat) : MovesRight width (indented width) where
  blank line h := by
    rw [indented]
    split
    · rfl
    · change isBlank (shift width line) = true
      rw [isBlank_shift, h]
  other line h := by
    have hne : line.isEmpty = false := by
      by_contra hempty
      obtain rfl : line = "" := by simpa using hempty
      cases h
    rw [indented, hne]
    rfl

/-! ## Names without a colon -/

/-- The field whose markup is `fieldLines name description`. -/
def FieldLines.ofDescription (name : String) (description : List String) : FieldLines :=
  match description with
  | [] => ⟨name, "", ":" ++ name ++ ":", []⟩
  | first :: rest =>
    if first.isEmpty then ⟨name, "", ":" ++ name ++ ":", (first :: rest).map (indented 4)⟩
    else ⟨name, trim first, ":" ++ name ++ ": " ++ first, rest.map (indented 4)⟩

namespace FieldLines

variable {name : String} {description : List String}

theorem lines_ofDescription (name : String) (description : List String) :
    (ofDescription name description).lines = fieldLines name description := by
  cases description with
  | nil => rfl
  | cons first rest =>
    rw [ofDescription, fieldLines]
    split <;> rfl

theorem isRead_ofDescription (hname : Tight isSpace name.toList) (hcolon : ':' ∉ name.toList)
    (htext : ∀ first ∈ description.head?, '\n' ∉ first.toList) :
    (ofDescription name description).IsRead := by
  cases description with
  | nil => exact ⟨Marker.ofLine?_empty hname hcolon, fun _ h => nomatch h⟩
  | cons first rest =>
    rw [ofDescription]
    split
    · exact ⟨Marker.ofLine?_empty hname hcolon, (movesRight_indented 4).right_of (by omega)⟩
    · exact ⟨Marker.ofLine?_text hname hcolon (htext first rfl),
        (movesRight_indented 4).right_of (by omega)⟩

/-- **The body of a field is its description**, without the margin of the lines below the first. -/
theorem block_ofDescription {first : String} (hfirst : Tight isSpace first.toList)
    (name : String) (rest : List String) :
    (ofDescription name (first :: rest)).block =
      .field name (joinTrimmed (first :: dedent rest)) := by
  have hne : first.isEmpty = false := by simpa using hfirst.ne_nil
  rw [ofDescription, hne, if_neg Bool.false_ne_true, block, trim_of_tight hfirst,
    (movesRight_indented 4).dedent_map]

end FieldLines

namespace Entry

/-- The fields that document a parameter. -/
def fields (e : Entry) : List FieldLines :=
  .ofDescription ("param " ++ e.name) e.description ::
    if e.type.isEmpty then []
    else [⟨"type " ++ e.name, trim e.type, ":type " ++ e.name ++ ": " ++ e.type, []⟩]

/-- What stands in the marker lines of the entry does not go over the end of a line. -/
structure IsOneLine (e : Entry) : Prop where
  name : '\n' ∉ e.name.toList
  type : '\n' ∉ e.type.toList
  first : ∀ first ∈ e.description.head?, '\n' ∉ first.toList

/-- The name can be repeated in a marker line. -/
structure IsNamed (e : Entry) : Prop where
  tight : Tight isSpace e.name.toList
  noColon : ':' ∉ e.name.toList

variable {e : Entry} {entries : List Entry}

theorem lines_fields (e : Entry) : e.fields.flatMap FieldLines.lines = e.paramLines := by
  rw [fields, paramLines, List.flatMap_cons, FieldLines.lines_ofDescription, typeLine]
  split <;> rfl

theorem isRead_fields (hname : e.IsNamed) (hline : e.IsOneLine) :
    ∀ f ∈ e.fields, f.IsRead := by
  have htight : ∀ keyword : String, Tight isSpace keyword.toList →
      Tight isSpace (keyword ++ " " ++ e.name).toList := fun keyword hkeyword => by
    simpa using hkeyword.append [' '] hname.tight
  have hparam : Tight isSpace ("param " ++ e.name).toList := htight "param" (by decide)
  have htype : Tight isSpace ("type " ++ e.name).toList := htight "type" (by decide)
  refine List.forall_mem_cons.mpr ⟨?_, ?_⟩
  · exact FieldLines.isRead_ofDescription hparam (by simpa using hname.noColon) hline.first
  · split
    · exact fun _ h => nomatch h
    · have hmarker := Marker.ofLine?_text htype (by simpa using hname.noColon) hline.type
      have hhead : ":type " ++ e.name ++ ": " ++ e.type =
          ":" ++ ("type " ++ e.name) ++ ": " ++ e.type := by
        rw [← String.toList_inj]
        simp
      refine List.forall_mem_singleton.mpr ⟨?_, fun _ h => nomatch h⟩
      rw [hhead]
      exact hmarker

/-- The fields of a parameter that has a description and a type. -/
theorem blocks_fields {first : String} {rest : List String}
    (hdescription : e.description = first :: rest) (hfirst : Tight isSpace first.toList)
    (htype : Tight isSpace e.type.toList) :
    e.fields.map FieldLines.block =
      [.field ("param " ++ e.name) (joinTrimmed (first :: dedent rest)),
        .field ("type " ++ e.name) e.type] := by
  have hne : e.type.isEmpty = false := by simpa using htype.ne_nil
  have hbody : joinTrimmed (trim e.type :: dedent []) = e.type := by
    rw [trim_of_tight htype]
    exact joinTrimmed_singleton htype
  rw [fields, hdescription, hne, if_neg Bool.false_ne_true, List.map_cons, List.map_singleton,
    FieldLines.block_ofDescription hfirst, FieldLines.block, hbody]

/-- **The field markup of parameters is read as their fields.** -/
theorem ofLines_paramLines (hname : ∀ e ∈ entries, e.IsNamed)
    (hline : ∀ e ∈ entries, e.IsOneLine) :
    Document.ofLines (entries.flatMap paramLines ++ [""]) =
      .ok ⟨(entries.flatMap fields).map FieldLines.block⟩ := by
  have hread : ∀ f ∈ entries.flatMap fields, f.IsRead := by
    intro f hf
    obtain ⟨e, he, hf⟩ := List.mem_flatMap.mp hf
    exact isRead_fields (hname e he) (hline e he) f hf
  have hlines : entries.flatMap paramLines = (entries.flatMap fields).flatMap FieldLines.lines := by
    rw [List.flatMap_assoc]
    exact (List.flatMap_congr fun e _ => lines_fields e).symm
  have hempty : ∀ line ∈ [""], isBlank line = true := isBlank_of_mem_replicate_empty 1
  rw [ofLines_append_blank _ hempty, hlines, FieldLines.ofLines_lines hread]

end Entry

/-! ## Any names -/

/-- The name that is read off a marker line for `name`. It ends at the first colon, and a blank has
to stand behind that. -/
def shownName? (name : String) : Option String :=
  match name.toList.dropWhile (· != ':') with
  | [] => some (trim name)
  | _ :: behind =>
    if behind.head?.any isHardBlank then some (trim (.ofList (name.toList.takeWhile (· != ':'))))
    else none

/-- What may stand behind the colon of a marker line. -/
def IsText (tail : List Char) : Prop := tail = [] ∨ ∃ text, tail = ' ' :: text ∧ '\n' ∉ text

theorem IsText.textBehind? {tail : List Char} (h : IsText tail) :
    ∃ text, Marker.textBehind? tail = some text := by
  rcases h with rfl | ⟨text, rfl, hnewline⟩
  · exact ⟨[], rfl⟩
  · exact ⟨text, by simpa [Marker.textBehind?, isHardBlank] using hnewline⟩

theorem shownName?_of_not_mem {name : String} (h : ':' ∉ name.toList) :
    shownName? name = some (trim name) := by
  have hdrop : name.toList.dropWhile (· != ':') = [] := by
    rw [List.dropWhile_eq_nil_iff]
    intro c hc
    have hne : c ≠ ':' := fun heq => h (heq ▸ hc)
    simpa using hne
  rw [shownName?, hdrop]

theorem shownName?_of_append {name : String} {before behind : List Char}
    (hname : name.toList = before ++ ':' :: behind) (hbefore : ':' ∉ before) :
    shownName? name =
      if behind.head?.any isHardBlank then some (trim (.ofList before)) else none := by
  rw [shownName?, hname, dropWhile_ne hbefore, takeWhile_ne hbefore]

/-- **What a marker line shows of the name that it was written for.** -/
theorem fieldName?_ofLine? {line name : String} {tail : List Char}
    (hline : line.toList = ':' :: (name.toList ++ ':' :: tail))
    (hfirst : ∃ c cs, name.toList = c :: cs ∧ isSpace c = false ∧ c ≠ ':')
    (hname : '\n' ∉ name.toList) (htail : IsText tail) :
    (Marker.ofLine? line).bind Marker.fieldName? = shownName? name := by
  obtain ⟨c, cs, hcons, hc, hcolon⟩ := hfirst
  by_cases hmem : ':' ∈ name.toList
  · obtain ⟨before, behind, hsplit, hbefore⟩ := List.eq_append_cons_of_mem hmem
    obtain ⟨start, rfl⟩ : ∃ start, before = c :: start := by
      cases before with
      | nil => exact absurd (List.cons_eq_cons.mp (hcons.symm.trans hsplit)).1 hcolon
      | cons d start =>
        exact ⟨start, by rw [(List.cons_eq_cons.mp (hcons.symm.trans hsplit)).1]⟩
    have hfield : line.toList = ':' :: (c :: start ++ ':' :: (behind ++ ':' :: tail)) := by
      simp [hline, hsplit]
    rw [Marker.ofLine?_field hfield hc hbefore, shownName?_of_append hsplit hbefore]
    cases behind with
    | nil => simp [Marker.textBehind?, isHardBlank]
    | cons d behind =>
      have hnewline : '\n' ∉ behind ++ ':' :: tail := by
        have hbehind : '\n' ∉ behind := fun h => hname (by simp [hsplit, h])
        rcases htail with rfl | ⟨text, rfl, htext⟩ <;> simp_all
      have hcontains : (behind ++ ':' :: tail).contains '\n' = false := by simpa using hnewline
      rw [List.cons_append, Marker.textBehind?, hcontains]
      cases hd : isHardBlank d <;> simp [Marker.fieldName?, hd]
  · obtain ⟨text, htext⟩ := htail.textBehind?
    rw [hcons] at hline hmem
    rw [Marker.ofLine?_field hline hc hmem, shownName?_of_not_mem (by rwa [hcons]), htext, ← hcons]
    simp [Marker.fieldName?]

/-- The name that is shown starts with the keyword of the field. -/
theorem prefix_of_shownName? {name shown : String} {keyword rest : List Char}
    (hname : name.toList = keyword ++ rest) (hkeyword : Tight isSpace keyword)
    (hcolon : ':' ∉ keyword) (h : shownName? name = some shown) : keyword <+: shown.toList := by
  have htrim : ∀ cs, keyword <+: (trim (.ofList (keyword ++ cs))).toList := by
    intro cs
    rw [trim, String.toList_ofList, String.toList_ofList, hkeyword.stripWhile_append]
    exact List.prefix_append _ _
  by_cases hmem : ':' ∈ rest
  · obtain ⟨before, behind, hrest, hbefore⟩ := List.eq_append_cons_of_mem hmem
    have hsplit : name.toList = (keyword ++ before) ++ ':' :: behind := by simp [hname, hrest]
    rw [shownName?_of_append hsplit (by simp [hcolon, hbefore])] at h
    split at h
    · rw [← Option.some.inj h]
      exact htrim before
    · cases h
  · rw [shownName?_of_not_mem (by simp [hname, hcolon, hmem])] at h
    rw [← Option.some.inj h, ← String.ofList_toList (s := name), hname]
    exact htrim rest

/-! ## The names of the fields -/

/-- The name of a field that documents a parameter. -/
def isParamName (name : String) : Bool := "param".toList.isPrefixOf name.toList

/-- The names of the fields that document parameters. -/
def Document.paramNames (doc : Document) : List String := doc.fieldNames.filter isParamName

theorem fieldNames_append (ls more : List String) :
    fieldNames (ls ++ more) = fieldNames ls ++ fieldNames more :=
  List.filterMap_append

/-- Lines that belong to a marker above them are no fields. -/
theorem fieldNames_below {ls : List String}
    (h : ∀ line ∈ ls, isBlank line = true ∨ 0 < indent line) : fieldNames ls = [] := by
  rw [fieldNames, List.filterMap_eq_nil_iff]
  intro line hline
  rw [Marker.ofLine?_of_below (h line hline)]
  rfl

theorem fieldNames_cons_below {line name : String} {tail : List Char} {below : List String}
    (hline : line.toList = ':' :: (name.toList ++ ':' :: tail))
    (hfirst : ∃ c cs, name.toList = c :: cs ∧ isSpace c = false ∧ c ≠ ':')
    (hname : '\n' ∉ name.toList) (htail : IsText tail)
    (hbelow : ∀ line ∈ below, isBlank line = true ∨ 0 < indent line) :
    fieldNames (line :: below) = (shownName? name).toList := by
  rw [← List.singleton_append, fieldNames_append, fieldNames_below hbelow, List.append_nil,
    fieldNames, ← fieldName?_ofLine? hline hfirst hname htail]
  cases h : (Marker.ofLine? line).bind Marker.fieldName? <;> simp [h]

/-- The first line of a field is its marker, and the others belong to it. -/
theorem exists_fieldLines (name : String) (description : List String) :
    ∃ head tail below, fieldLines name description = head :: below ∧
      head.toList = ':' :: (name.toList ++ ':' :: tail) ∧
      (tail = [] ∨ ∃ first ∈ description.head?, tail = ' ' :: first.toList) ∧
      ∀ line ∈ below, isBlank line = true ∨ 0 < indent line := by
  cases description with
  | nil => exact ⟨_, [], [], rfl, by simp, .inl rfl, fun _ h => nomatch h⟩
  | cons first rest =>
    rw [fieldLines]
    split
    · exact ⟨_, [], _, rfl, by simp, .inl rfl, (movesRight_indented 4).right_of (by omega)⟩
    · exact ⟨_, ' ' :: first.toList, _, rfl, by simp, .inr ⟨first, rfl, rfl⟩,
        (movesRight_indented 4).right_of (by omega)⟩

theorem fieldNames_fieldLines {name : String} {description : List String}
    (hfirst : ∃ c cs, name.toList = c :: cs ∧ isSpace c = false ∧ c ≠ ':')
    (hname : '\n' ∉ name.toList) (hfirstLine : ∀ first ∈ description.head?, '\n' ∉ first.toList) :
    fieldNames (fieldLines name description) = (shownName? name).toList := by
  obtain ⟨head, tail, below, hfield, hhead, htail, hbelow⟩ := exists_fieldLines name description
  have htext : IsText tail := htail.imp_right fun ⟨first, hmem, heq⟩ => ⟨_, heq, hfirstLine first hmem⟩
  rw [hfield, fieldNames_cons_below hhead hfirst hname htext hbelow]

theorem fieldNames_typeLine {name type : String} (hname : '\n' ∉ name.toList)
    (htype : '\n' ∉ type.toList) :
    fieldNames (typeLine (":type " ++ name ++ ": ") type) =
      if type.isEmpty then [] else (shownName? ("type " ++ name)).toList := by
  rw [typeLine]
  split
  · rfl
  · have hline : (":type " ++ name ++ ": " ++ type).toList =
        ':' :: (("type " ++ name).toList ++ ':' :: ' ' :: type.toList) := by simp
    exact fieldNames_cons_below hline ⟨'t', _, by simp; rfl, rfl, by decide⟩ (by simpa using hname)
      (.inr ⟨_, rfl, htype⟩) fun _ h => nomatch h

namespace Entry

variable {e : Entry} {entries : List Entry}

/-- Among the fields of a parameter, at most one has the name of a parameter. -/
theorem paramNames_paramLines (he : e.IsOneLine) :
    (fieldNames e.paramLines).filter isParamName = (shownName? ("param " ++ e.name)).toList := by
  have hparam : ∀ shown, shownName? ("param " ++ e.name) = some shown →
      isParamName shown = true := by
    intro shown hshown
    have hsplit : ("param " ++ e.name).toList = ['p', 'a', 'r', 'a', 'm'] ++ ' ' :: e.name.toList :=
      by simp
    have hprefix := prefix_of_shownName? hsplit (by decide) (by decide) hshown
    simpa [isParamName] using hprefix
  have htype : ∀ shown, shownName? ("type " ++ e.name) = some shown →
      isParamName shown = false := by
    intro shown hshown
    have hsplit : ("type " ++ e.name).toList = ['t', 'y', 'p', 'e'] ++ ' ' :: e.name.toList := by
      simp
    obtain ⟨rest, hprefix⟩ := prefix_of_shownName? hsplit (by decide) (by decide) hshown
    rw [isParamName, ← hprefix]
    rfl
  rw [paramLines, fieldNames_append, fieldNames_typeLine he.name he.type,
    fieldNames_fieldLines ⟨'p', _, by simp; rfl, rfl, by decide⟩ (by simpa using he.name)
      he.first, List.filter_append]
  have hnone : ((if e.type.isEmpty then []
      else (shownName? ("type " ++ e.name)).toList).filter isParamName) = [] := by
    split
    · rfl
    · cases hshown : shownName? ("type " ++ e.name) with
      | none => rfl
      | some shown => simp [htype shown hshown]
  rw [hnone, List.append_nil]
  cases hshown : shownName? ("param " ++ e.name) with
  | none => rfl
  | some shown => simp [hparam shown hshown]

/-- Nothing in the field markup of a parameter is a directive. -/
theorem not_directive_paramLines (e : Entry) {line : String} (hline : line ∈ e.paramLines)
    (kind title : String) : Marker.ofLine? line ≠ some (.directive kind title) := by
  rcases List.mem_append.mp hline with hline | hline
  · obtain ⟨head, tail, below, hfield, hhead, -, hbelow⟩ :=
      exists_fieldLines ("param " ++ e.name) e.description
    rw [hfield] at hline
    rcases List.mem_cons.mp hline with rfl | hline
    · exact Marker.not_directive_of_colon hhead kind title
    · rw [Marker.ofLine?_of_below (hbelow line hline)]
      exact Option.some_ne_none _ |>.symm
  · rw [typeLine] at hline
    split at hline
    · cases hline
    · obtain rfl := List.mem_singleton.mp hline
      exact Marker.not_directive_of_colon (by simp; rfl) kind title

/-- **The names of the fields are those that the marker lines show.** -/
theorem paramNames_of_paramLines (h : ∀ e ∈ entries, e.IsOneLine) :
    ∃ doc, Document.ofLines (entries.flatMap paramLines ++ [""]) = .ok doc ∧
      doc.paramNames = entries.filterMap fun e => shownName? ("param " ++ e.name) := by
  obtain ⟨doc, hdoc⟩ : ∃ doc, Document.ofLines (entries.flatMap paramLines ++ [""]) = .ok doc := by
    refine exists_ofLines fun line hline => ?_
    rcases List.mem_append.mp hline with hline | hline
    · obtain ⟨e, -, hline⟩ := List.mem_flatMap.mp hline
      exact e.not_directive_paramLines hline
    · obtain rfl := List.mem_singleton.mp hline
      exact fun _ _ h => nomatch h
  refine ⟨doc, hdoc, ?_⟩
  have hempty : fieldNames [""] = [] := fieldNames_below (by simp [isBlank])
  rw [Document.paramNames, fieldNames_of_ofLines hdoc, fieldNames_append, hempty, List.append_nil]
  clear hdoc
  induction entries with
  | nil => rfl
  | cons e entries ih =>
    obtain ⟨he, hrest⟩ := List.forall_mem_cons.mp h
    rw [List.flatMap_cons, fieldNames_append, List.filter_append, paramNames_paramLines he,
      ih hrest]
    cases hshown : shownName? ("param " ++ e.name) <;> simp [hshown]

end Entry

end DocTree
