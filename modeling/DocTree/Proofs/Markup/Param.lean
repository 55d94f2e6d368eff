import DocTree.Markup.FieldName
import DocTree.Proofs.Markup.FieldList
import DocTree.Proofs.Markup.TypeBody
import DocTree.Proofs.Resolve

/-!
# Written parameters

A parameter with a description, a type and perhaps a default, written down as two fields.

* `Param`, `Param.fields`: the parameter, and how it is written;
* `Param.IsWritable`: its name is an identifier and not the word for links, its alternatives are
  plain and differ, and its description is a line without white space around it;
* `classify_param`, `classify_type`: the names of its fields are told apart;
* **`Param.read_typeBody`**: the body of its type field has its alternatives.
-/

namespace DocTree

open Text Literal

/-- A documented parameter. -/
structure Param where
  name : String
  description : String
  /-- What its value may be. -/
  alternatives : List Entity
  /-- None if the parameter is required. -/
  default : Option Value

namespace Param

/-- The type: a single alternative stands for itself. -/
def type (p : Param) : Entity :=
  match p.alternatives with
  | [single] => single
  | members => .union members

/-- The documented argument. -/
def toArg (p : Param) : Arg := ⟨p.name, p.type, some p.description, p.default.map .value⟩

/-- The body of the type field: bars between the alternatives, and an equals sign in front of the
default. -/
def typeBody (p : Param) : String :=
  " | ".intercalate (p.alternatives.map Entity.display) ++
    match p.default with
    | none => ""
    | some v => " = " ++ v.display

/-- The two fields of the parameter. -/
def fields (p : Param) : List FieldText :=
  [⟨"param" ++ " " ++ p.name, p.description⟩, ⟨"type" ++ " " ++ p.name, p.typeBody⟩]

/-- A parameter that can be written down. -/
structure IsWritable (p : Param) : Prop where
  isIdentifier : isIdentifier p.name = true
  notSee : p.name ≠ "see"
  description : PlainLine p.description
  alternatives : p.alternatives ≠ []
  plain : ∀ e ∈ p.alternatives, e.IsPlain
  distinct : p.alternatives.Nodup
  default : ∀ v ∈ p.default, v.IsLiteral

end Param

/-- **The docstring of a signature**, with two lines for each parameter. -/
def signature (params : List Param) : String :=
  unlines ((params.flatMap Param.fields).map FieldText.line)

/-! ## Names -/

/-- The code points of white space. -/
def spaceCodes : List Nat :=
  [0x9, 0xA, 0xB, 0xC, 0xD, 0x20, 0x85, 0xA0, 0x1680, 0x2000, 0x2001, 0x2002, 0x2003, 0x2004,
   0x2005, 0x2006, 0x2007, 0x2008, 0x2009, 0x200A, 0x2028, 0x2029, 0x202F, 0x205F, 0x3000]

theorem not_isAlphanumeric_of_isSpace {c : Char} (h : isSpace c = true) :
    isAlphanumeric c = false := by
  have hcode : c.toNat ∈ spaceCodes := by
    simp [isSpace] at h
    simp [spaceCodes]
    omega
  have hnone : ∀ n ∈ spaceCodes,
      (inRanges n alphabeticRanges || inRanges n numberRanges) = false := by decide +kernel
  exact hnone c.toNat hcode

/-- What the characters of an identifier are not. -/
theorem chars_of_isIdentifier {name : String} (h : isIdentifier name = true) :
    name ≠ "" ∧ ∀ c ∈ name.toList, isSpace c = false ∧ c ≠ ':' := by
  have hchar : ∀ c, (isAlphanumeric c || c == '_') = true → isSpace c = false ∧ c ≠ ':' := by
    intro c hc
    constructor
    · rw [Bool.eq_false_iff]
      intro hspace
      rw [not_isAlphanumeric_of_isSpace hspace, Bool.false_or, beq_iff_eq] at hc
      subst hc
      revert hspace
      decide
    · rintro rfl
      revert hc
      decide +kernel
  rw [isIdentifier, Bool.and_eq_true] at h
  obtain ⟨hname, -⟩ := h
  cases hlist : name.toList with
  | nil =>
    rw [hlist] at hname
    cases hname
  | cons c cs =>
    rw [hlist] at hname
    obtain ⟨hfirst, hrest⟩ := Bool.and_eq_true_iff.mp hname
    refine ⟨fun hempty => ?_, List.forall_mem_cons.mpr ⟨hchar c ?_, fun d hd => ?_⟩⟩
    · rw [hempty] at hlist
      cases hlist
    · rw [isAlphanumeric, Bool.or_right_comm, hfirst, Bool.true_or]
    · exact hchar d (List.all_eq_true.mp hrest d hd)

section Names

variable {name : String}

theorem tight_of_isIdentifier (hname : isIdentifier name = true) : Tight isSpace name.toList := by
  obtain ⟨hne, hchars⟩ := chars_of_isIdentifier hname
  exact tight_of_forall (by simpa using hne) fun c hc => (hchars c hc).1

/-- A keyword and an identifier behind it are the name of a field. -/
theorem plainLine_keyword {keyword : String} (hkeyword : PlainLine keyword)
    (hname : isIdentifier name = true) : PlainLine (keyword ++ " " ++ name) := by
  obtain ⟨-, hchars⟩ := chars_of_isIdentifier hname
  have hlist : (keyword ++ " " ++ name).toList = keyword.toList ++ ([' '] ++ name.toList) := by
    simp
  have hnone : ∀ c, isSpace c = true → c ∉ name.toList := fun c hspace hc => by
    rw [(hchars c hc).1] at hspace
    cases hspace
  constructor
  · rw [hlist]
    exact hkeyword.tight.append [' '] (tight_of_isIdentifier hname)
  · rw [hlist]
    simp [hkeyword.noTab, hnone '\t' (by decide)]
  · rw [hlist]
    simp [hkeyword.noNewline, hnone '\n' (by decide)]

/-- The words behind a keyword are those of what stands there. -/
theorem wordsBehind?_keyword (keyword : String) (hname : isIdentifier name = true) :
    FieldName.wordsBehind? keyword (keyword ++ " " ++ name) = some [name] := by
  obtain ⟨hne, hchars⟩ := chars_of_isIdentifier hname
  have hnewline : '\n' ∉ name.toList := fun hc => absurd (hchars _ hc).1 (by decide)
  have hlist : (keyword ++ " " ++ name).toList = keyword.toList ++ ' ' :: name.toList := by simp
  have hdrop : dropStart? keyword.toList (keyword.toList ++ ' ' :: name.toList) =
      some (' ' :: name.toList) := dropStart?_eq_some.mpr rfl
  have hbehind : Marker.textBehind? (' ' :: name.toList) = some name.toList := by
    rw [Marker.textBehind?, if_pos]
    simpa [isHardBlank] using hnewline
  rw [FieldName.wordsBehind?, hlist, hdrop, Option.bind_some, hbehind, Option.map_some,
    String.ofList_toList, words_eq_singleton hne fun c hc => (hchars c hc).1]

theorem plainLine_param (hname : isIdentifier name = true) :
    PlainLine ("param" ++ " " ++ name) :=
  plainLine_keyword ⟨by decide, by decide, by decide⟩ hname

theorem plainLine_type (hname : isIdentifier name = true) : PlainLine ("type" ++ " " ++ name) :=
  plainLine_keyword ⟨by decide, by decide, by decide⟩ hname

theorem classify_param (hname : isIdentifier name = true) (hsee : name ≠ "see") :
    FieldName.classify ("param" ++ " " ++ name) = .ok (.param name) := by
  have hwords : FieldName.paramKeywords.findSome?
      (FieldName.wordsBehind? · ("param" ++ " " ++ name)) = some [name] := by
    rw [FieldName.paramKeywords, List.findSome?_cons, wordsBehind?_keyword "param" hname]
  rw [FieldName.classify, trim_of_tight (plainLine_param hname).tight, hwords]
  split
  · next h => cases h
  · next h => exact absurd (List.cons_eq_cons.mp (Option.some.inj h)).1 hsee
  · next h => cases h
  · next h =>
    obtain ⟨rfl, -⟩ := List.cons_eq_cons.mp (Option.some.inj h)
    rfl
  · next hsingle h => exact (hsingle _ (Option.some.inj h).symm).elim
  · next h => cases h

theorem classify_type (hname : isIdentifier name = true) :
    FieldName.classify ("type" ++ " " ++ name) = .ok (.type name) := by
  have hwords : FieldName.paramKeywords.findSome?
      (FieldName.wordsBehind? · ("type" ++ " " ++ name)) = none := by
    have hlist : ("type" ++ " " ++ name).toList = ['t', 'y', 'p', 'e', ' '] ++ name.toList := by
      simp
    refine List.findSome?_eq_none_iff.mpr fun keyword hkeyword => ?_
    rw [FieldName.wordsBehind?, hlist]
    simp only [FieldName.paramKeywords, List.mem_cons, List.not_mem_nil, or_false] at hkeyword
    rcases hkeyword with rfl | rfl | rfl | rfl <;> rfl
  rw [FieldName.classify, trim_of_tight (plainLine_type hname).tight, hwords,
    wordsBehind?_keyword "type" hname]

end Names

/-! ## Type bodies -/

/-- A text does not begin with the word for links if it begins with another letter. -/
theorem firstWord_ne_see {c : Char} (hc : c ≠ 's') (cs : List Char) :
    (c :: cs).takeWhile (!isSpace ·) ≠ ['s', 'e', 'e'] := by
  rw [List.takeWhile_cons]
  split
  · exact fun h => hc (List.cons_eq_cons.mp h).1
  · exact fun h => nomatch h

theorem firstWord_text {v : Value} (hv : ∀ x, v ≠ .float x) :
    (text v).takeWhile (!isSpace ·) ≠ ['s', 'e', 'e'] := by
  rcases text_cases hv with ⟨name, hname⟩ | ⟨n, rfl⟩ |
    ⟨lead, hlead, left, hleft, mid, right, -, htext⟩
  · have hwords : ∀ pair ∈ constants, (text pair.2).takeWhile (!isSpace ·) ≠ ['s', 'e', 'e'] := by
      decide
    exact hwords (name, v) hname
  · obtain ⟨c, tail, htext, -⟩ := text_opens hv
    rw [htext]
    refine firstWord_ne_see ?_ tail
    rintro rfl
    rcases mem_text_int (htext ▸ List.mem_cons_self) with h | h
    · exact absurd h (by decide)
    · exact absurd h (by decide)
  · rw [htext]
    simp only [List.mem_cons, List.not_mem_nil, or_false] at hlead
    rcases hlead with rfl | rfl | rfl
    · have hnone : ∀ c ∈ ['\'', '"', '(', '[', '{'], c ≠ 's' := by decide
      exact firstWord_ne_see (hnone left hleft) _
    · exact firstWord_ne_see (by decide) _
    · exact fun h => nomatch (List.cons_eq_cons.mp h).2

namespace Entity

variable {e : Entity}

theorem IsPlain.typeItem (he : e.IsPlain) : TypeItem e.display := by
  cases e with
  | builtin b =>
    have hname : ∀ c ∈ b.name.toList,
        (c ≠ '\t' ∧ c ≠ '\n') ∧ isSeparator c = false ∧ isDelimiter c = false := by
      cases b <;> decide
    exact ⟨inline_of_forall hname, by cases b <;> decide⟩
  | value v => exact ⟨inline_text he.floatFree, tight_text he.floatFree.self⟩
  | _ => exact he.elim

theorem IsPlain.firstWord (he : e.IsPlain) :
    e.display.toList.takeWhile (!isSpace ·) ≠ ['s', 'e', 'e'] := by
  cases e with
  | builtin b => cases b <;> decide
  | value v => exact firstWord_text he.floatFree.self
  | _ => exact he.elim

end Entity

namespace Param

variable {p : Param}

/-- The text of the default. -/
def valueText (p : Param) : Option String := p.default.map Value.display

theorem IsWritable.valueItem (hp : p.IsWritable) : ∀ text ∈ p.valueText, TypeItem text := by
  intro text htext
  obtain ⟨v, hv, rfl⟩ := Option.map_eq_some_iff.mp htext
  exact Entity.IsPlain.typeItem (e := .value v) (hp.default v hv)

theorem typeBody_eq {first : Entity} {rest : List Entity} (h : p.alternatives = first :: rest) :
    p.typeBody = TypeBody.write first.display (rest.map Entity.display) p.valueText := by
  have hbehind : (match p.default with
      | none => ""
      | some v => " = " ++ v.display) = .ofList (TypeBody.behind p.valueText) := by
    rw [valueText]
    cases p.default with
    | none => rfl
    | some v =>
      apply String.toList_injective
      rw [String.toList_ofList, String.toList_append]
      rfl
  rw [typeBody, h, hbehind]
  rfl

/-- **The body of the type field has the alternatives of the parameter**, and is a line. -/
theorem IsWritable.read_typeBody (hp : p.IsWritable) :
    PlainLine p.typeBody ∧ ∃ alts, TypeBody.read p.typeBody = .ok (.alternatives alts) ∧
      alts.map Alternative.type = p.alternatives.map Entity.display ∧
      (TypeBody.alternatives alts).default? = p.valueText := by
  cases halts : p.alternatives with
  | nil => exact absurd halts hp.alternatives
  | cons first rest =>
    have hplain : ∀ e ∈ first :: rest, e.IsPlain := halts ▸ hp.plain
    have hitems : ∀ text ∈ (first :: rest).map Entity.display, TypeItem text := by
      intro text htext
      obtain ⟨e, he, rfl⟩ := List.mem_map.mp htext
      exact (hplain e he).typeItem
    rw [typeBody_eq halts]
    refine ⟨TypeBody.plainLine_write hitems hp.valueItem, _, ?_, Alternative.types_ofTexts _ _ _,
      Alternative.default_ofTexts _ _ _⟩
    exact TypeBody.read_write (fun text htext => (hitems text htext).isAlternative)
      (TypeItem.isDefault hp.valueItem) (hplain first List.mem_cons_self).firstWord

/-- The fields of the parameter are on lines of their own. -/
theorem IsWritable.fields_plain (hp : p.IsWritable) : ∀ f ∈ p.fields, f.IsPlain := by
  have hcolon : ':' ∉ p.name.toList := fun hc =>
    ((chars_of_isIdentifier hp.isIdentifier).2 _ hc).2 rfl
  refine List.forall_mem_cons.mpr ⟨?_, List.forall_mem_singleton.mpr ?_⟩
  · exact ⟨plainLine_param hp.isIdentifier, hp.description, by simp [hcolon]⟩
  · exact ⟨plainLine_type hp.isIdentifier, hp.read_typeBody.1, by simp [hcolon]⟩

end Param

/-- **The docstring of a signature is the document of its fields.** -/
theorem normalize_signature {params : List Param} (hparams : ∀ p ∈ params, p.IsWritable) :
    normalize .rst (signature params) =
      .ok ⟨(params.flatMap Param.fields).map FieldText.block⟩ := by
  refine FieldText.normalize_lines fun f hf => ?_
  obtain ⟨p, hp, hf⟩ := List.mem_flatMap.mp hf
  exact (hparams p hp).fields_plain f hf

end DocTree
