import Mathlib.Data.List.Induction
import Mathlib.Data.List.Nodup
import DocTree.Markup.Document
import DocTree.Markup.FieldName

/-!
# What a document says of arguments

The blocks of a document, read as remarks on arguments. An attribute makes two of them.

* `Remark`, `Document.remarks`: the remarks in the order of the blocks;
* `mentions`: **the names at their first mention, and the links to all arguments of an object where
  they stand**;
* `descriptionOf?`, `typeBodyOf?`: what is said of a name, which is nothing if it is not mentioned;
* `mentionedNames`, `descriptionsOf`, `typeBodiesOf`: the names alone, and all that is said of one;
* `Single`: remarks that **say nothing twice of any name**.
-/

namespace DocTree

/-- What a block says of arguments. -/
inductive Remark where
  | description (name body : String)
  | type (name body : String)
  /-- All arguments of the target stand here. -/
  | marker (target : String)
  deriving DecidableEq, Repr

/-- What remarks are about. -/
inductive Mention where
  | name (name : String)
  | marker (target : String)
  deriving DecidableEq, Repr

/-- What a field of the given name says; a field of any other kind says nothing of arguments. -/
def FieldName.remarks (body : String) : FieldName → List Remark
  | .param name => [.description name body]
  | .type name => [.type name body]
  | .linkAll target => [.marker target]
  | .returns | .returnType | .other _ => []

def Block.remarks : Block → List Remark
  | .field name body => (FieldName.classify name).toOption.elim [] (·.remarks body)
  | .attr name typeBody body => [.description name body, .type name typeBody]
  | .see [target] => [.marker target]
  | .paragraph _ | .see _ | .directive .. => []

def Document.remarks (doc : Document) : List Remark := doc.blocks.flatMap Block.remarks

namespace Remark

def mention : Remark → Mention
  | .description name _ | .type name _ => .name name
  | .marker target => .marker target

/-- The description that a remark gives to a name. -/
def descriptionOf? (name : String) : Remark → Option String
  | .description n body => if n = name then some body else none
  | _ => none

/-- The type that a remark gives to a name. -/
def typeBodyOf? (name : String) : Remark → Option String
  | .type n body => if n = name then some body else none
  | _ => none

@[simp] theorem descriptionOf?_description (name body : String) :
    (description name body).descriptionOf? name = some body := if_pos rfl

@[simp] theorem descriptionOf?_type (name body : String) :
    (type name body).descriptionOf? name = none := rfl

@[simp] theorem typeBodyOf?_type (name body : String) :
    (type name body).typeBodyOf? name = some body := if_pos rfl

@[simp] theorem typeBodyOf?_description (name body : String) :
    (description name body).typeBodyOf? name = none := rfl

theorem descriptionOf?_eq_none {name : String} {r : Remark} (h : r.mention ≠ .name name) :
    r.descriptionOf? name = none := by
  cases r with
  | description n body => exact if_neg fun heq => h (congrArg Mention.name heq)
  | type n body => rfl
  | marker target => rfl

theorem typeBodyOf?_eq_none {name : String} {r : Remark} (h : r.mention ≠ .name name) :
    r.typeBodyOf? name = none := by
  cases r with
  | description n body => rfl
  | type n body => exact if_neg fun heq => h (congrArg Mention.name heq)
  | marker target => rfl

end Remark

/-- A name is listed once, a marker each time. -/
def addMention (listed : List Mention) : Mention → List Mention
  | .name name => if .name name ∈ listed then listed else listed ++ [.name name]
  | .marker target => listed ++ [.marker target]

/-- **The names at their first mention, and the markers where they stand.** -/
def mentions (remarks : List Remark) : List Mention :=
  (remarks.map Remark.mention).foldl addMention []

/-- The first description of a name. -/
def descriptionOf? (remarks : List Remark) (name : String) : Option String :=
  remarks.findSome? (·.descriptionOf? name)

/-- The first type of a name. -/
def typeBodyOf? (remarks : List Remark) (name : String) : Option String :=
  remarks.findSome? (·.typeBodyOf? name)

section Mentions

variable (remarks : List Remark) (r : Remark)

theorem mentions_concat :
    mentions (remarks ++ [r]) = addMention (mentions remarks) r.mention := by
  rw [mentions, List.map_append, List.foldl_append]
  rfl

theorem descriptionOf?_concat (name : String) :
    descriptionOf? (remarks ++ [r]) name =
      (descriptionOf? remarks name).or (r.descriptionOf? name) := by
  rw [descriptionOf?, List.findSome?_append, List.findSome?_singleton]
  rfl

theorem typeBodyOf?_concat (name : String) :
    typeBodyOf? (remarks ++ [r]) name = (typeBodyOf? remarks name).or (r.typeBodyOf? name) := by
  rw [typeBodyOf?, List.findSome?_append, List.findSome?_singleton]
  rfl

variable {remarks r}

theorem mem_addMention {listed : List Mention} {m m' : Mention} :
    m' ∈ addMention listed m ↔ m' ∈ listed ∨ m' = m := by
  cases m with
  | name name =>
    rw [addMention]
    split
    · next hmem =>
      refine ⟨.inl, fun h => h.elim id ?_⟩
      rintro rfl
      exact hmem
    · rw [List.mem_append, List.mem_singleton]
  | marker target => rw [addMention, List.mem_append, List.mem_singleton]

theorem mem_mentions {m : Mention} : m ∈ mentions remarks ↔ m ∈ remarks.map Remark.mention := by
  induction remarks using List.reverseRecOn with
  | nil => exact Iff.rfl
  | append_singleton remarks r ih =>
    rw [mentions_concat, mem_addMention, ih, List.map_append, List.mem_append, List.map_singleton,
      List.mem_singleton]

/-- A name that is listed already is not listed again. -/
theorem count_addMention_le {listed : List Mention} {name : String}
    (h : listed.count (.name name) ≤ 1) (m : Mention) :
    (addMention listed m).count (.name name) ≤ 1 := by
  cases m with
  | name n =>
    rw [addMention]
    split
    · exact h
    · next hnew =>
      by_cases hn : n = name
      · subst hn
        simp [List.count_eq_zero.mpr hnew]
      · simpa [List.count_singleton, hn] using h
  | marker target => simpa [addMention, List.count_singleton] using h

/-- **No name is listed twice.** -/
theorem count_mentions_le (remarks : List Remark) (name : String) :
    (mentions remarks).count (.name name) ≤ 1 := by
  induction remarks using List.reverseRecOn with
  | nil => exact Nat.zero_le 1
  | append_singleton remarks r ih =>
    rw [mentions_concat]
    exact count_addMention_le ih r.mention

/-- Where a name is listed, it is not before nor after. -/
theorem not_mem_of_mentions_eq {name : String} {before after : List Mention}
    (h : mentions remarks = before ++ .name name :: after) :
    .name name ∉ before ∧ .name name ∉ after := by
  have hcount := count_mentions_le remarks name
  rw [h, List.count_append, List.count_cons_self] at hcount
  exact ⟨List.count_eq_zero.mp (by omega), List.count_eq_zero.mp (by omega)⟩

theorem descriptionOf?_of_not_mem {name : String} (h : .name name ∉ mentions remarks) :
    descriptionOf? remarks name = none :=
  List.findSome?_eq_none_iff.mpr fun r hr => r.descriptionOf?_eq_none fun hmention =>
    h (mem_mentions.mpr (hmention ▸ List.mem_map_of_mem hr))

theorem typeBodyOf?_of_not_mem {name : String} (h : .name name ∉ mentions remarks) :
    typeBodyOf? remarks name = none :=
  List.findSome?_eq_none_iff.mpr fun r hr => r.typeBodyOf?_eq_none fun hmention =>
    h (mem_mentions.mpr (hmention ▸ List.mem_map_of_mem hr))

end Mentions

/-! ## All that is said of a name -/

def Mention.name? : Mention → Option String
  | .name n => some n
  | .marker _ => none

/-- **The names in the order of their first mention.** -/
def mentionedNames (remarks : List Remark) : List String :=
  (mentions remarks).filterMap Mention.name?

/-- The descriptions that are given to a name. -/
def descriptionsOf (remarks : List Remark) (name : String) : List String :=
  remarks.filterMap (·.descriptionOf? name)

/-- The types that are given to a name. -/
def typeBodiesOf (remarks : List Remark) (name : String) : List String :=
  remarks.filterMap (·.typeBodyOf? name)

/-- No name has two descriptions or two types. -/
structure Single (remarks : List Remark) : Prop where
  description (name : String) : (descriptionsOf remarks name).length ≤ 1
  type (name : String) : (typeBodiesOf remarks name).length ≤ 1

section Names

variable {remarks : List Remark} {name : String}

theorem mem_mentionedNames : name ∈ mentionedNames remarks ↔ .name name ∈ mentions remarks := by
  rw [mentionedNames, List.mem_filterMap]
  constructor
  · rintro ⟨m | target, hm, hname⟩
    · cases hname
      exact hm
    · cases hname
  · exact fun h => ⟨_, h, rfl⟩

theorem filterMap_concat {α β : Type} (f : α → Option β) (l : List α) (a : α) :
    (l ++ [a]).filterMap f = l.filterMap f ++ (f a).toList := by
  rw [List.filterMap_append]
  cases h : f a <;> simp [h]

theorem nodup_mentionedNames (remarks : List Remark) : (mentionedNames remarks).Nodup := by
  induction remarks using List.reverseRecOn with
  | nil => exact .nil
  | append_singleton remarks r ih =>
    rw [mentionedNames, mentions_concat]
    cases hr : r.mention with
    | name name =>
      rw [addMention]
      split
      · exact ih
      · next hnew =>
        have hnodup := List.Nodup.concat (mem_mentionedNames.not.mpr hnew) ih
        rw [List.concat_eq_append] at hnodup
        rw [filterMap_concat]
        exact hnodup
    | marker target =>
      rw [addMention, filterMap_concat, Mention.name?, Option.toList_none, List.append_nil]
      exact ih

theorem head?_descriptionsOf :
    (descriptionsOf remarks name).head? = descriptionOf? remarks name :=
  List.head?_filterMap

theorem head?_typeBodiesOf : (typeBodiesOf remarks name).head? = typeBodyOf? remarks name :=
  List.head?_filterMap

theorem descriptionsOf_concat (r : Remark) :
    descriptionsOf (remarks ++ [r]) name =
      descriptionsOf remarks name ++ (r.descriptionOf? name).toList :=
  filterMap_concat _ remarks r

theorem typeBodiesOf_concat (r : Remark) :
    typeBodiesOf (remarks ++ [r]) name =
      typeBodiesOf remarks name ++ (r.typeBodyOf? name).toList :=
  filterMap_concat _ remarks r

theorem eq_toList_head? {α : Type} {l : List α} (h : l.length ≤ 1) : l = l.head?.toList := by
  match l with
  | [] | [_] => rfl
  | _ :: _ :: _ => simp at h

namespace Single

theorem empty : Single [] := ⟨fun _ => Nat.zero_le 1, fun _ => Nat.zero_le 1⟩

theorem descriptionsOf_eq (h : Single remarks) (name : String) :
    descriptionsOf remarks name = (descriptionOf? remarks name).toList := by
  rw [← head?_descriptionsOf]
  exact eq_toList_head? (h.description name)

theorem typeBodiesOf_eq (h : Single remarks) (name : String) :
    typeBodiesOf remarks name = (typeBodyOf? remarks name).toList := by
  rw [← head?_typeBodiesOf]
  exact eq_toList_head? (h.type name)

/-- A name that has no description may get one. -/
theorem concat_description (h : Single remarks) (hfree : descriptionOf? remarks name = none)
    (body : String) : Single (remarks ++ [.description name body]) where
  description n := by
    rw [descriptionsOf_concat]
    by_cases hn : name = n
    · subst hn
      rw [h.descriptionsOf_eq, hfree]
      simp
    · have hnone : (Remark.description name body).descriptionOf? n = none := if_neg hn
      rw [hnone]
      simpa using h.description n
  type n := by
    rw [typeBodiesOf_concat]
    simpa [Remark.typeBodyOf?] using h.type n

/-- A name that has no type may get one. -/
theorem concat_type (h : Single remarks) (hfree : typeBodyOf? remarks name = none)
    (body : String) : Single (remarks ++ [.type name body]) where
  description n := by
    rw [descriptionsOf_concat]
    simpa [Remark.descriptionOf?] using h.description n
  type n := by
    rw [typeBodiesOf_concat]
    by_cases hn : name = n
    · subst hn
      rw [h.typeBodiesOf_eq, hfree]
      simp
    · have hnone : (Remark.type name body).typeBodyOf? n = none := if_neg hn
      rw [hnone]
      simpa using h.type n

theorem concat_marker (h : Single remarks) (target : String) :
    Single (remarks ++ [.marker target]) where
  description n := by
    rw [descriptionsOf_concat]
    simpa [Remark.descriptionOf?] using h.description n
  type n := by
    rw [typeBodiesOf_concat]
    simpa [Remark.typeBodyOf?] using h.type n

end Single

end Names

end DocTree
