import Mathlib.Logic.Basic
import DocTree.Proofs.Value.Dedup
import DocTree.Token.Basic

/-!
# What stands in a token

A token is a tree: its types may be unions, and they may hold other tokens in full.

* `Token.argMaps`, `Token.functions`, `Token.types`, `Token.defaults`: what is written in the token
  itself, in its constructor and in its methods;
* `Entity.HasPart`: what stands within a type, **at any depth**;
* `Token.TypeAt`, `Token.DefaultAt`: the types and the defaults of the whole tree;
* `Token.Everywhere`: a property of all tokens of a tree and of all types in them, with one rule
  for each form of a type.
-/

namespace DocTree

/-- Neither one of several types nor a token in full: what a name or a literal stands for. -/
def Entity.isSimple : Entity → Bool
  | .union _ | .expanded _ => false
  | _ => true

theorem Entity.ne_union_of_isSimple {e : Entity} (h : e.isSimple = true) (members : List Entity) :
    e ≠ .union members := by
  rintro rfl
  cases h

/-! ## Types and defaults -/

namespace ArgMap

def types (m : ArgMap) : List Entity := m.toList.map (·.type)

def defaults (m : ArgMap) : List Entity := m.toList.filterMap (·.default)

theorem mem_types {m : ArgMap} {t : Entity} : t ∈ m.types ↔ ∃ arg ∈ m.toList, arg.type = t :=
  List.mem_map

theorem mem_defaults {m : ArgMap} {d : Entity} :
    d ∈ m.defaults ↔ ∃ arg ∈ m.toList, arg.default = some d :=
  List.mem_filterMap

end ArgMap

namespace FunctionDoc

/-- The types of the arguments and of the result. -/
def types (doc : FunctionDoc) : List Entity :=
  doc.args.types ++ (doc.returns.bind (·.type)).toList

def defaults (doc : FunctionDoc) : List Entity := doc.args.defaults

theorem mem_types {doc : FunctionDoc} {t : Entity} :
    t ∈ doc.types ↔ t ∈ doc.args.types ∨ doc.returns.bind (·.type) = some t := by
  rw [types, List.mem_append, Option.mem_toList]

end FunctionDoc

namespace ClassDoc

/-- The constructor and the methods. -/
def functions (doc : ClassDoc) : List FunctionDoc :=
  doc.init.toList ++ ((doc.methods.map NameMap.entries).getD []).map (·.2)

def types (doc : ClassDoc) : List Entity :=
  doc.attributes.types ++ doc.functions.flatMap FunctionDoc.types

def defaults (doc : ClassDoc) : List Entity :=
  doc.attributes.defaults ++ doc.functions.flatMap FunctionDoc.defaults

/-- The attributes, and the arguments of the constructor and of the methods. -/
def argMaps (doc : ClassDoc) : List ArgMap := doc.attributes :: doc.functions.map (·.args)

theorem exists_argMaps {doc : ClassDoc} {p : ArgMap → Prop} :
    (∃ m ∈ doc.argMaps, p m) ↔ p doc.attributes ∨ ∃ f ∈ doc.functions, p f.args := by
  simp only [argMaps, List.mem_cons, List.mem_map, or_and_right, exists_or, exists_eq_left,
    exists_exists_and_eq_and]

theorem forall_argMaps {doc : ClassDoc} {p : ArgMap → Prop} :
    (∀ m ∈ doc.argMaps, p m) ↔ p doc.attributes ∧ ∀ f ∈ doc.functions, p f.args := by
  simp [argMaps]

end ClassDoc

namespace Token

/-- The types that are written in the token, in its constructor and in its methods. -/
def types : Token → List Entity
  | .function doc => doc.types
  | .class doc => doc.types

/-- The defaults that are written in the token, in its constructor and in its methods. -/
def defaults : Token → List Entity
  | .function doc => doc.defaults
  | .class doc => doc.defaults

/-- The arguments that are written in the token, in its constructor and in its methods. -/
def argMaps : Token → List ArgMap
  | .function doc => [doc.args]
  | .class doc => doc.argMaps

/-- The functions that are documented in the token itself. -/
def functions : Token → List FunctionDoc
  | .function doc => [doc]
  | .class doc => doc.functions

theorem mem_types {token : Token} {t : Entity} :
    t ∈ token.types ↔
      (∃ m ∈ token.argMaps, t ∈ m.types) ∨
        ∃ f ∈ token.functions, f.returns.bind (·.type) = some t := by
  cases token with
  | function doc => simp [types, argMaps, functions, FunctionDoc.mem_types]
  | «class» doc =>
    simp only [types, argMaps, functions, ClassDoc.types, List.mem_append, List.mem_flatMap,
      FunctionDoc.mem_types, and_or_left, exists_or, ClassDoc.exists_argMaps, or_assoc]

theorem mem_defaults {token : Token} {d : Entity} :
    d ∈ token.defaults ↔ ∃ m ∈ token.argMaps, d ∈ m.defaults := by
  cases token with
  | function doc => simp [defaults, argMaps, FunctionDoc.defaults]
  | «class» doc =>
    simp only [defaults, argMaps, ClassDoc.defaults, FunctionDoc.defaults, List.mem_append,
      List.mem_flatMap, ClassDoc.exists_argMaps]

end Token

/-! ## Positions -/

/-- The second entity stands within the first: it is the type itself, a member of a union in it, or
a type of a token in it. -/
inductive Entity.HasPart : Entity → Entity → Prop where
  | self (e : Entity) : HasPart e e
  | member {members : List Entity} {m e : Entity} (hm : m ∈ members) (h : HasPart m e) :
      HasPart (.union members) e
  | embedded {token : Token} {t e : Entity} (ht : t ∈ token.types) (h : HasPart t e) :
      HasPart (.expanded token) e

namespace Token

/-- The entity stands as a type, or within one, somewhere in the tree of the token. -/
def TypeAt (token : Token) (e : Entity) : Prop := ∃ t ∈ token.types, t.HasPart e

/-- The entity is a default of the token or of a token in its tree. -/
def DefaultAt (token : Token) (d : Entity) : Prop :=
  d ∈ token.defaults ∨ ∃ u, token.TypeAt (.expanded u) ∧ d ∈ u.defaults

end Token

/-! ## Properties of a whole tree -/

/-- `P` holds of all that stands within the type, and `R` of every token there. -/
def Entity.Everywhere (P : Entity → Prop) (R : Token → Prop) (t : Entity) : Prop :=
  ∀ e, t.HasPart e → P e ∧ ∀ u, e = .expanded u → R u

/-- `P` holds of every type in the tree, and `R` of every token, the whole one included. -/
def Token.Everywhere (P : Entity → Prop) (R : Token → Prop) (token : Token) : Prop :=
  R token ∧ ∀ t ∈ token.types, t.Everywhere P R

section Everywhere

variable {P : Entity → Prop} {R : Token → Prop}

/-- A simple type has no part but itself. -/
theorem Entity.everywhere_of_simple {t : Entity} (hsimple : t.isSimple = true) (h : P t) :
    t.Everywhere P R := by
  intro e he
  cases he with
  | self _ =>
    refine ⟨h, ?_⟩
    rintro u rfl
    cases hsimple
  | member _ _ => cases hsimple
  | embedded _ _ => cases hsimple

theorem Entity.everywhere_union {members : List Entity} (h : P (.union members))
    (hmembers : ∀ m ∈ members, m.Everywhere P R) : (Entity.union members).Everywhere P R := by
  intro e he
  cases he with
  | self _ => exact ⟨h, fun u hu => nomatch hu⟩
  | member hm he => exact hmembers _ hm e he

theorem Entity.everywhere_expanded {token : Token} (h : P (.expanded token))
    (htoken : token.Everywhere P R) : (Entity.expanded token).Everywhere P R := by
  intro e he
  cases he with
  | self _ =>
    refine ⟨h, fun u hu => ?_⟩
    obtain rfl := Entity.expanded.inj hu
    exact htoken.1
  | embedded ht he => exact htoken.2 _ ht e he

theorem Token.Everywhere.of_typeAt {token : Token} (h : token.Everywhere P R) {e : Entity}
    (he : token.TypeAt e) : P e := by
  obtain ⟨t, ht, hpart⟩ := he
  exact (h.2 t ht e hpart).1

theorem Token.Everywhere.of_embedded {token u : Token} (h : token.Everywhere P R)
    (hu : token.TypeAt (.expanded u)) : R u := by
  obtain ⟨t, ht, hpart⟩ := hu
  exact (h.2 t ht _ hpart).2 u rfl

/-- A type of several alternatives has a property everywhere if each of them has, and their union
has it, if it takes one. -/
theorem Entity.everywhere_ofAlternatives {types : List Entity}
    (hunion : (Entity.unionMembers types).length ≠ 1 → P (.union (Entity.unionMembers types)))
    (h : ∀ t ∈ types, t.Everywhere P R) : (Entity.ofAlternatives types).Everywhere P R := by
  have hmembers : ∀ t ∈ Entity.unionMembers types, t.Everywhere P R :=
    fun t ht => h t (mem_of_mem_dedup ht)
  unfold Entity.ofAlternatives
  split
  · next single hsingle => exact hmembers single (by rw [hsingle]; exact List.mem_cons_self)
  · next hmany =>
    refine Entity.everywhere_union (hunion fun hone => ?_) hmembers
    obtain ⟨single, hsingle⟩ := List.length_eq_one_iff.mp hone
    exact hmany single hsingle

theorem Entity.Everywhere.mono {P' : Entity → Prop} {R' : Token → Prop} {t : Entity}
    (h : t.Everywhere P R) (hP : ∀ e, P e → P' e) (hR : ∀ u, R u → R' u) : t.Everywhere P' R' :=
  fun e he => ⟨hP e (h e he).1, fun u hu => hR u ((h e he).2 u hu)⟩

theorem Token.Everywhere.mono {P' : Entity → Prop} {R' : Token → Prop} {token : Token}
    (h : token.Everywhere P R) (hP : ∀ e, P e → P' e) (hR : ∀ u, R u → R' u) :
    token.Everywhere P' R' :=
  ⟨hR token h.1, fun t ht => (h.2 t ht).mono hP hR⟩

end Everywhere

end DocTree
