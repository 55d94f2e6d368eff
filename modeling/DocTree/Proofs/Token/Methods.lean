import DocTree.Proofs.Value.Dedup
import DocTree.Token.Basic

/-!
# Tokens without their methods

The methods of a class are documented on request, so two tokens of one class may differ in them.

* `Token.withoutMethods`: the token with the methods erased from every class in it, at any depth.
* `Entity.ofAlternatives_withoutMethods`: alternatives that compare the same way make a union that
  looks the same.
-/

namespace DocTree

mutual

def Entity.withoutMethods : Entity → Entity
  | .builtin b => .builtin b
  | .value v => .value v
  | .function f => .function f
  | .class c => .class c
  | .module path => .module path
  | .union members => .union (Entity.allWithoutMethods members)
  | .expanded token => .expanded token.withoutMethods

def Entity.allWithoutMethods : List Entity → List Entity
  | [] => []
  | e :: es => e.withoutMethods :: Entity.allWithoutMethods es

def Entity.optionWithoutMethods : Option Entity → Option Entity
  | none => none
  | some e => some e.withoutMethods

def Arg.withoutMethods : Arg → Arg
  | ⟨name, type, description, default⟩ =>
    ⟨name, type.withoutMethods, description, Entity.optionWithoutMethods default⟩

def Arg.allWithoutMethods : List Arg → List Arg
  | [] => []
  | arg :: args => arg.withoutMethods :: Arg.allWithoutMethods args

def ArgMap.withoutMethods : ArgMap → ArgMap
  | ⟨args⟩ => ⟨Arg.allWithoutMethods args⟩

def Returns.withoutMethods : Returns → Returns
  | ⟨name, type, description⟩ => ⟨name, Entity.optionWithoutMethods type, description⟩

def Returns.optionWithoutMethods : Option Returns → Option Returns
  | none => none
  | some r => some r.withoutMethods

def FunctionDoc.withoutMethods : FunctionDoc → FunctionDoc
  | ⟨subject, description, args, returns, sections⟩ =>
    ⟨subject, description, args.withoutMethods, Returns.optionWithoutMethods returns, sections⟩

def FunctionDoc.optionWithoutMethods : Option FunctionDoc → Option FunctionDoc
  | none => none
  | some doc => some doc.withoutMethods

def ClassDoc.withoutMethods : ClassDoc → ClassDoc
  | ⟨subject, description, attributes, init, _, sections⟩ =>
    ⟨subject, description, attributes.withoutMethods, FunctionDoc.optionWithoutMethods init, none,
      sections⟩

/-- **The token with the methods erased from every class in it.** -/
def Token.withoutMethods : Token → Token
  | .function doc => .function doc.withoutMethods
  | .class doc => .class doc.withoutMethods

end

/-! ## The parts of a token -/

@[simp] theorem Entity.allWithoutMethods_eq (es : List Entity) :
    Entity.allWithoutMethods es = es.map Entity.withoutMethods := by
  induction es with
  | nil => rfl
  | cons e es ih => rw [Entity.allWithoutMethods, ih, List.map_cons]

@[simp] theorem Entity.optionWithoutMethods_eq (e : Option Entity) :
    Entity.optionWithoutMethods e = e.map Entity.withoutMethods := by
  cases e <;> rfl

@[simp] theorem Arg.allWithoutMethods_eq (args : List Arg) :
    Arg.allWithoutMethods args = args.map Arg.withoutMethods := by
  induction args with
  | nil => rfl
  | cons arg args ih => rw [Arg.allWithoutMethods, ih, List.map_cons]

@[simp] theorem Returns.optionWithoutMethods_eq (r : Option Returns) :
    Returns.optionWithoutMethods r = r.map Returns.withoutMethods := by
  cases r <;> rfl

@[simp] theorem FunctionDoc.optionWithoutMethods_eq (doc : Option FunctionDoc) :
    FunctionDoc.optionWithoutMethods doc = doc.map FunctionDoc.withoutMethods := by
  cases doc <;> rfl

@[simp] theorem Arg.withoutMethods_name (arg : Arg) : arg.withoutMethods.name = arg.name := by
  cases arg; rfl

@[simp] theorem Arg.withoutMethods_type (arg : Arg) :
    arg.withoutMethods.type = arg.type.withoutMethods := by
  cases arg; rfl

@[simp] theorem Arg.withoutMethods_description (arg : Arg) :
    arg.withoutMethods.description = arg.description := by
  cases arg; rfl

@[simp] theorem Arg.withoutMethods_default (arg : Arg) :
    arg.withoutMethods.default = arg.default.map Entity.withoutMethods := by
  cases arg; simp [Arg.withoutMethods]

/-- Description and default may be replaced before or after. -/
theorem Arg.withoutMethods_with (arg : Arg) (description : Option String)
    (default : Option Entity) :
    ({ arg with description := description, default := default } : Arg).withoutMethods =
      { arg.withoutMethods with
        description := description
        default := default.map Entity.withoutMethods } := by
  cases arg; simp [Arg.withoutMethods]

@[simp] theorem ArgMap.withoutMethods_toList (m : ArgMap) :
    m.withoutMethods.toList = m.toList.map Arg.withoutMethods := by
  cases m; simp [ArgMap.withoutMethods]

/-- A class token without its methods says the same whatever methods were asked for. -/
theorem ClassDoc.withoutMethods_congr (doc : ClassDoc) (methods : Option (NameMap FunctionDoc)) :
    ({ doc with methods := methods } : ClassDoc).withoutMethods = doc.withoutMethods := by
  cases doc; rfl

@[simp] theorem FunctionDoc.withoutMethods_args (doc : FunctionDoc) :
    doc.withoutMethods.args = doc.args.withoutMethods := by
  cases doc; rfl

@[simp] theorem ClassDoc.withoutMethods_attributes (doc : ClassDoc) :
    doc.withoutMethods.attributes = doc.attributes.withoutMethods := by
  cases doc; rfl

@[simp] theorem ClassDoc.withoutMethods_init (doc : ClassDoc) :
    doc.withoutMethods.init = doc.init.map FunctionDoc.withoutMethods := by
  cases doc; exact FunctionDoc.optionWithoutMethods_eq _

/-! ## Arguments -/

theorem ArgMap.get?_withoutMethods (m : ArgMap) (name : String) :
    m.withoutMethods.get? name = (m.get? name).map Arg.withoutMethods := by
  have hname : ((fun arg : Arg => arg.name == name) ∘ Arg.withoutMethods) =
      fun arg => arg.name == name := funext fun arg => by simp
  rw [ArgMap.get?, withoutMethods_toList, List.find?_map, hname]
  rfl

theorem ArgMap.contains_withoutMethods (m : ArgMap) (name : String) :
    m.withoutMethods.contains name = m.contains name := by
  rw [ArgMap.contains, get?_withoutMethods, Option.isSome_map]
  rfl

theorem ArgMap.insert?_withoutMethods (m : ArgMap) (arg : Arg) :
    m.withoutMethods.insert? arg.withoutMethods = (m.insert? arg).map ArgMap.withoutMethods := by
  rw [ArgMap.insert?, ArgMap.insert?, Arg.withoutMethods_name, contains_withoutMethods]
  split
  · rfl
  · simp [ArgMap.withoutMethods]

/-- The arguments that build an instance, without methods. -/
theorem ClassDoc.constructorArgs_withoutMethods (doc : ClassDoc) :
    doc.withoutMethods.constructorArgs = doc.constructorArgs.withoutMethods := by
  rw [ClassDoc.constructorArgs, ClassDoc.constructorArgs, withoutMethods_init]
  cases doc.init with
  | none => exact doc.withoutMethods_attributes
  | some init => exact init.withoutMethods_args

/-! ## Unions -/

/-- **A union has the same members, whatever the methods in them**, if its alternatives compare the
same way. -/
theorem Entity.ofAlternatives_withoutMethods {R : Entity → Entity → Prop}
    (hlook : ∀ {e e'}, R e e' → e.withoutMethods = e'.withoutMethods)
    (hsame : ∀ {a b a' b'}, R a b → R a' b' → a.same a' = b.same b') {types types' : List Entity}
    (h : List.Forall₂ R types types') :
    (Entity.ofAlternatives types).withoutMethods =
      (Entity.ofAlternatives types').withoutMethods := by
  have hmembers : List.Forall₂ R (unionMembers types) (unionMembers types') :=
    forall₂_dedup hsame h
  have hlooks : (unionMembers types).map Entity.withoutMethods =
      (unionMembers types').map Entity.withoutMethods := by
    rw [← List.forall₂_eq_eq_eq, List.forall₂_map_left_iff, List.forall₂_map_right_iff]
    exact hmembers.imp fun _ _ => hlook
  unfold Entity.ofAlternatives
  generalize unionMembers types = members at hmembers hlooks
  generalize unionMembers types' = members' at hmembers hlooks
  have hunion : (Entity.union members).withoutMethods = (Entity.union members').withoutMethods := by
    rw [Entity.withoutMethods, Entity.withoutMethods, allWithoutMethods_eq, allWithoutMethods_eq,
      hlooks]
  cases hmembers with
  | nil => exact hunion
  | cons hfirst hrest =>
    cases hrest with
    | nil => exact hlook hfirst
    | cons _ _ => exact hunion

end DocTree
