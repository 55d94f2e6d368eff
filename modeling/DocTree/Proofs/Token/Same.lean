import DocTree.Proofs.Token.Law
import DocTree.Proofs.Value.Same

/-!
# Sameness of tokens

Two trees are the same if they say the same throughout, methods included. A tree with NaN in it
differs from itself, so sameness is no equivalence; but it is symmetric, and trees that are the same
are of one name.

* `Entity.same_comm`, `Token.same_comm`: **sameness is symmetric**;
* `Token.qualifiedName_of_same`: tokens that are the same are of one name;
* `numberLaw`: no value in a tree is or holds NaN;
* **`Token.same_self`**: a tree that follows this law is the same as itself.
-/

namespace DocTree

/-! ## Sameness is symmetric -/

theorem Function.isSame_comm (f g : Function) : f.isSame g = g.isSame f :=
  congrArg₂ and BEq.comm BEq.comm

theorem Class.isSame_comm (c d : Class) : c.isSame d = d.isSame c :=
  congrArg₂ and BEq.comm BEq.comm

mutual

/-- **Sameness is symmetric.** -/
theorem Entity.same_comm : ∀ a b : Entity, a.same b = b.same a
  | .builtin a, e => by
    cases e with
    | builtin b => exact BEq.comm
    | _ => rfl
  | .value a, e => by
    cases e with
    | value b => exact a.same_comm b
    | _ => rfl
  | .function a, e => by
    cases e with
    | function b => exact a.isSame_comm b
    | _ => rfl
  | .class a, e => by
    cases e with
    | «class» b => exact a.isSame_comm b
    | _ => rfl
  | .module a, e => by
    cases e with
    | «module» b => exact BEq.comm
    | _ => rfl
  | .union as, e => by
    cases e with
    | union bs => exact Entity.sameAll_comm as bs
    | _ => rfl
  | .expanded a, e => by
    cases e with
    | expanded b => exact a.same_comm b
    | _ => rfl

theorem Entity.sameAll_comm : ∀ as bs : List Entity, Entity.sameAll as bs = Entity.sameAll bs as
  | [], [] => rfl
  | [], _ :: _ => rfl
  | _ :: _, [] => rfl
  | a :: as, b :: bs => by
    rw [Entity.sameAll, Entity.sameAll, a.same_comm b, Entity.sameAll_comm as bs]

theorem Entity.sameOption_comm :
    ∀ a b : Option Entity, Entity.sameOption a b = Entity.sameOption b a
  | none, none => rfl
  | none, some _ => rfl
  | some _, none => rfl
  | some a, some b => a.same_comm b

theorem Arg.same_comm : ∀ a b : Arg, a.same b = b.same a
  | ⟨name, type, description, default⟩, ⟨name', type', description', default'⟩ => by
    rw [Arg.same, Arg.same, BEq.comm (a := name), BEq.comm (a := description), type.same_comm type',
      Entity.sameOption_comm default default']

theorem Arg.sameAll_comm : ∀ as bs : List Arg, Arg.sameAll as bs = Arg.sameAll bs as
  | [], [] => rfl
  | [], _ :: _ => rfl
  | _ :: _, [] => rfl
  | a :: as, b :: bs => by rw [Arg.sameAll, Arg.sameAll, a.same_comm b, Arg.sameAll_comm as bs]

theorem ArgMap.same_comm : ∀ m n : ArgMap, m.same n = n.same m
  | ⟨args⟩, ⟨args'⟩ => Arg.sameAll_comm args args'

theorem Returns.same_comm : ∀ r s : Returns, r.same s = s.same r
  | ⟨name, type, description⟩, ⟨name', type', description'⟩ => by
    rw [Returns.same, Returns.same, BEq.comm (a := name), BEq.comm (a := description),
      Entity.sameOption_comm type type']

theorem Returns.sameOption_comm :
    ∀ r s : Option Returns, Returns.sameOption r s = Returns.sameOption s r
  | none, none => rfl
  | none, some _ => rfl
  | some _, none => rfl
  | some r, some s => r.same_comm s

theorem FunctionDoc.same_comm : ∀ a b : FunctionDoc, a.same b = b.same a
  | ⟨subject, description, args, returns, sections⟩,
    ⟨subject', description', args', returns', sections'⟩ => by
    rw [FunctionDoc.same, FunctionDoc.same, subject.isSame_comm, BEq.comm (a := description),
      args.same_comm args', Returns.sameOption_comm returns returns', BEq.comm (a := sections)]

theorem FunctionDoc.sameOption_comm :
    ∀ a b : Option FunctionDoc, FunctionDoc.sameOption a b = FunctionDoc.sameOption b a
  | none, none => rfl
  | none, some _ => rfl
  | some _, none => rfl
  | some a, some b => a.same_comm b

theorem FunctionDoc.sameEntries_comm : ∀ as bs : List (String × FunctionDoc),
    FunctionDoc.sameEntries as bs = FunctionDoc.sameEntries bs as
  | [], [] => rfl
  | [], _ :: _ => rfl
  | _ :: _, [] => rfl
  | (name, a) :: as, (name', b) :: bs => by
    rw [FunctionDoc.sameEntries, FunctionDoc.sameEntries, BEq.comm (a := name), a.same_comm b,
      FunctionDoc.sameEntries_comm as bs]

theorem FunctionDoc.sameMap_comm :
    ∀ a b : NameMap FunctionDoc, FunctionDoc.sameMap a b = FunctionDoc.sameMap b a
  | ⟨as⟩, ⟨bs⟩ => FunctionDoc.sameEntries_comm as bs

theorem FunctionDoc.sameMapOption_comm : ∀ a b : Option (NameMap FunctionDoc),
    FunctionDoc.sameMapOption a b = FunctionDoc.sameMapOption b a
  | none, none => rfl
  | none, some _ => rfl
  | some _, none => rfl
  | some a, some b => FunctionDoc.sameMap_comm a b

theorem ClassDoc.same_comm : ∀ a b : ClassDoc, a.same b = b.same a
  | ⟨subject, description, attributes, init, methods, sections⟩,
    ⟨subject', description', attributes', init', methods', sections'⟩ => by
    rw [ClassDoc.same, ClassDoc.same, subject.isSame_comm, BEq.comm (a := description),
      attributes.same_comm attributes', FunctionDoc.sameOption_comm init init',
      FunctionDoc.sameMapOption_comm methods methods', BEq.comm (a := sections)]

theorem Token.same_comm : ∀ t u : Token, t.same u = u.same t
  | .function a, .function b => a.same_comm b
  | .class a, .class b => a.same_comm b
  | .function _, .class _ => rfl
  | .class _, .function _ => rfl

end

/-! ## Names -/

theorem Function.fullName_of_isSame {f g : Function} (h : f.isSame g = true) :
    f.fullName = g.fullName := by
  obtain ⟨hmodule, hname⟩ := Bool.and_eq_true_iff.mp h
  rw [Function.fullName, Function.fullName, eq_of_beq hmodule, eq_of_beq hname]

theorem Class.fullName_of_isSame {c d : Class} (h : c.isSame d = true) :
    c.fullName = d.fullName := by
  obtain ⟨hmodule, hname⟩ := Bool.and_eq_true_iff.mp h
  rw [Class.fullName, Class.fullName, eq_of_beq hmodule, eq_of_beq hname]

/-- Tokens that are the same are of one name. -/
theorem Token.qualifiedName_of_same {t u : Token} (h : t.same u = true) :
    t.qualifiedName = u.qualifiedName := by
  rcases t with ⟨⟨f, _, _, _, _⟩⟩ | ⟨⟨c, _, _, _, _, _⟩⟩ <;>
    rcases u with ⟨⟨f', _, _, _, _⟩⟩ | ⟨⟨c', _, _, _, _, _⟩⟩
  · simp only [Token.same, FunctionDoc.same, Bool.and_eq_true] at h
    exact Function.fullName_of_isSame h.1.1.1.1
  · cases h
  · cases h
  · simp only [Token.same, ClassDoc.same, Bool.and_eq_true] at h
    exact Class.fullName_of_isSame h.1.1.1.1.1

/-! ## Without NaN -/

theorem Function.isSame_self (f : Function) : f.isSame f = true := by simp [Function.isSame]

theorem Class.isSame_self (c : Class) : c.isSame c = true := by simp [Class.isSame]

/-- All that is named in a tree or written as a literal is the same as itself: no value in it is or
holds NaN. -/
def numberLaw : Law where
  type e := e.isSimple = true → e.same e = true
  default d := d.same d = true

theorem Entity.Everywhere.member {P : Entity → Prop} {R : Token → Prop} {members : List Entity}
    (h : (Entity.union members).Everywhere P R) {m : Entity} (hm : m ∈ members) :
    m.Everywhere P R :=
  fun e he => h e (.member hm he)

theorem Entity.Everywhere.token {P : Entity → Prop} {R : Token → Prop} {token : Token}
    (h : (Entity.expanded token).Everywhere P R) : token.Everywhere P R :=
  ⟨(h _ (.self _)).2 token rfl, fun _ ht e he => h e (.embedded ht he)⟩

mutual

theorem Entity.same_self : ∀ {e : Entity}, e.Follows numberLaw → e.same e = true
  | .union _, h => Entity.sameAll_self fun _ hm => Entity.Everywhere.member h hm
  | .expanded _, h => Token.same_self (Entity.Everywhere.token h)
  | .builtin _, h | .value _, h | .function _, h | .class _, h | .module _, h =>
    (h _ (.self _)).1 rfl

theorem Entity.sameAll_self : ∀ {es : List Entity}, (∀ e ∈ es, e.Follows numberLaw) →
    Entity.sameAll es es = true
  | [], _ => rfl
  | _ :: _, h =>
    Bool.and_eq_true_iff.mpr ⟨Entity.same_self (List.forall_mem_cons.mp h).1,
      Entity.sameAll_self (List.forall_mem_cons.mp h).2⟩

theorem Arg.same_self : ∀ {arg : Arg}, arg.Follows numberLaw → arg.same arg = true
  | ⟨_, type, _, default⟩, h => by
    have htype : type.same type = true := Entity.same_self h.type
    have hdefault : Entity.sameOption default default = true := by
      cases default with
      | none => rfl
      | some d => exact h.default d rfl
    rw [Arg.same, beq_self_eq_true, beq_self_eq_true, htype, hdefault]
    rfl

theorem Arg.sameAll_self : ∀ {args : List Arg}, (∀ arg ∈ args, arg.Follows numberLaw) →
    Arg.sameAll args args = true
  | [], _ => rfl
  | _ :: _, h =>
    Bool.and_eq_true_iff.mpr ⟨Arg.same_self (List.forall_mem_cons.mp h).1,
      Arg.sameAll_self (List.forall_mem_cons.mp h).2⟩

theorem ArgMap.same_self : ∀ {m : ArgMap}, m.Follows numberLaw → m.same m = true
  | ⟨_⟩, h => Arg.sameAll_self h.args

theorem Returns.same_self : ∀ {r : Option Returns}, Returns.Follows numberLaw r →
    Returns.sameOption r r = true
  | none, _ => rfl
  | some ⟨_, none, _⟩, _ => by
    rw [Returns.sameOption, Returns.same, beq_self_eq_true, beq_self_eq_true]
    rfl
  | some ⟨_, some type, _⟩, h => by
    have htype : type.same type = true := Entity.same_self (h type rfl)
    rw [Returns.sameOption, Returns.same, beq_self_eq_true, beq_self_eq_true, Entity.sameOption,
      htype]
    rfl

theorem FunctionDoc.same_self : ∀ {doc : FunctionDoc}, doc.Follows numberLaw → doc.same doc = true
  | ⟨f, _, args, returns, _⟩, h => by
    have hargs : args.same args = true := ArgMap.same_self h.args
    have hreturns : Returns.sameOption returns returns = true := Returns.same_self h.returns
    rw [FunctionDoc.same, f.isSame_self, beq_self_eq_true, beq_self_eq_true, hargs, hreturns]
    rfl

theorem FunctionDoc.sameEntries_self : ∀ {docs : List (String × FunctionDoc)},
    (∀ entry ∈ docs, entry.2.Follows numberLaw) → FunctionDoc.sameEntries docs docs = true
  | [], _ => rfl
  | (_, doc) :: _, h => by
    obtain ⟨hdoc, hdocs⟩ := List.forall_mem_cons.mp h
    have hself : doc.same doc = true := FunctionDoc.same_self hdoc
    rw [FunctionDoc.sameEntries, beq_self_eq_true, hself, FunctionDoc.sameEntries_self hdocs]
    rfl

theorem FunctionDoc.sameOption_self : ∀ {doc : Option FunctionDoc},
    (∀ f ∈ doc.toList, f.Follows numberLaw) → FunctionDoc.sameOption doc doc = true
  | none, _ => rfl
  | some _, h => FunctionDoc.same_self (h _ List.mem_cons_self)

theorem FunctionDoc.sameMapOption_self : ∀ {docs : Option (NameMap FunctionDoc)},
    (∀ entry ∈ (docs.map NameMap.entries).getD [], entry.2.Follows numberLaw) →
    FunctionDoc.sameMapOption docs docs = true
  | none, _ => rfl
  | some ⟨_⟩, h => FunctionDoc.sameEntries_self h

theorem ClassDoc.same_self : ∀ {doc : ClassDoc}, doc.Follows numberLaw → doc.same doc = true
  | ⟨c, _, attributes, init, methods, _⟩, h => by
    have hattributes : attributes.same attributes = true := ArgMap.same_self h.attributes
    have hinit : FunctionDoc.sameOption init init = true :=
      FunctionDoc.sameOption_self fun f hf => h.functions f (List.mem_append.mpr (.inl hf))
    have hmethods : FunctionDoc.sameMapOption methods methods = true :=
      FunctionDoc.sameMapOption_self fun entry hentry =>
        h.functions entry.2 (List.mem_append.mpr (.inr (List.mem_map_of_mem hentry)))
    rw [ClassDoc.same, c.isSame_self, beq_self_eq_true, beq_self_eq_true, hattributes, hinit,
      hmethods]
    rfl

/-- **A tree without NaN is the same as itself.** -/
theorem Token.same_self : ∀ {token : Token}, token.Follows numberLaw → token.same token = true
  | .function _, h => FunctionDoc.same_self (Token.follows_function.mp h)
  | .class _, h => ClassDoc.same_self (Token.follows_class.mp h)

end

end DocTree
