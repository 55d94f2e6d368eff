import DocTree.Proofs.Token.Positions

/-!
# Laws for tokens

A law says what is to be true of all types and of all defaults in the tree of a token. A tree that
follows it is well formed besides, whatever the law is.

* `Law`: what types and defaults are to satisfy;
* `ArgMap.IsNamed`: the names are identifiers and all different;
* `Token.CoversConstructor`: **the parameters of a constructor are documented**;
* `Entity.Follows`, `Token.Follows`: all this is true of the whole tree;
* `Token.follows_function`, `Token.follows_class`: a tree follows a law part by part.
-/

namespace DocTree

/-! ## Names and constructors -/

/-- The names are identifiers, and no two are the same. -/
structure ArgMap.IsNamed (m : ArgMap) : Prop where
  nodup : m.names.Nodup
  identifiers : ∀ name ∈ m.names, isIdentifier name = true

/-- Every parameter without an asterisk is documented. -/
def ArgMap.Covers (m : ArgMap) (params : List String) : Prop :=
  ∀ p ∈ params, p.toList.head? ≠ some '*' → p ∈ m.names

/-- The parameters of the constructor, as far as they are known. A record has a generated one, which
takes the fields. -/
def Class.constructorParams (c : Class) : List String :=
  if c.isRecord then c.fields.getD [] else (c.init.bind (·.params)).getD []

/-- The parameters of the constructor are among the arguments that build an instance. -/
def ClassDoc.CoversConstructor (doc : ClassDoc) : Prop :=
  doc.constructorArgs.Covers doc.subject.constructorParams

def Token.CoversConstructor : Token → Prop
  | .function _ => True
  | .class doc => doc.CoversConstructor

theorem ArgMap.contains_iff {m : ArgMap} {name : String} :
    m.contains name = true ↔ name ∈ m.names := by
  simp [contains, get?, names]

theorem ClassDoc.constructorArgs_eq (doc : ClassDoc) :
    doc.constructorArgs = doc.init.elim doc.attributes (·.args) := by
  unfold constructorArgs
  cases doc.init <;> rfl

/-! ## Laws -/

/-- What is to be true of the types in a tree, members of unions among them, and of the defaults. -/
structure Law where
  type : Entity → Prop
  default : Entity → Prop

/-- What is true of a token apart from the types in it. -/
structure Token.IsSound (L : Law) (token : Token) : Prop where
  named : ∀ m ∈ token.argMaps, m.IsNamed
  defaults : ∀ d ∈ token.defaults, L.default d
  covers : token.CoversConstructor

/-- The law is true of all that stands within the type. -/
def Entity.Follows (L : Law) (t : Entity) : Prop := t.Everywhere L.type (Token.IsSound L)

/-- The law is true of the whole tree. -/
def Token.Follows (L : Law) (token : Token) : Prop := token.Everywhere L.type (Token.IsSound L)

/-! ## The parts of a token -/

section Parts

variable (L : Law)

structure Arg.Follows (arg : Arg) : Prop where
  identifier : isIdentifier arg.name = true
  type : arg.type.Follows L
  default : ∀ d, arg.default = some d → L.default d

structure ArgMap.Follows (m : ArgMap) : Prop where
  nodup : m.names.Nodup
  args : ∀ arg ∈ m.toList, arg.Follows L

/-- The type of a result, if there is one, follows the law. -/
def Returns.Follows (returns : Option Returns) : Prop :=
  ∀ t, returns.bind (·.type) = some t → t.Follows L

structure FunctionDoc.Follows (doc : FunctionDoc) : Prop where
  args : doc.args.Follows L
  returns : Returns.Follows L doc.returns

structure ClassDoc.Follows (doc : ClassDoc) : Prop where
  attributes : doc.attributes.Follows L
  functions : ∀ f ∈ doc.functions, f.Follows L
  covers : doc.CoversConstructor

variable {L}

theorem ArgMap.follows_iff {m : ArgMap} :
    m.Follows L ↔
      m.IsNamed ∧ (∀ t ∈ m.types, t.Follows L) ∧ ∀ d ∈ m.defaults, L.default d := by
  constructor
  · intro h
    refine ⟨⟨h.nodup, fun name hname => ?_⟩, fun t ht => ?_, fun d hd => ?_⟩
    · obtain ⟨arg, harg, rfl⟩ := List.mem_map.mp hname
      exact (h.args arg harg).identifier
    · obtain ⟨arg, harg, rfl⟩ := mem_types.mp ht
      exact (h.args arg harg).type
    · obtain ⟨arg, harg, hdefault⟩ := mem_defaults.mp hd
      exact (h.args arg harg).default d hdefault
  · rintro ⟨hnamed, htypes, hdefaults⟩
    refine ⟨hnamed.nodup, fun arg harg => ⟨?_, ?_, fun d hd => ?_⟩⟩
    · exact hnamed.identifiers _ (List.mem_map_of_mem harg)
    · exact htypes _ (mem_types.mpr ⟨arg, harg, rfl⟩)
    · exact hdefaults d (mem_defaults.mpr ⟨arg, harg, hd⟩)

/-- A tree follows the law if its arguments and results do and its constructor is documented. -/
theorem Token.follows_iff {token : Token} :
    token.Follows L ↔
      (∀ m ∈ token.argMaps, m.Follows L) ∧ (∀ f ∈ token.functions, Returns.Follows L f.returns) ∧
        token.CoversConstructor := by
  constructor
  · rintro ⟨hsound, htypes⟩
    refine ⟨fun m hm => ArgMap.follows_iff.mpr ⟨hsound.named m hm, fun t ht => ?_, fun d hd => ?_⟩,
      fun f hf t ht => ?_, hsound.covers⟩
    · exact htypes t (mem_types.mpr (.inl ⟨m, hm, ht⟩))
    · exact hsound.defaults d (mem_defaults.mpr ⟨m, hm, hd⟩)
    · exact htypes t (mem_types.mpr (.inr ⟨f, hf, ht⟩))
  · rintro ⟨hargs, hreturns, hcovers⟩
    refine ⟨⟨fun m hm => (ArgMap.follows_iff.mp (hargs m hm)).1, fun d hd => ?_, hcovers⟩,
      fun t ht => ?_⟩
    · obtain ⟨m, hm, hd⟩ := mem_defaults.mp hd
      exact (ArgMap.follows_iff.mp (hargs m hm)).2.2 d hd
    · rcases mem_types.mp ht with ⟨m, hm, ht⟩ | ⟨f, hf, ht⟩
      · exact (ArgMap.follows_iff.mp (hargs m hm)).2.1 t ht
      · exact hreturns f hf t ht

theorem Token.follows_function {doc : FunctionDoc} :
    (Token.function doc).Follows L ↔ doc.Follows L := by
  rw [follows_iff, argMaps, functions, List.forall_mem_singleton, List.forall_mem_singleton]
  exact ⟨fun h => ⟨h.1, h.2.1⟩, fun h => ⟨h.args, h.returns, trivial⟩⟩

theorem Token.follows_class {doc : ClassDoc} : (Token.class doc).Follows L ↔ doc.Follows L := by
  rw [follows_iff, argMaps, functions, ClassDoc.forall_argMaps]
  constructor
  · rintro ⟨⟨hattributes, hargs⟩, hreturns, hcovers⟩
    exact ⟨hattributes, fun f hf => ⟨hargs f hf, hreturns f hf⟩, hcovers⟩
  · intro h
    exact ⟨⟨h.attributes, fun f hf => (h.functions f hf).args⟩,
      fun f hf => (h.functions f hf).returns, h.covers⟩

end Parts

end DocTree
