import Mathlib.Tactic.SplitIfs
import DocTree.Proofs.Token.Positions
import DocTree.Resolver

/-!
# Objects within reach

* `Object.entryName?`: the name by which a class or a function is known;
* `Resolver.Reaches`: what attribute access leads to from the modules and from the names bound
  outside them;
* **`Resolver.reaches_of_resolve`**: a token stands for an object within reach, unless it is a
  built-in type or a literal;
* `Resolver.Knows`, `Unambiguous`: the objects that a parser may come to know, and that no two of
  them share a full name.
-/

namespace DocTree

/-- The full name of a class or a function, under which it has an entry in a registry. Other objects
have none. -/
def Object.entryName? : Object → Option String
  | .class c => some c.fullName
  | .function f => some f.fullName
  | _ => none

theorem Entity.ofObject_injective {o o' : Object} (h : Entity.ofObject o = .ofObject o') :
    o = o' := by
  cases o <;> cases o' <;> cases h <;> rfl

/-- The objects that attribute access leads to. Modules are known by their paths alone. -/
inductive Resolver.Reaches (r : Resolver) : Object → Prop where
  | «module» (path : String) : r.Reaches (.module path)
  | scope {name : String} {o : Object} (h : r.scope.get? name = some o) : r.Reaches o
  | member {o o' : Object} {name : String} (ho : r.Reaches o)
      (h : r.host.member? o name = some o') : r.Reaches o'

namespace Resolver

variable {r : Resolver}

theorem reaches_of_follow? {names : List String} {o o' : Object} (ho : r.Reaches o)
    (h : r.host.follow? o names = some o') : r.Reaches o' := by
  induction names generalizing o with
  | nil => cases h; exact ho
  | cons name names ih =>
    obtain ⟨mid, hmid, hrest⟩ := Option.bind_eq_some_iff.mp h
    exact ih (ho.member hmid) hrest

theorem reaches_of_import? {path : String} {o : Object} (h : r.host.import? path = some o) :
    r.Reaches o := by
  unfold Host.import? at h
  split at h
  · cases h
    exact .module path
  · cases h

theorem reaches_of_lookupFrom? {names : List String} {n : Nat} {o : Object}
    (h : r.host.lookupFrom? names n = some o) : r.Reaches o := by
  induction n with
  | zero => cases h
  | succ n ih =>
    rw [Host.lookupFrom?, Option.or_eq_some_iff] at h
    rcases h with h | ⟨-, h⟩
    · obtain ⟨mid, hmid, hrest⟩ := Option.bind_eq_some_iff.mp h
      exact reaches_of_follow? (reaches_of_import? hmid) hrest
    · exact ih h

theorem reaches_of_bound? {names : NameMap Object} {token : String} {e : Entity}
    (hnames : ∀ name o, names.get? name = some o → r.Reaches o)
    (h : r.bound? names token = some e) : ∃ o, e = .ofObject o ∧ r.Reaches o := by
  unfold bound? at h
  split at h
  · cases h
  · obtain ⟨object, hobject, hfollow⟩ := Option.bind_eq_some_iff.mp h
    obtain ⟨o, ho, rfl⟩ := Option.map_eq_some_iff.mp hfollow
    exact ⟨o, rfl, reaches_of_follow? (hnames _ _ hobject) ho⟩

/-- What a strategy comes to: an object within reach, a built-in type, or a literal. -/
theorem apply_cases {ctx : Context} {token : String} {strategy : Strategy} {e : Entity}
    (h : r.apply ctx token strategy = some e) :
    (∃ o, e = .ofObject o ∧ r.Reaches o) ∨ (∃ b, e = .builtin b) ∨
      ∃ v text, e = .value v ∧ Literal.read text = .ok v := by
  cases strategy with
  | builtin =>
    right
    change builtin? token = some e at h
    unfold builtin? at h
    split_ifs at h
    · exact .inr ⟨_, "None", (Option.some.inj h).symm, rfl⟩
    · exact .inr ⟨_, "True", (Option.some.inj h).symm, rfl⟩
    · exact .inr ⟨_, "False", (Option.some.inj h).symm, rfl⟩
    · exact .inr ⟨_, "Ellipsis", (Option.some.inj h).symm, rfl⟩
    · obtain ⟨b, -, rfl⟩ := Option.map_eq_some_iff.mp h
      exact .inl ⟨b, rfl⟩
  | «module» =>
    left
    simp only [apply] at h
    split at h
    · obtain ⟨m, hm, hbound⟩ := Option.bind_eq_some_iff.mp h
      refine reaches_of_bound? (fun name o ho => ?_) hbound
      have hmember : r.host.member? (.module ctx.module) name = some o := by
        simp [Host.member?, hm, ho]
      exact (Reaches.module ctx.module).member hmember
    · cases h
  | scope =>
    left
    simp only [apply] at h
    split at h
    · exact reaches_of_bound? (fun _ _ ho => .scope ho) h
    · cases h
  | literal =>
    obtain ⟨v, hv, rfl⟩ := Option.map_eq_some_iff.mp h
    refine .inr (.inr ⟨v, token, rfl, ?_⟩)
    cases hread : Literal.read token with
    | ok w =>
      rw [hread] at hv
      exact congrArg Except.ok (Option.some.inj hv)
    | error e =>
      rw [hread] at hv
      cases hv
  | dottedPath =>
    left
    simp only [apply] at h
    split at h
    · obtain ⟨o, ho, rfl⟩ := Option.map_eq_some_iff.mp h
      exact ⟨o, rfl, reaches_of_lookupFrom? ho⟩
    · cases h

theorem resolve_cases {ctx : Context} {token : String} {e : Entity}
    (h : r.resolve ctx token = .ok e) :
    (∃ o, e = .ofObject o ∧ r.Reaches o) ∨ (∃ b, e = .builtin b) ∨
      ∃ v text, e = .value v ∧ Literal.read text = .ok v := by
  simp only [resolve] at h
  split at h
  · next entity hfind =>
    cases h
    obtain ⟨strategy, -, happly⟩ := List.exists_of_findSome?_eq_some hfind
    exact apply_cases happly
  · cases h

theorem resolve_error {ctx : Context} {token : String} {e : Error}
    (h : r.resolve ctx token = .error e) : ∃ name, e = .unresolved name ctx.object := by
  simp only [resolve] at h
  split at h
  · cases h
  · cases h
    exact ⟨_, rfl⟩

/-- **A class or a function that a token stands for is within reach.** -/
theorem reaches_of_resolve {ctx : Context} {token name : String} {o : Object}
    (hname : o.entryName? = some name) (h : r.resolve ctx token = .ok (.ofObject o)) :
    r.Reaches o := by
  rcases resolve_cases h with ⟨o', ho', hreach⟩ | ⟨b, hb⟩ | ⟨v, _, hv, -⟩
  · rw [Entity.ofObject_injective ho']
    exact hreach
  · cases o <;> cases hb
  · cases o with
    | value w => cases hname
    | «class» c => cases hv
    | function f => cases hv
    | «module» path => cases hv

/-! ## Known objects -/

/-- The objects that a parser may come to know: those within reach and those it is given. -/
def Knows (r : Resolver) (given : List Object) (o : Object) : Prop := r.Reaches o ∨ o ∈ given

end Resolver

/-- What a token of a host stands for is simple. -/
theorem resolve_isSimple {r : Resolver} {ctx : Context} {token : String} {e : Entity}
    (h : r.resolve ctx token = .ok e) : e.isSimple = true := by
  rcases Resolver.resolve_cases h with ⟨o, rfl, _⟩ | ⟨b, rfl⟩ | ⟨v, _, rfl, -⟩
  · cases o <;> rfl
  · rfl
  · rfl

/-- **Two known classes or functions of one full name are always the same object.** -/
def Unambiguous (known : Object → Prop) : Prop :=
  ∀ o o' name, known o → known o' → o.entryName? = some name → o'.entryName? = some name → o = o'

theorem Unambiguous.mono {known known' : Object → Prop} (h : Unambiguous known)
    (hsub : ∀ o, known' o → known o) : Unambiguous known' :=
  fun o o' name ho ho' => h o o' name (hsub o ho) (hsub o' ho')

end DocTree
