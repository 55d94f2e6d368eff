import DocTree.Proofs.Markup.Mentions
import DocTree.Proofs.Parse.Invariant
import DocTree.Proofs.Text.Lines

/-!
# What a mention contributes

The arguments that a document has at each of its mentions, in terms of what its remarks say and of
the tokens that are finished.

* `StandsFor`, `Means`: a type as it is written, and the body of a type field;
* `SelfLink`: the attribute that a link to the enclosing class names;
* `Token.Offers`: the arguments that a linked object has to offer;
* `Contributes`: **the arguments of one mention**. There is at most one list of them
  (`Contributes.unique`).
-/

namespace DocTree

open Registry

/-- The ways to name an attribute of the enclosing class: `self` is the one of the argument's own
name, `self arg` and `self.arg` the one called `arg`. -/
inductive SelfLink (name : String) : String → Option String → String → Prop where
  | own : SelfLink name "self" none name
  | named (arg : String) : SelfLink name "self" (some arg) arg
  | dotted {arg : String} (h : arg ≠ "") : SelfLink name ("self." ++ arg) none arg

/-- The arguments that a token offers in a document of the given mode: a function its own, a class
its attributes to another class and the arguments of its constructor to a function. -/
inductive Token.Offers : Mode → Token → ArgMap → Prop where
  | function (mode : Mode) (doc : FunctionDoc) : Offers mode (.function doc) doc.args
  | attributes (doc : ClassDoc) : Offers .attributes (.class doc) doc.attributes
  | constructor (doc : ClassDoc) : Offers .function (.class doc) doc.constructorArgs

section Contributions

variable (s : Settings) (ctx : Context) (reg : Registry)

/-- What a type stands for: a class or a function on the whitelist for its token, anything else for
itself. -/
inductive StandsFor (text : String) : Entity → Prop where
  | plain {e : Entity} (h : s.resolver.resolve ctx text = .ok e)
      (hw : ∀ name, e.qualifiedName? = some name → s.isWhitelisted name = false) : StandsFor text e
  | expanded {o : Object} {name : String} {token : Token}
      (h : s.resolver.resolve ctx text = .ok (.ofObject o)) (hname : o.entryName? = some name)
      (hw : s.isWhitelisted name = true) (htoken : reg.get? name = some (.done token)) :
      StandsFor text (.expanded token)

/-- What the body of a type field says. There is a default if the text has one. -/
inductive Means (body : String) : Typed → Prop where
  | resolved {alts : List Alternative} {types : List Entity} {default : Option Entity}
      (hread : TypeBody.read body = .ok (.alternatives alts))
      (htypes : List.Forall₂ (fun alt => StandsFor s ctx reg alt.type) alts types)
      (hdefault : Option.Rel (fun text e => s.resolver.resolve ctx text = .ok e)
        (TypeBody.alternatives alts).default? default) :
      Means body (.resolved (.ofAlternatives types) default)
  | link {target : String} {arg : Option String}
      (hread : TypeBody.read body = .ok (.link (target :: arg.toList))) :
      Means body (.link target arg)

/-- **The arguments that a document has at a mention**, within the class whose attributes are
`parent`. -/
inductive Contributes (mode : Mode) (parent : Option ArgMap) (remarks : List Remark) :
    Mention → List Arg → Prop where
  /-- A name with a type of its own. -/
  | resolved {name body : String} {type : Entity} {default : Option Entity}
      (hbody : typeBodyOf? remarks name = some body)
      (hmeans : Means s ctx reg body (.resolved type default)) :
      Contributes mode parent remarks (.name name)
        [⟨name, type, (descriptionOf? remarks name).bind Text.nonBlank?, default⟩]
  /-- A name that is linked to an attribute of the enclosing class. -/
  | linked {name body target sourceName : String} {arg : Option String} {attributes : ArgMap}
      {source : Arg} (hbody : typeBodyOf? remarks name = some body)
      (hmeans : Means s ctx reg body (.link target arg))
      (hlink : SelfLink name target arg sourceName) (hparent : parent = some attributes)
      (hsource : attributes.get? sourceName = some source) :
      Contributes mode parent remarks (.name name)
        [⟨name, source.type,
          ((descriptionOf? remarks name).bind Text.nonBlank?).or source.description,
          source.default⟩]
  /-- A link to all attributes of the enclosing class. -/
  | self {attributes : ArgMap} (hparent : parent = some attributes) :
      Contributes mode parent remarks (.marker "self") attributes.toList
  /-- A link to all arguments of another object. -/
  | target {target : String} {o : Object} {token : Token} {args : ArgMap} (hself : target ≠ "self")
      (hresolve : s.resolver.resolve ctx target = .ok (.ofObject o)) (htoken : Holds reg o token)
      (hoffers : token.Offers mode args) :
      Contributes mode parent remarks (.marker target) args.toList

end Contributions

/-! ## Links -/

/-- The ways to name an attribute are those that are read as the name of one. -/
theorem selfLink_iff {name target source : String} {arg : Option String} :
    SelfLink name target arg source ↔ linkSource? name target arg = some source := by
  constructor
  · intro h
    cases h with
    | own => rfl
    | named arg => rfl
    | dotted h =>
      obtain ⟨c, cs, hcs⟩ := List.exists_cons_of_ne_nil (mt String.toList_eq_nil_iff.mp h)
      have hdrop : Text.dropStart? selfName.toList ("self." ++ source).toList =
          some ('.' :: c :: cs) := by
        rw [Text.dropStart?_eq_some, String.toList_append, hcs]
        rfl
      unfold linkSource?
      rw [hdrop]
      exact congrArg some (by rw [← hcs, String.ofList_toList])
  · intro h
    unfold linkSource? at h
    split at h
    · next hdrop =>
      cases h
      obtain rfl : target = "self" := String.toList_inj.mp (Text.dropStart?_eq_some.mp hdrop)
      exact .own
    · next hdrop =>
      cases h
      obtain rfl : target = "self" := String.toList_inj.mp (Text.dropStart?_eq_some.mp hdrop)
      exact .named _
    · next c cs hdrop =>
      cases h
      have hsource : (String.ofList (c :: cs)).toList = c :: cs := String.toList_ofList
      obtain rfl : target = "self." ++ String.ofList (c :: cs) := by
        rw [← String.toList_inj, Text.dropStart?_eq_some.mp hdrop, String.toList_append, hsource]
        rfl
      refine .dotted fun hempty => ?_
      rw [hempty] at hsource
      cases hsource
    · cases h

theorem SelfLink.unique {name target source source' : String} {arg : Option String}
    (h : SelfLink name target arg source) (h' : SelfLink name target arg source') :
    source = source' :=
  Option.some.inj ((selfLink_iff.mp h).symm.trans (selfLink_iff.mp h'))

theorem offers_iff {mode : Mode} {token : Token} {args : ArgMap} :
    token.Offers mode args ↔ token.argsFor mode = args := by
  constructor
  · intro h
    cases h <;> rfl
  · rintro rfl
    cases token with
    | function doc => exact .function mode doc
    | «class» doc =>
      cases mode with
      | function => exact .constructor doc
      | attributes => exact .attributes doc

theorem Token.Offers.unique {mode : Mode} {token : Token} {args args' : ArgMap}
    (h : token.Offers mode args) (h' : token.Offers mode args') : args = args' :=
  (offers_iff.mp h).symm.trans (offers_iff.mp h')

/-! ## Uniqueness -/

section Uniqueness

variable {s : Settings} {ctx : Context} {reg : Registry}

theorem Entity.qualifiedName?_ofObject (o : Object) :
    (Entity.ofObject o).qualifiedName? = o.entryName? := by
  cases o <;> rfl

theorem StandsFor.unique {text : String} {e e' : Entity} (h : StandsFor s ctx reg text e)
    (h' : StandsFor s ctx reg text e') : e = e' := by
  -- The whitelist decides whether an object is expanded.
  have hdecided : ∀ {o : Object} {name : String} {e : Entity},
      s.resolver.resolve ctx text = .ok (.ofObject o) → o.entryName? = some name →
      s.isWhitelisted name = true → s.resolver.resolve ctx text = .ok e →
      ¬ ∀ name, e.qualifiedName? = some name → s.isWhitelisted name = false := by
    intro o name e ho hname hw he hplain
    obtain rfl : Entity.ofObject o = e := Except.ok.inj (ho.symm.trans he)
    rw [hplain name (by rw [Entity.qualifiedName?_ofObject, hname])] at hw
    cases hw
  cases h with
  | plain he hw =>
    cases h' with
    | plain he' _ => exact Except.ok.inj (he.symm.trans he')
    | expanded ho hname hw' _ => exact absurd hw (hdecided ho hname hw' he)
  | expanded ho hname hw htoken =>
    cases h' with
    | plain he hw' => exact absurd hw' (hdecided ho hname hw he)
    | expanded ho' hname' _ htoken' =>
      obtain rfl := Entity.ofObject_injective (Except.ok.inj (ho.symm.trans ho'))
      exact congrArg Entity.expanded (Holds.unique ⟨_, hname, htoken⟩ ⟨_, hname', htoken'⟩)

theorem unique_of_rel {α β : Type} {R : α → β → Prop} (hR : Relator.RightUnique R) {a : Option α}
    {b b' : Option β} (h : Option.Rel R a b) (h' : Option.Rel R a b') : b = b' := by
  cases h with
  | none =>
    cases h'
    rfl
  | some hb =>
    cases h' with
    | some hb' => rw [hR hb hb']

theorem Means.unique {body : String} {typed typed' : Typed} (h : Means s ctx reg body typed)
    (h' : Means s ctx reg body typed') : typed = typed' := by
  cases h with
  | @resolved alts types default hread htypes hdefault =>
    cases h' with
    | @resolved alts' types' default' hread' htypes' hdefault' =>
      obtain rfl : alts = alts' :=
        TypeBody.alternatives.inj (Except.ok.inj (hread.symm.trans hread'))
      obtain rfl : types = types' :=
        List.right_unique_forall₂' (fun _ _ _ h h' => h.unique h') htypes htypes'
      rw [unique_of_rel (fun _ _ _ h h' => Except.ok.inj (h.symm.trans h')) hdefault hdefault']
    | link hread' => cases hread.symm.trans hread'
  | @link target arg hread =>
    cases h' with
    | resolved hread' => cases hread.symm.trans hread'
    | @link target' arg' hread' =>
      have hwords := TypeBody.link.inj (Except.ok.inj (hread.symm.trans hread'))
      obtain ⟨rfl, harg⟩ := List.cons_eq_cons.mp hwords
      cases arg <;> cases arg' <;> cases harg <;> rfl

variable {mode : Mode} {parent : Option ArgMap} {remarks : List Remark}

/-- **A mention contributes one list of arguments at most.** -/
theorem Contributes.unique {m : Mention} {args args' : List Arg}
    (h : Contributes s ctx reg mode parent remarks m args)
    (h' : Contributes s ctx reg mode parent remarks m args') : args = args' := by
  cases h with
  | resolved hbody hmeans =>
    cases h' with
    | resolved hbody' hmeans' =>
      obtain rfl := Option.some.inj (hbody.symm.trans hbody')
      cases hmeans.unique hmeans'
      rfl
    | linked hbody' hmeans' =>
      obtain rfl := Option.some.inj (hbody.symm.trans hbody')
      cases hmeans.unique hmeans'
  | linked hbody hmeans hlink hparent hsource =>
    cases h' with
    | resolved hbody' hmeans' =>
      obtain rfl := Option.some.inj (hbody.symm.trans hbody')
      cases hmeans.unique hmeans'
    | linked hbody' hmeans' hlink' hparent' hsource' =>
      obtain rfl := Option.some.inj (hbody.symm.trans hbody')
      cases hmeans.unique hmeans'
      obtain rfl := Option.some.inj (hparent.symm.trans hparent')
      obtain rfl := hlink.unique hlink'
      rw [Option.some.inj (hsource.symm.trans hsource')]
  | self hparent =>
    cases h' with
    | self hparent' => rw [Option.some.inj (hparent.symm.trans hparent')]
    | target hself => exact absurd rfl hself
  | target hself hresolve htoken hoffers =>
    cases h' with
    | self hparent' => exact absurd rfl hself
    | target _ hresolve' htoken' hoffers' =>
      obtain rfl := Entity.ofObject_injective (Except.ok.inj (hresolve.symm.trans hresolve'))
      obtain rfl := htoken.unique htoken'
      rw [hoffers.unique hoffers']

end Uniqueness

end DocTree
