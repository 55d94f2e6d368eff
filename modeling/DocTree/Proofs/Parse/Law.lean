import DocTree.Proofs.Markup.TypeBody
import DocTree.Proofs.Parse.Promise
import DocTree.Proofs.Token.Law

/-!
# What parsing does to laws

Types come to a token by its own fields, by links and with the tokens of other objects. If a law
holds of every type as it is made, it holds of whole trees.

* `Law.Holds`: what has to be shown of each kind of type, and of the defaults;
* `collect_follows`, `parseFunction_follows`, `parseClass_follows`: the result of an inquiry follows
  the law if the answers and the attributes of the enclosing class do;
* **`serve_follows`**: the answer to any request follows the law.
-/

namespace DocTree

open Inquiry

/-- Under the given settings, the law holds of each type as it is made, and of each default. -/
structure Law.Holds (L : Law) (s : Settings) : Prop where
  resolved {ctx : Context} {token : String} {e : Entity} (h : s.resolver.resolve ctx token = .ok e)
    (hw : ∀ name, e.qualifiedName? = some name → s.isWhitelisted name = false) : L.type e
  expanded {token : Token} (hw : s.isWhitelisted token.qualifiedName = true) :
    L.type (.expanded token)
  union {types : List Entity} (hne : types ≠ []) (hflat : ∀ t ∈ types, ∀ inner, t ≠ .union inner)
    (hmany : (Entity.unionMembers types).length ≠ 1) :
    L.type (.union (Entity.unionMembers types))
  default {ctx : Context} {token : String} {e : Entity}
    (h : s.resolver.resolve ctx token = .ok e) : L.default e

/-- The arguments that a token offers to a link are of its own. -/
theorem Token.Follows.argsFor {L : Law} {token : Token} (h : token.Follows L) (mode : Mode) :
    (token.argsFor mode).Follows L := by
  cases token with
  | function doc => exact (Token.follows_function.mp h).args
  | «class» doc =>
    have hdoc := Token.follows_class.mp h
    cases mode with
    | attributes => exact hdoc.attributes
    | function =>
      change doc.constructorArgs.Follows L
      unfold ClassDoc.constructorArgs
      split
      · next init hinit =>
        refine (hdoc.functions init ?_).args
        simp [ClassDoc.functions, hinit]
      · exact hdoc.attributes

/-! ## Fields -/

section Fields

variable (L : Law)

/-- What a type field says follows the law; a link says nothing yet. -/
def Typed.Follows : Typed → Prop
  | .resolved type default => type.Follows L ∧ ∀ d, default = some d → L.default d
  | .link _ _ => True

def Slot.Follows : Slot → Prop
  | .arg _ draft => ∀ typed, draft.typed = some typed → typed.Follows L
  | .linkAll _ => True

structure Fields.Follows (fs : Fields) : Prop where
  slots : ∀ slot ∈ fs.slots, slot.Follows L
  returns : Returns.Follows L fs.returns

variable {L}

/-- Only the draft of the name changes. -/
theorem updateDraft_follows {name : String} {f : Draft → Except Error Draft}
    {slots slots' : List Slot} (h : updateDraft name f slots = .ok slots')
    (hf : ∀ draft draft', f draft = .ok draft' → Slot.Follows L (.arg name draft) →
      Slot.Follows L (.arg name draft'))
    (hslots : ∀ slot ∈ slots, slot.Follows L) : ∀ slot ∈ slots', slot.Follows L := by
  obtain ⟨old, draft, hdraft, ⟨rfl, -, rfl⟩ | ⟨before, after, rfl, rfl⟩⟩ := updateDraft_cases h
  · refine List.forall_mem_append.mpr ⟨hslots, List.forall_mem_singleton.mpr ?_⟩
    exact hf _ _ hdraft fun _ hnone => nomatch hnone
  · obtain ⟨hbefore, hrest⟩ := List.forall_mem_append.mp hslots
    obtain ⟨hold, hafter⟩ := List.forall_mem_cons.mp hrest
    exact List.forall_mem_append.mpr
      ⟨hbefore, List.forall_mem_cons.mpr ⟨hf _ _ hdraft hold, hafter⟩⟩

variable {fs fs' : Fields} {object name body : String}

theorem Fields.follows_empty : Fields.empty.Follows L :=
  ⟨(fun _ h => nomatch h), fun _ h => nomatch h⟩

theorem Fields.Follows.addParam (hfs : fs.Follows L) (h : fs.addParam object name body = .ok fs') :
    fs'.Follows L := by
  obtain ⟨slots, hslots, hok⟩ := ok_of_bind h
  cases hok
  refine ⟨updateDraft_follows hslots (fun draft draft' hdraft hold => ?_) hfs.slots, hfs.returns⟩
  split at hdraft
  · cases hdraft
  · cases hdraft
    exact hold

theorem Fields.Follows.addType (hfs : fs.Follows L) {typed : Typed} (htyped : typed.Follows L)
    (h : fs.addType object name typed = .ok fs') : fs'.Follows L := by
  obtain ⟨slots, hslots, hok⟩ := ok_of_bind h
  cases hok
  refine ⟨updateDraft_follows hslots (fun draft draft' hdraft _ => ?_) hfs.slots, hfs.returns⟩
  split at hdraft
  · cases hdraft
  · cases hdraft
    rintro _ ⟨⟩
    exact htyped

theorem Fields.Follows.addLinkAll (hfs : fs.Follows L) (target : String) :
    (fs.addLinkAll target).Follows L := by
  refine ⟨List.forall_mem_append.mpr ⟨hfs.slots, ?_⟩, hfs.returns⟩
  exact List.forall_mem_singleton.mpr trivial

theorem Fields.Follows.returnsSoFar (hfs : fs.Follows L) :
    Returns.Follows L (some fs.returnsSoFar) := by
  have hreturns := hfs.returns
  unfold Fields.returnsSoFar
  cases h : fs.returns with
  | none => exact fun _ hnone => nomatch hnone
  | some r => rwa [h] at hreturns

theorem Fields.Follows.addReturns (hfs : fs.Follows L) (h : fs.addReturns object body = .ok fs') :
    fs'.Follows L := by
  unfold Fields.addReturns at h
  split at h
  · cases h
  · cases h
    exact ⟨hfs.slots, hfs.returnsSoFar⟩

theorem Fields.Follows.addReturnType (hfs : fs.Follows L) {type : Entity} (htype : type.Follows L) :
    (fs.addReturnType type).Follows L := by
  refine ⟨hfs.slots, ?_⟩
  rintro _ ⟨⟩
  exact htype

end Fields

/-! ## Arguments -/

section Arguments

variable {L : Law}

theorem ArgMap.follows_empty : ArgMap.empty.Follows L := ⟨.nil, fun _ h => nomatch h⟩

theorem ArgMap.Follows.insert? {args args' : ArgMap} (hargs : args.Follows L) {arg : Arg}
    (harg : arg.Follows L) (h : args.insert? arg = some args') : args'.Follows L := by
  unfold ArgMap.insert? at h
  split at h
  · cases h
  · next hfree =>
    obtain rfl := Option.some.inj h
    have hnew : arg.name ∉ args.names := fun hmem => hfree (ArgMap.contains_iff.mpr hmem)
    refine ⟨?_, List.forall_mem_append.mpr ⟨hargs.args, List.forall_mem_singleton.mpr harg⟩⟩
    rw [ArgMap.names, List.map_append, List.map_singleton]
    exact List.nodup_append.mpr ⟨hargs.nodup, List.nodup_singleton _, by
      rintro a ha _ hb rfl
      exact hnew (List.mem_singleton.mp hb ▸ ha)⟩

theorem appendArgs_follows {object : String} {new : List Arg} (hnew : ∀ arg ∈ new, arg.Follows L)
    {args args' : ArgMap} (hargs : args.Follows L) (h : appendArgs object args new = .ok args') :
    args'.Follows L := by
  induction new generalizing args with
  | nil => cases h; exact hargs
  | cons arg rest ih =>
    obtain ⟨harg, hrest⟩ := List.forall_mem_cons.mp hnew
    rw [appendArgs] at h
    split at h
    · next more hinsert => exact ih hrest (hargs.insert? harg hinsert) h
    · cases h

theorem Arg.follows_of_make {name : String} {type : Entity} {arg : Arg}
    (h : Arg.make name type = .ok arg) (htype : type.Follows L) (description : Option String)
    {default : Option Entity} (hdefault : ∀ d, default = some d → L.default d) :
    ({ arg with description := description, default := default } : Arg).Follows L := by
  unfold Arg.make at h
  split at h
  · next hname =>
    cases h
    exact ⟨hname, htype, hdefault⟩
  · cases h

/-- The attributes of the enclosing class follow the law. -/
def ParentFollows (L : Law) (parent : Option ArgMap) : Prop := ∀ m, parent = some m → m.Follows L

theorem parentFollows_none : ParentFollows L none := fun _ h => nomatch h

theorem parentFollows_some {m : ArgMap} (h : m.Follows L) : ParentFollows L (some m) := by
  rintro _ ⟨⟩
  exact h

theorem linkOne_follows {parent : Option ArgMap} (hparent : ParentFollows L parent)
    {object name target : String} {arg description : Option String} {made : Arg}
    (h : linkOne object name target arg description parent = .ok made) : made.Follows L := by
  obtain ⟨_, attributes, source, _, -, hattributes, hsource, hmake, rfl⟩ := linkOne_cases h
  have hfollows := (hparent attributes hattributes).args source (List.mem_of_find?_eq_some hsource)
  exact Arg.follows_of_make hmake hfollows.type _ hfollows.default

end Arguments

/-! ## Collecting -/

section Collecting

variable {L : Law} {s : Settings} (hL : L.Holds s) {ctx : Context}

include hL

theorem expand_follows {token : String} {e : Entity} (he : s.resolver.resolve ctx token = .ok e) :
    (expand s e).Ensures (.trusting (Token.Follows L)) fun t =>
      t.Follows L ∧ ∀ inner, t ≠ .union inner := by
  -- A named object is expanded, and its token has its name, or it is not on the whitelist.
  have hexpanded : ∀ {o : Object} {name : String}, o.entryName? = some name →
      s.isWhitelisted name = true → (Entity.expanded <$> tokenOf o).Ensures
        (.trusting (Token.Follows L)) fun t => t.Follows L ∧ ∀ inner, t ≠ .union inner := by
    intro o name hname hw
    refine .ask trivial fun token htoken => .done ⟨?_, by rintro _ ⟨⟩⟩
    obtain rfl : name = token.qualifiedName := Option.some.inj (hname.symm.trans htoken.1)
    exact Entity.everywhere_expanded (hL.expanded hw) htoken.2
  have hsimple : e.isSimple = true := resolve_isSimple he
  have hplain : (∀ name, e.qualifiedName? = some name → s.isWhitelisted name = false) →
      e.Follows L ∧ ∀ inner, e ≠ .union inner := fun hw =>
    ⟨Entity.everywhere_of_simple hsimple (hL.resolved he hw), Entity.ne_union_of_isSimple hsimple⟩
  cases e with
  | «class» c =>
    rw [expand]
    split
    · next hw => exact hexpanded rfl hw
    · next hw =>
      refine .done (hplain ?_)
      rintro _ ⟨⟩
      simpa using hw
  | function f =>
    rw [expand]
    split
    · next hw => exact hexpanded rfl hw
    · next hw =>
      refine .done (hplain ?_)
      rintro _ ⟨⟩
      simpa using hw
  | builtin _ | value _ | «module» _ => exact .done (hplain (by rintro _ ⟨⟩))
  | union _ | expanded _ => cases hsimple

theorem typeOf_follows {alts : List Alternative} (hne : alts ≠ []) :
    (typeOf s ctx alts).Ensures (.trusting (Token.Follows L)) (Entity.Follows L) := by
  have halt : ∀ alt ∈ alts, (alternativeType s ctx alt).Ensures (.trusting (Token.Follows L))
      fun t => t.Follows L ∧ ∀ inner, t ≠ .union inner := fun alt _ =>
    (ensures_of_failsAlone (fun _ _ => trivial) (failsAlone_resolve _ _ _)).bind fun e he =>
      expand_follows hL he
  refine ((ensures_mapM halt).and (ensures_length_mapM _ alts) fun _ _ _ => trivial).bind
    fun types ⟨htypes, hlength⟩ => .done ?_
  have htypesNe : types ≠ [] := by
    rintro rfl
    exact hne (List.length_eq_zero_iff.mp hlength.symm)
  exact Entity.everywhere_ofAlternatives (hL.union htypesNe fun t ht => (htypes t ht).2)
    fun t ht => (htypes t ht).1

theorem typedOf_follows (body : String) :
    (typedOf s ctx body).Ensures (.trusting (Token.Follows L)) (Typed.Follows L) := by
  refine (ensures_markup (fun _ _ => trivial) (TypeBody.read body)).bind fun read hread => ?_
  split
  · exact .done trivial
  · exact .done trivial
  · exact .fail trivial
  · next alts =>
    have hdefault : (ofExcept
        ((TypeBody.alternatives alts).default?.mapM (s.resolver.resolve ctx))).Ensures
          (.trusting (Token.Follows L)) fun default => ∀ d, default = some d → L.default d := by
      refine ensures_ofExcept (fun default hok d hd => ?_) fun _ _ => trivial
      subst hd
      cases hsource : (TypeBody.alternatives alts).default? with
      | none => rw [hsource] at hok; cases hok
      | some token =>
        rw [hsource] at hok
        obtain ⟨e, he, hsome⟩ := ok_of_map hok
        obtain rfl := Option.some.inj hsome
        exact hL.default he
    exact hdefault.bind fun default hd =>
      (typeOf_follows hL (TypeBody.alternatives_ne_nil hread)).bind fun type htype =>
        .done ⟨htype, hd⟩

theorem returnTypeOf_follows (body : String) :
    (returnTypeOf s ctx body).Ensures (.trusting (Token.Follows L)) (Entity.Follows L) := by
  refine (ensures_markup (fun _ _ => trivial) (TypeBody.read body)).bind fun read hread => ?_
  split
  · exact .fail trivial
  · exact typeOf_follows hL (TypeBody.alternatives_ne_nil hread)

theorem addField_follows {fs : Fields} (hfs : fs.Follows L) (name : FieldName) (body : String) :
    (addField s ctx fs name body).Ensures (.trusting (Token.Follows L)) (Fields.Follows L) := by
  cases name with
  | param name => exact ensures_ofExcept (fun _ h => hfs.addParam h) fun _ _ => trivial
  | linkAll target => exact .done (hfs.addLinkAll target)
  | type name =>
    exact (typedOf_follows hL body).bind fun typed htyped =>
      ensures_ofExcept (fun _ h => hfs.addType htyped h) fun _ _ => trivial
  | returns => exact ensures_ofExcept (fun _ h => hfs.addReturns h) fun _ _ => trivial
  | returnType =>
    rw [addField]
    split
    · exact .fail trivial
    · exact (returnTypeOf_follows hL body).bind fun type htype => .done (hfs.addReturnType htype)
  | other name => exact .done ⟨hfs.slots, hfs.returns⟩

theorem addBlock_follows {fs : Fields} (hfs : fs.Follows L) (b : Block) :
    (addBlock s ctx fs b).Ensures (.trusting (Token.Follows L)) (Fields.Follows L) := by
  cases b with
  | paragraph text => exact .done hfs
  | field name body =>
    exact (ensures_markup (fun _ _ => trivial) (FieldName.classify name)).bind fun name _ =>
      addField_follows hL hfs name body
  | attr name typeBody body =>
    have hparam : (ofExcept (fs.addParam ctx.object name body)).Ensures
        (.trusting (Token.Follows L)) (Fields.Follows L) :=
      ensures_ofExcept (fun _ h => hfs.addParam h) fun _ _ => trivial
    exact hparam.bind fun fs₁ hfs₁ => (typedOf_follows hL typeBody).bind fun typed htyped =>
      ensures_ofExcept (fun _ h => hfs₁.addType htyped h) fun _ _ => trivial
  | see target =>
    match target with
    | [target] => exact .done (hfs.addLinkAll target)
    | [] | _ :: _ :: _ => exact .fail trivial
  | directive kind title body => exact .done ⟨hfs.slots, hfs.returns⟩

omit hL

variable {parent : Option ArgMap} (hparent : ParentFollows L parent)

include hparent

theorem linkAll_follows (mode : Mode) (target : String) :
    (linkAll s ctx mode parent target).Ensures (.trusting (Token.Follows L))
      fun args => ∀ arg ∈ args, arg.Follows L := by
  unfold linkAll
  split
  · split
    · next m => exact .done (hparent m rfl).args
    · exact .fail trivial
  · refine (ensures_ofExcept (fun _ _ => trivial) fun _ _ => trivial :
      Ensures _ (fun _ => True) _).bind fun e _ => ?_
    cases e with
    | «class» c => exact .ask trivial fun token h => .done (h.2.argsFor mode).args
    | function f => exact .ask trivial fun token h => .done (h.2.argsFor mode).args
    | builtin _ | value _ | «module» _ | union _ | expanded _ => exact .fail trivial

theorem slotArgs_follows (mode : Mode) {slot : Slot} (hslot : slot.Follows L) :
    (slotArgs s ctx mode parent slot).Ensures (.trusting (Token.Follows L))
      fun args => ∀ arg ∈ args, arg.Follows L := by
  cases slot with
  | linkAll target => exact linkAll_follows hparent mode target
  | arg name draft =>
    rw [slotArgs]
    split
    · next type default htyped =>
      obtain ⟨htype, hdefault⟩ := hslot _ htyped
      refine (ensures_of_failsAlone (fun _ _ => trivial) (failsAlone_make _ _)).bind
        fun made hmake => .done ?_
      exact List.forall_mem_singleton.mpr (Arg.follows_of_make hmake htype _ hdefault)
    · refine (ensures_of_failsAlone (fun _ _ => trivial) (failsAlone_linkOne _ _ _ _ _ _)).bind
        fun made hlink => .done ?_
      exact List.forall_mem_singleton.mpr (linkOne_follows hparent hlink)
    · exact .done (List.forall_mem_nil _)

include hL

/-- **Collecting gives arguments that follow the law.** -/
theorem collect_follows (mode : Mode) (doc : Document) :
    (collect s ctx mode parent doc).Ensures (.trusting (Token.Follows L)) fun collected =>
      collected.args.Follows L ∧ Returns.Follows L collected.returns := by
  have hfirst : (doc.blocks.foldlM (addBlock s ctx) .empty).Ensures (.trusting (Token.Follows L))
      (Fields.Follows L) :=
    ensures_foldlM (I := fun _ fs => Fields.Follows L fs) Fields.follows_empty
      fun _ b fs _ hfs => addBlock_follows hL hfs b
  refine hfirst.bind fun fs hfs => ?_
  change Ensures _ _ (if _ then fail _ else _)
  split
  · exact .fail trivial
  · have hsecond : (fs.slots.foldlM (addSlot s ctx mode parent) .empty).Ensures
        (.trusting (Token.Follows L)) (ArgMap.Follows L) := by
      refine ensures_foldlM (I := fun _ args => ArgMap.Follows L args) ArgMap.follows_empty
        fun _ slot args hslot hargs => ?_
      refine (slotArgs_follows hparent mode (hfs.slots slot hslot)).bind fun new hnew => ?_
      exact ensures_ofExcept (fun _ h => appendArgs_follows hnew hargs h) fun _ _ => trivial
    refine hsecond.bind fun args hargs => .done ⟨hargs, ?_⟩
    cases mode with
    | function => exact hfs.returns
    | attributes => exact fun _ h => nomatch h

end Collecting

/-! ## Objects -/

theorem covers_of_requireDocumented {object : String} {params : List String} {args : ArgMap}
    (h : requireDocumented object params args = .ok ()) : args.Covers params := by
  intro p hp hstar
  unfold requireDocumented at h
  split at h
  · next hnone =>
    have hdocumented := List.filter_eq_nil_iff.mp hnone p hp
    refine ArgMap.contains_iff.mp ?_
    simpa [hstar] using hdocumented
  · cases h

section Objects

variable {L : Law} {s : Settings} (hL : L.Holds s)

include hL

theorem parseFunction_follows {parent : Option ArgMap} (hparent : ParentFollows L parent)
    (f : Function) :
    (parseFunction s f parent).Ensures (.trusting (Token.Follows L)) (FunctionDoc.Follows L) :=
  (ensures_of_failsAlone (fun _ _ => trivial) (failsAlone_readDoc _ _ _ _)).bind fun doc _ =>
    (collect_follows hL hparent .function doc).bind fun _ h => .done ⟨h.1, h.2⟩

/-- A constructor follows the law, and its parameters are documented. -/
theorem parseInit_follows (c : Class) {attributes : ArgMap} (h : attributes.Follows L) :
    (parseInit s c attributes).Ensures (.trusting (Token.Follows L)) fun init =>
      (∀ doc, init = some doc → doc.Follows L) ∧
        (init.elim attributes (·.args)).Covers c.constructorParams := by
  have hdocumented : ∀ params args, (ofExcept (requireDocumented c.fullName params args)).Ensures
      (.trusting (Token.Follows L)) fun _ => args.Covers params :=
    fun _ _ => ensures_ofExcept (fun _ hok => covers_of_requireDocumented hok) fun _ _ => trivial
  unfold parseInit
  split
  · next hrecord =>
    refine (hdocumented _ _).bind fun _ hcovers => .done ⟨(fun _ h => nomatch h), ?_⟩
    rwa [Class.constructorParams, if_pos hrecord]
  · next hrecord =>
    split
    · next hinit =>
      refine .done ⟨(fun _ h => nomatch h), ?_⟩
      rw [Class.constructorParams, if_neg hrecord, hinit]
      exact fun _ h => nomatch h
    · next init hinit =>
      refine (parseFunction_follows hL (parentFollows_some h) _).bind fun doc hdoc => ?_
      refine (hdocumented _ _).bind fun _ hcovers => .done ⟨?_, ?_⟩
      · rintro _ ⟨⟩
        exact hdoc
      · rwa [Class.constructorParams, if_neg hrecord, hinit]

/-- All functions of a map follow the law. -/
def MethodsFollow (L : Law) (docs : NameMap FunctionDoc) : Prop :=
  ∀ entry ∈ docs.entries, entry.2.Follows L

omit hL in
theorem methodsFollow_empty : MethodsFollow L .empty := fun _ h => nomatch h

theorem parseMethods_follows (c : Class) {attributes : ArgMap} (h : attributes.Follows L)
    (methods : List String) {into : NameMap FunctionDoc} (hinto : MethodsFollow L into) :
    (parseMethods s c attributes methods into).Ensures (.trusting (Token.Follows L))
      (MethodsFollow L) := by
  refine ensures_foldlM (I := fun _ docs => MethodsFollow L docs) hinto
    fun _ method docs _ hdocs => ?_
  have hmethod : (parseMethod s c attributes method).Ensures (.trusting (Token.Follows L))
      (FunctionDoc.Follows L) := by
    unfold parseMethod
    split
    · exact parseFunction_follows hL (parentFollows_some h) _
    · exact .fail trivial
    · exact .fail trivial
  refine hmethod.bind fun doc hdoc => .done fun entry hentry => ?_
  rcases NameMap.mem_insertEntry hentry with rfl | hentry
  · exact hdoc
  · exact hdocs entry hentry

theorem parseClass_follows (c : Class) (methods : List String) :
    (parseClass s c methods).Ensures (.trusting (Token.Follows L)) (ClassDoc.Follows L) := by
  refine (ensures_of_failsAlone (fun _ _ => trivial) (failsAlone_readDoc _ _ _ _)).bind
    fun doc _ => ?_
  refine (collect_follows hL parentFollows_none .attributes doc).bind
    fun collected ⟨hargs, _⟩ => ?_
  refine (parseInit_follows hL c hargs).bind fun init ⟨hinit, hcovers⟩ => ?_
  have hdone : ∀ docs : Option (NameMap FunctionDoc), (∀ m, docs = some m → MethodsFollow L m) →
      ClassDoc.Follows L
        ⟨c, doc.description, collected.args, init, docs, collected.otherSections⟩ := by
    refine fun docs hdocs => ⟨hargs, fun f hf => ?_, ?_⟩
    · rcases List.mem_append.mp hf with hf | hf
      · exact hinit f (Option.mem_toList.mp hf)
      · obtain ⟨entry, hentry, rfl⟩ := List.mem_map.mp hf
        cases docs with
        | none => cases hentry
        | some m => exact hdocs m rfl entry hentry
    · rwa [ClassDoc.CoversConstructor, ClassDoc.constructorArgs_eq]
  split
  · exact .done (hdone none fun _ h => nomatch h)
  · have hdocs : (some <$> parseMethods s c collected.args methods .empty).Ensures
        (.trusting (Token.Follows L)) fun docs => ∀ m, docs = some m → MethodsFollow L m := by
      refine (parseMethods_follows hL c hargs methods methodsFollow_empty).map fun docs hdocs => ?_
      rintro _ ⟨⟩
      exact hdocs
    exact hdocs.bind fun docs hdocs => .done (hdone docs hdocs)

/-- The law is passed on from the answers of each inquiry to its result. -/
theorem passedOn_follows : PassedOn s (Token.Follows L) where
  inquire o methods := by
    cases o with
    | «class» c =>
      exact (parseClass_follows hL c methods).map fun _ => Token.follows_class.mpr
    | function f =>
      exact (parseFunction_follows hL parentFollows_none f).map fun _ =>
        Token.follows_function.mpr
    | «module» path => exact .fail trivial
    | value v => exact .fail trivial
  addMethods c doc methods h := by
    have hdoc := Token.follows_class.mp h
    have hmethods : MethodsFollow L (doc.methods.getD .empty) := by
      intro entry hentry
      cases hsome : doc.methods with
      | none => rw [hsome] at hentry; cases hentry
      | some m =>
        rw [hsome] at hentry
        refine hdoc.functions entry.2 (List.mem_append.mpr (.inr ?_))
        rw [hsome]
        exact List.mem_map_of_mem hentry
    refine (parseMethods_follows hL c hdoc.attributes methods hmethods).mono fun docs hdocs => ?_
    -- The constructor is the same as before, and it was documented then.
    refine Token.follows_class.mpr ⟨hdoc.attributes, fun f hf => ?_, hdoc.covers⟩
    rcases List.mem_append.mp hf with hf | hf
    · exact hdoc.functions f (List.mem_append.mpr (.inl hf))
    · obtain ⟨entry, hentry, rfl⟩ := List.mem_map.mp hf
      exact hdocs entry hentry

end Objects

/-! ## Requests -/

/-- The attributes that a request gives for the enclosing class. -/
def Request.parent? : Request → Option ArgMap
  | .function _ parent _ => parent
  | _ => none

/-- **The answer to any request follows the law**, if the attributes that it gives do. -/
theorem serve_follows {L : Law} {s : Settings} (hL : L.Holds s) (requests : List Request)
    (r : Request) {token : Token} (hparent : ParentFollows L r.parent?)
    (h : (((Parser.new s).afterRequests requests).serve r).1 = .ok token) : token.Follows L := by
  have hreg := all_after_requests (passedOn_follows hL) requests
  generalize hp : (Parser.new s).afterRequests requests = p at h hreg
  obtain rfl : p.settings = s := hp ▸ Parser.settings_afterRequests _ _
  have hchecked : ∀ {α : Type} {x : Inquiry α} {Q : α → Prop} {depth : Nat} {a : α},
      x.Ensures (.trusting (Token.Follows L)) Q →
      ((ParseM.ofExcept (checkDepth p.settings depth) >>= fun _ =>
        x.run (needAt p.settings depth)).runOn p.registry).1 = .ok a → Q a := by
    intro α x Q depth a hx hok
    rw [runOn_checked] at hok
    split at hok
    · cases hok
    · exact (run_needAt_promises (passedOn_follows hL) hx depth p.registry hreg).2 a hok
  cases r with
  | object c =>
    exact ((parseObject_promises (passedOn_follows hL) c.depth c.object c.methods p.registry
      hreg).2 token h).2
  | function f parent depth =>
    obtain ⟨doc, hdoc, rfl⟩ := ok_of_map h
    exact Token.follows_function.mpr (hchecked (parseFunction_follows hL hparent f) hdoc)
  | «class» c methods depth =>
    obtain ⟨doc, hdoc, rfl⟩ := ok_of_map h
    exact Token.follows_class.mpr (hchecked (parseClass_follows hL c methods) hdoc)

end DocTree
