import DocTree.Parse.Object
import DocTree.Proofs.Parse.Fields
import DocTree.Proofs.Parse.Inquiry

/-!
# What an object needs

The objects that the docstrings of an object lead to, read off its blocks without parsing anything.

* `Block.Needs`, `Needs`: an object is needed as the target of a link to all its arguments, or as a
  type on the whitelist;
* `inquire_ensures`: **the inquiry into an object asks for nothing but what the object needs**, and
  it fails by itself neither with a cycle nor with the recursion limit;
* `inquire_covers`: **it has no result before it has asked for all of it**.
-/

namespace DocTree

/-! ## Needs -/

/-- The target of a field that links to all arguments of an object. -/
def FieldName.linkTarget? : FieldName → Option String
  | .linkAll target => some target
  | _ => none

/-- Whether the body of a field is a type. -/
def FieldName.hasType : FieldName → Bool
  | .type _ | .returnType => true
  | _ => false

/-- The target of a block that links to all arguments of an object. -/
def Block.linkTarget? : Block → Option String
  | .field name _ => (FieldName.classify name).toOption.bind FieldName.linkTarget?
  | .see [target] => some target
  | _ => none

/-- The text of a block at which a type stands. -/
def Block.typeText? : Block → Option String
  | .field name body =>
    if (FieldName.classify name).toOption.any FieldName.hasType then some body else none
  | .attr _ typeBody _ => some typeBody
  | _ => none

/-- The object is the target of a link to all its arguments. -/
def LinkNeeds (s : Settings) (ctx : Context) (target : String) (o : Object) : Prop :=
  target ≠ selfName ∧ s.resolver.resolve ctx target = .ok (.ofObject o) ∧
    ∃ name, o.entryName? = some name

/-- The object is a whitelisted alternative of a type. -/
def TypeNeeds (s : Settings) (ctx : Context) (text : String) (o : Object) : Prop :=
  ∃ alts alt name, TypeBody.read text = .ok (.alternatives alts) ∧ alt ∈ alts ∧
    s.resolver.resolve ctx alt.type = .ok (.ofObject o) ∧ o.entryName? = some name ∧
      s.isWhitelisted name = true

/-- A block needs the object. -/
inductive Block.Needs (s : Settings) (ctx : Context) (b : Block) (o : Object) : Prop where
  | link {target : String} (hb : b.linkTarget? = some target) (ho : LinkNeeds s ctx target o)
  | type {text : String} (hb : b.typeText? = some text) (ho : TypeNeeds s ctx text o)

/-- A docstring and where it stands. -/
structure Docstring where
  context : Context
  text : String

/-- One of the blocks of a docstring needs the object. -/
def Docstring.Needs (s : Settings) (d : Docstring) (o : Object) : Prop :=
  ∃ doc, normalize s.style d.text = .ok doc ∧ ∃ b ∈ doc.blocks, b.Needs s d.context o

def Function.docstrings (f : Function) : List Docstring :=
  (f.doc.map fun text => ⟨⟨f.module, f.fullName⟩, text⟩).toList

/-- The docstrings that belong to an object. That of a constructor belongs to its class, unless the
class is a record. -/
def Object.docstrings : Object → List Docstring
  | .function f => f.docstrings
  | .class c =>
    (c.doc.map fun text => (⟨⟨c.module, c.fullName⟩, text⟩ : Docstring)).toList ++
      if c.isRecord then [] else (c.init.map Function.docstrings).getD []
  | _ => []

/-- **The object `o` needs `o'`**: one of its docstrings does. -/
def Needs (s : Settings) (o o' : Object) : Prop := ∃ d ∈ o.docstrings, d.Needs s o'

theorem Docstring.Needs.entryName? {s : Settings} {d : Docstring} {o : Object}
    (h : d.Needs s o) : ∃ name, o.entryName? = some name := by
  obtain ⟨doc, -, b, -, hb⟩ := h
  cases hb with
  | link _ ho => exact ho.2.2
  | type _ ho =>
    obtain ⟨_, _, name, -, -, -, hname, -⟩ := ho
    exact ⟨name, hname⟩

/-- What a docstring needs is within reach. -/
theorem Docstring.Needs.reaches {s : Settings} {d : Docstring} {o : Object}
    (h : d.Needs s o) : s.resolver.Reaches o := by
  obtain ⟨name, hname⟩ := h.entryName?
  obtain ⟨doc, -, b, -, hb⟩ := h
  cases hb with
  | link _ ho => exact Resolver.reaches_of_resolve hname ho.2.1
  | type _ ho =>
    obtain ⟨_, _, _, -, -, hresolve, -⟩ := ho
    exact Resolver.reaches_of_resolve hname hresolve

theorem Needs.reaches {s : Settings} {o o' : Object} (h : Needs s o o') :
    s.resolver.Reaches o' := by
  obtain ⟨d, -, hd⟩ := h
  exact hd.reaches

/-! ## What is asked -/

open Inquiry

section Ensures

variable {s : Settings} {ctx : Context} {T : Terms}

theorem ensures_tokenOf {o : Object} (ho : T.asks o) :
    (tokenOf o).Ensures T (T.answers o) :=
  .ask ho fun _ ht => .done ht

theorem expand_ensures {e : Entity}
    (hasks : ∀ o name, e = .ofObject o → o.entryName? = some name →
      s.isWhitelisted name = true → T.asks o) : (expand s e).Ensures T fun _ => True := by
  cases e with
  | «class» c =>
    rw [expand]
    split
    · next hw =>
      have hask := ensures_tokenOf (hasks (.class c) _ rfl rfl hw)
      exact hask.bind fun _ _ => .done trivial
    · exact .done trivial
  | function f =>
    rw [expand]
    split
    · next hw =>
      have hask := ensures_tokenOf (hasks (.function f) _ rfl rfl hw)
      exact hask.bind fun _ _ => .done trivial
    · exact .done trivial
  | builtin _ | value _ | «module» _ | union _ | expanded _ => exact .done trivial

variable (hfails : ∀ e : Error, e.isFromNeed = false → T.fails e)

include hfails

theorem ensures_of_failsAlone {α : Type} {x : Except Error α} (hx : FailsAlone x) :
    (ofExcept x).Ensures T fun a => x = .ok a :=
  ensures_ofExcept (fun _ h => h) fun e he => hfails e (hx e he)

theorem ensures_markup {α : Type} (x : Except MarkupError α) :
    (ofExcept (x.mapError Error.markup)).Ensures T fun a => x = .ok a :=
  (ensures_of_failsAlone hfails (failsAlone_markup x)).mono fun _ => ok_of_mapError

theorem typeOf_ensures {alts : List Alternative}
    (hasks : ∀ alt ∈ alts, ∀ o name, s.resolver.resolve ctx alt.type = .ok (.ofObject o) →
      o.entryName? = some name → s.isWhitelisted name = true → T.asks o) :
    (typeOf s ctx alts).Ensures T fun _ => True := by
  have halt : ∀ alt ∈ alts, (alternativeType s ctx alt).Ensures T fun _ => True := by
    intro alt halt
    refine (ensures_of_failsAlone hfails (failsAlone_resolve _ _ _)).bind fun e he => ?_
    refine expand_ensures ?_
    rintro o name rfl hname hw
    exact hasks alt halt o name he hname hw
  exact (ensures_mapM halt).bind fun _ _ => .done trivial

theorem typedOf_ensures {text : String} (hasks : ∀ o, TypeNeeds s ctx text o → T.asks o) :
    (typedOf s ctx text).Ensures T fun _ => True := by
  refine (ensures_markup hfails (TypeBody.read text)).bind fun read hread => ?_
  split
  · exact .done trivial
  · exact .done trivial
  · exact .fail (hfails _ rfl)
  · next alts =>
    have hdefault : FailsAlone
        ((TypeBody.alternatives alts).default?.mapM (s.resolver.resolve ctx)) := by
      cases (TypeBody.alternatives alts).default? with
      | none => exact failsAlone_ok _
      | some token => exact (failsAlone_resolve _ _ _).map _
    refine (ensures_of_failsAlone hfails hdefault).bind fun _ _ => ?_
    have htype : (typeOf s ctx alts).Ensures T fun _ => True :=
      typeOf_ensures hfails fun alt halt o name ho hname hw =>
        hasks o ⟨alts, alt, name, hread, halt, ho, hname, hw⟩
    exact htype.bind fun _ _ => .done trivial

theorem returnTypeOf_ensures {text : String} (hasks : ∀ o, TypeNeeds s ctx text o → T.asks o) :
    (returnTypeOf s ctx text).Ensures T fun _ => True := by
  refine (ensures_markup hfails (TypeBody.read text)).bind fun read hread => ?_
  split
  · exact .fail (hfails _ rfl)
  · next alts =>
    exact typeOf_ensures hfails fun alt halt o name ho hname hw =>
      hasks o ⟨alts, alt, name, hread, halt, ho, hname, hw⟩

/-- A field asks for the types in it and adds the link in it. -/
theorem addField_ensures (fs : Fields) (name : FieldName) {body : String}
    (hasks : name.hasType = true → ∀ o, TypeNeeds s ctx body o → T.asks o) :
    (addField s ctx fs name body).Ensures T fun fs' =>
      fs'.links = fs.links ++ name.linkTarget?.toList := by
  cases name with
  | param name =>
    refine (ensures_of_failsAlone hfails (failsAlone_addParam _ _ _ _)).mono fun fs' h => ?_
    rw [links_addParam h]
    exact (List.append_nil _).symm
  | linkAll target => exact .done (links_addLinkAll target fs)
  | type name =>
    refine (typedOf_ensures hfails (hasks rfl)).bind fun typed _ => ?_
    refine (ensures_of_failsAlone hfails (failsAlone_addType _ _ _ _)).mono fun fs' h => ?_
    rw [links_addType h]
    exact (List.append_nil _).symm
  | returns =>
    refine (ensures_of_failsAlone hfails (failsAlone_addReturns _ _ _)).mono fun fs' h => ?_
    rw [links_addReturns h]
    exact (List.append_nil _).symm
  | returnType =>
    rw [addField]
    split
    · exact .fail (hfails _ rfl)
    · refine (returnTypeOf_ensures hfails (hasks rfl)).bind fun type _ => .done ?_
      exact (List.append_nil _).symm
  | other name => exact .done (List.append_nil _).symm

theorem addBlock_ensures (fs : Fields) {b : Block}
    (hasks : ∀ text, b.typeText? = some text → ∀ o, TypeNeeds s ctx text o → T.asks o) :
    (addBlock s ctx fs b).Ensures T fun fs' => fs'.links = fs.links ++ b.linkTarget?.toList := by
  cases b with
  | paragraph text => exact .done (List.append_nil _).symm
  | field name body =>
    refine (ensures_markup hfails (FieldName.classify name)).bind fun fieldName hname => ?_
    have htext : fieldName.hasType = true → ∀ o, TypeNeeds s ctx body o → T.asks o :=
      fun htype => hasks body (by simp [Block.typeText?, hname, Except.toOption, htype])
    refine (addField_ensures hfails fs fieldName htext).mono fun fs' h => ?_
    rw [h, Block.linkTarget?, hname]
    rfl
  | attr name typeBody body =>
    refine (ensures_of_failsAlone hfails (failsAlone_addParam _ _ _ _)).bind fun fs₁ h₁ => ?_
    refine (typedOf_ensures hfails (hasks typeBody rfl)).bind fun typed _ => ?_
    refine (ensures_of_failsAlone hfails (failsAlone_addType _ _ _ _)).mono fun fs₂ h₂ => ?_
    rw [links_addType h₂, links_addParam h₁]
    exact (List.append_nil _).symm
  | see target =>
    match target with
    | [target] => exact .done (links_addLinkAll target fs)
    | [] | _ :: _ :: _ => exact .fail (hfails _ rfl)
  | directive kind title body => exact .done (List.append_nil _).symm

/-- The first phase finds the links of a document. -/
theorem addBlocks_ensures {blocks : List Block}
    (hasks : ∀ b ∈ blocks, ∀ text, b.typeText? = some text →
      ∀ o, TypeNeeds s ctx text o → T.asks o) :
    (blocks.foldlM (addBlock s ctx) .empty).Ensures T fun fs =>
      fs.links = blocks.filterMap Block.linkTarget? := by
  refine ensures_foldlM (I := fun seen (fs : Fields) => fs.links = seen.filterMap Block.linkTarget?)
    rfl fun seen b fs hb hfs => ?_
  refine (addBlock_ensures hfails fs (hasks b hb)).mono fun fs' h => ?_
  rw [h, hfs, List.filterMap_append]
  cases hlink : b.linkTarget? <;> simp [hlink]

theorem linkAll_ensures {mode : Mode} {parent : Option ArgMap} {target : String}
    (hasks : ∀ o, LinkNeeds s ctx target o → T.asks o) :
    (linkAll s ctx mode parent target).Ensures T fun _ => True := by
  unfold linkAll
  split
  · split
    · exact .done trivial
    · exact .fail (hfails _ rfl)
  · next hself =>
    refine (ensures_of_failsAlone hfails (failsAlone_resolve _ _ _)).bind fun e he => ?_
    cases e with
    | «class» c =>
      have hask := ensures_tokenOf (hasks (.class c) ⟨hself, he, _, rfl⟩)
      exact hask.bind fun _ _ => .done trivial
    | function f =>
      have hask := ensures_tokenOf (hasks (.function f) ⟨hself, he, _, rfl⟩)
      exact hask.bind fun _ _ => .done trivial
    | builtin _ | value _ | «module» _ | union _ | expanded _ => exact .fail (hfails _ rfl)

theorem slotArgs_ensures {mode : Mode} {parent : Option ArgMap} {slot : Slot}
    (hasks : ∀ target, slot.linkTarget? = some target →
      ∀ o, LinkNeeds s ctx target o → T.asks o) :
    (slotArgs s ctx mode parent slot).Ensures T fun _ => True := by
  cases slot with
  | linkAll target => exact linkAll_ensures hfails (hasks target rfl)
  | arg name draft =>
    rw [slotArgs]
    split
    · refine (ensures_of_failsAlone hfails (failsAlone_make _ _)).bind fun _ _ => ?_
      exact .done trivial
    · refine (ensures_of_failsAlone hfails (failsAlone_linkOne _ _ _ _ _ _)).bind fun _ _ => ?_
      exact .done trivial
    · exact .done trivial

/-- Collecting asks for what the blocks need. -/
theorem collect_ensures {mode : Mode} {parent : Option ArgMap} {doc : Document}
    (hasks : ∀ b ∈ doc.blocks, ∀ o, b.Needs s ctx o → T.asks o) :
    (collect s ctx mode parent doc).Ensures T fun _ => True := by
  have hfirst : (doc.blocks.foldlM (addBlock s ctx) .empty).Ensures T fun fs =>
      fs.links = doc.blocks.filterMap Block.linkTarget? :=
    addBlocks_ensures hfails fun b hb text htext o ho => hasks b hb o (.type htext ho)
  refine hfirst.bind fun fs hlinks => ?_
  change Ensures T _ (if _ then fail _ else _)
  split
  · exact .fail (hfails _ rfl)
  · have hsecond : (fs.slots.foldlM (addSlot s ctx mode parent) .empty).Ensures T
        fun _ => True := by
      refine ensures_foldlM (I := fun _ _ => True) trivial fun _ slot args hslot _ => ?_
      refine (slotArgs_ensures hfails fun target htarget => ?_).bind fun spliced _ => ?_
      · have hmem : target ∈ fs.links := List.mem_filterMap.mpr ⟨slot, hslot, htarget⟩
        rw [hlinks] at hmem
        obtain ⟨b, hb, hbtarget⟩ := List.mem_filterMap.mp hmem
        exact fun o ho => hasks b hb o (.link hbtarget ho)
      · exact (ensures_of_failsAlone hfails (failsAlone_appendArgs _ _ _)).mono
          fun _ _ => trivial
    exact hsecond.bind fun _ _ => .done trivial

end Ensures

/-! ## Inquiries into objects -/

/-- The object that a token documents. -/
def Token.object : Token → Object
  | .function doc => .function doc.subject
  | .class doc => .class doc.subject

theorem failsAlone_readDoc (style : Style) (object : String) (doc : Option String)
    (mayLackFields : Bool) : FailsAlone (readDoc style object doc mayLackFields) := by
  unfold readDoc
  split
  · exact failsAlone_error rfl
  · split
    · exact failsAlone_error rfl
    · split
      · exact failsAlone_ok _
      · exact failsAlone_error rfl

theorem failsAlone_requireDocumented (object : String) (params : List String) (args : ArgMap) :
    FailsAlone (requireDocumented object params args) := by
  unfold requireDocumented
  split
  · exact failsAlone_ok _
  · exact failsAlone_error rfl

theorem readDoc_ok {style : Style} {object : String} {doc : Option String} {mayLackFields : Bool}
    {document : Document} (h : readDoc style object doc mayLackFields = .ok document) :
    ∃ text, doc = some text ∧ normalize style text = .ok document := by
  unfold readDoc at h
  split at h
  · cases h
  · next text =>
    split at h
    · cases h
    · next hread =>
      split at h
      · cases h
        exact ⟨text, rfl, hread⟩
      · cases h

section Objects

variable {s : Settings} {T : Terms} (hfails : ∀ e : Error, e.isFromNeed = false → T.fails e)

include hfails

theorem parseFunction_ensures {f : Function} {parent : Option ArgMap}
    (hasks : ∀ d ∈ f.docstrings, ∀ o, d.Needs s o → T.asks o) :
    (parseFunction s f parent).Ensures T fun doc => doc.subject = f := by
  refine (ensures_of_failsAlone hfails (failsAlone_readDoc _ _ _ _)).bind fun doc hdoc => ?_
  obtain ⟨text, htext, hread⟩ := readDoc_ok hdoc
  have hmem : ⟨⟨f.module, f.fullName⟩, text⟩ ∈ f.docstrings := by simp [Function.docstrings, htext]
  refine (collect_ensures hfails fun b hb o ho => ?_).bind fun collected _ => .done rfl
  exact hasks _ hmem o ⟨doc, hread, b, hb, ho⟩

theorem parseInit_ensures {c : Class} {attributes : ArgMap}
    (hasks : ∀ d ∈ (Object.class c).docstrings, ∀ o, d.Needs s o → T.asks o) :
    (parseInit s c attributes).Ensures T fun _ => True := by
  unfold parseInit
  split
  · refine (ensures_of_failsAlone hfails (failsAlone_requireDocumented _ _ _)).bind fun _ _ => ?_
    exact .done trivial
  · next hrecord =>
    split
    · exact .done trivial
    · next init hinit =>
      have hinitasks : ∀ d ∈ init.docstrings, ∀ o, d.Needs s o → T.asks o := fun d hd =>
        hasks d (by simp [Object.docstrings, hrecord, hinit, hd])
      refine (parseFunction_ensures hfails hinitasks).bind fun doc _ => ?_
      refine (ensures_of_failsAlone hfails (failsAlone_requireDocumented _ _ _)).bind
        fun _ _ => ?_
      exact .done trivial

theorem parseMethods_asks {c : Class} {attributes : ArgMap} {methods : List String}
    {into : NameMap FunctionDoc} (hasks : ∀ o, s.resolver.Reaches o → T.asks o) :
    (parseMethods s c attributes methods into).Ensures T fun _ => True := by
  refine ensures_foldlM (I := fun _ _ => True) trivial fun _ method docs _ _ => ?_
  have hmethod : (parseMethod s c attributes method).Ensures T fun _ => True := by
    unfold parseMethod
    split
    · exact (parseFunction_ensures hfails fun d _ o ho => hasks o ho.reaches).mono
        fun _ _ => trivial
    · exact .fail (hfails _ rfl)
    · exact .fail (hfails _ rfl)
  exact hmethod.bind fun _ _ => .done trivial

theorem parseClass_ensures {c : Class} {methods : List String}
    (hasks : ∀ d ∈ (Object.class c).docstrings, ∀ o, d.Needs s o → T.asks o)
    (hmethods : methods = [] ∨ ∀ o, s.resolver.Reaches o → T.asks o) :
    (parseClass s c methods).Ensures T fun doc => doc.subject = c := by
  refine (ensures_of_failsAlone hfails (failsAlone_readDoc _ _ _ _)).bind fun doc hdoc => ?_
  obtain ⟨text, htext, hread⟩ := readDoc_ok hdoc
  have hmem : ⟨⟨c.module, c.fullName⟩, text⟩ ∈ (Object.class c).docstrings := by
    simp [Object.docstrings, htext]
  refine (collect_ensures hfails fun b hb o ho =>
    hasks _ hmem o ⟨doc, hread, b, hb, ho⟩).bind fun collected _ => ?_
  refine (parseInit_ensures hfails hasks).bind fun init _ => ?_
  split
  · exact .done rfl
  · next hnonempty =>
    have hreach := hmethods.resolve_left (by simpa using hnonempty)
    have hdocs : (some <$> parseMethods s c collected.args methods .empty).Ensures T
        fun _ => True := (parseMethods_asks hfails hreach).map fun _ _ => trivial
    exact hdocs.bind fun _ _ => .done rfl

/-- **The inquiry into an object and methods asks for what the object needs**, and, for methods, for
objects within reach. -/
theorem inquire_ensures {o : Object} {methods : List String}
    (hasks : ∀ o', Needs s o o' → T.asks o')
    (hmethods : methods = [] ∨ ∀ o', s.resolver.Reaches o' → T.asks o') :
    (inquire s o methods).Ensures T fun token => token.object = o := by
  have hdocs : ∀ d ∈ o.docstrings, ∀ o', d.Needs s o' → T.asks o' :=
    fun d hd o' ho' => hasks o' ⟨d, hd, ho'⟩
  cases o with
  | «class» c =>
    refine (parseClass_ensures hfails hdocs hmethods).map fun doc hdoc => ?_
    rw [Token.object, hdoc]
  | function f =>
    refine (parseFunction_ensures hfails hdocs).map fun doc hdoc => ?_
    rw [Token.object, hdoc]
  | «module» path => exact .fail (hfails _ rfl)
  | value v => exact .fail (hfails _ rfl)

end Objects

/-- Whatever the answers, it asks for nothing else. -/
theorem inquire_asks (s : Settings) (o : Object) :
    (inquire s o []).Ensures { Terms.any with asks := Needs s o } fun _ => True :=
  (inquire_ensures (fun _ _ => trivial) (fun _ h => h) (.inl rfl)).mono fun _ _ => trivial

/-- Also with methods, it asks for objects within reach only. -/
theorem inquire_reaches (s : Settings) (o : Object) (methods : List String) :
    (inquire s o methods).Ensures { Terms.any with asks := s.resolver.Reaches } fun token =>
      token.object = o :=
  inquire_ensures (fun _ _ => trivial) (fun _ h => h.reaches) (.inr fun _ h => h)

/-! ## What is asked in any case -/

section Covers

variable {s : Settings} {ctx : Context} {o : Object}

theorem expand_covers {name : String} (hname : o.entryName? = some name)
    (hw : s.isWhitelisted name = true) : (expand s (.ofObject o)).Covers o := by
  cases o with
  | «class» c =>
    obtain rfl := Option.some.inj hname
    rw [Entity.ofObject, expand, if_pos hw]
    exact .here _
  | function f =>
    obtain rfl := Option.some.inj hname
    rw [Entity.ofObject, expand, if_pos hw]
    exact .here _
  | «module» path => cases hname
  | value v => cases hname

theorem typeOf_covers {alts : List Alternative} {alt : Alternative} {name : String}
    (halt : alt ∈ alts) (ho : s.resolver.resolve ctx alt.type = .ok (.ofObject o))
    (hname : o.entryName? = some name) (hw : s.isWhitelisted name = true) :
    (typeOf s ctx alts).Covers o := by
  have hone : (alternativeType s ctx alt).Covers o := by
    rw [alternativeType, ho]
    exact expand_covers hname hw
  exact (covers_mapM halt hone).bind _

theorem typedOf_covers {text : String} (ho : TypeNeeds s ctx text o) :
    (typedOf s ctx text).Covers o := by
  obtain ⟨alts, alt, name, hread, halt, hresolve, hname, hw⟩ := ho
  refine covers_ofExcept_bind fun read h => ?_
  obtain rfl := Except.ok.inj (hread.symm.trans (ok_of_mapError h))
  exact covers_bind _ fun _ => (typeOf_covers halt hresolve hname hw).bind _

theorem returnTypeOf_covers {text : String} (ho : TypeNeeds s ctx text o) :
    (returnTypeOf s ctx text).Covers o := by
  obtain ⟨alts, alt, name, hread, halt, hresolve, hname, hw⟩ := ho
  refine covers_ofExcept_bind fun read h => ?_
  obtain rfl := Except.ok.inj (hread.symm.trans (ok_of_mapError h))
  exact typeOf_covers halt hresolve hname hw

theorem addBlock_covers {b : Block} {text : String} (hb : b.typeText? = some text)
    (ho : TypeNeeds s ctx text o) (fs : Fields) : (addBlock s ctx fs b).Covers o := by
  cases b with
  | field name body =>
    refine covers_ofExcept_bind fun fieldName hname => ?_
    obtain ⟨htype, rfl⟩ : fieldName.hasType = true ∧ body = text := by
      simpa [Block.typeText?, ok_of_mapError hname, Except.toOption] using hb
    cases fieldName with
    | type name => exact (typedOf_covers ho).bind _
    | returnType =>
      rw [addField]
      split
      · exact .fail _
      · exact (returnTypeOf_covers ho).bind _
    | param _ | linkAll _ | returns | other _ => cases htype
  | attr name typeBody body =>
    obtain rfl := Option.some.inj hb
    exact covers_bind _ fun _ => (typedOf_covers ho).bind _
  | paragraph _ | see _ | directive _ _ _ => cases hb

theorem addSlot_covers {mode : Mode} {parent : Option ArgMap} {slot : Slot} {target : String}
    (hslot : slot.linkTarget? = some target) (ho : LinkNeeds s ctx target o) (args : ArgMap) :
    (addSlot s ctx mode parent args slot).Covers o := by
  obtain ⟨hself, hresolve, name, hname⟩ := ho
  cases slot with
  | arg _ _ => cases hslot
  | linkAll target' =>
    obtain rfl := Option.some.inj hslot
    have hlink : (linkAll s ctx mode parent target').Covers o := by
      rw [linkAll.eq_def, if_neg hself, hresolve]
      cases o with
      | «class» c => exact .here _
      | function f => exact .here _
      | «module» path => cases hname
      | value v => cases hname
    exact hlink.bind _

/-- Collecting comes to no result without asking for what the blocks need. -/
theorem collect_covers {mode : Mode} {parent : Option ArgMap} {doc : Document} {b : Block}
    (hb : b ∈ doc.blocks) (ho : b.Needs s ctx o) :
    (collect s ctx mode parent doc).Covers o := by
  cases ho with
  | type htext ho => exact (covers_foldlM hb (addBlock_covers htext ho) _).bind _
  | link htarget ho =>
    have hfirst : (doc.blocks.foldlM (addBlock s ctx) .empty).Ensures .any fun fs =>
        fs.links = doc.blocks.filterMap Block.linkTarget? :=
      addBlocks_ensures (fun _ _ => trivial) fun _ _ _ _ _ _ => trivial
    refine hfirst.covers_bind (fun _ _ => trivial) fun fs hlinks => ?_
    have hmem : _ ∈ fs.links := hlinks ▸ List.mem_filterMap.mpr ⟨b, hb, htarget⟩
    obtain ⟨slot, hslot, hslottarget⟩ := List.mem_filterMap.mp hmem
    change Covers o (if _ then fail _ else _)
    split
    · exact .fail _
    · exact (covers_foldlM hslot (addSlot_covers hslottarget ho) _).bind _

theorem parseFunction_covers {f : Function} {parent : Option ArgMap} {d : Docstring}
    (hd : d ∈ f.docstrings) (ho : d.Needs s o) : (parseFunction s f parent).Covers o := by
  obtain ⟨doc, hread, b, hb, ho⟩ := ho
  obtain ⟨text, htext, rfl⟩ : ∃ text, f.doc = some text ∧ ⟨⟨f.module, f.fullName⟩, text⟩ = d := by
    simpa [Function.docstrings] using hd
  refine covers_ofExcept_bind fun doc' hdoc' => ?_
  obtain ⟨text', htext', hread'⟩ := readDoc_ok hdoc'
  obtain rfl : text = text' := Option.some.inj (htext.symm.trans htext')
  obtain rfl : doc = doc' := Except.ok.inj (hread.symm.trans hread')
  exact (collect_covers hb ho).bind _

theorem parseClass_covers {c : Class} {methods : List String} {d : Docstring}
    (hd : d ∈ (Object.class c).docstrings) (ho : d.Needs s o) :
    (parseClass s c methods).Covers o := by
  refine covers_ofExcept_bind fun doc' hdoc' => ?_
  obtain ⟨text', htext', hread'⟩ := readDoc_ok hdoc'
  rcases List.mem_append.mp hd with hd | hd
  · obtain ⟨doc, hread, b, hb, ho⟩ := ho
    obtain ⟨text, htext, rfl⟩ : ∃ text, c.doc = some text ∧
        (⟨⟨c.module, c.fullName⟩, text⟩ : Docstring) = d := by simpa using hd
    obtain rfl : text = text' := Option.some.inj (htext.symm.trans htext')
    obtain rfl : doc = doc' := Except.ok.inj (hread.symm.trans hread')
    exact (collect_covers hb ho).bind _
  · refine covers_bind _ fun collected => Covers.bind ?_ _
    unfold parseInit
    split
    · next hrecord => simp [hrecord] at hd
    · next hrecord =>
      cases hinit : c.init with
      | none => simp [hrecord, hinit] at hd
      | some init =>
        have hdinit : d ∈ init.docstrings := by simpa [hrecord, hinit] using hd
        exact (parseFunction_covers hdinit ho).bind _

/-- **The inquiry into an object has no result before it has asked for all that it needs.** -/
theorem inquire_covers {o' : Object} (h : Needs s o o') (methods : List String) :
    (inquire s o methods).Covers o' := by
  obtain ⟨d, hd, ho⟩ := h
  cases o with
  | «class» c => exact (parseClass_covers hd ho).bind _
  | function f => exact (parseFunction_covers hd ho).bind _
  | «module» path => cases hd
  | value v => cases hd

end Covers

end DocTree
