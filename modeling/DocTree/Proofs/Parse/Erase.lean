import DocTree.Parse.Object
import DocTree.Proofs.Parse.Inquiry
import DocTree.Proofs.Reach

open scoped Function

/-!
# Parsing tokens without their methods

The documentation of an object is put together from the tokens of others, but not from their
methods, which count only where two members of a union are compared. So the inquiry into an object
goes the same way, and comes to a result that looks the same, when the answers differ in methods,
provided that on either side only the token of one object is the same as itself.

* `Draft.withoutMethods`, `Fields.withoutMethods`: the data of the first phase, with the methods
  erased from the types in it. **Every step of both phases commutes with the erasure**;
* `Coherent`, `Entity.Paired`: answers of which only those of one name are the same, and the types
  that such answers lead to;
* `collect_alike`: collecting, within attributes that may differ in methods themselves;
* `inquire_alike`: **the inquiry into an object**;
* `inquire_gives`: what is asked for methods adds nothing but methods.
-/

namespace DocTree

open Inquiry

/-! ## The first phase -/

def Typed.withoutMethods : Typed → Typed
  | .resolved type default => .resolved type.withoutMethods (default.map Entity.withoutMethods)
  | .link target arg => .link target arg

def Draft.withoutMethods (draft : Draft) : Draft :=
  { draft with typed := draft.typed.map Typed.withoutMethods }

def Slot.withoutMethods : Slot → Slot
  | .arg name draft => .arg name draft.withoutMethods
  | .linkAll target => .linkAll target

theorem Slot.eq_linkAll_of_withoutMethods {slot : Slot} {target : String}
    (h : slot.withoutMethods = (Slot.linkAll target).withoutMethods) : slot = .linkAll target := by
  cases slot with
  | arg name draft => cases h
  | linkAll target' =>
    injection h with h
    rw [h]

theorem Slot.eq_arg_of_withoutMethods {slot : Slot} {name : String} {draft : Draft}
    (h : slot.withoutMethods = (Slot.arg name draft).withoutMethods) :
    ∃ draft', slot = .arg name draft' ∧ draft'.description = draft.description ∧
      draft'.typed.map Typed.withoutMethods = draft.typed.map Typed.withoutMethods := by
  cases slot with
  | linkAll target => cases h
  | arg name' draft' =>
    injection h with hname hdraft
    injection hdraft with _ hdescription htyped
    exact ⟨draft', by rw [hname], hdescription, htyped⟩

theorem Typed.eq_resolved {typed : Option Typed} {type : Entity} {default : Option Entity}
    (h : typed.map Typed.withoutMethods =
      (some (Typed.resolved type default)).map Typed.withoutMethods) :
    ∃ type' default', typed = some (.resolved type' default') ∧
      type'.withoutMethods = type.withoutMethods ∧
      default'.map Entity.withoutMethods = default.map Entity.withoutMethods := by
  obtain ⟨typed', rfl, htyped⟩ := Option.map_eq_some_iff.mp h
  cases typed' with
  | link target arg => cases htyped
  | resolved type' default' =>
    injection htyped with htype hdefault
    exact ⟨type', default', rfl, htype, hdefault⟩

theorem Typed.eq_link {typed : Option Typed} {target : String} {arg : Option String}
    (h : typed.map Typed.withoutMethods =
      (some (Typed.link target arg)).map Typed.withoutMethods) :
    typed = some (.link target arg) := by
  obtain ⟨typed', rfl, htyped⟩ := Option.map_eq_some_iff.mp h
  cases typed' with
  | resolved type default => cases htyped
  | link target' arg' =>
    cases htyped
    rfl

def Fields.withoutMethods (fs : Fields) : Fields :=
  { fs with
    slots := fs.slots.map Slot.withoutMethods
    returns := fs.returns.map Returns.withoutMethods }

section Fields

variable (fs : Fields)

/-- A change of drafts that commutes with the erasure does so within the slots. -/
theorem updateDraft_withoutMethods {name : String} {f g : Draft → Except Error Draft}
    (h : ∀ draft, g draft.withoutMethods = (f draft).map Draft.withoutMethods) :
    ∀ slots : List Slot, updateDraft name g (slots.map Slot.withoutMethods) =
      (updateDraft name f slots).map (List.map Slot.withoutMethods)
  | [] => by
    change (g Draft.empty.withoutMethods).map _ = ((f .empty).map _).map _
    rw [h]
    cases f .empty <;> rfl
  | .arg n draft :: rest => by
    rw [List.map_cons, Slot.withoutMethods, updateDraft, updateDraft]
    split
    · rw [h]
      cases f draft <;> rfl
    · rw [updateDraft_withoutMethods h rest]
      cases updateDraft name f rest <;> rfl
  | .linkAll target :: rest => by
    rw [List.map_cons, Slot.withoutMethods, updateDraft, updateDraft,
      updateDraft_withoutMethods h rest]
    cases updateDraft name f rest <;> rfl

/-- The same for a change of drafts within the fields. -/
theorem changeDraft_withoutMethods {name : String} {f g : Draft → Except Error Draft}
    (h : ∀ draft, g draft.withoutMethods = (f draft).map Draft.withoutMethods) :
    (do
      let slots ← updateDraft name g fs.withoutMethods.slots
      return { fs.withoutMethods with slots := slots }) =
    (do
      let slots ← updateDraft name f fs.slots
      return { fs with slots := slots } : Except Error Fields).map Fields.withoutMethods := by
  rw [Fields.withoutMethods, updateDraft_withoutMethods h]
  cases updateDraft name f fs.slots <;> rfl

theorem addParam_withoutMethods (object name body : String) :
    fs.withoutMethods.addParam object name body =
      (fs.addParam object name body).map Fields.withoutMethods := by
  refine changeDraft_withoutMethods fs fun draft => ?_
  change (if draft.hasParam then _ else _) = _
  split
  · rfl
  · rfl

theorem addType_withoutMethods (object name : String) (typed : Typed) :
    fs.withoutMethods.addType object name typed.withoutMethods =
      (fs.addType object name typed).map Fields.withoutMethods := by
  refine changeDraft_withoutMethods fs fun draft => ?_
  change (if (draft.typed.map Typed.withoutMethods).isSome then _ else _) = _
  rw [Option.isSome_map]
  split
  · rfl
  · rfl

theorem addLinkAll_withoutMethods (target : String) :
    fs.withoutMethods.addLinkAll target = (fs.addLinkAll target).withoutMethods := by
  simp [Fields.addLinkAll, Fields.withoutMethods, Slot.withoutMethods]

theorem returnsSoFar_withoutMethods :
    fs.withoutMethods.returnsSoFar = fs.returnsSoFar.withoutMethods := by
  rw [Fields.returnsSoFar, Fields.returnsSoFar, Fields.withoutMethods]
  cases fs.returns with
  | none => rfl
  | some returns => rfl

theorem addReturns_withoutMethods (object body : String) :
    fs.withoutMethods.addReturns object body =
      (fs.addReturns object body).map Fields.withoutMethods := by
  rw [Fields.addReturns, Fields.addReturns, returnsSoFar_withoutMethods]
  change (if fs.hasReturns then _ else _) = _
  split
  · rfl
  · cases fs.returnsSoFar
    rfl

theorem addReturnType_withoutMethods (type : Entity) :
    fs.withoutMethods.addReturnType type.withoutMethods =
      (fs.addReturnType type).withoutMethods := by
  rw [Fields.addReturnType, Fields.addReturnType, returnsSoFar_withoutMethods]
  cases fs.returnsSoFar
  rfl

theorem unmatched_withoutMethods : fs.withoutMethods.unmatched = fs.unmatched := by
  have hslot : ∀ slot : Slot, Fields.unmatchedName? slot.withoutMethods =
      Fields.unmatchedName? slot := by
    intro slot
    rcases slot with ⟨name, hasParam, description, _ | typed⟩ | target
    · rfl
    · cases typed <;> rfl
    · rfl
  rw [Fields.unmatched, Fields.withoutMethods, List.filterMap_map]
  exact congrArg (List.filterMap · fs.slots) (funext hslot)

end Fields

/-! ## Types -/

/-- Of the answers, those that are of one name are the same, and no others are. -/
def Coherent (answers : Object → Token → Prop) : Prop :=
  ∀ o o' t t', answers o t → answers o' t' → (t.same t' = true ↔ o.entryName? = o'.entryName?)

/-- What stands in one place, when `A` answers on the one side and `B` on the other: the same simple
entity, or the tokens of one object in full. -/
inductive Entity.Paired (A B : Object → Token → Prop) : Entity → Entity → Prop where
  | simple {e : Entity} (h : e.isSimple = true) : Paired A B e e
  | expanded {o : Object} {t u : Token} (ht : A o t) (hu : B o u)
      (h : t.withoutMethods = u.withoutMethods) : Paired A B (.expanded t) (.expanded u)

section FirstPhase

variable {A B : Object → Token → Prop}

theorem Entity.Paired.look {e e' : Entity} (h : Entity.Paired A B e e') :
    e.withoutMethods = e'.withoutMethods := by
  cases h with
  | simple _ => rfl
  | expanded _ _ h => exact congrArg Entity.expanded h

/-- A simple entity is not the same as a token in full. -/
theorem Entity.same_expanded_of_isSimple {e : Entity} (h : e.isSimple = true) (t : Token) :
    e.same (.expanded t) = false ∧ (Entity.expanded t).same e = false := by
  cases e with
  | union _ | expanded _ => cases h
  | _ => exact ⟨rfl, rfl⟩

variable (hA : Coherent A) (hB : Coherent B)

include hA hB

/-- Paired entities compare alike. -/
theorem Entity.Paired.same {a b a' b' : Entity} (h : Entity.Paired A B a b)
    (h' : Entity.Paired A B a' b') : a.same a' = b.same b' := by
  cases h with
  | simple hsimple =>
    cases h' with
    | simple _ => rfl
    | expanded _ _ _ =>
      rw [(same_expanded_of_isSimple hsimple _).1, (same_expanded_of_isSimple hsimple _).1]
  | @expanded o t u ht hu _ =>
    cases h' with
    | simple hsimple =>
      rw [(same_expanded_of_isSimple hsimple _).2, (same_expanded_of_isSimple hsimple _).2]
    | @expanded o' t' u' ht' hu' _ =>
      exact Bool.eq_iff_iff.mpr ((hA o o' t t' ht ht').trans (hB o o' u u' hu hu').symm)

omit hA hB

variable (s : Settings) (ctx : Context)

theorem expand_alike {e : Entity} (hsimple : e.isSimple = true) :
    (expand s e).Alike A B (Entity.Paired A B) (expand s e) := by
  have hexpanded : ∀ o : Object, (Entity.expanded <$> tokenOf o).Alike A B (Entity.Paired A B)
      (Entity.expanded <$> tokenOf o) :=
    fun o => (alike_tokenOf o).map fun _ _ ⟨ht, hu, h⟩ => .expanded ht hu h
  cases e with
  | «class» c =>
    rw [expand]
    split
    · exact hexpanded _
    · exact .done (.simple hsimple)
  | function f =>
    rw [expand]
    split
    · exact hexpanded _
    · exact .done (.simple hsimple)
  | builtin _ | value _ | «module» _ => exact .done (.simple hsimple)
  | union _ | expanded _ => cases hsimple

include hA hB

theorem typeOf_alike (alts : List Alternative) :
    (typeOf s ctx alts).Alike A B (Eq on Entity.withoutMethods) (typeOf s ctx alts) := by
  have halt : ∀ alt ∈ alts, (alternativeType s ctx alt).Alike A B (Entity.Paired A B)
      (alternativeType s ctx alt) :=
    fun alt _ => alike_ofExcept_bind _ fun e he => expand_alike s (resolve_isSimple he)
  exact (alike_mapM halt).bind fun types types' h =>
    .done (Entity.ofAlternatives_withoutMethods (·.look) (Entity.Paired.same hA hB) h)

theorem typedOf_alike (text : String) :
    (typedOf s ctx text).Alike A B (Eq on Typed.withoutMethods) (typedOf s ctx text) := by
  refine alike_ofExcept_bind _ fun read _ => ?_
  split
  · exact .done rfl
  · exact .done rfl
  · exact .fail _
  · refine alike_ofExcept_bind _ fun default _ => ?_
    refine (typeOf_alike hA hB s ctx _).bind fun type type' (h : type.withoutMethods = _) =>
      alike_done ?_
    rw [Typed.withoutMethods, Typed.withoutMethods, h]

theorem returnTypeOf_alike (text : String) :
    (returnTypeOf s ctx text).Alike A B (Eq on Entity.withoutMethods)
      (returnTypeOf s ctx text) := by
  refine alike_ofExcept_bind _ fun read _ => ?_
  split
  · exact .fail _
  · exact typeOf_alike hA hB s ctx _

theorem addField_alike {fs fs' : Fields} (h : fs.withoutMethods = fs'.withoutMethods)
    (name : FieldName) (body : String) :
    (addField s ctx fs name body).Alike A B (Eq on Fields.withoutMethods)
      (addField s ctx fs' name body) := by
  cases name with
  | param name =>
    refine alike_ofExcept ?_
    rw [← addParam_withoutMethods, h, addParam_withoutMethods]
  | linkAll target =>
    refine alike_done ?_
    rw [← addLinkAll_withoutMethods, h, addLinkAll_withoutMethods]
  | type name =>
    refine (typedOf_alike hA hB s ctx body).bind fun typed typed' htyped => alike_ofExcept ?_
    rw [← addType_withoutMethods, h, htyped, addType_withoutMethods]
  | returns =>
    refine alike_ofExcept ?_
    rw [← addReturns_withoutMethods, h, addReturns_withoutMethods]
  | returnType =>
    have hhas : fs.hasReturnType = fs'.hasReturnType := by
      change fs.withoutMethods.hasReturnType = fs'.withoutMethods.hasReturnType
      rw [h]
    rw [addField, addField, hhas]
    split
    · exact .fail _
    · refine (returnTypeOf_alike hA hB s ctx body).bind fun type type' htype => alike_done ?_
      rw [← addReturnType_withoutMethods, h, htype, addReturnType_withoutMethods]
  | other name =>
    refine alike_done ?_
    have hadd : ∀ fs : Fields,
        (fs.addSection name body).withoutMethods = fs.withoutMethods.addSection name body :=
      fun _ => rfl
    rw [hadd, hadd, h]

theorem addBlock_alike {fs fs' : Fields} (h : fs.withoutMethods = fs'.withoutMethods) (b : Block) :
    (addBlock s ctx fs b).Alike A B (Eq on Fields.withoutMethods)
      (addBlock s ctx fs' b) := by
  cases b with
  | paragraph text => exact .done h
  | field name body =>
    exact alike_ofExcept_bind _ fun name _ => addField_alike hA hB s ctx h name body
  | attr name typeBody body =>
    have hparam : (fs.addParam ctx.object name body).map Fields.withoutMethods =
        (fs'.addParam ctx.object name body).map Fields.withoutMethods := by
      rw [← addParam_withoutMethods, h, addParam_withoutMethods]
    refine (alike_ofExcept hparam).bind fun fs₁ fs₁' h₁ => ?_
    refine (typedOf_alike hA hB s ctx typeBody).bind fun typed typed' htyped => alike_ofExcept ?_
    rw [← addType_withoutMethods, h₁, htyped, addType_withoutMethods]
  | see target =>
    match target with
    | [target] =>
      refine alike_done ?_
      rw [← addLinkAll_withoutMethods, h, addLinkAll_withoutMethods]
    | [] | _ :: _ :: _ => exact .fail _
  | directive kind title body =>
    exact addField_alike hA hB s ctx h (.other (if title.isEmpty then kind else title)) body

end FirstPhase

/-! ## The second phase -/

def Collected.withoutMethods (collected : Collected) : Collected :=
  { collected with
    args := collected.args.withoutMethods
    returns := collected.returns.map Returns.withoutMethods }

theorem make_withoutMethods (name : String) (type : Entity) :
    Arg.make name type.withoutMethods = (Arg.make name type).map Arg.withoutMethods := by
  rw [Arg.make, Arg.make]
  split
  · rfl
  · rfl

theorem linkOne_withoutMethods (object name target : String) (arg description : Option String)
    (parent : Option ArgMap) :
    linkOne object name target arg description (parent.map ArgMap.withoutMethods) =
      (linkOne object name target arg description parent).map Arg.withoutMethods := by
  unfold linkOne
  split
  · rfl
  · cases parent with
    | none => rfl
    | some parent =>
      simp only [Option.map_some, ArgMap.get?_withoutMethods]
      cases parent.get? _ with
      | none => rfl
      | some source =>
        simp only [Option.map_some, Arg.withoutMethods_type, make_withoutMethods]
        cases Arg.make name source.type with
        | error e => rfl
        | ok made =>
          refine congrArg Except.ok ?_
          rw [Arg.withoutMethods_with, Arg.withoutMethods_description, Arg.withoutMethods_default]

theorem appendArgs_withoutMethods (object : String) (new : List Arg) (args : ArgMap) :
    appendArgs object args.withoutMethods (new.map Arg.withoutMethods) =
      (appendArgs object args new).map ArgMap.withoutMethods := by
  induction new generalizing args with
  | nil => rfl
  | cons arg rest ih =>
    rw [List.map_cons, appendArgs, appendArgs, ArgMap.insert?_withoutMethods]
    cases args.insert? arg with
    | none => rw [Option.map_none, Arg.withoutMethods_name]; rfl
    | some args' => exact ih args'

theorem argsFor_withoutMethods (mode : Mode) (token : Token) :
    (token.argsFor mode).withoutMethods = token.withoutMethods.argsFor mode := by
  cases token with
  | function doc => exact doc.withoutMethods_args.symm
  | «class» doc =>
    cases mode with
    | function => exact doc.constructorArgs_withoutMethods.symm
    | attributes => exact doc.withoutMethods_attributes.symm

section SecondPhase

variable {A B : Object → Token → Prop} (hA : Coherent A) (hB : Coherent B) (s : Settings)
  (ctx : Context) (mode : Mode) {parent parent' : Option ArgMap}
  (hparent : parent.map ArgMap.withoutMethods = parent'.map ArgMap.withoutMethods)

/-- The arguments of tokens that look the same look the same. -/
theorem argsOf_alike (o : Object) :
    (do return ((← tokenOf o).argsFor mode).toList : Inquiry (List Arg)).Alike A B
      (Eq on List.map Arg.withoutMethods) (do return ((← tokenOf o).argsFor mode).toList) := by
  refine (alike_tokenOf o).bind fun t u ⟨_, _, h⟩ => alike_done ?_
  rw [← ArgMap.withoutMethods_toList, ← ArgMap.withoutMethods_toList, argsFor_withoutMethods, h,
    argsFor_withoutMethods]

include hparent

theorem linkAll_alike (target : String) :
    (linkAll s ctx mode parent target).Alike A B (Eq on List.map Arg.withoutMethods)
      (linkAll s ctx mode parent' target) := by
  unfold linkAll
  split
  · cases parent with
    | none =>
      obtain rfl : parent' = none := Option.map_eq_none_iff.mp hparent.symm
      exact .fail _
    | some attributes =>
      obtain ⟨attributes', rfl, h⟩ := Option.map_eq_some_iff.mp hparent.symm
      refine alike_done ?_
      rw [← ArgMap.withoutMethods_toList, ← ArgMap.withoutMethods_toList, h]
  · refine alike_ofExcept_bind _ fun e _ => ?_
    split
    · exact argsOf_alike mode _
    · exact argsOf_alike mode _
    · exact .fail _

theorem slotArgs_alike {slot slot' : Slot} (h : slot.withoutMethods = slot'.withoutMethods) :
    (slotArgs s ctx mode parent slot).Alike A B (Eq on List.map Arg.withoutMethods)
      (slotArgs s ctx mode parent' slot') := by
  cases slot with
  | linkAll target =>
    obtain rfl : slot' = .linkAll target := Slot.eq_linkAll_of_withoutMethods h.symm
    exact linkAll_alike s ctx mode hparent target
  | arg name draft =>
    obtain ⟨draft', rfl, hdescription, htyped⟩ := Slot.eq_arg_of_withoutMethods h.symm
    rw [slotArgs, slotArgs, hdescription]
    rcases hdraft : draft.typed with _ | ⟨type, default⟩ | ⟨target, arg⟩
    · rw [hdraft] at htyped
      rw [Option.map_eq_none_iff.mp htyped]
      exact .done rfl
    · rw [hdraft] at htyped
      obtain ⟨type', default', hdraft', htype, hdefault⟩ := Typed.eq_resolved htyped
      rw [hdraft']
      have hmake : (Arg.make name type).map Arg.withoutMethods =
          (Arg.make name type').map Arg.withoutMethods := by
        rw [← make_withoutMethods, ← htype, make_withoutMethods]
      refine (alike_ofExcept hmake).bind fun made made' hmade => alike_done ?_
      rw [List.map_singleton, List.map_singleton, Arg.withoutMethods_with, Arg.withoutMethods_with,
        hmade, hdefault]
    · rw [hdraft] at htyped
      rw [Typed.eq_link htyped]
      have hlink : (linkOne ctx.object name target arg draft.description parent).map
            Arg.withoutMethods =
          (linkOne ctx.object name target arg draft.description parent').map
            Arg.withoutMethods := by
        rw [← linkOne_withoutMethods, hparent, linkOne_withoutMethods]
      refine (alike_ofExcept hlink).bind fun made made' hmade => alike_done ?_
      rw [List.map_singleton, List.map_singleton, hmade]

theorem addSlot_alike {args args' : ArgMap} (hargs : args.withoutMethods = args'.withoutMethods)
    {slot slot' : Slot} (h : slot.withoutMethods = slot'.withoutMethods) :
    (addSlot s ctx mode parent args slot).Alike A B (Eq on ArgMap.withoutMethods)
      (addSlot s ctx mode parent' args' slot') := by
  refine (slotArgs_alike s ctx mode hparent h).bind fun new new' hnew => alike_ofExcept ?_
  rw [← appendArgs_withoutMethods, hargs, hnew, appendArgs_withoutMethods]

include hA hB

/-- **Collecting goes the same way**, whatever the methods in the answers and in the attributes
around it. -/
theorem collect_alike (doc : Document) :
    (collect s ctx mode parent doc).Alike A B (Eq on Collected.withoutMethods)
      (collect s ctx mode parent' doc) := by
  have hfirst : (doc.blocks.foldlM (addBlock s ctx) .empty).Alike A B (Eq on Fields.withoutMethods)
      (doc.blocks.foldlM (addBlock s ctx) .empty) := by
    refine alike_foldlM (v := id) rfl (fun b b' fs fs' hb h => ?_) rfl
    obtain rfl : b = b' := hb
    exact addBlock_alike hA hB s ctx h b
  refine hfirst.bind fun fs fs' h => ?_
  have hunmatched : fs.unmatched = fs'.unmatched := by
    rw [← unmatched_withoutMethods, h, unmatched_withoutMethods]
  change Alike _ _ _
    (if (!fs.unmatched.isEmpty) = true then fail (.unmatched ctx.object fs.unmatched) else _)
    (if (!fs'.unmatched.isEmpty) = true then fail (.unmatched ctx.object fs'.unmatched) else _)
  rw [hunmatched]
  split
  · exact .fail _
  · have hslots : fs.slots.map Slot.withoutMethods = fs'.slots.map Slot.withoutMethods :=
      congrArg Fields.slots h
    have hsecond : (fs.slots.foldlM (addSlot s ctx mode parent) .empty).Alike A B
        (Eq on ArgMap.withoutMethods) (fs'.slots.foldlM (addSlot s ctx mode parent') .empty) :=
      alike_foldlM hslots (fun _ _ _ _ hslot hargs =>
        addSlot_alike s ctx mode hparent hargs hslot) rfl
    refine hsecond.bind fun args args' hargs => alike_done ?_
    have hreturns : fs.returns.map Returns.withoutMethods =
        fs'.returns.map Returns.withoutMethods := congrArg Fields.returns h
    have hsections : fs.otherSections = fs'.otherSections := by
      change fs.withoutMethods.otherSections = fs'.withoutMethods.otherSections
      rw [h]
    cases mode with
    | function =>
      change Collected.mk _ _ _ = Collected.mk _ _ _
      rw [hargs, hreturns, hsections]
    | attributes =>
      change Collected.mk _ _ _ = Collected.mk _ _ _
      rw [hargs, hsections]

end SecondPhase

/-! ## Objects -/

theorem undocumented_withoutMethods (params : List String) (args : ArgMap) :
    undocumented params args.withoutMethods = undocumented params args := by
  have h : args.withoutMethods.contains = args.contains :=
    funext args.contains_withoutMethods
  rw [undocumented, undocumented, h]

/-- What must be documented does not depend on methods. -/
theorem requireDocumented_congr {args args' : ArgMap}
    (h : args.withoutMethods = args'.withoutMethods) (object : String) (params : List String) :
    requireDocumented object params args = requireDocumented object params args' := by
  rw [requireDocumented, requireDocumented, ← undocumented_withoutMethods, h,
    undocumented_withoutMethods]

section Objects

variable {A B : Object → Token → Prop} (hA : Coherent A) (hB : Coherent B) (s : Settings)

include hA hB

theorem parseFunction_alike (f : Function) {parent parent' : Option ArgMap}
    (h : parent.map ArgMap.withoutMethods = parent'.map ArgMap.withoutMethods) :
    (parseFunction s f parent).Alike A B (Eq on FunctionDoc.withoutMethods)
      (parseFunction s f parent') := by
  refine alike_ofExcept_bind _ fun doc _ => ?_
  refine (collect_alike hA hB s _ _ h doc).bind fun collected collected' hcollected => alike_done ?_
  have hargs : collected.args.withoutMethods = collected'.args.withoutMethods :=
    congrArg Collected.args hcollected
  have hreturns : collected.returns.map Returns.withoutMethods =
      collected'.returns.map Returns.withoutMethods := congrArg Collected.returns hcollected
  have hsections : collected.otherSections = collected'.otherSections := by
    change collected.withoutMethods.otherSections = collected'.withoutMethods.otherSections
    rw [hcollected]
  simp only [FunctionDoc.withoutMethods, Returns.optionWithoutMethods_eq]
  rw [hargs, hreturns, hsections]

theorem parseInit_alike (c : Class) {attributes attributes' : ArgMap}
    (h : attributes.withoutMethods = attributes'.withoutMethods) :
    (parseInit s c attributes).Alike A B (Eq on Option.map FunctionDoc.withoutMethods)
      (parseInit s c attributes') := by
  unfold parseInit
  split
  · rw [requireDocumented_congr h]
    exact alike_ofExcept_bind _ fun _ _ => .done rfl
  · split
    · exact .done rfl
    · have hparent : (some attributes).map ArgMap.withoutMethods =
          (some attributes').map ArgMap.withoutMethods := congrArg some h
      refine (parseFunction_alike hA hB s _ hparent).bind fun doc doc' hdoc => ?_
      have hargs : doc.args.withoutMethods = doc'.args.withoutMethods := by
        rw [← FunctionDoc.withoutMethods_args, hdoc, FunctionDoc.withoutMethods_args]
      rw [requireDocumented_congr hargs]
      exact alike_ofExcept_bind _ fun _ _ => .done (congrArg some hdoc)

theorem parseClass_alike (c : Class) :
    (parseClass s c []).Alike A B (Eq on ClassDoc.withoutMethods) (parseClass s c []) := by
  refine alike_ofExcept_bind _ fun doc _ => ?_
  refine (collect_alike hA hB s _ _ rfl doc).bind fun collected collected' hcollected => ?_
  have hargs : collected.args.withoutMethods = collected'.args.withoutMethods :=
    congrArg Collected.args hcollected
  have hsections : collected.otherSections = collected'.otherSections := by
    change collected.withoutMethods.otherSections = collected'.withoutMethods.otherSections
    rw [hcollected]
  refine (parseInit_alike hA hB s c hargs).bind fun init init' hinit => alike_done ?_
  simp only [ClassDoc.withoutMethods, FunctionDoc.optionWithoutMethods_eq]
  rw [hargs, hinit, hsections]

/-- **The inquiry into an object goes the same way**, whatever methods the answers document, and
what it comes to differs in methods only. -/
theorem inquire_alike (o : Object) :
    (inquire s o []).Alike A B (Eq on Token.withoutMethods) (inquire s o []) := by
  cases o with
  | «class» c => exact (parseClass_alike hA hB s c).map fun doc doc' h => congrArg Token.class h
  | function f =>
    exact (parseFunction_alike hA hB s f rfl).map fun doc doc' h => congrArg Token.function h
  | «module» path => exact .fail _
  | value v => exact .fail _

omit hA hB in
/-- **What is asked for methods adds nothing but methods.** -/
theorem inquire_gives {answers : Object → Token → Prop} {o : Object} {methods : List String}
    {token : Token} (h : (inquire s o methods).Gives answers token) :
    ∃ token', (inquire s o []).Gives answers token' ∧
      token.withoutMethods = token'.withoutMethods := by
  cases o with
  | function f => exact ⟨token, h, rfl⟩
  | «module» path => cases h
  | value v => cases h
  | «class» c =>
    obtain ⟨doc, hdoc, htoken⟩ := h.of_bind
    cases htoken
    obtain ⟨document, hdocument, hdoc⟩ := hdoc.of_bind
    obtain ⟨collected, hcollected, hdoc⟩ := hdoc.of_bind
    obtain ⟨init, hinit, hdoc⟩ := hdoc.of_bind
    have hnil : (inquire s (.class c) []).Gives answers (.class
        { subject := c
          description := document.description
          attributes := collected.args
          init := init
          methods := none
          otherSections := collected.otherSections }) := by
      refine Gives.bind (hdocument.bind (hcollected.bind (hinit.bind ?_))) (.done _)
      exact .done _
    change Gives _ (if _ then _ else _) _ at hdoc
    refine ⟨_, hnil, ?_⟩
    split at hdoc
    · cases hdoc
      rfl
    · obtain ⟨docs, -, hdoc⟩ := hdoc.of_bind
      cases hdoc
      rfl

end Objects

end DocTree
