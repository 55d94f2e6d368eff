import DocTree.Proofs.Host.Declared

/-!
# Hosts built by calls

A manifest read as calls that build a host: each module, class and member by the call for its kind,
in the order of the manifest.

* `ClassSpec.fill`, `MemberSpec.addToClass`: the calls that complete a class;
* `ModuleSpec.fill`, `MemberSpec.addToModule`, `Manifest.assemble`: the calls that complete a
  module and the host;
* `MemberSpec.addToClass_eq_bind`, `MemberSpec.addToModule_eq_bind`: the call for a member binds what
  is built for it;
* `MemberSpec.buildAll_eq_foldl`, `ClassSpec.build_eq_fill`: so do the calls for all members, and **a
  class that is built is the one that its calls complete**, at whatever depth;
* **`Manifest.toHost_eq_assemble`**: the host of a manifest is the one that its calls build.
-/

namespace DocTree

/-! ## The calls -/

/-- The calls before those for the members. -/
def ClassSpec.before (spec : ClassSpec) (c : Class) : Class :=
  let documented := spec.doc.elim c c.withDoc
  spec.init.elim documented fun i => documented.withInit i.doc i.params

/-- The calls after those for the members. -/
def ClassSpec.after (spec : ClassSpec) (c : Class) : Class :=
  let based := spec.bases.foldl (fun c base => c.withBase (.ofName base)) c
  spec.fields.elim based based.withFields

mutual

/-- The calls that complete a class. -/
def ClassSpec.fill : ClassSpec → Class → Class
  | ⟨name, doc, init, members, bases, fields⟩, c =>
    let spec : ClassSpec := ⟨name, doc, init, members, bases, fields⟩
    spec.after (MemberSpec.addAllToClass members (spec.before c))

/-- The call that adds a member to a class. There is none that binds a name to a module, and none
for a value that no literal gives. -/
def MemberSpec.addToClass : MemberSpec → Class → Class
  | .function name doc params, c => c.withMethod name doc params
  | .class spec, c => c.withClass spec.name (ClassSpec.fill spec)
  | .value name literal, c =>
    match Literal.read literal with
    | .ok v => c.withValue name v
    | .error _ => c
  | .module .., c => c

def MemberSpec.addAllToClass : List MemberSpec → Class → Class
  | [], c => c
  | spec :: specs, c => MemberSpec.addAllToClass specs (MemberSpec.addToClass spec c)

end

/-- The call that adds a member to a module. -/
def MemberSpec.addToModule : MemberSpec → Module → Module
  | .function name doc params, mod => mod.withFunction name doc params
  | .class spec, mod => mod.withClass spec.name spec.fill
  | .value name literal, mod =>
    match Literal.read literal with
    | .ok v => mod.withValue name v
    | .error _ => mod
  | .module name path, mod => mod.withAlias name path

/-- The calls that complete a module. -/
def ModuleSpec.fill (spec : ModuleSpec) (mod : Module) : Module :=
  let documented := spec.doc.elim mod mod.withDoc
  spec.members.foldl (fun mod member => member.addToModule mod) documented

/-- The host that the calls of a manifest build. -/
def Manifest.assemble (m : Manifest) : Host :=
  m.modules.foldl (fun h spec => h.withModule spec.name spec.fill) .empty

/-- The manifests that can be read as calls. -/
structure Manifest.IsCallable (m : Manifest) : Prop where
  distinct : (m.modules.map ModuleSpec.name).Nodup
  literals {module name literal : String} {owner : Option String} :
    m.Declares module owner (.value name literal) → ∃ v, Literal.read literal = .ok v
  aliases {module name path : String} {owner : Option String} :
    m.Declares module owner (.module name path) → owner = none

variable {m : Manifest}

/-! ## Classes -/

theorem Class.foldl_withBase (bases : List String) (c : Class) :
    bases.foldl (fun c base => c.withBase (.ofName base)) c =
      { c with bases := c.bases ++ bases.map Base.ofName } := by
  induction bases generalizing c with
  | nil =>
    rw [List.map_nil, List.append_nil, List.foldl_nil]
    cases c
    rfl
  | cons base bases ih =>
    rw [List.foldl_cons, ih, List.map_cons, withBase, List.append_assoc, List.singleton_append]

theorem MemberSpec.addAllToClass_eq_foldl (specs : List MemberSpec) (c : Class) :
    addAllToClass specs c = specs.foldl (fun c member => member.addToClass c) c := by
  induction specs generalizing c with
  | nil => rfl
  | cons first specs ih => rw [addAllToClass, List.foldl_cons, ih]

namespace ClassSpec

variable (spec : ClassSpec)

/-- The class with its docstring, its constructor and some members. -/
def holder (module qualname : String) (members : NameMap Object) : Class :=
  ⟨module, qualname, spec.doc,
    spec.init.map fun i => ⟨module, qualified qualname Class.initName, i.doc, some i.params⟩,
    members, [], none⟩

theorem before_empty (module qualname : String) :
    spec.before (.empty module qualname) = spec.holder module qualname .empty := by
  obtain ⟨name, doc, init, members, bases, fields⟩ := spec
  cases doc <;> cases init <;> rfl

theorem after_eq (c : Class) :
    spec.after c =
      { c with
        bases := c.bases ++ spec.bases.map Base.ofName
        fields := spec.fields.or c.fields } := by
  obtain ⟨name, doc, init, members, bases, fields⟩ := spec
  rw [after, Class.foldl_withBase]
  cases fields <;> rfl

theorem fill_empty (module qualname : String) :
    spec.fill (.empty module qualname) =
      spec.after (spec.members.foldl (fun c member => member.addToClass c)
        (spec.holder module qualname .empty)) := by
  rw [← before_empty, ← MemberSpec.addAllToClass_eq_foldl]
  cases spec
  rfl

theorem sizeOf_lt_of_mem {inner spec : ClassSpec} (h : MemberSpec.class inner ∈ spec.members) :
    sizeOf inner < sizeOf spec := by
  have hlt := List.sizeOf_lt_of_mem h
  cases spec
  simp at hlt ⊢
  omega

end ClassSpec

/-! ## One step and a whole run -/

/-- What the calls for members make of a holder, if each of them binds what is built for its
member. -/
theorem MemberSpec.buildAll_eq_foldl {Holder : Type} {add : MemberSpec → Holder → Holder}
    {holder : NameMap Object → Holder} {module : String} {owner : Option String}
    {specs : List MemberSpec}
    (hstep : ∀ member ∈ specs, ∀ bound, ∃ o, member.build module owner = .ok (member.name, o) ∧
      add member (holder bound) = holder (bound.insert member.name o)) (bound : NameMap Object) :
    ∃ members, buildAll module owner bound specs = .ok members ∧
      specs.foldl (fun h member => add member h) (holder bound) = holder members := by
  induction specs generalizing bound with
  | nil => exact ⟨bound, rfl, rfl⟩
  | cons first specs ih =>
    obtain ⟨hfirst, hrest⟩ := List.forall_mem_cons.mp hstep
    obtain ⟨o, hbuild, hadd⟩ := hfirst bound
    obtain ⟨members, hbuilt, hfilled⟩ := ih hrest (bound.insert first.name o)
    refine ⟨members, ?_, ?_⟩
    · rw [buildAll, hbuild]
      exact hbuilt
    · rw [List.foldl_cons, hadd, hfilled]

section Building

variable (hm : m.IsCallable)

include hm

/-- The call for a member of a class binds what is built for it. -/
theorem MemberSpec.addToClass_eq_bind {member : MemberSpec} {c : Class}
    (h : m.Declares c.module (some c.qualname) member)
    (hclass : ∀ spec, member = .class spec → spec.build c.module (some c.qualname) =
      .ok (spec.fill (.empty c.module (memberName (some c.qualname) spec.name)))) :
    ∃ o, member.build c.module (some c.qualname) = .ok (member.name, o) ∧
      member.addToClass c = c.bind member.name o := by
  cases member with
  | function name doc params => exact ⟨_, rfl, rfl⟩
  | «class» spec => exact ⟨_, build_class_eq_ok_iff.mpr ⟨rfl, _, hclass spec rfl, rfl⟩, rfl⟩
  | value name literal =>
    obtain ⟨v, hv⟩ := hm.literals h
    refine ⟨.value v, build_value_eq_ok_iff.mpr ⟨rfl, v, hv, rfl⟩, ?_⟩
    rw [addToClass, hv]
    rfl
  | «module» name path => cases hm.aliases h

/-- **A class that is built is the one that its calls complete.** By induction on the classes
within it. -/
theorem ClassSpec.build_eq_fill (spec : ClassSpec) {module : String} {owner : Option String}
    (h : m.Declares module owner (.class spec)) :
    spec.build module owner = .ok (spec.fill (.empty module (memberName owner spec.name))) := by
  have hstep : ∀ member ∈ spec.members, ∀ bound, ∃ o,
      member.build module (some (memberName owner spec.name)) = .ok (member.name, o) ∧
        member.addToClass (spec.holder module (memberName owner spec.name) bound) =
          spec.holder module (memberName owner spec.name) (bound.insert member.name o) := by
    intro member hmember bound
    have hdeclared := Manifest.Declares.ofClass h hmember
    refine MemberSpec.addToClass_eq_bind hm
      (c := spec.holder module (memberName owner spec.name) bound) hdeclared ?_
    rintro inner rfl
    have hlt := sizeOf_lt_of_mem hmember
    exact build_eq_fill inner hdeclared
  obtain ⟨members, hbuilt, hfilled⟩ := MemberSpec.buildAll_eq_foldl hstep .empty
  refine build_eq_ok_iff.mpr ⟨members, hbuilt, ?_⟩
  rw [spec.fill_empty, hfilled, spec.after_eq, holder, Option.or_none, List.nil_append]
termination_by sizeOf spec

/-- The call for a member of a module binds what is built for it. -/
theorem MemberSpec.addToModule_eq_bind {member : MemberSpec} {mod : Module}
    (h : m.Declares mod.name none member) :
    ∃ o, member.build mod.name none = .ok (member.name, o) ∧
      member.addToModule mod = mod.bind member.name o := by
  cases member with
  | function name doc params => exact ⟨_, rfl, rfl⟩
  | «class» spec =>
    exact ⟨_, build_class_eq_ok_iff.mpr ⟨rfl, _, spec.build_eq_fill hm h, rfl⟩, rfl⟩
  | value name literal =>
    obtain ⟨v, hv⟩ := hm.literals h
    refine ⟨.value v, build_value_eq_ok_iff.mpr ⟨rfl, v, hv, rfl⟩, ?_⟩
    rw [addToModule, hv]
    rfl
  | «module» name path => exact ⟨_, rfl, rfl⟩

/-- **A module is added as its calls complete it**, if the host has none of its name. -/
theorem Host.addSpec_eq_withModule {h : Host} {spec : ModuleSpec} (hspec : spec ∈ m.modules)
    (hfree : h.module? spec.name = none) :
    h.addSpec spec = .ok (h.withModule spec.name spec.fill) := by
  have hstep : ∀ member ∈ spec.members, ∀ bound, ∃ o,
      member.build spec.name none = .ok (member.name, o) ∧
        member.addToModule ⟨spec.name, spec.doc, bound⟩ =
          ⟨spec.name, spec.doc, bound.insert member.name o⟩ := by
    intro member hmember bound
    have hdeclared : m.Declares (Module.name ⟨spec.name, spec.doc, bound⟩) none member :=
      .ofModule hspec hmember
    exact MemberSpec.addToModule_eq_bind hm hdeclared
  obtain ⟨members, hbuilt, hfilled⟩ := MemberSpec.buildAll_eq_foldl hstep .empty
  have hfill : spec.fill (.empty spec.name) = ⟨spec.name, spec.doc, members⟩ := by
    rw [← hfilled, ModuleSpec.fill]
    cases spec.doc <;> rfl
  have hcontains : h.modules.contains spec.name = false := by
    rw [NameMap.contains, ← module?, hfree, Option.isSome_none]
  rw [addSpec, hbuilt, withModule, hfill]
  exact if_neg (by rw [hcontains]; exact Bool.false_ne_true)

/-- The calls of modules of different names make a host of what is built for them. -/
theorem Host.foldlM_addSpec {specs : List ModuleSpec} (hspecs : ∀ spec ∈ specs, spec ∈ m.modules)
    (hnames : (specs.map ModuleSpec.name).Nodup) {h : Host}
    (hfree : ∀ spec ∈ specs, h.module? spec.name = none) :
    specs.foldlM addSpec h =
      .ok (specs.foldl (fun h spec => h.withModule spec.name spec.fill) h) := by
  induction specs generalizing h with
  | nil => rfl
  | cons spec specs ih =>
    obtain ⟨hspec, hrest⟩ := List.forall_mem_cons.mp hspecs
    obtain ⟨hname, hnodup⟩ := List.nodup_cons.mp hnames
    obtain ⟨hfirst, hothers⟩ := List.forall_mem_cons.mp hfree
    have hkept : ∀ other ∈ specs, (h.withModule spec.name spec.fill).module? other.name = none := by
      intro other hother
      have hne : spec.name ≠ other.name := fun heq => hname (heq ▸ List.mem_map_of_mem hother)
      rw [module?, withModule, NameMap.get?_insert, if_neg hne]
      exact hothers other hother
    rw [List.foldlM_cons, addSpec_eq_withModule hm hspec hfirst, List.foldl_cons]
    exact ih hrest hnodup hkept

/-- **The host of a manifest is the one that its calls build**, in all its modules and members, at
whatever depth. -/
theorem Manifest.toHost_eq_assemble : m.toHost = .ok m.assemble :=
  Host.foldlM_addSpec hm (fun _ hspec => hspec) hm.distinct fun _ _ => rfl

end Building

namespace Sample

theorem shapes_isCallable : shapes.IsCallable where
  distinct := by decide
  literals h := by
    have hmem := mem_declared h
    simp [declared] at hmem
    obtain ⟨-, -, -, rfl⟩ := hmem
    exact ⟨.int 2, rfl⟩
  aliases h := by
    have hmem := mem_declared h
    simp [declared] at hmem
    exact hmem.2.1

theorem toHost_eq_assemble_of_shapes :
    shapes.IsCallable ∧ shapes.toHost = .ok shapes.assemble ∧
      shapes.assemble =
        (Host.empty.withModule "pkg" fun mod => mod.withValue "VERSION" (.int 2)).withModule
          "pkg.shapes" fun mod =>
            ((mod.withFunction "area" (some "Area.") none).withClass "Rect" fun c =>
              (((((c.withDoc "A rectangle.").withInit (some "Build.") ["w", "h"]).withMethod
                "scale" (some "Scale.") none).withClass "Unit" fun c => c.withDoc "Unit.").withBase
                  (.builtin .tuple)).withFields ["w", "h"]).withAlias "up" "pkg" :=
  ⟨shapes_isCallable, Manifest.toHost_eq_assemble shapes_isCallable, rfl⟩

end Sample

end DocTree
