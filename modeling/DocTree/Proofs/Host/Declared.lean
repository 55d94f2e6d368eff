import Mathlib.Data.List.Nodup
import DocTree.Host.Manifest
import DocTree.Proofs.Results

/-!
# What a manifest declares

The members that a manifest declares, at whatever depth, and the objects that they are built as.

* `Manifest.Declares`: a member of a module, or of a class that is declared itself;
* `ClassSpec.build_eq_ok_iff`, `MemberSpec.buildAll_cons_eq_ok`: how classes and members are built;
* `MemberSpec.get?_buildAll`: **each of the members is bound to its object**, if their names differ;
* `Manifest.exists_module`, `Manifest.mem_of_module?`: the modules of a host;
* **`Manifest.Declares.exists_build`**: all that the manifest of a host declares is built.
-/

namespace DocTree

/-- The name that a member is bound to. -/
def MemberSpec.name : MemberSpec → String
  | .function name .. => name
  | .class spec => spec.name
  | .value name _ => name
  | .module name _ => name

/-- The manifest declares a member, in the module of the given path. A member of a class has the
qualified name of the class as its owner. -/
inductive Manifest.Declares (m : Manifest) : String → Option String → MemberSpec → Prop where
  | ofModule {spec : ModuleSpec} {member : MemberSpec} (hspec : spec ∈ m.modules)
      (hmember : member ∈ spec.members) : m.Declares spec.name none member
  | ofClass {module : String} {owner : Option String} {spec : ClassSpec} {member : MemberSpec}
      (hspec : m.Declares module owner (.class spec)) (hmember : member ∈ spec.members) :
      m.Declares module (some (memberName owner spec.name)) member

/-! ## Classes and their members -/

section Members

variable {module name : String} {owner : Option String}

/-- A class is built from its members, and the rest of it is taken over. -/
theorem ClassSpec.build_eq_ok_iff {spec : ClassSpec} {c : Class} :
    spec.build module owner = .ok c ↔
      ∃ members, MemberSpec.buildAll module (some (memberName owner spec.name)) .empty spec.members =
          .ok members ∧
        c = ⟨module, memberName owner spec.name, spec.doc,
          spec.init.map fun i =>
            ⟨module, qualified (memberName owner spec.name) Class.initName, i.doc, some i.params⟩,
          members, spec.bases.map Base.ofName, spec.fields⟩ := by
  obtain ⟨name, doc, init, members, bases, fields⟩ := spec
  rw [build]
  constructor
  · intro h
    obtain ⟨bound, hbound, h⟩ := ok_of_bind h
    cases h
    exact ⟨bound, hbound, rfl⟩
  · rintro ⟨bound, hbound, rfl⟩
    dsimp only at hbound ⊢
    rw [hbound]
    rfl

namespace MemberSpec

theorem build_class_eq_ok_iff {spec : ClassSpec} {o : Object} :
    (MemberSpec.class spec).build module owner = .ok (name, o) ↔
      name = spec.name ∧ ∃ c, spec.build module owner = .ok c ∧ o = .class c := by
  rw [build]
  constructor
  · intro h
    obtain ⟨c, hc, h⟩ := ok_of_bind h
    cases h
    exact ⟨rfl, c, hc, rfl⟩
  · rintro ⟨rfl, c, hc, rfl⟩
    rw [hc]
    rfl

theorem build_value_eq_ok_iff {given literal : String} {o : Object} :
    (MemberSpec.value given literal).build module owner = .ok (name, o) ↔
      name = given ∧ ∃ v, Literal.read literal = .ok v ∧ o = .value v := by
  rw [build]
  cases Literal.read literal with
  | error e => simp
  | ok v => simp [eq_comm]

/-- A member is bound to its own name. -/
theorem name_of_build {spec : MemberSpec} {o : Object}
    (h : spec.build module owner = .ok (name, o)) : name = spec.name := by
  cases spec with
  | function => cases h; rfl
  | «class» => exact (build_class_eq_ok_iff.mp h).1
  | value => exact (build_value_eq_ok_iff.mp h).1
  | «module» => cases h; rfl

theorem buildAll_cons_eq_ok {spec : MemberSpec} {specs : List MemberSpec}
    {bound members : NameMap Object}
    (h : buildAll module owner bound (spec :: specs) = .ok members) :
    ∃ o, spec.build module owner = .ok (spec.name, o) ∧
      buildAll module owner (bound.insert spec.name o) specs = .ok members := by
  rw [buildAll] at h
  obtain ⟨⟨name, o⟩, hspec, hspecs⟩ := ok_of_bind h
  obtain rfl := name_of_build hspec
  exact ⟨o, hspec, hspecs⟩

section All

variable {specs : List MemberSpec} {bound members : NameMap Object}
  (h : buildAll module owner bound specs = .ok members)

include h

theorem exists_build_of_mem :
    ∀ spec ∈ specs, ∃ o, spec.build module owner = .ok (spec.name, o) := by
  induction specs generalizing bound with
  | nil => exact nofun
  | cons first specs ih =>
    obtain ⟨o, hfirst, hrest⟩ := buildAll_cons_eq_ok h
    exact List.forall_mem_cons.mpr ⟨⟨o, hfirst⟩, ih hrest⟩

theorem get?_buildAll_of_not_mem (hname : name ∉ specs.map MemberSpec.name) :
    members.get? name = bound.get? name := by
  induction specs generalizing bound with
  | nil => cases h; rfl
  | cons first specs ih =>
    obtain ⟨hne, hrest⟩ := List.ne_and_not_mem_of_not_mem_cons hname
    obtain ⟨o, -, hspecs⟩ := buildAll_cons_eq_ok h
    rw [ih hspecs hrest, NameMap.get?_insert, if_neg (Ne.symm hne)]

/-- **Each of the members is bound to its object**, if their names differ. -/
theorem get?_buildAll (hnames : (specs.map MemberSpec.name).Nodup) {spec : MemberSpec}
    (hspec : spec ∈ specs) {o : Object} (ho : spec.build module owner = .ok (spec.name, o)) :
    members.get? spec.name = some o := by
  induction specs generalizing bound with
  | nil => cases hspec
  | cons first specs ih =>
    obtain ⟨hfirst, hrest⟩ := List.nodup_cons.mp hnames
    obtain ⟨o', ho', hspecs⟩ := buildAll_cons_eq_ok h
    rcases List.mem_cons.mp hspec with rfl | hmem
    · rw [ho'] at ho
      cases ho
      rw [get?_buildAll_of_not_mem hspecs hfirst, NameMap.get?_insert, if_pos rfl]
    · exact ih hspecs hrest hmem

end All

end MemberSpec

end Members

/-! ## Modules -/

namespace Host

/-- A module is added to a host that has none of its name. -/
theorem addSpec_eq_ok {h host : Host} {spec : ModuleSpec} (hspec : h.addSpec spec = .ok host) :
    ∃ members, MemberSpec.buildAll spec.name none .empty spec.members = .ok members ∧
      h.module? spec.name = none ∧
        host = ⟨h.modules.insert spec.name ⟨spec.name, spec.doc, members⟩⟩ := by
  rw [addSpec] at hspec
  obtain ⟨members, hmembers, hspec⟩ := ok_of_bind hspec
  split at hspec
  · cases hspec
  · next hfree =>
    cases hspec
    exact ⟨members, hmembers, by simpa [NameMap.contains, module?] using hfree, rfl⟩

variable {h host : Host} {specs : List ModuleSpec} (hspecs : specs.foldlM addSpec h = .ok host)

include hspecs

/-- A module that is there stays as it is. -/
theorem module?_of_foldlM_addSpec {path : String} {mod : Module}
    (hmod : h.module? path = some mod) : host.module? path = some mod := by
  induction specs generalizing h with
  | nil => cases hspecs; exact hmod
  | cons spec specs ih =>
    obtain ⟨mid, hfirst, hrest⟩ := foldlM_cons_eq_ok hspecs
    obtain ⟨members, -, hnone, rfl⟩ := addSpec_eq_ok hfirst
    refine ih hrest ?_
    have hne : spec.name ≠ path := by
      rintro rfl
      rw [hnone] at hmod
      cases hmod
    rw [module?, NameMap.get?_insert, if_neg hne]
    exact hmod

theorem exists_module_of_mem :
    ∀ spec ∈ specs, ∃ members,
      MemberSpec.buildAll spec.name none .empty spec.members = .ok members ∧
        host.module? spec.name = some ⟨spec.name, spec.doc, members⟩ := by
  induction specs generalizing h with
  | nil => exact nofun
  | cons spec specs ih =>
    obtain ⟨mid, hfirst, hrest⟩ := foldlM_cons_eq_ok hspecs
    obtain ⟨members, hmembers, -, rfl⟩ := addSpec_eq_ok hfirst
    refine List.forall_mem_cons.mpr ⟨⟨members, hmembers, ?_⟩, ih hrest⟩
    apply module?_of_foldlM_addSpec hrest
    rw [module?, NameMap.get?_insert, if_pos rfl]

theorem mem_of_module?_foldlM {path : String} {mod : Module} (hmod : host.module? path = some mod) :
    h.module? path = some mod ∨ path ∈ specs.map ModuleSpec.name := by
  induction specs generalizing h with
  | nil => cases hspecs; exact .inl hmod
  | cons spec specs ih =>
    obtain ⟨mid, hfirst, hrest⟩ := foldlM_cons_eq_ok hspecs
    obtain ⟨members, -, -, rfl⟩ := addSpec_eq_ok hfirst
    rcases ih hrest with hmid | hmem
    · rw [module?, NameMap.get?_insert] at hmid
      split at hmid
      · next heq => exact .inr (heq ▸ List.mem_cons_self)
      · exact .inl hmid
    · exact .inr (List.mem_cons_of_mem _ hmem)

end Host

namespace Manifest

variable {m : Manifest} {host : Host} (hhost : m.toHost = .ok host)

include hhost

/-- **A host has each module of its manifest**, with the members that it declares. -/
theorem exists_module {spec : ModuleSpec} (hspec : spec ∈ m.modules) :
    ∃ members, MemberSpec.buildAll spec.name none .empty spec.members = .ok members ∧
      host.module? spec.name = some ⟨spec.name, spec.doc, members⟩ :=
  Host.exists_module_of_mem hhost spec hspec

/-- The host has no other modules. -/
theorem mem_of_module? {path : String} {mod : Module} (hmod : host.module? path = some mod) :
    path ∈ m.modules.map ModuleSpec.name :=
  (Host.mem_of_module?_foldlM hhost hmod).resolve_left nofun

/-- **All that the manifest of a host declares is built.** -/
theorem Declares.exists_build {module : String} {owner : Option String} {member : MemberSpec}
    (h : m.Declares module owner member) :
    ∃ o, member.build module owner = .ok (member.name, o) := by
  induction h with
  | ofModule hspec hmember =>
    obtain ⟨members, hmembers, -⟩ := exists_module hhost hspec
    exact MemberSpec.exists_build_of_mem hmembers _ hmember
  | ofClass _ hmember ih =>
    obtain ⟨o, ho⟩ := ih
    obtain ⟨-, c, hc, -⟩ := MemberSpec.build_class_eq_ok_iff.mp ho
    obtain ⟨members, hmembers, -⟩ := ClassSpec.build_eq_ok_iff.mp hc
    exact MemberSpec.exists_build_of_mem hmembers _ hmember

end Manifest

/-! ## A small manifest -/

namespace Sample

def unit : ClassSpec := ⟨"Unit", some "Unit.", none, [], [], none⟩

/-- A class with a constructor, a method and a nested class. -/
def rect : ClassSpec :=
  ⟨"Rect", some "A rectangle.", some ⟨some "Build.", ["w", "h"]⟩,
    [.function "scale" (some "Scale.") none, .class unit], ["tuple"], some ["w", "h"]⟩

/-- Two modules, the path of one being a start of the path of the other. -/
def shapes : Manifest :=
  ⟨[⟨"pkg", none, [.value "VERSION" "2"]⟩,
    ⟨"pkg.shapes", none, [.function "area" (some "Area.") none, .class rect, .module "up" "pkg"]⟩]⟩

/-- All that it declares. -/
def declared : List (String × Option String × MemberSpec) :=
  [("pkg", none, .value "VERSION" "2"),
    ("pkg.shapes", none, .function "area" (some "Area.") none), ("pkg.shapes", none, .class rect),
    ("pkg.shapes", none, .module "up" "pkg"),
    ("pkg.shapes", some "Rect", .function "scale" (some "Scale.") none),
    ("pkg.shapes", some "Rect", .class unit)]

theorem mem_declared {module : String} {owner : Option String} {member : MemberSpec}
    (h : shapes.Declares module owner member) : (module, owner, member) ∈ declared := by
  induction h with
  | ofModule hspec hmember =>
    simp only [shapes, List.mem_cons, List.not_mem_nil, or_false] at hspec
    rcases hspec with rfl | rfl <;> simp only [List.mem_cons, List.not_mem_nil, or_false] at hmember
    · simp [declared, hmember]
    · rcases hmember with rfl | rfl | rfl <;> simp [declared]
  | ofClass _ hmember ih =>
    simp only [declared, List.mem_cons, List.not_mem_nil, Prod.mk.injEq, reduceCtorEq,
      MemberSpec.class.injEq, and_false, false_or, or_false] at ih
    obtain ⟨rfl, rfl, rfl⟩ | ⟨rfl, rfl, rfl⟩ := ih
    · simp only [rect, List.mem_cons, List.not_mem_nil, or_false] at hmember
      rcases hmember with rfl | rfl <;> simp [declared, memberName, rect]
    · cases hmember

theorem cases_of_declares_class {module : String} {owner : Option String} {spec : ClassSpec}
    (h : shapes.Declares module owner (.class spec)) :
    module = "pkg.shapes" ∧ (owner = none ∧ spec = rect ∨ owner = some "Rect" ∧ spec = unit) := by
  have hmem := mem_declared h
  simp only [declared, List.mem_cons, List.not_mem_nil, Prod.mk.injEq, reduceCtorEq,
    MemberSpec.class.injEq, and_false, false_or, or_false, ← and_or_left] at hmem
  exact hmem

end Sample

end DocTree
