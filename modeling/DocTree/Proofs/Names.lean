import Mathlib.Data.List.Nodup
import Mathlib.Data.Set.Card
import Mathlib.Data.Set.Finite.Lattice
import DocTree.Proofs.Reach

/-!
# The names within reach

A host and a namespace are finite, and so are the full names of the classes and functions that
attribute access leads to, although modules may refer to each other.

* `Object.Contains`: an object and what is nested in it, classes, methods and constructors;
* `Resolver.roots`: the objects that names are bound to outside of all classes;
* `Resolver.names`: **the full names within reach**, and `Resolver.finite_names`;
* `Resolver.unambiguous_of_nodup`: that no two objects share a name is seen by going through them.
-/

namespace DocTree

theorem NameMap.mem_of_get? {α : Type} {m : NameMap α} {name : String} {a : α}
    (h : m.get? name = some a) : a ∈ m.entries.map (·.2) := by
  obtain ⟨e, he, rfl⟩ := Option.map_eq_some_iff.mp h
  exact List.mem_map_of_mem (List.mem_of_find?_eq_some he)

/-! ## Nested objects -/

/-- The constructor of a class and what its names are bound to. -/
def Class.parts (c : Class) : List Object :=
  (c.init.map Object.function).toList ++ c.members.entries.map (·.2)

/-- The parts of a class; nothing else has any. -/
def Object.parts : Object → List Object
  | .class c => c.parts
  | _ => []

theorem Class.mem_parts_of_member? {c : Class} {name : String} {o : Object}
    (h : c.member? name = some o) : o ∈ c.parts := by
  unfold Class.member? at h
  split at h
  · exact List.mem_append_left _ (Option.mem_toList.mpr h)
  · exact List.mem_append_right _ (NameMap.mem_of_get? h)

theorem Class.sizeOf_lt_of_mem_parts {c : Class} {o : Object} (h : o ∈ c.parts) :
    sizeOf o < sizeOf (Object.class c) := by
  obtain ⟨module, qualname, doc, init, members, bases, fields⟩ := c
  rcases List.mem_append.mp h with h | h
  · obtain ⟨f, hf, rfl⟩ := Option.map_eq_some_iff.mp (Option.mem_toList.mp h)
    obtain rfl : init = some f := hf
    simp only [Object.function.sizeOf_spec, Object.class.sizeOf_spec, Class.mk.sizeOf_spec,
      Option.some.sizeOf_spec]
    omega
  · obtain ⟨⟨name, o⟩, he, rfl⟩ := List.mem_map.mp h
    have hlt := List.sizeOf_lt_of_mem he
    obtain ⟨entries⟩ := members
    simp only [Prod.mk.sizeOf_spec, Object.class.sizeOf_spec, Class.mk.sizeOf_spec,
      NameMap.mk.sizeOf_spec] at hlt ⊢
    omega

/-- The second object is the first one or nested in it. -/
inductive Object.Contains : Object → Object → Prop where
  | self (o : Object) : Contains o o
  | part {c : Class} {o o' : Object} (h : o ∈ c.parts) (ho : Contains o o') :
      Contains (.class c) o'

theorem Object.Contains.tail {root o : Object} {c : Class} (h : root.Contains (.class c))
    (ho : o ∈ c.parts) : root.Contains o := by
  generalize hc : Object.class c = o' at h
  induction h with
  | self o' => exact hc ▸ .part ho (.self o)
  | part hpart _ ih => exact .part hpart (ih hc)

/-- The full names of an object and of what is nested in it. -/
def Object.names (o : Object) : Set String :=
  {name | ∃ o', o.Contains o' ∧ o'.entryName? = some name}

theorem Object.finite_names (o : Object) : o.names.Finite := by
  cases o with
  | «class» c =>
    have hparts : (⋃ o ∈ {o | o ∈ c.parts}, o.names).Finite :=
      Set.Finite.biUnion (List.finite_toSet c.parts) fun o ho => Object.finite_names o
    refine (hparts.insert c.fullName).subset ?_
    rintro name ⟨o', hcontains, hname⟩
    cases hcontains with
    | self => exact .inl (Option.some.inj hname).symm
    | part hpart ho => exact .inr (Set.mem_biUnion hpart ⟨o', ho, hname⟩)
  | function f =>
    refine (Set.finite_singleton f.fullName).subset ?_
    rintro name ⟨o', ⟨⟩, hname⟩
    exact (Option.some.inj hname).symm
  | «module» path =>
    refine Set.finite_empty.subset ?_
    rintro name ⟨o', ⟨⟩, hname⟩
    cases hname
  | value v =>
    refine Set.finite_empty.subset ?_
    rintro name ⟨o', ⟨⟩, hname⟩
    cases hname
termination_by sizeOf o
decreasing_by exact Class.sizeOf_lt_of_mem_parts ho

/-! ## Names within reach -/

namespace Resolver

/-- What names are bound to in the modules and outside them. -/
def roots (r : Resolver) : List Object :=
  r.host.modules.entries.flatMap (·.2.members.entries.map (·.2)) ++ r.scope.entries.map (·.2)

variable {r : Resolver}

/-- An attribute of a module is a root or a module. -/
theorem root_of_member? {path name : String} {o : Object}
    (h : r.host.member? (.module path) name = some o) :
    o ∈ r.roots ∨ ∃ path, o = .module path := by
  obtain ⟨m, hm, hmember⟩ := Option.bind_eq_some_iff.mp h
  rcases Option.or_eq_some_iff.mp hmember with hmember | ⟨-, himport⟩
  · left
    obtain ⟨e, he, rfl⟩ := List.mem_map.mp (NameMap.mem_of_get? hm)
    refine List.mem_append_left _ (List.mem_flatMap.mpr ⟨e, he, NameMap.mem_of_get? hmember⟩)
  · right
    unfold Host.import? at himport
    split at himport
    · exact ⟨_, (Option.some.inj himport).symm⟩
    · cases himport

/-- Everything within reach is a module or nested in a root. -/
theorem contains_of_reaches {o : Object} (h : r.Reaches o) :
    (∃ path, o = .module path) ∨ ∃ root ∈ r.roots, root.Contains o := by
  induction h with
  | «module» path => exact .inl ⟨path, rfl⟩
  | scope h =>
    exact .inr ⟨_, List.mem_append_right _ (NameMap.mem_of_get? h), .self _⟩
  | @member o o' name _ h ih =>
    cases o with
    | «module» path =>
      rcases root_of_member? h with hroot | hmodule
      · exact .inr ⟨o', hroot, .self o'⟩
      · exact .inl hmodule
    | «class» c =>
      rcases ih with ⟨_, hmodule⟩ | ⟨root, hroot, hcontains⟩
      · cases hmodule
      · exact .inr ⟨root, hroot, hcontains.tail (Class.mem_parts_of_member? h)⟩
    | function f => cases h
    | value v => cases h

/-- **The full names of the classes and functions within reach**, members of classes and
constructors included. -/
def names (r : Resolver) : Set String := {name | ∃ o, r.Reaches o ∧ o.entryName? = some name}

theorem finite_names (r : Resolver) : r.names.Finite := by
  have hroots : (⋃ o ∈ {o | o ∈ r.roots}, o.names).Finite :=
    Set.Finite.biUnion (List.finite_toSet r.roots) fun o _ => o.finite_names
  refine hroots.subset ?_
  rintro name ⟨o, ho, hname⟩
  rcases contains_of_reaches ho with ⟨path, rfl⟩ | ⟨root, hroot, hcontains⟩
  · cases hname
  · exact Set.mem_biUnion hroot ⟨o, hcontains, hname⟩

/-! ## Going through the objects -/

/-- All objects within reach are found by going from the roots to the parts of classes. -/
theorem mem_of_reaches {objects : List Object} (hroots : ∀ o ∈ r.roots, o ∈ objects)
    (hparts : ∀ o ∈ objects.flatMap Object.parts, o ∈ objects) {o : Object} (h : r.Reaches o) :
    o ∈ objects ∨ ∃ path, o = .module path := by
  have hcontains : ∀ {root o : Object}, root.Contains o → root ∈ objects → o ∈ objects := by
    intro root o h
    induction h with
    | self o => exact id
    | part hpart _ ih =>
      exact fun hroot => ih (hparts _ (List.mem_flatMap.mpr ⟨_, hroot, hpart⟩))
  rcases contains_of_reaches h with hmodule | ⟨root, hroot, ho⟩
  · exact .inr hmodule
  · exact .inl (hcontains ho (hroots root hroot))

/-- **Names that are all different make the known objects unambiguous.** -/
theorem unambiguous_of_nodup {objects given : List Object} (hroots : ∀ o ∈ r.roots, o ∈ objects)
    (hparts : ∀ o ∈ objects.flatMap Object.parts, o ∈ objects)
    (hgiven : ∀ o ∈ given, o ∈ objects) (hnames : (objects.map Object.entryName?).Nodup) :
    Unambiguous (r.Knows given) := by
  have hknown : ∀ o name, r.Knows given o → o.entryName? = some name → o ∈ objects := by
    rintro o name (ho | ho) hname
    · rcases mem_of_reaches hroots hparts ho with hmem | ⟨path, rfl⟩
      · exact hmem
      · cases hname
    · exact hgiven o ho
  intro o o' name ho ho' hname hname'
  exact List.inj_on_of_nodup_map hnames (hknown o name ho hname) (hknown o' name ho' hname')
    (hname.trans hname'.symm)

end Resolver

/-! ## A module without shared names -/

namespace Sample

/-- Two functions that link to each other. -/
def f : Function := ⟨"m", "f", some ":param see g:", some []⟩

def g : Function := ⟨"m", "g", some ":param see f:", some []⟩

def method : Function := ⟨"m", "C.run", some "Run.", some []⟩

def cls : Class :=
  ⟨"m", "C", some "C.\n\n.. attribute:: x\n    :type: int", none,
    NameMap.empty.insert "run" (.function method), [], none⟩

def plain : Function := ⟨"m", "p", some "Plain.", some []⟩

/-- A function that links to one without a link. -/
def user : Function := ⟨"m", "u", some ":param see p:", some []⟩

def members : NameMap Object :=
  ((((NameMap.empty.insert "f" (.function f)).insert "g" (.function g)).insert "C"
    (.class cls)).insert "p" (.function plain)).insert "u" (.function user)

def host : Host := ⟨NameMap.empty.insert "m" ⟨"m", none, members⟩⟩

def resolver : Resolver := ⟨host, .empty⟩

def objects : List Object :=
  [.function f, .function g, .class cls, .function plain, .function user, .function method]

theorem mem_objects_of_root : ∀ o ∈ resolver.roots, o ∈ objects := by
  change ∀ o ∈ [.class cls, .function f, .function g, .function plain, .function user],
    o ∈ objects
  simp [objects]

theorem mem_objects_of_part : ∀ o ∈ objects.flatMap Object.parts, o ∈ objects := by
  change ∀ o ∈ [.function method], o ∈ objects
  simp [objects]

theorem mem_objects_of_reaches {o : Object} (h : resolver.Reaches o) :
    o ∈ objects ∨ ∃ path, o = .module path :=
  Resolver.mem_of_reaches mem_objects_of_root mem_objects_of_part h

theorem unambiguous {given : List Object} (hgiven : ∀ o ∈ given, o ∈ objects) :
    Unambiguous (resolver.Knows given) :=
  Resolver.unambiguous_of_nodup mem_objects_of_root mem_objects_of_part hgiven (by decide)

end Sample

/-! ## A name bound to another function of the same full name -/

namespace Foreign

/-- The function that the host has under the name. -/
def own : Function := ⟨"m", "F", some "Plain.", some []⟩

/-- Functions of the same full name that only the namespace leads to. -/
def other : Function := ⟨"m", "F", some ":param y: Y.\n:type y: str", some ["y"]⟩

def looping : Function := ⟨"m", "F", some ":param see loop:", some []⟩

/-- Functions of the host that link to them. -/
def linkOwn : Function := ⟨"m", "g", some ":param see F:", some []⟩

def linkOther : Function := ⟨"m", "h", some ":param see alias:", some []⟩

def linkLooping : Function := ⟨"m", "k", some ":param see F:\n:param see loop:", some []⟩

def method : Function := ⟨"m", "C.run", some ":param see F:", some []⟩

/-- A class that links to the one and whose method links to the other. -/
def cls : Class :=
  ⟨"m", "C", some ":param see alias:", none, NameMap.empty.insert "run" (.function method), [],
    none⟩

def host : Host :=
  ⟨NameMap.empty.insert "m" ⟨"m", none, NameMap.ofList [("C", .class cls), ("F", .function own),
    ("g", .function linkOwn), ("h", .function linkOther), ("k", .function linkLooping)]⟩⟩

def scope : NameMap Object :=
  NameMap.ofList [("alias", .function other), ("loop", .function looping)]

def objects : List Object :=
  [.class cls, .function own, .function linkOwn, .function linkOther, .function linkLooping,
    .function method]

/-- The host alone has no two objects of one name. -/
theorem unambiguous_host : Unambiguous (Resolver.Reaches ⟨host, .empty⟩) := by
  have hroots : ∀ o ∈ (⟨host, .empty⟩ : Resolver).roots, o ∈ objects := by
    change ∀ o ∈ [.class cls, .function own, .function linkOwn, .function linkOther,
      .function linkLooping], o ∈ objects
    simp [objects]
  have hparts : ∀ o ∈ objects.flatMap Object.parts, o ∈ objects := by
    change ∀ o ∈ [.function method], o ∈ objects
    simp [objects]
  have hun : Unambiguous (Resolver.Knows ⟨host, .empty⟩ []) :=
    Resolver.unambiguous_of_nodup hroots hparts (fun _ h => nomatch h) (by decide)
  exact hun.mono fun _ => .inl

end Foreign

end DocTree
