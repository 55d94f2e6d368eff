import DocTree.Proofs.Host.Declared
import DocTree.Proofs.Reach
import DocTree.Proofs.Text.Lines

/-!
# Objects by their full names

A class or a function is found under its full name in the host that declares it.

* `Text.segments_append`, `Text.dotted_segments`: dotted names and their segments;
* `Host.lookup?_of_import?`, **`Host.lookup?_member`**: the path of a module leads to it, and one more
  name leads to a member, unless the longer path is that of a module;
* `Manifest.Defines`: the objects that a manifest declares, and the constructors of its classes;
* `Manifest.NamesApart`: the names that lead back to one object only;
* **`Manifest.lookup?_fullName`**: a full name leads to its object.
-/

namespace DocTree

/-! ## Dotted names -/

namespace Text

theorem segments_append (path : String) {name : String} (h : '.' ∉ name.toList) :
    segments (path ++ "." ++ name) = segments path ++ [name] := by
  have hname : ∀ c ∈ name.toList, (c == '.') = false := by
    intro c hc
    rw [beq_eq_false_iff_ne]
    rintro rfl
    exact h hc
  have hpath : (path ++ "." ++ name).toList = path.toList ++ '.' :: name.toList := by simp
  rw [segments, hpath, splitWhere_append_sep _ rfl, splitWhere_eq_singleton hname, List.map_append,
    List.map_singleton, String.ofList_toList, segments]

theorem dotted_segments (path : String) : dotted (segments path) = path := by
  have hmap : ∀ pieces : List (List Char), (pieces.map String.ofList).map String.toList = pieces := by
    intro pieces
    simp [Function.comp_def]
  rw [← String.toList_inj, dotted, String.toList_intercalate, segments, hmap]
  exact intercalate_splitWhere '.' path.toList

theorem segments_ne_nil (path : String) : segments path ≠ [] := by
  simpa [segments] using splitWhere_ne_nil _ _

end Text

open Text

/-! ## Longer paths -/

namespace Host

variable {h : Host} {path name : String} {o o' : Object}

/-- **The path of a module leads to it.** -/
theorem lookup?_of_import? (himport : h.import? path = some o) : h.lookup? path = some o := by
  obtain ⟨n, hn⟩ := Nat.exists_eq_succ_of_ne_zero
    (mt List.length_eq_zero_iff.mp (segments_ne_nil path))
  have hall : (segments path).take (n + 1) = segments path := List.take_of_length_le hn.le
  have hnone : (segments path).drop (n + 1) = [] := List.drop_of_length_le hn.le
  rw [lookup?, hn, lookupFrom?, hall, hnone, dotted_segments, himport]
  rfl

theorem follow?_concat (names : List String) :
    h.follow? o (names ++ [name]) = (h.follow? o names).bind (h.member? · name) := by
  rw [follow?, List.foldlM_append, ← follow?]
  simp only [List.foldlM_cons, List.foldlM_nil, bind_pure]
  rfl

/-- One more name behind a path, with the same starts of it tried as modules. -/
theorem lookupFrom?_concat (hmember : h.member? o name = some o') {names : List String} {n : Nat}
    (hn : n ≤ names.length) (hfound : h.lookupFrom? names n = some o) :
    h.lookupFrom? (names ++ [name]) n = some o' := by
  induction n with
  | zero => cases hfound
  | succ n ih =>
    have hrest := ih (Nat.le_of_succ_le hn)
    rw [lookupFrom?] at hfound ⊢
    rw [List.take_append_of_le_length hn, List.drop_append_of_le_length hn]
    cases himport : h.import? (dotted (names.take (n + 1))) with
    | none =>
      rw [himport] at hfound
      exact hrest hfound
    | some start =>
      rw [himport, Option.bind_some] at hfound
      rw [Option.bind_some, follow?_concat]
      cases hfollow : h.follow? start (names.drop (n + 1)) with
      | none =>
        rw [hfollow] at hfound
        exact hrest hfound
      | some found =>
        rw [hfollow] at hfound
        cases hfound
        rw [Option.bind_some, hmember, Option.some_or]

/-- **One more name leads to a member**, unless the longer path is that of a module. -/
theorem lookup?_member (hfound : h.lookup? path = some o) (hname : '.' ∉ name.toList)
    (hmodule : h.import? (path ++ "." ++ name) = none) (hmember : h.member? o name = some o') :
    h.lookup? (path ++ "." ++ name) = some o' := by
  have hall : dotted ((segments path ++ [name]).take ((segments path).length + 1)) =
      path ++ "." ++ name := by
    rw [List.take_of_length_le (by simp), ← segments_append path hname, dotted_segments]
  rw [lookup?, segments_append path hname, List.length_append, List.length_singleton, lookupFrom?,
    hall, hmodule, Option.bind_none, Option.none_or]
  exact lookupFrom?_concat hmember le_rfl hfound

end Host

/-! ## What a manifest defines -/

/-- The full name of the module or the class that holds a member. -/
def holderName (module : String) : Option String → String
  | none => module
  | some owner => module ++ "." ++ owner

/-- The manifest defines an object: a member that it declares, or the constructor of a class. -/
inductive Manifest.Defines (m : Manifest) : Object → Prop where
  | member {module : String} {owner : Option String} {member : MemberSpec} {o : Object}
      (hmember : m.Declares module owner member)
      (ho : member.build module owner = .ok (member.name, o)) : m.Defines o
  | init {module : String} {owner : Option String} {spec : ClassSpec} {c : Class} {f : Function}
      (hspec : m.Declares module owner (.class spec)) (hc : spec.build module owner = .ok c)
      (hf : c.init = some f) : m.Defines (.function f)

/-- Names that lead back to one object only. They may be empty. -/
structure Manifest.NamesApart (m : Manifest) : Prop where
  undotted {module : String} {owner : Option String} {member : MemberSpec} :
    m.Declares module owner member → '.' ∉ member.name.toList
  inModule {spec : ModuleSpec} : spec ∈ m.modules → (spec.members.map MemberSpec.name).Nodup
  inClass {module : String} {owner : Option String} {spec : ClassSpec} :
    m.Declares module owner (.class spec) → (spec.members.map MemberSpec.name).Nodup
  notInit {module : String} {owner : Option String} {spec : ClassSpec} :
    m.Declares module owner (.class spec) → Class.initName ∉ spec.members.map MemberSpec.name
  notModule {o : Object} {name : String} :
    m.Defines o → o.entryName? = some name → name ∉ m.modules.map ModuleSpec.name

theorem fullName_eq_holderName (module : String) (owner : Option String) (name : String) :
    module ++ "." ++ memberName owner name = holderName module owner ++ "." ++ name := by
  cases owner with
  | none => rfl
  | some owner => simp [memberName, qualified, holderName, String.append_assoc]

/-- Classes and functions are known by the name of their holder and by their own. -/
theorem MemberSpec.entryName?_of_build {spec : MemberSpec} {module name fullName : String}
    {owner : Option String} {o : Object} (h : spec.build module owner = .ok (name, o))
    (hname : o.entryName? = some fullName) :
    fullName = holderName module owner ++ "." ++ name := by
  rw [← fullName_eq_holderName]
  cases spec with
  | function => cases h; cases hname; rfl
  | «class» spec =>
    obtain ⟨rfl, c, hc, rfl⟩ := build_class_eq_ok_iff.mp h
    obtain ⟨members, -, rfl⟩ := ClassSpec.build_eq_ok_iff.mp hc
    cases hname
    rfl
  | value =>
    obtain ⟨-, v, -, rfl⟩ := build_value_eq_ok_iff.mp h
    cases hname
  | «module» => cases h; cases hname

namespace ClassSpec

variable {spec : ClassSpec} {module : String} {owner : Option String} {c : Class} {f : Function}
  (h : spec.build module owner = .ok c)

include h

theorem fullName_of_build : c.fullName = holderName module owner ++ "." ++ spec.name :=
  MemberSpec.entryName?_of_build (MemberSpec.build_class_eq_ok_iff.mpr ⟨rfl, c, h, rfl⟩) rfl

theorem fullName_init_of_build (hf : c.init = some f) :
    f.fullName = c.fullName ++ "." ++ Class.initName := by
  obtain ⟨members, -, rfl⟩ := build_eq_ok_iff.mp h
  obtain ⟨init, -, rfl⟩ := Option.map_eq_some_iff.mp hf
  simp [Function.fullName, Class.fullName, qualified, String.append_assoc]

end ClassSpec

namespace Manifest

variable {m : Manifest} {host : Host} (hhost : m.toHost = .ok host) (hm : m.NamesApart)

include hhost hm

/-- What a manifest defines is not taken for a module. -/
theorem NamesApart.import?_eq_none {o : Object} {name : String} (ho : m.Defines o)
    (hname : o.entryName? = some name) : host.import? name = none := by
  rw [Host.import?, if_neg]
  intro hcontains
  obtain ⟨mod, hmod⟩ := Option.isSome_iff_exists.mp hcontains
  exact hm.notModule ho hname (mem_of_module? hhost hmod)

/-- A member is found behind what holds it. -/
theorem Declares.lookup?_behind {module fullName : String} {owner : Option String}
    {member : MemberSpec} {holder o : Object} (hmember : m.Declares module owner member)
    (ho : member.build module owner = .ok (member.name, o))
    (hname : o.entryName? = some fullName)
    (hholder : host.lookup? (holderName module owner) = some holder)
    (hleads : host.member? holder member.name = some o) : host.lookup? fullName = some o := by
  have hfree := hm.import?_eq_none hhost (.member hmember ho) hname
  obtain rfl := MemberSpec.entryName?_of_build ho hname
  exact Host.lookup?_member hholder (hm.undotted hmember) hfree hleads

/-- **What holds a member is found, and leads to it.** By induction from the module inwards. -/
theorem Declares.exists_holder {module : String} {owner : Option String} {member : MemberSpec}
    (hmember : m.Declares module owner member) :
    ∃ holder, host.lookup? (holderName module owner) = some holder ∧
      ∀ o, member.build module owner = .ok (member.name, o) →
        host.member? holder member.name = some o := by
  induction hmember with
  | @ofModule spec member hspec hmember =>
    obtain ⟨members, hmembers, hmod⟩ := exists_module hhost hspec
    have himport : host.import? spec.name = some (.module spec.name) :=
      if_pos (Option.isSome_iff_exists.mpr ⟨_, hmod⟩)
    refine ⟨.module spec.name, Host.lookup?_of_import? himport, fun o ho => ?_⟩
    rw [Host.member?, hmod, Option.bind_some,
      MemberSpec.get?_buildAll hmembers (hm.inModule hspec) hmember ho, Option.some_or]
  | @ofClass module owner spec member hspec hmember ih =>
    obtain ⟨holder, hholder, hleads⟩ := ih
    obtain ⟨o, ho⟩ := hspec.exists_build hhost
    obtain ⟨-, c, hc, rfl⟩ := MemberSpec.build_class_eq_ok_iff.mp ho
    obtain ⟨members, hmembers, hfields⟩ := ClassSpec.build_eq_ok_iff.mp hc
    have hname : (Object.class c).entryName? =
        some (holderName module (some (memberName owner spec.name))) := by
      rw [hfields]
      rfl
    refine ⟨.class c, hspec.lookup?_behind hhost hm ho hname hholder (hleads _ ho),
      fun o' ho' => ?_⟩
    have hne : member.name ≠ Class.initName := by
      intro heq
      exact hm.notInit hspec (heq ▸ List.mem_map_of_mem hmember)
    have hget := MemberSpec.get?_buildAll hmembers (hm.inClass hspec) hmember ho'
    rw [Host.member?, Class.member?, if_neg hne, hfields]
    exact hget

/-- **A full name leads to its object**: to the class, the function or the constructor that the
manifest defines, with all that belongs to it. -/
theorem lookup?_fullName {o : Object} {name : String} (ho : m.Defines o)
    (hname : o.entryName? = some name) : host.lookup? name = some o := by
  cases ho with
  | member hmember ho =>
    obtain ⟨holder, hholder, hleads⟩ := hmember.exists_holder hhost hm
    exact hmember.lookup?_behind hhost hm ho hname hholder (hleads _ ho)
  | @init module owner spec c f hspec hc hf =>
    have hfree := hm.import?_eq_none hhost (.init hspec hc hf) hname
    obtain ⟨holder, hholder, hleads⟩ := hspec.exists_holder hhost hm
    have hbuild := MemberSpec.build_class_eq_ok_iff.mpr ⟨rfl, c, hc, rfl⟩
    have hclass : host.lookup? c.fullName = some (.class c) :=
      hspec.lookup?_behind hhost hm hbuild rfl hholder (hleads _ hbuild)
    have hmember : host.member? (.class c) Class.initName = some (.function f) := by
      rw [Host.member?, Class.member?, if_pos rfl, hf, Option.map_some]
    cases hname
    rw [ClassSpec.fullName_init_of_build hc hf] at hfree ⊢
    exact Host.lookup?_member hclass (by decide) hfree hmember

end Manifest

namespace Sample

theorem shapes_namesApart : shapes.NamesApart where
  undotted h := (by decide : ∀ d ∈ declared, '.' ∉ d.2.2.name.toList) _ (mem_declared h)
  inModule h := (by decide : ∀ spec ∈ shapes.modules, (spec.members.map MemberSpec.name).Nodup) _ h
  inClass h := by
    obtain ⟨-, ⟨-, rfl⟩ | ⟨-, rfl⟩⟩ := cases_of_declares_class h <;> decide
  notInit h := by
    obtain ⟨-, ⟨-, rfl⟩ | ⟨-, rfl⟩⟩ := cases_of_declares_class h <;> decide
  notModule ho hname := by
    cases ho with
    | member hmember ho =>
      obtain rfl := MemberSpec.entryName?_of_build ho hname
      exact (by decide : ∀ d ∈ declared, holderName d.1 d.2.1 ++ "." ++ d.2.2.name ∉
        shapes.modules.map ModuleSpec.name) _ (mem_declared hmember)
    | init hspec hc hf =>
      cases hname
      rw [ClassSpec.fullName_init_of_build hc hf, ClassSpec.fullName_of_build hc]
      obtain ⟨rfl, ⟨rfl, rfl⟩ | ⟨rfl, rfl⟩⟩ := cases_of_declares_class hspec <;> decide

theorem lookup?_fullName_of_shapes :
    shapes.NamesApart ∧ ∃ host, shapes.toHost = .ok host ∧
      (host.lookup? "pkg.shapes.Rect.Unit" =
        some (.class ⟨"pkg.shapes", "Rect.Unit", some "Unit.", none, .empty, [], none⟩)) ∧
      host.lookup? "pkg.shapes.Rect.__init__" =
        some (.function ⟨"pkg.shapes", "Rect.__init__", some "Build.", some ["w", "h"]⟩) := by
  have hrect : shapes.Declares "pkg.shapes" none (.class rect) :=
    .ofModule (.tail _ (.head _)) (.tail _ (.head _))
  have hunit : shapes.Declares "pkg.shapes" (some "Rect") (.class unit) :=
    .ofClass hrect (.tail _ (.head _))
  refine ⟨shapes_namesApart, _, rfl, ?_, ?_⟩
  · exact Manifest.lookup?_fullName rfl shapes_namesApart (.member hunit rfl) rfl
  · exact Manifest.lookup?_fullName rfl shapes_namesApart (.init hrect rfl rfl) rfl

end Sample

end DocTree
