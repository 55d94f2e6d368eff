import DocTree.Proofs.Parse.Later

/-!
# A method on its own

A method that is parsed through its class finds the attributes of the class at hand, the class in
progress, and other finished tokens than a function that is parsed on its own. None of this shows in
a result: attributes only keep a link from failing, and tokens do not depend on who asked for them.

* `Inquiry.Yields`: the result of an inquiry, **without a registry**: each question is answered by
  an inquiry of its own;
* `Registry.Sound`, `parseWithin_sound`: finished tokens are what the inquiries into their objects
  yield;
* `yields_of_run`, `parseWithMethods_yields`: so are the answers of a new parser;
* `parseFunction_yields_of_alone`: what a function yields without attributes, it yields with them;
* **`method_alone`**: a method documents what the function documents on its own.
  `Foreign.method_alone_differs` has a class that links to another function of the same full name.
-/

namespace DocTree

open Inquiry Registry

/-! ## Inquiries without a registry -/

namespace Inquiry

/-- Each question is answered by what the inquiry into its object yields. -/
inductive Yields (s : Settings) : {α : Type} → Inquiry α → α → Prop where
  | done {α : Type} (a : α) : Yields s (.done a) a
  | ask {α : Type} {o : Object} {token : Token} {next : Token → Inquiry α} {a : α}
      (ht : Yields s (inquire s o []) token) (h : Yields s (next token) a) :
      Yields s (.ask o next) a

section Yields

variable {s : Settings} {α β : Type}

/-- **There is one result at most.** -/
theorem Yields.unique {p : Inquiry α} {a b : α} (h : p.Yields s a) (h' : p.Yields s b) :
    a = b := by
  induction h with
  | done a =>
    cases h'
    rfl
  | ask _ _ iht ih =>
    cases h' with
    | ask ht h' =>
      obtain rfl := iht ht
      exact ih h'

/-- The answers that inquiries yield give what an inquiry yields. -/
theorem yields_iff_gives {p : Inquiry α} {a : α} :
    p.Yields s a ↔ p.Gives (fun o token => (inquire s o []).Yields s token) a := by
  constructor
  · intro h
    induction p with
    | done a' =>
      cases h
      exact .done a
    | fail e => cases h
    | ask o next ih =>
      cases h with
      | ask ht h => exact .ask ht (ih _ h)
  · intro h
    induction h with
    | done a => exact .done a
    | ask ht _ ih => exact .ask ht ih

theorem Yields.of_bind {p : Inquiry α} {f : α → Inquiry β} {b : β}
    (h : (p >>= f).Yields s b) : ∃ a, p.Yields s a ∧ (f a).Yields s b := by
  obtain ⟨a, ha, hb⟩ := (yields_iff_gives.mp h).of_bind
  exact ⟨a, yields_iff_gives.mpr ha, yields_iff_gives.mpr hb⟩

theorem Yields.bind {p : Inquiry α} {f : α → Inquiry β} {a : α} {b : β} (ha : p.Yields s a)
    (hb : (f a).Yields s b) : (p >>= f).Yields s b :=
  yields_iff_gives.mpr ((yields_iff_gives.mp ha).bind (yields_iff_gives.mp hb))

theorem Yields.of_map {p : Inquiry α} {f : α → β} {b : β} (h : (f <$> p).Yields s b) :
    ∃ a, p.Yields s a ∧ f a = b := by
  obtain ⟨a, ha, hb⟩ := h.of_bind
  cases hb
  exact ⟨a, ha, rfl⟩

/-- An invariant of a loop. -/
theorem Yields.foldlM {f : β → α → Inquiry β} {I : List α → β → Prop} {l : List α} {b b' : β}
    (h : (l.foldlM f b).Yields s b') (hb : I [] b)
    (hf : ∀ seen a b b', I seen b → (f b a).Yields s b' → I (seen ++ [a]) b') : I l b' := by
  suffices hseen : ∀ seen, I seen b → I (seen ++ l) b' from hseen [] hb
  clear hb
  induction l generalizing b with
  | nil =>
    intro seen hI
    cases h
    rwa [List.append_nil]
  | cons a l ih =>
    intro seen hI
    rw [List.foldlM_cons] at h
    obtain ⟨mid, hmid, hrest⟩ := h.of_bind
    have hl := ih hrest (seen ++ [a]) (hf seen a b mid hI hmid)
    rwa [List.append_assoc] at hl

end Yields

/-! ## Inquiries that yield less -/

/-- What the first inquiry yields, the second one yields too. -/
def YieldsLess (s : Settings) {α : Type} (p q : Inquiry α) : Prop :=
  ∀ a, p.Yields s a → q.Yields s a

namespace YieldsLess

variable {s : Settings} {α β : Type}

theorem refl (p : Inquiry α) : YieldsLess s p p := fun _ h => h

theorem fail (e : Error) (p : Inquiry α) : YieldsLess s (.fail e) p := fun _ h => nomatch h

theorem bind {p q : Inquiry α} {f g : α → Inquiry β} (h : YieldsLess s p q)
    (hf : ∀ a, YieldsLess s (f a) (g a)) : YieldsLess s (p >>= f) (q >>= g) := by
  intro b hb
  obtain ⟨a, ha, hrest⟩ := hb.of_bind
  exact (h a ha).bind (hf a b hrest)

theorem foldlM {f g : β → α → Inquiry β} (hf : ∀ b a, YieldsLess s (f b a) (g b a)) (l : List α)
    (b : β) : YieldsLess s (l.foldlM f b) (l.foldlM g b) := by
  induction l generalizing b with
  | nil => exact refl _
  | cons a l ih => exact (hf b a).bind fun b' => ih b'

end YieldsLess

end Inquiry

/-! ## Attributes at hand -/

section Attributes

variable (s : Settings) (ctx : Context) (mode : Mode) (attributes : ArgMap)

/-- Without attributes there is no link to them. -/
theorem linkOne_alone (object name target : String) (arg description : Option String) :
    ∃ e, linkOne object name target arg description none = .error e := by
  unfold linkOne
  split <;> exact ⟨_, rfl⟩

theorem slotArgs_yields_of_alone (slot : Slot) :
    YieldsLess s (slotArgs s ctx mode none slot) (slotArgs s ctx mode (some attributes) slot) := by
  cases slot with
  | linkAll target =>
    rw [slotArgs, slotArgs, linkAll.eq_def, linkAll.eq_def]
    split
    · exact .fail _ _
    · exact .refl _
  | arg name draft =>
    rw [slotArgs, slotArgs]
    split
    · exact .refl _
    · next target arg _ =>
      obtain ⟨e, he⟩ := linkOne_alone ctx.object name target arg draft.description
      rw [he]
      exact .fail e _
    · exact .refl _

theorem collect_yields_of_alone (doc : Document) :
    YieldsLess s (collect s ctx mode none doc) (collect s ctx mode (some attributes) doc) := by
  refine (YieldsLess.refl (doc.blocks.foldlM (addBlock s ctx) .empty)).bind fun fs => ?_
  change YieldsLess s (if _ then Inquiry.fail _ else _) (if _ then Inquiry.fail _ else _)
  split
  · exact .refl _
  · refine (YieldsLess.foldlM (fun args slot => ?_) fs.slots _).bind fun args => .refl _
    exact (slotArgs_yields_of_alone s ctx mode attributes slot).bind fun _ => .refl _

/-- **What a function yields without attributes, it yields with them.** -/
theorem parseFunction_yields_of_alone (f : Function) :
    YieldsLess s (parseFunction s f none) (parseFunction s f (some attributes)) :=
  (YieldsLess.refl _).bind fun doc =>
    (collect_yields_of_alone s ⟨f.module, f.fullName⟩ .function attributes doc).bind
      fun _ => .refl _

end Attributes

/-! ## Registries -/

namespace Registry

/-- **The finished tokens are what the inquiries into their objects yield.** -/
def Sound (s : Settings) (reg : Registry) : Prop :=
  ∀ o token, s.resolver.Reaches o → Holds reg o token → (inquire s o []).Yields s token

variable {s : Settings} {reg : Registry} {name : String}

theorem sound_empty : Sound s .empty := by
  rintro o token - ⟨name, -, hdone⟩
  cases hdone

theorem Sound.insert_inProgress (h : Sound s reg) (name : String) :
    Sound s (reg.insert name .inProgress) := by
  rintro o token ho ⟨n, hn, hdone⟩
  rw [NameMap.get?_insert] at hdone
  split at hdone
  · cases hdone
  · exact h o token ho ⟨n, hn, hdone⟩

theorem Sound.erase (h : Sound s reg) : Sound s (reg.erase name) := by
  rintro o token ho ⟨n, hn, hdone⟩
  rw [NameMap.get?_erase] at hdone
  split at hdone
  · cases hdone
  · exact h o token ho ⟨n, hn, hdone⟩

/-- The object that is finished is the only one of its name within reach. -/
theorem Sound.insert_done (h : Sound s reg) (hun : Unambiguous s.resolver.Reaches) {o : Object}
    (ho : s.resolver.Reaches o) (hname : o.entryName? = some name) {token : Token}
    (htoken : (inquire s o []).Yields s token) : Sound s (reg.insert name (.done token)) := by
  rintro o' token' ho' ⟨n, hn, hdone⟩
  rw [NameMap.get?_insert] at hdone
  split at hdone
  · next heq =>
    subst heq
    cases hdone
    obtain rfl := hun o o' name ho ho' hname hn
    exact htoken
  · exact h o' token' ho' ⟨n, hn, hdone⟩

/-- What a sound registry gives, an inquiry yields without it. -/
theorem Sound.yields {α : Type} {P : α → Prop} {p : Inquiry α} {a : α} (h : Sound s reg)
    (hp : p.Ensures { Terms.any with asks := s.resolver.Reaches } P)
    (hgives : p.Gives (Holds reg) a) : p.Yields s a := by
  induction hgives with
  | done a => exact .done a
  | ask ht _ ih =>
    cases hp with
    | ask ho hnext => exact .ask (h _ _ ho ht) (ih (hnext _ trivial))

end Registry

section Runs

variable {s : Settings} (hun : Unambiguous s.resolver.Reaches)

include hun

/-- **A nested parse keeps the registry sound.** -/
theorem parseWithin_sound (levels : Nat) {o : Object} (ho : s.resolver.Reaches o) {reg : Registry}
    (hreg : Sound s reg) : Sound s ((parseWithin s levels o []).runOn reg).2 := by
  refine parseWithin_induction s
    (P := fun o run => s.resolver.Reaches o → ∀ {reg}, Sound s reg → Sound s (run reg).2)
    ?_ ?_ levels o ho hreg
  · exact fun _ _ _ _ _ h => h
  · intro levels o name hname ih ho reg hreg
    have hasks := inquire_reaches s o []
    rw [runOn_tracked]
    split
    · exact hreg
    · exact hreg
    · have hrun := hasks.run_keeps (fun o' _ ho' h => ih o' ho' h)
        (hreg.insert_inProgress name)
      split
      · next heq =>
        rw [heq] at hrun
        exact hrun.insert_done hun ho hname (hrun.yields hasks (gives_of_run heq))
      · next heq =>
        rw [heq] at hrun
        exact hrun.erase

/-- **What a run comes to, the inquiry yields**, whatever has been finished before. -/
theorem yields_of_run {α : Type} {P : α → Prop} {p : Inquiry α} {levels : Nat}
    (hp : p.Ensures { Terms.any with asks := s.resolver.Reaches } P) {reg reg' : Registry} {a : α}
    (hreg : Sound s reg)
    (h : (p.run fun o => parseWithin s levels o []).runOn reg = (.ok a, reg')) :
    p.Yields s a := by
  have hsound := hp.run_keeps (fun o _ ho hreg => parseWithin_sound hun levels ho hreg) hreg
  rw [h] at hsound
  exact hsound.yields hp (gives_of_run h)

/-- **The answers of a new parser are what the inquiries yield.** -/
theorem parseWithMethods_yields {o : Object} {methods : List String} {token : Token}
    (h : ((Parser.new s).parseWithMethods o methods).1 = .ok token) :
    (inquire s o methods).Yields s token := by
  have hstart : ∀ name, Sound s (NameMap.empty.insert name .inProgress) :=
    sound_empty.insert_inProgress
  change ((parseObject s 0 o methods).runOn .empty).1 = _ at h
  rw [runOn_parseObject, if_neg (Nat.not_lt_zero _)] at h
  cases o with
  | «class» c =>
    have hasks : (parseClass s c methods).Ensures
        { Terms.any with asks := s.resolver.Reaches } fun doc => doc.subject = c :=
      parseClass_ensures (fun _ _ => trivial) (fun _ _ _ ho => ho.reaches) (.inr fun _ h => h)
    rw [runOn_parseWith_class _ rfl] at h
    split at h
    · next hrun =>
      cases h
      exact (yields_of_run hun hasks (hstart c.fullName) hrun).bind (.done _)
    · cases h
  | function f =>
    have hnone : (NameMap.empty : Registry).get? f.fullName = none := rfl
    rw [parseWith, runOn_tracked, hnone] at h
    dsimp only at h
    split at h
    · next hrun =>
      cases h
      exact yields_of_run hun (inquire_reaches s _ methods) (hstart f.fullName) hrun
    · cases h
  | «module» path => cases h
  | value v => cases h

end Runs

/-! ## Methods -/

section Methods

variable {s : Settings} {c : Class} {methods : List String}

/-- Each method that is asked for has the documentation that the inquiry into it yields. -/
theorem get?_of_parseMethods {attributes : ArgMap} {into docs : NameMap FunctionDoc}
    (h : (parseMethods s c attributes methods into).Yields s docs) :
    ∀ method ∈ methods, ∃ doc, docs.get? method = some doc ∧
      (parseMethod s c attributes method).Yields s doc := by
  refine h.foldlM (I := fun seen docs => ∀ method ∈ seen, ∃ doc,
    NameMap.get? docs method = some doc ∧ (parseMethod s c attributes method).Yields s doc)
    (fun _ h => nomatch h) ?_
  intro seen method docs docs' hdocs hstep
  obtain ⟨doc, hdoc, hdone⟩ := hstep.of_bind
  cases hdone
  intro m hm
  rw [NameMap.get?_insert]
  split
  · next heq => exact ⟨doc, rfl, heq ▸ hdoc⟩
  · next hne =>
    refine hdocs m ((List.mem_append.mp hm).resolve_right fun hlast => ?_)
    exact hne (List.mem_singleton.mp hlast).symm

/-- The methods of a class are asked for with its attributes at hand. -/
theorem get?_of_parseClass {classDoc : ClassDoc} (h : (parseClass s c methods).Yields s classDoc)
    {method : String} (hmethod : method ∈ methods) :
    ∃ doc, classDoc.methods.bind (·.get? method) = some doc ∧
      (parseMethod s c classDoc.attributes method).Yields s doc := by
  rw [parseClass_eq] at h
  obtain ⟨base, -, h⟩ := h.of_bind
  unfold withMethods at h
  rw [if_neg (by simpa using List.ne_nil_of_mem hmethod)] at h
  obtain ⟨docs, hdocs, hdone⟩ := h.of_bind
  cases hdone
  exact get?_of_parseMethods hdocs method hmethod

end Methods

/-- **A method documents what the function documents on its own.** If a class is parsed with a
method, and the function that the method is bound to is parsed by another parser, then the two
documentations are the same if there are any. -/
theorem method_alone {s : Settings} (hun : Unambiguous s.resolver.Reaches) {c : Class}
    {method : String} {f : Function} (hf : c.member? method = some (.function f))
    {methods : List String} (hmethod : method ∈ methods) {token token' : Token}
    (h : ((Parser.new s).parseWithMethods (.class c) methods).1 = .ok token)
    (h' : ((Parser.new s).parse (.function f)).1 = .ok token') :
    ∃ classDoc doc, token = .class classDoc ∧
      classDoc.methods.bind (·.get? method) = some doc ∧ token' = .function doc := by
  obtain ⟨classDoc, hclass, rfl⟩ := (parseWithMethods_yields hun h).of_map
  obtain ⟨doc', halone, rfl⟩ := (parseWithMethods_yields hun h').of_map
  obtain ⟨doc, hdoc, hyields⟩ := get?_of_parseClass hclass hmethod
  rw [parseMethod, hf] at hyields
  obtain rfl := hyields.unique
    (parseFunction_yields_of_alone s classDoc.attributes f doc' halone)
  exact ⟨classDoc, doc, rfl, hdoc, rfl⟩

namespace Sample

/-- A method with a link and a type that is expanded. -/
def usage : Function := ⟨"m", "L.use", some ":param see C:\n:param a: A.\n:type a: C", none⟩

/-- Its class has the type as an attribute, so that it is finished when the method comes. -/
def owner : Class :=
  ⟨"m", "L", some "L.\n\n.. attribute:: k\n    :type: C", none,
    NameMap.empty.insert "use" (.function usage), [], none⟩

def expandingTypes : Settings := { settings with whitelist := ["m.C"] }

theorem method_alone_of_usage :
    Unambiguous expandingTypes.resolver.Reaches ∧ owner.member? "use" = some (.function usage) ∧
    ∃ token token', ((Parser.new expandingTypes).parseWithMethods (.class owner) ["use"]).1 =
        .ok token ∧
      ((Parser.new expandingTypes).parse (.function usage)).1 = .ok token' ∧
      (token'.argsFor .function).toList.map (·.type.display) = ["int", "m.C"] ∧
      ∃ classDoc doc, token = .class classDoc ∧
        classDoc.methods.bind (·.get? "use") = some doc ∧ token' = .function doc := by
  have hknown : Unambiguous (resolver.Knows []) := unambiguous fun _ h => nomatch h
  have hun : Unambiguous expandingTypes.resolver.Reaches := hknown.mono fun _ => .inl
  have hf : owner.member? "use" = some (.function usage) := rfl
  have hclass : ((Parser.new expandingTypes).parseWithMethods (.class owner)
      ["use"]).1.toOption.map (fun _ => ()) = some () := by decide +kernel
  have halone : ((Parser.new expandingTypes).parse (.function usage)).1.toOption.map
      (fun token => (token.argsFor .function).toList.map (·.type.display)) =
        some ["int", "m.C"] := by decide +kernel
  obtain ⟨token, htoken, -⟩ := ok_of_toOption_map hclass
  obtain ⟨token', htoken', htypes⟩ := ok_of_toOption_map halone
  exact ⟨hun, hf, token, token', htoken, htoken', htypes,
    method_alone hun hf (List.mem_singleton_self _) htoken htoken'⟩

end Sample

namespace Foreign

/-- **A method may document something else through its class** although no two objects of the host
share a name: the class links to the function of the namespace first, whose name is then taken. -/
theorem method_alone_differs :
    Unambiguous (Resolver.Reaches ⟨host, .empty⟩) ∧
    cls.member? "run" = some (.function method) ∧
    ∃ token token', ((Parser.new settings).parseWithMethods (.class cls) ["run"]).1 = .ok token ∧
      ((Parser.new settings).parse (.function method)).1 = .ok token' ∧
      (token'.argsFor .function).names = [] ∧
      ∃ classDoc doc, token = .class classDoc ∧
        classDoc.methods.bind (·.get? "run") = some doc ∧ doc.args.names = ["y"] := by
  have hclass : ((Parser.new settings).parseWithMethods (.class cls) ["run"]).1.toOption.map
      (fun token => match token with
        | .class doc => (doc.methods.bind (·.get? "run")).map (·.args.names)
        | .function _ => none) = some (some ["y"]) := by decide +kernel
  have halone : ((Parser.new settings).parse (.function method)).1.toOption.map
      (fun token => (token.argsFor .function).names) = some [] := by decide +kernel
  obtain ⟨token, htoken, hmethod⟩ := ok_of_toOption_map hclass
  obtain ⟨token', htoken', hnames⟩ := ok_of_toOption_map halone
  refine ⟨unambiguous_host, rfl, token, token', htoken, htoken', hnames, ?_⟩
  cases token with
  | function doc => cases hmethod
  | «class» classDoc =>
    obtain ⟨doc, hdoc, hargs⟩ := Option.map_eq_some_iff.mp hmethod
    exact ⟨classDoc, doc, rfl, hdoc, hargs⟩

end Foreign

end DocTree
