import DocTree.Proofs.Parse.Invariant
import DocTree.Proofs.Token.Same

/-!
# What a token documents

A finished entry is found by the full name of an object. What it holds is the token of an object of
that name, which need not be the very object that is asked for: the class `b` of a module `a` and
the module `a.b` may both have a function `f`.

* `Registry.Subjects`: each finished token documents a known object, of the name of its entry;
* **`parse_subject`**: a parse answers with the token of an object of the given name, and with that
  of the given object if no other known object has the name.
-/

namespace DocTree

namespace Registry

/-- Every finished token documents a known object of the name of its entry. -/
def Subjects (known : Object → Prop) (reg : Registry) : Prop :=
  ∀ name token, reg.get? name = some (.done token) →
    known token.object ∧ token.object.entryName? = some name

variable {known : Object → Prop} {reg : Registry} {name : String}

theorem Subjects.insert_done (h : Subjects known reg) {token : Token} (ho : known token.object)
    (hname : token.object.entryName? = some name) :
    Subjects known (reg.insert name (.done token)) := by
  intro n t hn
  rw [NameMap.get?_insert] at hn
  split at hn
  · next heq =>
    subst heq
    cases hn
    exact ⟨ho, hname⟩
  · exact h n t hn

theorem subjects_keeps (s : Settings) (known : Object → Prop) :
    Keeps s known (Subjects known) where
  start h _ := by
    intro n token hn
    rw [NameMap.get?_insert] at hn
    split at hn
    · cases hn
    · exact h n token hn
  abort h _ := by
    intro n token hn
    rw [NameMap.get?_erase] at hn
    split at hn
    · cases hn
    · exact h n token hn
  finish {reg name o methods token} h _ ho hname hgives := by
    have hasks : (inquire s o methods).Ensures .any fun token => token.object = o :=
      inquire_ensures (fun _ _ => trivial) (fun _ _ => trivial) (.inr fun _ _ => trivial)
    have hobject : token.object = o := hgives.ensured hasks fun _ _ _ => trivial
    rw [← hobject] at ho hname
    exact h.insert_done ho hname
  extend h hold _ := by
    obtain ⟨ho, hname⟩ := h _ _ hold
    exact h.insert_done ho hname

end Registry

open Registry

/-- The token of every finished object is that of a known object of the same name. -/
theorem subjects_after (s : Settings) {calls : List Call} {given : List Object}
    (hgiven : ∀ c ∈ calls, c.object ∈ given) :
    Subjects (s.resolver.Knows given) ((Parser.new s).after calls).registry :=
  keeps_after (subjects_keeps s _) (fun _ => .inl) (fun _ _ h => nomatch h)
    fun c hc => .inr (hgiven c hc)

/-! ## Answers -/

theorem Object.isSame_self {o : Object} {name : String} (h : o.entryName? = some name) :
    o.isSame o = true := by
  cases o with
  | «class» c => exact c.isSame_self
  | function f => exact f.isSame_self
  | «module» path => cases h
  | value v => cases h

/-- The token that a parse gives is the one that it leaves in the registry. -/
theorem get?_of_parse {p : Parser} {o : Object} {name : String} (hname : o.entryName? = some name)
    {token : Token} (h : (p.parse o).1 = .ok token) :
    (p.parse o).2.registry.get? name = some (.done token) := by
  have hrun : (parseObject p.settings 0 o []).runOn p.registry =
      (.ok token, (p.parse o).2.registry) := Prod.ext h rfl
  rw [runOn_parseObject, if_neg (Nat.not_lt_zero _), parseWith_nil _ _ hname] at hrun
  exact get?_of_tracked hrun

/-- An object whose name has no token yet is parsed itself. -/
theorem object_of_fresh_parse {p : Parser} {o : Object} {name : String}
    (hname : o.entryName? = some name) (hfresh : p.isParsed name = false)
    {token : Token} (h : (p.parse o).1 = .ok token) : token.object = o := by
  have hrun : ((parseObject p.settings 0 o []).runOn p.registry).1 = .ok token := h
  rw [runOn_parseObject, if_neg (Nat.not_lt_zero _), parseWith_nil _ _ hname, runOn_tracked] at hrun
  split at hrun
  · cases hrun
  · next hdone => simp [Parser.isParsed, Registry.isDone, hdone] at hfresh
  · split at hrun
    · next heq =>
      cases hrun
      have hobject : (inquire p.settings o []).Ensures .any fun token => token.object = o :=
        inquire_ensures (fun _ _ => trivial) (fun _ _ => trivial) (.inl rfl)
      exact hobject.of_run_ok heq
    · cases hrun

/-- **A parse answers for the name of the object.** The token documents an object of that name,
which the host or the namespace leads to or a call gave. It documents the very object if the name
had no token before, or if no other known object has the name. -/
theorem parse_subject (s : Settings) (calls : List Call) (o : Object) (name : String)
    (token : Token) (hname : o.entryName? = some name)
    (h : (((Parser.new s).after calls).parse o).1 = .ok token) :
    token.object.entryName? = some name ∧
    s.resolver.Knows (o :: calls.map Call.object) token.object ∧
    (((Parser.new s).after calls).isParsed name = false → token.object = o) ∧
    ((∀ o', s.resolver.Knows (calls.map Call.object) o' → o'.entryName? = some name →
      o'.isSame o = true) → token.object.isSame o = true) := by
  have hdone := get?_of_parse hname h
  have hsubjects : Subjects (s.resolver.Knows (o :: calls.map Call.object))
      (((Parser.new s).after calls).parse o).2.registry := by
    have hafter : Subjects (s.resolver.Knows (o :: calls.map Call.object))
        ((Parser.new s).after calls).registry :=
      subjects_after s fun c hc => .tail _ (List.mem_map_of_mem hc)
    have hparse := parseObject_keeps (subjects_keeps s _) (fun _ => .inl)
      (.inr List.mem_cons_self) [] 0 hafter
    have hsettings : ((Parser.new s).after calls).settings = s := Parser.settings_after _ _
    change Subjects _ ((parseObject ((Parser.new s).after calls).settings 0 o []).runOn _).2
    rw [hsettings]
    exact hparse
  obtain ⟨hknown, hentry⟩ := hsubjects name token hdone
  refine ⟨hentry, hknown, fun hfresh => object_of_fresh_parse hname hfresh h, fun hunique => ?_⟩
  by_cases heq : token.object = o
  · rw [heq]
    exact Object.isSame_self hname
  · refine hunique _ ?_ hentry
    exact hknown.imp_right fun hmem => (List.mem_cons.mp hmem).resolve_left heq

/-! ## Two functions of one name -/

namespace SharedName

/-- The method `f` of the class `b` in the module `a`. -/
def method : Function := ⟨"a", "b.f", some "One.", some []⟩

/-- The function `f` in the module `a.b`. -/
def function : Function := ⟨"a.b", "f", some "Two.", some []⟩

def host : Host :=
  let cls : Class := ⟨"a", "b", none, none, NameMap.empty.insert "f" (.function method), [], none⟩
  ⟨((NameMap.empty.insert "a" ⟨"a", none, NameMap.empty.insert "b" (.class cls)⟩).insert
    "a.b" ⟨"a.b", none, NameMap.empty.insert "f" (.function function)⟩).insert
      "x" ⟨"x", none, NameMap.empty.insert "m" (.module "a")⟩⟩

def settings : Settings := ⟨⟨host, .empty⟩, .rst, [], defaultRecursionLimit⟩

/-- The parser after the method has been parsed. -/
def parser : Parser := (Parser.new settings).after [⟨.function method, [], 0⟩]

/-- **The method answers for the function.** Both are found in the host, and the token of the one
that is parsed first is the answer for the other as well. -/
theorem parse_gives_other :
    host.lookup? "x.m.b.f" = some (.function method) ∧
    host.lookup? "a.b.f" = some (.function function) ∧
    ∃ token, (parser.parse (.function function)).1 = .ok token ∧
      token.object.isSame (.function function) = false :=
  ⟨rfl, rfl, _, rfl, rfl⟩

/-- What is left of the promise: the name is right, and so is the object if no other has it. -/
theorem parse_subject_of_name :
    (∃ token, (parser.parse (.function function)).1 = .ok token ∧
      token.object.entryName? = some "a.b.f" ∧
      settings.resolver.Knows [.function function, .function method] token.object) ∧
    ∃ token, (((Parser.new Sample.settings).after [⟨.class Sample.cls, ["run"], 0⟩]).parse
        (.function Sample.user)).1 = .ok token ∧
      token.object = .function Sample.user ∧
      token.object.isSame (.function Sample.user) = true := by
  constructor
  · have h := parse_subject settings [⟨.function method, [], 0⟩] (.function function) "a.b.f" _
      rfl rfl
    exact ⟨_, rfl, h.1, h.2.1⟩
  · have h := parse_subject Sample.settings [⟨.class Sample.cls, ["run"], 0⟩]
      (.function Sample.user) "m.u" _ rfl rfl
    have hun : Unambiguous
        (Sample.settings.resolver.Knows [.function Sample.user, .class Sample.cls]) :=
      Sample.unambiguous (by simp [Sample.objects])
    refine ⟨_, rfl, h.2.2.1 rfl, h.2.2.2 fun o' ho' hname' => ?_⟩
    obtain rfl := hun o' (.function Sample.user) "m.u" (ho'.imp_right (.tail _))
      (.inr List.mem_cons_self) hname' rfl
    exact Object.isSame_self hname'

end SharedName

end DocTree
