import DocTree.Parse.Parser
import DocTree.Proofs.Parse.Inquiry
import DocTree.Proofs.Names

/-!
# Runs on a registry

How a computation on the registry goes, step by step.

* `ParseM.runOn_bind`: one computation after the other; an error ends the run;
* `runOn_tracked`: the ways of `tracked`, by the entry of the name;
* **`Inquiry.Ensures.run`**: the rule for running an inquiry;
* `parseWith_nil`: parsing an object whose methods nobody asks for;
* `parseWithin_induction`: nested parses, level by level;
* `Call`, `Parser.after`: sequences of calls. `Parser.after_induction` is the way to say something
  of every registry that calls lead to.
-/

namespace DocTree

variable {α β : Type}

/-- A result that is seen through `f`. -/
theorem ok_of_toOption_map {ε : Type} {x : Except ε α} {f : α → β} {b : β}
    (h : x.toOption.map f = some b) : ∃ a, x = .ok a ∧ f a = b := by
  cases x with
  | ok a => exact ⟨a, rfl, Option.some.inj h⟩
  | error e => cases h

namespace ParseM

@[simp] theorem runOn_ofExcept (x : Except Error α) (reg : Registry) :
    (ofExcept x).runOn reg = (x, reg) := rfl

theorem runOn_bind (x : ParseM α) (f : α → ParseM β) (reg : Registry) :
    (x >>= f).runOn reg =
      match x.runOn reg with
      | (.ok a, reg) => (f a).runOn reg
      | (.error e, reg) => (.error e, reg) := by
  change StateT.run (ExceptT.run (x >>= f)) reg = _
  rw [ExceptT.run_bind, StateT.run_bind]
  rcases h : x.runOn reg with ⟨_ | _, reg'⟩ <;>
    · change StateT.run (ExceptT.run x) reg = _ at h
      rw [h]
      rfl

/-- A run with a result that is seen through `f`. -/
theorem ok_of_toOption_map {x : ParseM α} {reg : Registry} {f : α → β} {b : β}
    (h : (x.runOn reg).1.toOption.map f = some b) :
    ∃ a reg', x.runOn reg = (.ok a, reg') ∧ f a = b := by
  obtain ⟨a, ha, hb⟩ := DocTree.ok_of_toOption_map h
  exact ⟨a, (x.runOn reg).2, Prod.ext ha rfl, hb⟩

end ParseM

theorem runOn_tracked (name : String) (parse : ParseM Token) (reg : Registry) :
    (tracked name parse).runOn reg =
      match reg.get? name with
      | some .inProgress => (.error (.cycle name), reg)
      | some (.done token) => (.ok token, reg)
      | none =>
        match parse.runOn (reg.insert name .inProgress) with
        | (.ok token, reg) => (.ok token, reg.insert name (.done token))
        | (.error e, reg) => (.error e, reg.erase name) := rfl

/-- A tracked object that has a token is finished. -/
theorem get?_of_tracked {name : String} {parse : ParseM Token} {reg reg' : Registry}
    {token : Token} (h : (tracked name parse).runOn reg = (.ok token, reg')) :
    reg'.get? name = some (.done token) := by
  rw [runOn_tracked] at h
  split at h
  · cases h
  · next hdone => cases h; exact hdone
  · split at h
    · cases h; rw [NameMap.get?_insert, if_pos rfl]
    · cases h

namespace Inquiry

variable (need : Object → ParseM Token)

theorem runOn_run_ask (o : Object) (next : Token → Inquiry α) (reg : Registry) :
    ((ask o next).run need).runOn reg =
      match (need o).runOn reg with
      | (.ok token, reg) => ((next token).run need).runOn reg
      | (.error e, reg) => (.error e, reg) := by
  rw [Inquiry.run, ParseM.runOn_bind]
  rcases (need o).runOn reg with ⟨_ | _, _⟩ <;> rfl

/-- One inquiry after the other. -/
theorem runOn_run_bind (p : Inquiry α) (f : α → Inquiry β) (reg : Registry) :
    ((p >>= f).run need).runOn reg =
      match (p.run need).runOn reg with
      | (.ok a, reg) => ((f a).run need).runOn reg
      | (.error e, reg) => (.error e, reg) := by
  induction p generalizing reg with
  | done a => rfl
  | fail e => rfl
  | ask o next ih =>
    change ((ask o fun token => next token >>= f).run need).runOn reg = _
    rw [runOn_run_ask, runOn_run_ask]
    rcases (need o).runOn reg with ⟨e | token, mid⟩
    · rfl
    · exact ih token mid

variable {need}

/-- **What an inquiry ensures holds of its runs**, if `need` keeps the terms and an invariant of the
registry. -/
theorem Ensures.run {T : Terms} {P : α → Prop} {I : Registry → Prop} {p : Inquiry α}
    (hp : p.Ensures T P)
    (hneed : ∀ o reg result reg', T.asks o → I reg → (need o).runOn reg = (result, reg') →
      I reg' ∧ (∀ token, result = .ok token → T.answers o token) ∧
        ∀ e, result = .error e → T.fails e)
    {reg reg' : Registry} {result : Except Error α} (hI : I reg)
    (h : (p.run need).runOn reg = (result, reg')) :
    I reg' ∧ (∀ a, result = .ok a → P a) ∧ ∀ e, result = .error e → T.fails e := by
  induction hp generalizing reg with
  | done ha =>
    cases h
    refine ⟨hI, ?_, ?_⟩
    · rintro _ ⟨⟩
      exact ha
    · rintro _ ⟨⟩
  | fail he =>
    cases h
    refine ⟨hI, ?_, ?_⟩
    · rintro _ ⟨⟩
    · rintro _ ⟨⟩
      exact he
  | @ask o next ho _ ih =>
    rw [runOn_run_ask] at h
    rcases hn : (need o).runOn reg with ⟨e | token, mid⟩
    · obtain ⟨hI', _, herr⟩ := hneed o reg _ _ ho hI hn
      rw [hn] at h
      cases h
      refine ⟨hI', ?_, ?_⟩
      · rintro _ ⟨⟩
      · rintro _ ⟨⟩
        exact herr e rfl
    · obtain ⟨hI', hok, _⟩ := hneed o reg _ _ ho hI hn
      rw [hn] at h
      exact ih token (hok token rfl) hI' h

/-- An invariant of the registry that every question keeps. -/
theorem Ensures.run_keeps {asks : Object → Prop} {P : α → Prop} {I : Registry → Prop}
    {p : Inquiry α} (hp : p.Ensures { Terms.any with asks := asks } P)
    (hkeep : ∀ o reg, asks o → I reg → I ((need o).runOn reg).2) {reg : Registry} (hreg : I reg) :
    I ((p.run need).runOn reg).2 := by
  have hneed : ∀ o reg result reg', asks o → I reg → (need o).runOn reg = (result, reg') →
      I reg' ∧ (∀ token, result = .ok token → True) ∧ ∀ e, result = .error e → True := by
    intro o mid result reg' ho hmid hrun
    have h := hkeep o mid ho hmid
    rw [hrun] at h
    exact ⟨h, fun _ _ => trivial, fun _ _ => trivial⟩
  exact (hp.run hneed hreg rfl).1

theorem Ensures.of_run_ok {P : α → Prop} {p : Inquiry α} (hp : p.Ensures .any P)
    {reg reg' : Registry} {a : α} (h : (p.run need).runOn reg = (.ok a, reg')) : P a :=
  (hp.run (I := fun _ => True)
    (fun _ _ _ _ _ _ _ => ⟨trivial, fun _ _ => trivial, fun _ _ => trivial⟩) trivial h).2.1 a rfl

end Inquiry

/-! ## Objects in the registry -/

section Objects

variable (s : Settings) (need : Object → ParseM Token)

theorem addMethods_nil (c : Class) (token : Token) :
    addMethods s need c [] token = pure token := by
  cases token <;> rfl

/-- Without methods, parsing an object is nothing but tracking it. -/
theorem parseWith_nil {o : Object} {name : String} (h : o.entryName? = some name) :
    parseWith s need o [] = tracked name ((inquire s o []).run need) := by
  cases o with
  | «class» c =>
    obtain rfl := Option.some.inj h
    have hadd : addMethods s need c [] = pure := funext (addMethods_nil s need c)
    change tracked c.fullName _ >>= addMethods s need c [] = _
    rw [hadd, bind_pure]
  | function f =>
    obtain rfl := Option.some.inj h
    rfl
  | «module» path => cases h
  | value v => cases h

/-- What has no entry is not parsed. -/
theorem runOn_parseWith_of_none {o : Object} (h : o.entryName? = none) (methods : List String) :
    ∃ name kind, ∀ reg,
      (parseWith s need o methods).runOn reg = (.error (.notParsable name kind), reg) := by
  cases o with
  | «class» c => cases h
  | function f => cases h
  | «module» path => exact ⟨_, _, fun _ => rfl⟩
  | value v => exact ⟨_, _, fun _ => rfl⟩

/-- A nested parse tracks the object and has one level less for what it needs. -/
theorem parseWithin_succ (levels : Nat) {o : Object} {name : String}
    (h : o.entryName? = some name) :
    parseWithin s (levels + 1) o [] =
      tracked name ((inquire s o []).run fun o => parseWithin s levels o []) := by
  rw [parseWithin, parseWith_nil _ _ h]

theorem runOn_parseWithin_of_none (levels : Nat) {o : Object} (h : o.entryName? = none) :
    ∃ name kind, ∀ reg,
      (parseWithin s (levels + 1) o []).runOn reg = (.error (.notParsable name kind), reg) :=
  runOn_parseWith_of_none s _ h []

/-- **Nested parses, level by level.** A nested parse fails at once and blames nothing, or tracks an
object whose needs have one level less. -/
theorem parseWithin_induction {P : Object → (Registry → Except Error Token × Registry) → Prop}
    (fails : ∀ o e, (∀ name, e ≠ .cycle name) → P o fun reg => (.error e, reg))
    (tracks : ∀ levels o name, o.entryName? = some name →
      (∀ o, P o (parseWithin s levels o []).runOn) →
      P o (tracked name ((inquire s o []).run fun o => parseWithin s levels o [])).runOn)
    (levels : Nat) (o : Object) : P o (parseWithin s levels o []).runOn := by
  induction levels generalizing o with
  | zero => exact fails o _ fun _ h => nomatch h
  | succ levels ih =>
    cases hname : o.entryName? with
    | none =>
      obtain ⟨_, _, hrun⟩ := runOn_parseWithin_of_none s levels hname
      rw [funext hrun]
      exact fails o _ fun _ h => nomatch h
    | some name =>
      rw [parseWithin_succ s levels hname]
      exact tracks levels o name hname ih

theorem runOn_parseObject (o : Object) (methods : List String) (depth : Nat) (reg : Registry) :
    (parseObject s depth o methods).runOn reg =
      if s.recursionLimit < depth then
        (.error (.recursionLimit depth s.recursionLimit), reg)
      else (parseWith s (needAt s depth) o methods).runOn reg := by
  rw [parseObject, ParseM.runOn_bind, ParseM.runOn_ofExcept, checkDepth]
  by_cases h : s.recursionLimit < depth
  · rw [if_pos h, if_pos h]
  · rw [if_neg h, if_neg h]

/-- At depth zero, all levels up to the limit are left. -/
theorem runOn_parse (o : Object) (methods : List String) (reg : Registry) :
    (parseObject s 0 o methods).runOn reg =
      (parseWithin s (s.recursionLimit + 1) o methods).runOn reg := by
  rw [runOn_parseObject, if_neg (Nat.not_lt_zero _)]
  rfl

end Objects

/-! ## Calls -/

/-- A call on a parser. -/
structure Call where
  object : Object
  methods : List String
  depth : Nat

namespace Parser

/-- A new parser. -/
def new (s : Settings) : Parser := ⟨s, .empty⟩

def call (p : Parser) (c : Call) : Except Error Token × Parser :=
  p.parseObject c.object c.methods c.depth

/-- The parser after calls, whatever came of them. -/
def after (p : Parser) (calls : List Call) : Parser :=
  calls.foldl (fun p c => (p.call c).2) p

@[simp] theorem settings_after (p : Parser) (calls : List Call) :
    (p.after calls).settings = p.settings := by
  induction calls generalizing p with
  | nil => rfl
  | cons c calls ih => exact ih _

/-- What holds of the registry at first and is kept by each call holds after them all. -/
theorem after_induction {I : Registry → Prop} {p : Parser} {calls : List Call}
    (h : I p.registry)
    (hcall : ∀ c ∈ calls, ∀ reg, I reg →
      I ((DocTree.parseObject p.settings c.depth c.object c.methods).runOn reg).2) :
    I (p.after calls).registry := by
  induction calls generalizing p with
  | nil => exact h
  | cons c calls ih =>
    exact ih (hcall c List.mem_cons_self _ h) fun d hd => hcall d (List.mem_cons_of_mem c hd)

end Parser

namespace Sample

def settings : Settings := ⟨resolver, .rst, [], defaultRecursionLimit⟩

end Sample

namespace Foreign

def settings : Settings := ⟨⟨host, scope⟩, .rst, [], defaultRecursionLimit⟩

end Foreign

end DocTree
