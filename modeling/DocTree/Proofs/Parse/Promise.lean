import DocTree.Proofs.Parse.Needs
import DocTree.Proofs.Parse.Run

/-!
# What every token satisfies

A property of tokens that goes from the answers of an inquiry to its result holds of every token
that a parser finishes or returns, whatever it was asked before.

* `Request`, `Parser.serve`: calls of every kind, also those that leave no entry of their own;
* `Registry.All`: the finished tokens have the property, and the name of their entry;
* `PassedOn`: what an inquiry has to promise;
* `parseWithin_promise`, `parseObject_promise`: one object;
* **`all_after_requests`, `promise_of_call`**: every token after any requests.
-/

namespace DocTree

open Inquiry

/-! ## Requests -/

/-- A call of any kind on a parser. -/
inductive Request where
  /-- Ask for the token of an object, as `parse` and `parseWithMethods` do. -/
  | object (c : Call)
  | function (f : Function) (parent : Option ArgMap) (depth : Nat)
  | «class» (c : Class) (methods : List String) (depth : Nat)

namespace Parser

/-- The answer to a request, as a token. -/
def serve (p : Parser) : Request → Except Error Token × Parser
  | .object c => p.call c
  | .function f parent depth =>
    let (result, p') := p.parseFunction f parent depth
    (result.map .function, p')
  | .class c methods depth =>
    let (result, p') := p.parseClass c methods depth
    (result.map .class, p')

/-- The parser after requests, whatever came of them. -/
def afterRequests (p : Parser) (requests : List Request) : Parser :=
  requests.foldl (fun p r => (p.serve r).2) p

theorem settings_serve (p : Parser) (r : Request) : (p.serve r).2.settings = p.settings := by
  cases r <;> rfl

@[simp] theorem settings_afterRequests (p : Parser) (requests : List Request) :
    (p.afterRequests requests).settings = p.settings := by
  induction requests generalizing p with
  | nil => rfl
  | cons r requests ih => exact (ih _).trans (settings_serve p r)

end Parser

/-! ## Properties of finished tokens -/

/-- Every finished token has the name of its entry and satisfies `P`. -/
def Registry.All (P : Token → Prop) (reg : Registry) : Prop :=
  ∀ name token, reg.get? name = some (.done token) → token.qualifiedName = name ∧ P token

namespace Registry

variable {P : Token → Prop} {reg : Registry} {name : String}

theorem All.insert_inProgress (h : All P reg) : All P (reg.insert name .inProgress) := by
  intro n token hn
  rw [NameMap.get?_insert] at hn
  split at hn
  · cases hn
  · exact h n token hn

theorem All.insert_done (h : All P reg) {token : Token} (hname : token.qualifiedName = name)
    (htoken : P token) : All P (reg.insert name (.done token)) := by
  intro n t hn
  rw [NameMap.get?_insert] at hn
  split at hn
  · next heq =>
    cases hn
    exact ⟨hname.trans heq, htoken⟩
  · exact h n t hn

theorem All.erase (h : All P reg) : All P (reg.erase name) := by
  intro n token hn
  rw [NameMap.get?_erase] at hn
  split at hn
  · cases hn
  · exact h n token hn

end Registry

theorem Token.entryName?_object (token : Token) :
    token.object.entryName? = some token.qualifiedName := by
  cases token <;> rfl

/-- The answers are of the names that are asked for, and satisfy `P`. -/
def Inquiry.Terms.trusting (P : Token → Prop) : Terms :=
  { Terms.any with answers := fun o token => o.entryName? = some token.qualifiedName ∧ P token }

/-- **`P` goes from the answers of each inquiry to its result**: of the inquiry into an object, and
of the one into further methods of a class. -/
structure PassedOn (s : Settings) (P : Token → Prop) : Prop where
  inquire (o : Object) (methods : List String) : (inquire s o methods).Ensures (.trusting P) P
  addMethods (c : Class) {doc : ClassDoc} (methods : List String) (h : P (.class doc)) :
    (parseMethods s c doc.attributes methods (doc.methods.getD .empty)).Ensures (.trusting P)
      fun docs => P (.class { doc with methods := some docs })

theorem passedOn_true (s : Settings) : PassedOn s fun _ => True where
  inquire _ _ := ensures_true (fun _ => trivial) (fun _ => trivial) _
  addMethods _ _ _ _ := ensures_true (fun _ => trivial) (fun _ => trivial) _

/-- A computation keeps the promise `P` of the registry, and its results satisfy `Q`. -/
def Promises {α : Type} (P : Token → Prop) (x : ParseM α) (Q : α → Prop) : Prop :=
  ∀ reg, reg.All P → (x.runOn reg).2.All P ∧ ∀ a, (x.runOn reg).1 = .ok a → Q a

section Promises

variable {α β : Type} {P : Token → Prop} {Q : α → Prop}

theorem Promises.bind {x : ParseM α} {f : α → ParseM β} {R : β → Prop} (hx : Promises P x Q)
    (hf : ∀ a, Q a → Promises P (f a) R) : Promises P (x >>= f) R := by
  intro reg hreg
  obtain ⟨hreg', hok⟩ := hx reg hreg
  rw [ParseM.runOn_bind]
  rcases hrun : x.runOn reg with ⟨e | a, reg'⟩
  · rw [hrun] at hreg'
    exact ⟨hreg', fun _ h => nomatch h⟩
  · rw [hrun] at hreg' hok
    exact hf a (hok a rfl) reg' hreg'

theorem promises_ofExcept {x : Except Error α} (h : ∀ a, x = .ok a → Q a) :
    Promises P (ParseM.ofExcept x) Q :=
  fun _ hreg => ⟨hreg, h⟩

/-- What an inquiry ensures, its run promises if its questions are answered as agreed. -/
theorem Inquiry.Ensures.promises {need : Object → ParseM Token} {p : Inquiry α}
    (hp : p.Ensures (.trusting P) Q)
    (hneed : ∀ o, Promises P (need o) fun token =>
      o.entryName? = some token.qualifiedName ∧ P token) :
    Promises P (p.run need) Q := by
  intro reg hreg
  have hkeep : ∀ o reg result reg', True → reg.All P → (need o).runOn reg = (result, reg') →
      reg'.All P ∧ (∀ token, result = .ok token →
        o.entryName? = some token.qualifiedName ∧ P token) ∧ ∀ e, result = .error e → True := by
    intro o reg result reg' _ hI h
    have hpromise := hneed o reg hI
    rw [h] at hpromise
    exact ⟨hpromise.1, hpromise.2, fun _ _ => trivial⟩
  have hrun := hp.run hkeep hreg rfl
  exact ⟨hrun.1, hrun.2.1⟩

theorem tracked_promises {name : String} {parse : ParseM Token}
    (h : Promises P parse fun token => token.qualifiedName = name ∧ P token) :
    Promises P (tracked name parse) fun token => token.qualifiedName = name ∧ P token := by
  intro reg hreg
  rw [runOn_tracked]
  split
  · exact ⟨hreg, fun _ h => nomatch h⟩
  · next token hdone =>
    refine ⟨hreg, fun t ht => ?_⟩
    obtain rfl := Except.ok.inj ht
    exact hreg name token hdone
  · have hparse := h (reg.insert name .inProgress) hreg.insert_inProgress
    split
    · next token reg' hrun =>
      rw [hrun] at hparse
      obtain ⟨hname, htoken⟩ := hparse.2 token rfl
      refine ⟨hparse.1.insert_done hname htoken, fun t ht => ?_⟩
      obtain rfl := Except.ok.inj ht
      exact ⟨hname, htoken⟩
    · next hrun =>
      rw [hrun] at hparse
      exact ⟨hparse.1.erase, fun _ h => nomatch h⟩

end Promises

/-! ## One object -/

section Objects

variable {s : Settings} {P : Token → Prop} (hP : PassedOn s P) {need : Object → ParseM Token}
  (hneed : ∀ o, Promises P (need o) fun token => o.entryName? = some token.qualifiedName ∧ P token)

include hP hneed

theorem inquire_promises {o : Object} {name : String} (hname : o.entryName? = some name)
    (methods : List String) :
    Promises P ((inquire s o methods).run need) fun token =>
      token.qualifiedName = name ∧ P token := by
  have hobject : (inquire s o methods).Ensures .any fun token => token.object = o :=
    inquire_ensures (fun _ _ => trivial) (fun _ _ => trivial) (.inr fun _ _ => trivial)
  have hboth := (hP.inquire o methods).and hobject fun _ _ _ => trivial
  refine (hboth.mono fun token ⟨htoken, ho⟩ => ⟨?_, htoken⟩).promises hneed
  have htokenName := token.entryName?_object
  rw [ho, hname] at htokenName
  exact (Option.some.inj htokenName).symm

theorem addMethods_promises {c : Class} {methods : List String} {token : Token}
    (hname : token.qualifiedName = c.fullName) (htoken : P token) :
    Promises P (addMethods s need c methods token) fun token =>
      token.qualifiedName = c.fullName ∧ P token := by
  have hsame : Promises P (pure token : ParseM Token) fun token =>
      token.qualifiedName = c.fullName ∧ P token := by
    refine fun reg hreg => ⟨hreg, fun t ht => ?_⟩
    obtain rfl := Except.ok.inj ht
    exact ⟨hname, htoken⟩
  cases token with
  | function doc => exact hsame
  | «class» doc =>
    rw [addMethods]
    split
    · exact hsame
    · refine ((hP.addMethods c _ htoken).promises hneed).bind fun docs hdocs reg hreg => ?_
      refine ⟨hreg.insert_done hname hdocs, fun t ht => ?_⟩
      obtain rfl := Except.ok.inj ht
      exact ⟨hname, hdocs⟩

theorem parseWith_promises (o : Object) (methods : List String) :
    Promises P (parseWith s need o methods) fun token =>
      o.entryName? = some token.qualifiedName ∧ P token := by
  have htracked : ∀ name, o.entryName? = some name →
      Promises P (tracked name ((inquire s o methods).run need)) fun token =>
        token.qualifiedName = name ∧ P token :=
    fun name hname => tracked_promises (inquire_promises hP hneed hname methods)
  cases o with
  | «class» c =>
    refine (htracked c.fullName rfl).bind fun token ⟨hname, htoken⟩ reg hreg => ?_
    obtain ⟨hreg', hok⟩ := addMethods_promises hP hneed hname htoken reg hreg
    exact ⟨hreg', fun t ht => ⟨congrArg some (hok t ht).1.symm, (hok t ht).2⟩⟩
  | function f =>
    intro reg hreg
    obtain ⟨hreg', hok⟩ := htracked f.fullName rfl reg hreg
    exact ⟨hreg', fun t ht => ⟨congrArg some (hok t ht).1.symm, (hok t ht).2⟩⟩
  | «module» path => exact fun reg hreg => ⟨hreg, fun _ h => nomatch h⟩
  | value v => exact fun reg hreg => ⟨hreg, fun _ h => nomatch h⟩

end Objects

section Levels

variable {s : Settings} {P : Token → Prop} (hP : PassedOn s P)

include hP

/-- **A nested parse keeps the promise**, however deep it gets. -/
theorem parseWithin_promises (levels : Nat) (o : Object) :
    Promises P (parseWithin s levels o []) fun token =>
      o.entryName? = some token.qualifiedName ∧ P token := by
  induction levels generalizing o with
  | zero => exact fun reg hreg => ⟨hreg, fun _ h => nomatch h⟩
  | succ levels ih => exact parseWith_promises hP ih o []

/-- Whatever is asked, the registry keeps the promise. -/
theorem run_all {α : Type} (p : Inquiry α) (levels : Nat) {reg : Registry} (hreg : reg.All P) :
    ((p.run fun o => parseWithin s levels o []).runOn reg).2.All P :=
  p.ensures_any.run_keeps (fun o reg _ hreg => (parseWithin_promises hP levels o reg hreg).1) hreg

/-- An inquiry at a given depth. -/
theorem run_needAt_promises {α : Type} {p : Inquiry α} {Q : α → Prop}
    (hp : p.Ensures (.trusting P) Q) (depth : Nat) : Promises P (p.run (needAt s depth)) Q :=
  hp.promises fun o => parseWithin_promises hP _ o

theorem parseObject_promises (depth : Nat) (o : Object) (methods : List String) :
    Promises P (parseObject s depth o methods) fun token =>
      o.entryName? = some token.qualifiedName ∧ P token := by
  have hdepth : Promises P (ParseM.ofExcept (checkDepth s depth)) fun _ => True :=
    promises_ofExcept fun _ _ => trivial
  exact hdepth.bind fun _ _ =>
    parseWith_promises hP (fun o => parseWithin_promises hP _ o) o methods

/-! ## After requests -/

omit hP in
/-- Above the limit nothing is read. -/
theorem runOn_checked {α : Type} (x : ParseM α) (depth : Nat) (reg : Registry) :
    (ParseM.ofExcept (checkDepth s depth) >>= fun _ => x).runOn reg =
      if s.recursionLimit < depth then
        (.error (.recursionLimit depth s.recursionLimit), reg)
      else x.runOn reg := by
  rw [ParseM.runOn_bind, ParseM.runOn_ofExcept, checkDepth]
  by_cases h : s.recursionLimit < depth
  · rw [if_pos h, if_pos h]
  · rw [if_neg h, if_neg h]

/-- Whatever is asked on the way, and whatever comes of it, the registry keeps the promise. -/
theorem checked_keeps {α : Type} (p : Inquiry α) (depth : Nat) {reg : Registry}
    (hreg : reg.All P) :
    ((ParseM.ofExcept (checkDepth s depth) >>= fun _ =>
      p.run (needAt s depth)).runOn reg).2.All P := by
  rw [runOn_checked]
  split
  · exact hreg
  · exact run_all hP p _ hreg

theorem serve_keeps (r : Request) {p : Parser} (hp : p.settings = s) (hreg : p.registry.All P) :
    (p.serve r).2.registry.All P := by
  subst hp
  cases r with
  | object c => exact (parseObject_promises hP c.depth c.object c.methods p.registry hreg).1
  | function f parent depth => exact checked_keeps hP (parseFunction p.settings f parent) depth hreg
  | «class» c methods depth => exact checked_keeps hP (parseClass p.settings c methods) depth hreg

/-- **The finished tokens after any requests satisfy `P`.** -/
theorem all_after_requests (requests : List Request) :
    ((Parser.new s).afterRequests requests).registry.All P := by
  suffices h : ∀ p : Parser, p.settings = s → p.registry.All P →
      (p.afterRequests requests).registry.All P from
    h (Parser.new s) rfl fun _ _ hget => nomatch hget
  induction requests with
  | nil => exact fun _ _ hreg => hreg
  | cons r requests ih =>
    intro p hp hreg
    exact ih (p.serve r).2 ((p.settings_serve r).trans hp) (serve_keeps hP r hp hreg)

end Levels

end DocTree
