import Mathlib.Logic.Relation
import DocTree.Proofs.Parse.Growth
import DocTree.Proofs.Parse.Needs

/-!
# Calls within calls

Which calls a call makes on the way, with the registries in which it makes them. They are read off
the run, question by question.

* `Inquiry.questions`, `questionsOf`: the questions that are put, for an inquiry and for an object;
* `Inquiry.run_congr`, `parseWith_congr`: **no other question counts**;
* `Makes`: one call makes another one, a level deeper;
* **`reaches_limit`**: the error of the limit tells of a call above the limit.
-/

namespace DocTree

open Registry Inquiry
open Relation (ReflTransGen)

/-! ## Questions -/

namespace Inquiry

variable {α : Type}

/-- The questions that a run puts, each with the registry that it finds. -/
def questions (need : Object → ParseM Token) : Inquiry α → Registry → List (Object × Registry)
  | done _, _ => []
  | fail _, _ => []
  | ask o next, reg =>
    (o, reg) ::
      match (need o).runOn reg with
      | (.ok token, reg) => questions need (next token) reg
      | (.error _, _) => []

variable {need need' : Object → ParseM Token}

/-- **No other question counts**: what answers these questions the same answers the inquiry the
same. -/
theorem run_congr {p : Inquiry α} {reg : Registry}
    (h : ∀ q ∈ p.questions need reg, (need q.1).runOn q.2 = (need' q.1).runOn q.2) :
    (p.run need).runOn reg = (p.run need').runOn reg := by
  induction p generalizing reg with
  | done a => rfl
  | fail e => rfl
  | ask o next ih =>
    rw [questions] at h
    rw [runOn_run_ask, runOn_run_ask, ← h (o, reg) List.mem_cons_self]
    rcases hrun : (need o).runOn reg with ⟨e | token, mid⟩
    · rfl
    · rw [hrun] at h
      exact ih token fun q hq => h q (List.mem_cons_of_mem _ hq)

/-- Each question is one that the inquiry may ask, of a registry that has grown. -/
theorem Ensures.of_mem_questions {asks : Object → Prop} {P : α → Prop} {p : Inquiry α}
    (hp : p.Ensures { Terms.any with asks := asks } P)
    (hneed : ∀ o reg, Grows reg ((need o).runOn reg).2) {reg : Registry} {q : Object × Registry}
    (hq : q ∈ p.questions need reg) : asks q.1 ∧ Grows reg q.2 := by
  induction hp generalizing reg with
  | done ha => cases hq
  | fail he => cases hq
  | @ask o next ho _ ih =>
    rw [Inquiry.questions] at hq
    rcases List.mem_cons.mp hq with rfl | hq
    · exact ⟨ho, .refl reg⟩
    · have hgrows := hneed o reg
      rcases hrun : (need o).runOn reg with ⟨e | token, mid⟩
      · rw [hrun] at hq
        cases hq
      · rw [hrun] at hq hgrows
        obtain ⟨hasks, hmid⟩ := ih token trivial hq
        exact ⟨hasks, hgrows.trans hmid⟩

/-- An error that is not the inquiry's own comes from one of its questions. -/
theorem Ensures.question_of_error {fails : Error → Prop} {P : α → Prop} {p : Inquiry α}
    (hp : p.Ensures { Terms.any with fails := fails } P) {reg : Registry} {e : Error}
    (he : ¬ fails e) (h : ((p.run need).runOn reg).1 = .error e) :
    ∃ q ∈ p.questions need reg, ((need q.1).runOn q.2).1 = .error e := by
  induction hp generalizing reg with
  | done ha => cases h
  | fail hfail =>
    cases h
    exact (he hfail).elim
  | @ask o next _ _ ih =>
    rw [runOn_run_ask] at h
    rw [Inquiry.questions]
    rcases hrun : (need o).runOn reg with ⟨e' | token, mid⟩
    · rw [hrun] at h
      refine ⟨(o, reg), List.mem_cons_self, ?_⟩
      rw [hrun]
      exact congrArg _ (Except.error.inj h)
    · rw [hrun] at h
      obtain ⟨q, hq, hqe⟩ := ih token trivial h
      exact ⟨q, List.mem_cons_of_mem _ hq, hqe⟩

end Inquiry

/-! ## Questions about an object -/

section Objects

variable (s : Settings) (need : Object → ParseM Token)

/-- The questions that are put while an object is tracked. An object with an entry asks for
nothing. -/
def trackedQuestions (name : String) (p : Inquiry Token) (reg : Registry) :
    List (Object × Registry) :=
  match reg.get? name with
  | none => p.questions need (reg.insert name .inProgress)
  | some _ => []

/-- The questions that are put while methods are added to a finished token. -/
def addedQuestions (c : Class) (methods : List String) (token : Token) (reg : Registry) :
    List (Object × Registry) :=
  match token with
  | .function _ => []
  | .class doc =>
    (parseMethods s c doc.attributes (doc.missingMethods methods)
      (doc.methods.getD .empty)).questions need reg

/-- **The questions that parsing an object puts**, in order. -/
def questionsOf (o : Object) (methods : List String) (reg : Registry) :
    List (Object × Registry) :=
  match o with
  | .class c =>
    trackedQuestions need c.fullName (inquire s o methods) reg ++
      match (tracked c.fullName ((inquire s o methods).run need)).runOn reg with
      | (.ok token, reg) => addedQuestions s need c methods token reg
      | (.error _, _) => []
  | .function f => trackedQuestions need f.fullName (inquire s o methods) reg
  | _ => []

variable {s need} {need' : Object → ParseM Token}

/-- A question is put while the object is tracked, or while methods are added to its class. -/
theorem question_cases {o : Object} {methods : List String} {reg : Registry}
    {q : Object × Registry} (hq : q ∈ questionsOf s need o methods reg) :
    (∃ name, o.entryName? = some name ∧ q ∈ trackedQuestions need name (inquire s o methods) reg) ∨
      ∃ c token mid, o = .class c ∧
        (tracked c.fullName ((inquire s o methods).run need)).runOn reg = (.ok token, mid) ∧
          q ∈ addedQuestions s need c methods token mid := by
  cases o with
  | «class» c =>
    rw [questionsOf] at hq
    rcases List.mem_append.mp hq with hq | hq
    · exact .inl ⟨c.fullName, rfl, hq⟩
    · split at hq
      · next hrun => exact .inr ⟨c, _, _, rfl, hrun, hq⟩
      · cases hq
  | function f => exact .inl ⟨f.fullName, rfl, hq⟩
  | «module» path => cases hq
  | value v => cases hq

theorem tracked_congr {name : String} {p : Inquiry Token} {reg : Registry}
    (h : ∀ q ∈ trackedQuestions need name p reg,
      (need q.1).runOn q.2 = (need' q.1).runOn q.2) :
    (tracked name (p.run need)).runOn reg = (tracked name (p.run need')).runOn reg := by
  rw [runOn_tracked, runOn_tracked]
  unfold trackedQuestions at h
  cases hget : reg.get? name with
  | some entry =>
    cases entry with
    | inProgress => rfl
    | done token => rfl
  | none =>
    rw [hget] at h
    simp only [run_congr h]

theorem addMethods_congr {c : Class} {methods : List String} {token : Token} {reg : Registry}
    (h : ∀ q ∈ addedQuestions s need c methods token reg,
      (need q.1).runOn q.2 = (need' q.1).runOn q.2) :
    (addMethods s need c methods token).runOn reg =
      (addMethods s need' c methods token).runOn reg := by
  cases token with
  | function doc => rfl
  | «class» doc =>
    rw [addMethods, addMethods]
    split
    · rfl
    · rw [ParseM.runOn_bind, ParseM.runOn_bind, run_congr h]

/-- **No other question counts** when an object is parsed. -/
theorem parseWith_congr {o : Object} {methods : List String} {reg : Registry}
    (h : ∀ q ∈ questionsOf s need o methods reg, (need q.1).runOn q.2 = (need' q.1).runOn q.2) :
    (parseWith s need o methods).runOn reg = (parseWith s need' o methods).runOn reg := by
  cases o with
  | «class» c =>
    have htracked := tracked_congr fun q hq => h q (List.mem_append_left _ hq)
    rw [parseWith, parseWith, ParseM.runOn_bind, ParseM.runOn_bind, ← htracked]
    rcases hrun : (tracked c.fullName ((inquire s (.class c) methods).run need)).runOn reg
      with ⟨e | token, mid⟩
    · rfl
    · refine addMethods_congr fun q hq => h q (List.mem_append_right _ ?_)
      rw [hrun]
      exact hq
  | function f => exact tracked_congr h
  | «module» path => rfl
  | value v => rfl

/-! ## The limit -/

theorem tracked_limit {o : Object} {name : String} {methods : List String} {reg : Registry}
    {depth limit : Nat}
    (h : ((tracked name ((inquire s o methods).run need)).runOn reg).1 =
      .error (.recursionLimit depth limit)) :
    ∃ q ∈ trackedQuestions need name (inquire s o methods) reg,
      ((need q.1).runOn q.2).1 = .error (.recursionLimit depth limit) := by
  have hasks : (inquire s o methods).Ensures
      { Terms.any with fails := fun e => e.isFromNeed = false } fun token => token.object = o :=
    inquire_ensures (fun _ he => he) (fun _ _ => trivial) (.inr fun _ _ => trivial)
  rw [runOn_tracked] at h
  rw [trackedQuestions]
  rcases hget : reg.get? name with _ | _ | token
  · rw [hget] at h
    refine hasks.question_of_error (by simp [Error.isFromNeed]) ?_
    rcases hrun : ((inquire s o methods).run need).runOn (reg.insert name .inProgress)
      with ⟨e | token, mid⟩
    · rw [hrun] at h
      exact h
    · rw [hrun] at h
      cases h
  · rw [hget] at h
    cases h
  · rw [hget] at h
    cases h

theorem addMethods_limit {c : Class} {methods : List String} {token : Token} {reg : Registry}
    {depth limit : Nat}
    (h : ((addMethods s need c methods token).runOn reg).1 =
      .error (.recursionLimit depth limit)) :
    ∃ q ∈ addedQuestions s need c methods token reg,
      ((need q.1).runOn q.2).1 = .error (.recursionLimit depth limit) := by
  cases token with
  | function doc => cases h
  | «class» doc =>
    have hasks : (parseMethods s c doc.attributes (doc.missingMethods methods)
        (doc.methods.getD .empty)).Ensures
          { Terms.any with fails := fun e => e.isFromNeed = false } fun _ => True :=
      parseMethods_asks (fun _ he => he) fun _ _ => trivial
    rw [addMethods] at h
    split at h
    · cases h
    · refine hasks.question_of_error (by simp [Error.isFromNeed]) ?_
      rw [ParseM.runOn_bind] at h
      rcases hrun : ((parseMethods s c doc.attributes (doc.missingMethods methods)
        (doc.methods.getD .empty)).run need).runOn reg with ⟨e | docs, mid⟩
      · rw [hrun] at h
        exact congrArg _ (Except.error.inj h)
      · rw [hrun] at h
        cases h

/-- Parsing an object does not exceed the limit by itself: one of its questions does. -/
theorem parseWith_limit {o : Object} {methods : List String} {reg : Registry} {depth limit : Nat}
    (h : ((parseWith s need o methods).runOn reg).1 = .error (.recursionLimit depth limit)) :
    ∃ q ∈ questionsOf s need o methods reg,
      ((need q.1).runOn q.2).1 = .error (.recursionLimit depth limit) := by
  cases o with
  | «class» c =>
    rw [parseWith, ParseM.runOn_bind] at h
    rw [questionsOf]
    rcases hrun : (tracked c.fullName ((inquire s (.class c) methods).run need)).runOn reg
      with ⟨e | token, mid⟩
    · rw [hrun] at h
      have hfailed : ((tracked c.fullName ((inquire s (.class c) methods).run need)).runOn reg).1 =
          .error (.recursionLimit depth limit) := by rw [hrun, Except.error.inj h]
      obtain ⟨q, hq, hqe⟩ := tracked_limit hfailed
      exact ⟨q, List.mem_append_left _ hq, hqe⟩
    · rw [hrun] at h
      obtain ⟨q, hq, hqe⟩ := addMethods_limit h
      exact ⟨q, List.mem_append_right _ hq, hqe⟩
  | function f => exact tracked_limit h
  | «module» path => cases h
  | value v => cases h

end Objects

/-! ## Calls -/

/-- A question that is put at a depth within the limit is a call at the next depth. -/
theorem runOn_needAt (s : Settings) {depth : Nat} (h : depth ≤ s.recursionLimit) (o : Object)
    (reg : Registry) :
    (needAt s depth o).runOn reg = (parseObject s (depth + 1) o []).runOn reg := by
  rw [runOn_parseObject, needAt]
  split
  · have hend : s.recursionLimit - depth = 0 := by omega
    have hlimit : depth = s.recursionLimit := by omega
    rw [hend, hlimit]
    rfl
  · have hlevels : s.recursionLimit - depth = s.recursionLimit - (depth + 1) + 1 := by omega
    rw [hlevels]
    rfl

/-- **The call `v` makes the call `w`**, each with the registry that it finds: one of the questions
that `v` puts is answered by `w`, at the next depth. A call above the limit makes none. -/
def Makes (s : Settings) (v w : Call × Registry) : Prop :=
  v.1.depth ≤ s.recursionLimit ∧
    ∃ q ∈ questionsOf s (needAt s v.1.depth) v.1.object v.1.methods v.2,
      w = (⟨q.1, [], v.1.depth + 1⟩, q.2)

/-- **The error of the limit tells of a call above the limit**, which the call makes, or is. -/
theorem reaches_limit (s : Settings) (c : Call) (reg : Registry) {depth limit : Nat}
    (h : ((parseObject s c.depth c.object c.methods).runOn reg).1 =
      .error (.recursionLimit depth limit)) :
    ∃ v, ReflTransGen (Makes s) (c, reg) v ∧ s.recursionLimit < v.1.depth := by
  obtain ⟨levels, hlevels⟩ : ∃ n, s.recursionLimit + 1 - c.depth = n := ⟨_, rfl⟩
  induction levels generalizing c reg with
  | zero => exact ⟨(c, reg), .refl, by change _ < c.depth; omega⟩
  | succ levels ih =>
    have hdepth : c.depth ≤ s.recursionLimit := by omega
    rw [runOn_parseObject, if_neg (Nat.not_lt.mpr hdepth)] at h
    obtain ⟨q, hq, hqe⟩ := parseWith_limit h
    rw [runOn_needAt s hdepth] at hqe
    obtain ⟨v, hv, hlimit⟩ := ih ⟨q.1, [], c.depth + 1⟩ q.2 hqe (by change _ - (_ + 1) = _; omega)
    exact ⟨v, .head ⟨hdepth, q, hq, rfl⟩ hv, hlimit⟩

end DocTree
