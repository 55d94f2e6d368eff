import DocTree.Proofs.Parse.Later

/-!
# Repeating a call

A call that is made twice in a row gives the same result the second time. A token is found in the
registry then, with all methods that were asked for. A call that failed goes through the objects
that it had finished, and fails where it failed before.

* `Repeats`: a computation comes to the same on the registry that it left;
* `tracked_repeats`, `parseWith_repeats`: so does the parse of an object;
* `missingMethods_of_run`: **no method is missing once the missing ones are parsed**;
* **`call_again`**: repeating a call changes nothing.
-/

namespace DocTree

open Registry

/-- On the registry that it left, the computation has the same result again and leaves the same
entries. -/
def Repeats {α : Type} (x : ParseM α) : Prop :=
  ∀ reg again, Same again (x.runOn reg).2 →
    (x.runOn again).1 = (x.runOn reg).1 ∧ Same (x.runOn again).2 (x.runOn reg).2

section Objects

variable {s : Settings} {need : Object → ParseM Token} (hneed : Replays need)

include hneed

/-- What was finished is found, and what failed fails again. -/
theorem tracked_repeats (name : String) (p : Inquiry Token) :
    Repeats (tracked name (p.run need)) := by
  intro reg again hagain
  rcases hrun : (tracked name (p.run need)).runOn reg with ⟨e | token, mid⟩
  · rw [hrun] at hagain
    obtain ⟨after, hafter, hsame⟩ := tracked_fails_again hneed hrun hagain
    rw [hafter]
    exact ⟨rfl, hsame⟩
  · rw [hrun] at hagain
    have hdone : again.get? name = some (.done token) :=
      (hagain name).trans (get?_of_tracked hrun)
    rw [runOn_tracked, hdone]
    exact ⟨rfl, hagain⟩

omit hneed in
/-- **No method is missing once the missing ones are parsed.** -/
theorem missingMethods_of_run {c : Class} {doc : ClassDoc} {methods : List String}
    {reg reg' : Registry} {docs : NameMap FunctionDoc}
    (h : ((parseMethods s c doc.attributes (doc.missingMethods methods)
      (doc.methods.getD .empty)).run need).runOn reg = (.ok docs, reg')) :
    ({ doc with methods := some docs } : ClassDoc).missingMethods methods = [] := by
  have hnew := (parseMethods_contains s c doc.attributes (doc.missingMethods methods)
    (doc.methods.getD .empty)).of_run_ok h
  have hold := (parseMethods_ensures s c doc.attributes (doc.missingMethods methods)
    (doc.methods.getD .empty)).of_run_ok h
  have hcontains : ∀ method ∈ methods, docs.contains method = true := by
    intro method hmethod
    by_cases hmissing : method ∈ doc.missingMethods methods
    · exact hnew method hmissing
    · -- A method that is not missing is documented already, and stays so.
      have hhas : doc.methods.any (·.contains method) = true := by
        simpa [ClassDoc.missingMethods, hmethod] using hmissing
      obtain ⟨docs', hdocs, hmethod⟩ : ∃ docs', doc.methods = some docs' ∧
          docs'.contains method = true := by simpa [Option.any_eq_true] using hhas
      rw [NameMap.contains, hold method hmissing, hdocs]
      exact hmethod
  simpa [ClassDoc.missingMethods] using hcontains

/-- Adding methods to a finished class leaves a token to which adding them comes to the same. -/
theorem addMethods_again {c : Class} {methods : List String} {token : Token} {reg reg' : Registry}
    {result : Except Error Token} (hdone : reg.get? c.fullName = some (.done token))
    (h : (addMethods s need c methods token).runOn reg = (result, reg')) :
    ∃ token', reg'.get? c.fullName = some (.done token') ∧ ∀ again, Same again reg' →
      ((addMethods s need c methods token').runOn again).1 = result ∧
        Same ((addMethods s need c methods token').runOn again).2 reg' := by
  cases token with
  | function doc =>
    cases h
    exact ⟨_, hdone, fun again hagain => ⟨rfl, hagain⟩⟩
  | «class» doc =>
    by_cases hmissing : (doc.missingMethods methods).isEmpty = true
    · have hpure : addMethods s need c methods (.class doc) = pure (.class doc) := by
        rw [addMethods, if_pos hmissing]
      rw [hpure] at h
      cases h
      refine ⟨_, hdone, fun again hagain => ?_⟩
      rw [hpure]
      exact ⟨rfl, hagain⟩
    · have hgrows := Inquiry.run_grows hneed.grows (parseMethods s c doc.attributes
        (doc.missingMethods methods) (doc.methods.getD .empty)) reg
      rw [addMethods, if_neg hmissing, ParseM.runOn_bind] at h
      rcases hrun : ((parseMethods s c doc.attributes (doc.missingMethods methods)
        (doc.methods.getD .empty)).run need).runOn reg with ⟨e | docs, mid⟩
      · rw [hrun] at h hgrows
        cases h
        refine ⟨_, hgrows.get?_eq_some hdone, fun again hagain => ?_⟩
        obtain ⟨after, hafter, hsame⟩ := hneed.run_fails hrun hagain
        rw [addMethods, if_neg hmissing, ParseM.runOn_bind, hafter]
        exact ⟨rfl, hsame⟩
      · rw [hrun] at h
        cases h
        refine ⟨.class { doc with methods := some docs }, ?_, fun again hagain => ?_⟩
        · rw [NameMap.get?_insert, if_pos rfl]
        · have hpure : addMethods s need c methods (.class { doc with methods := some docs }) =
              pure (.class { doc with methods := some docs }) := by
            rw [addMethods, missingMethods_of_run hrun]
            rfl
          rw [hpure]
          exact ⟨rfl, hagain⟩

/-- **The parse of an object comes to the same again**, with the same methods. -/
theorem parseWith_repeats (o : Object) (methods : List String) :
    Repeats (parseWith s need o methods) := by
  cases o with
  | «class» c =>
    intro reg again hagain
    rw [parseWith, ParseM.runOn_bind] at hagain ⊢
    rw [ParseM.runOn_bind]
    rcases htracked : (tracked c.fullName ((inquire s (.class c) methods).run need)).runOn reg
      with ⟨e | token, mid⟩
    · rw [htracked] at hagain
      obtain ⟨after, hafter, hsame⟩ := tracked_fails_again hneed htracked hagain
      rw [hafter]
      exact ⟨rfl, hsame⟩
    · rw [htracked] at hagain
      obtain ⟨token', hdone, hadd⟩ := addMethods_again hneed (get?_of_tracked htracked) rfl
      rw [runOn_tracked, (hagain c.fullName).trans hdone]
      exact hadd again hagain
  | function f => exact tracked_repeats hneed f.fullName (inquire s (.function f) methods)
  | «module» path => exact fun _ _ hagain => ⟨rfl, hagain⟩
  | value v => exact fun _ _ hagain => ⟨rfl, hagain⟩

end Objects

/-! ## Calls -/

theorem parseObject_repeats (s : Settings) (depth : Nat) (o : Object) (methods : List String) :
    Repeats (parseObject s depth o methods) := by
  intro reg again hagain
  rw [runOn_parseObject] at hagain ⊢
  rw [runOn_parseObject]
  split
  · next hdeep =>
    rw [if_pos hdeep] at hagain
    exact ⟨rfl, hagain⟩
  · next hdeep =>
    rw [if_neg hdeep] at hagain
    exact parseWith_repeats (parseWithin_replays s _) o methods reg again hagain

/-- **Repeating a call changes nothing**, whatever the parser has been asked before: the second
time, the token or the error is the same, and every name has the entry that the first call left. -/
theorem call_again (p : Parser) (c : Call) :
    let first := p.call c
    let second := first.2.call c
    second.1 = first.1 ∧ ∀ name, second.2.registry.get? name = first.2.registry.get? name :=
  parseObject_repeats p.settings c.depth c.object c.methods p.registry _ (.refl _)

namespace Sample

/-- The second of two methods is missing, so that the call fails halfway, on a class that an earlier
call has finished. -/
example :
    let p := (Parser.new settings).after [⟨.class cls, [], 0⟩]
    let first := p.call ⟨.class cls, ["run", "walk"], 0⟩
    first.1 = .error (.missingMethod "m.C" "walk") ∧
      (first.2.call ⟨.class cls, ["run", "walk"], 0⟩).1 = .error (.missingMethod "m.C" "walk") :=
  ⟨rfl, rfl⟩

end Sample

end DocTree
