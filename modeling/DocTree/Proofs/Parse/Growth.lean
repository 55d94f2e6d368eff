import DocTree.Proofs.Parse.Run

/-!
# How calls change the registry

* `Registry.Grows`: every entry is kept, and what is new is finished;
* `parseWithin_grows`: a nested parse makes the registry grow, **however deep it gets and wherever
  it fails**;
* `Token.Extends`: one class token has further methods and is the same otherwise;
* **`registry_after_call`**: each call leaves nothing in progress and replaces at most the token of
  its own class, by one with more methods.
-/

namespace DocTree

namespace Registry

/-- Every entry is kept, and the new ones are finished. -/
def Grows (reg reg' : Registry) : Prop :=
  ∀ name, reg'.get? name = reg.get? name ∨
    reg.get? name = none ∧ ∃ token, reg'.get? name = some (.done token)

/-- Nothing is in progress. -/
def Settled (reg : Registry) : Prop := ∀ name, reg.get? name ≠ some .inProgress

variable {reg mid reg' : Registry}

theorem Grows.refl (reg : Registry) : Grows reg reg := fun _ => .inl rfl

theorem Grows.trans (h : Grows reg mid) (h' : Grows mid reg') : Grows reg reg' := by
  intro name
  rcases h name with hsame | ⟨hnone, token, hdone⟩
  · rw [← hsame]
    exact h' name
  · rcases h' name with hsame | ⟨hnone', _⟩
    · exact .inr ⟨hnone, token, hsame.trans hdone⟩
    · rw [hdone] at hnone'
      cases hnone'

theorem Grows.get?_eq_some (h : Grows reg reg') {name : String} {entry : Progress}
    (hentry : reg.get? name = some entry) : reg'.get? name = some entry := by
  rcases h name with hsame | ⟨hnone, _⟩
  · rw [hsame, hentry]
  · rw [hnone] at hentry
    cases hentry

/-- What is in progress afterwards was so before. -/
theorem Grows.inProgress_iff (h : Grows reg reg') (name : String) :
    reg'.get? name = some .inProgress ↔ reg.get? name = some .inProgress := by
  rcases h name with hsame | ⟨hnone, token, hdone⟩
  · rw [hsame]
  · simp [hnone, hdone]

theorem Grows.settled (h : Grows reg reg') (hreg : reg.Settled) : reg'.Settled :=
  fun name hname => hreg name ((h.inProgress_iff name).mp hname)

/-- A name that was tracked and is finished. -/
theorem Grows.insert_done {name : String} (h : Grows (reg.insert name .inProgress) mid)
    (hnone : reg.get? name = none) (token : Token) :
    Grows reg (mid.insert name (.done token)) := by
  intro n
  rcases h n with hsame | ⟨hn, t, hdone⟩
  · by_cases heq : name = n
    · subst heq
      exact .inr ⟨hnone, token, by simp⟩
    · left
      simpa [heq] using hsame
  · have heq : name ≠ n := by
      rintro rfl
      simp at hn
    right
    exact ⟨by simpa [heq] using hn, t, by simpa [heq] using hdone⟩

/-- A name that was tracked and failed. -/
theorem Grows.erase {name : String} (h : Grows (reg.insert name .inProgress) mid)
    (hnone : reg.get? name = none) : Grows reg (mid.erase name) := by
  intro n
  by_cases heq : name = n
  · subst heq
    left
    simp [hnone]
  · rcases h n with hsame | ⟨hn, t, hdone⟩
    · left
      simpa [heq] using hsame
    · right
      exact ⟨by simpa [heq] using hn, t, by simpa [heq] using hdone⟩

end Registry

open Registry

/-! ## One object -/

theorem tracked_grows {name : String} {parse : ParseM Token}
    (hparse : ∀ reg, Grows reg (parse.runOn reg).2) (reg : Registry) :
    Grows reg ((tracked name parse).runOn reg).2 := by
  rw [runOn_tracked]
  split
  · exact .refl reg
  · exact .refl reg
  · next hnone =>
    have h := hparse (reg.insert name .inProgress)
    split
    · next hrun =>
      rw [hrun] at h
      exact h.insert_done hnone _
    · next hrun =>
      rw [hrun] at h
      exact h.erase hnone

/-- An inquiry makes the registry grow if each of its questions does. -/
theorem Inquiry.run_grows {α : Type} {need : Object → ParseM Token}
    (hneed : ∀ o reg, Grows reg ((need o).runOn reg).2) (p : Inquiry α) (reg : Registry) :
    Grows reg ((p.run need).runOn reg).2 := by
  refine p.ensures_any.run_keeps (I := fun reg' => Grows reg reg') (fun o mid _ hmid => ?_)
    (.refl reg)
  exact hmid.trans (hneed o mid)

section Levels

variable (s : Settings)

/-- **A nested parse makes the registry grow.** -/
theorem parseWithin_grows (levels : Nat) (o : Object) (reg : Registry) :
    Grows reg ((parseWithin s levels o []).runOn reg).2 := by
  refine parseWithin_induction s (P := fun _ run => ∀ reg, Grows reg (run reg).2) ?_ ?_ levels o reg
  · exact fun _ _ _ reg => .refl reg
  · exact fun _ o _ _ ih reg => tracked_grows (Inquiry.run_grows ih (inquire s o [])) reg

theorem run_needAt_grows {α : Type} (p : Inquiry α) (depth : Nat) (reg : Registry) :
    Grows reg ((p.run (needAt s depth)).runOn reg).2 :=
  Inquiry.run_grows (parseWithin_grows s _) p reg

end Levels

/-! ## Methods -/

/-- `token` is the class token `old` with further methods. -/
def Token.Extends (token old : Token) : Prop :=
  ∃ (doc : ClassDoc) (docs : NameMap FunctionDoc), old = .class doc ∧
    token = .class { doc with methods := some docs } ∧
      ∀ method f, doc.methods.bind (·.get? method) = some f → docs.get? method = some f

section Methods

variable (s : Settings)

/-- Apart from the given methods, both document the same. -/
def SameExcept (into : NameMap FunctionDoc) (methods : List String)
    (docs : NameMap FunctionDoc) : Prop :=
  ∀ method ∉ methods, docs.get? method = into.get? method

/-- Parsing methods changes nothing but these methods. -/
theorem parseMethods_ensures (c : Class) (attributes : ArgMap) (methods : List String)
    (into : NameMap FunctionDoc) :
    (parseMethods s c attributes methods into).Ensures .any (SameExcept into methods) := by
  refine Inquiry.ensures_foldlM (I := SameExcept into) (fun _ _ => rfl) ?_
  intro seen method docs _ hdocs
  refine (parseMethod s c attributes method).ensures_any.bind fun f _ => .done ?_
  intro m hm
  rw [List.mem_append, List.mem_singleton, not_or] at hm
  rw [NameMap.get?_insert, if_neg (Ne.symm hm.2), hdocs m hm.1]

/-- Methods that are missing are not there yet. -/
theorem ClassDoc.not_mem_missingMethods {doc : ClassDoc} {methods : List String} {method : String}
    {f : FunctionDoc} (h : doc.methods.bind (·.get? method) = some f) :
    method ∉ doc.missingMethods methods := by
  obtain ⟨docs, hdocs, hf⟩ := Option.bind_eq_some_iff.mp h
  simp [ClassDoc.missingMethods, hdocs, NameMap.contains, hf]

/-- The methods that a class lacks extend its token. -/
theorem extends_of_sameExcept {doc : ClassDoc} {methods : List String} {docs : NameMap FunctionDoc}
    (h : SameExcept (doc.methods.getD .empty) (doc.missingMethods methods) docs) :
    (Token.class { doc with methods := some docs }).Extends (.class doc) := by
  refine ⟨doc, docs, rfl, rfl, fun method f hf => ?_⟩
  rw [h method (ClassDoc.not_mem_missingMethods hf)]
  obtain ⟨old, hold, hget⟩ := Option.bind_eq_some_iff.mp hf
  rw [hold]
  exact hget

/-- Adding methods to a token makes the registry grow, and may then record the token with them. -/
theorem addMethods_cases {c : Class} {methods : List String} {token : Token} {depth : Nat}
    {reg reg' : Registry} {result : Except Error Token}
    (h : (addMethods s (needAt s depth) c methods token).runOn reg = (result, reg')) :
    Grows reg reg' ∨
      ∃ mid token', Grows reg mid ∧ token'.Extends token ∧
        result = .ok token' ∧ reg' = mid.insert c.fullName (.done token') := by
  cases token with
  | function doc =>
    cases h
    exact .inl (.refl reg)
  | «class» doc =>
    rw [addMethods] at h
    split at h
    · cases h
      exact .inl (.refl reg)
    · rw [ParseM.runOn_bind] at h
      have hgrow := run_needAt_grows s (parseMethods s c doc.attributes
        (doc.missingMethods methods) (doc.methods.getD .empty)) depth reg
      rcases hrun : ((parseMethods s c doc.attributes (doc.missingMethods methods)
        (doc.methods.getD .empty)).run (needAt s depth)).runOn reg with ⟨e | docs, mid⟩
      · rw [hrun] at h hgrow
        cases h
        exact .inl hgrow
      · have hext := extends_of_sameExcept ((parseMethods_ensures s c _ _ _).of_run_ok hrun)
        rw [hrun] at h hgrow
        cases h
        exact .inr ⟨mid, _, hgrow, hext, rfl, rfl⟩

/-- **What a call does to the registry.** -/
theorem parseObject_cases {o : Object} {methods : List String} {depth : Nat}
    {reg reg' : Registry} {result : Except Error Token}
    (h : (parseObject s depth o methods).runOn reg = (result, reg')) :
    Grows reg reg' ∨
      ∃ c mid old token, o = .class c ∧ Grows reg mid ∧
        mid.get? c.fullName = some (.done old) ∧ token.Extends old ∧
          result = .ok token ∧ reg' = mid.insert c.fullName (.done token) := by
  have hgrow : ∀ name, Grows reg
      ((tracked name ((inquire s o methods).run (needAt s depth))).runOn reg).2 := fun name =>
    tracked_grows (run_needAt_grows s (inquire s o methods) depth) reg
  rw [runOn_parseObject] at h
  split at h
  · cases h
    exact .inl (.refl reg)
  · cases o with
    | «class» c =>
      rw [parseWith, ParseM.runOn_bind] at h
      have hc := hgrow c.fullName
      rcases hrun : (tracked c.fullName ((inquire s (.class c) methods).run (needAt s depth))).runOn
        reg with ⟨e | token, mid⟩
      · rw [hrun] at h hc
        cases h
        exact .inl hc
      · rw [hrun] at h hc
        rcases addMethods_cases s h with hadd | ⟨mid', token', hadd, hext, rfl, rfl⟩
        · exact .inl (hc.trans hadd)
        · refine .inr ⟨c, mid', token, token', rfl, hc.trans hadd, ?_, hext, rfl, rfl⟩
          exact hadd.get?_eq_some (get?_of_tracked hrun)
    | function f =>
      have hf := hgrow f.fullName
      rw [parseWith] at h
      rw [h] at hf
      exact .inl hf
    | «module» path =>
      cases h
      exact .inl (.refl reg)
    | value v =>
      cases h
      exact .inl (.refl reg)

theorem parseObject_settled {reg reg' : Registry} {o : Object} {methods : List String}
    {depth : Nat} {result : Except Error Token} (hreg : reg.Settled)
    (h : (parseObject s depth o methods).runOn reg = (result, reg')) : reg'.Settled := by
  rcases parseObject_cases s h with hgrow | ⟨c, mid, old, token, -, hgrow, -, -, -, rfl⟩
  · exact hgrow.settled hreg
  · intro name hname
    rw [NameMap.get?_insert] at hname
    split at hname
    · cases hname
    · exact hgrow.settled hreg name hname

/-- A finished name keeps its token, or the call was for its class and gave it further methods. -/
theorem parseObject_done {reg reg' : Registry} {o : Object} {methods : List String} {depth : Nat}
    {result : Except Error Token}
    (h : (parseObject s depth o methods).runOn reg = (result, reg')) {name : String}
    {token : Token} (hdone : reg.get? name = some (.done token)) :
    reg'.get? name = some (.done token) ∨
      ∃ c token', o = .class c ∧ c.fullName = name ∧ result = .ok token' ∧
        token'.Extends token ∧ reg'.get? name = some (.done token') := by
  rcases parseObject_cases s h with hgrow | ⟨c, mid, old, token', ho, hgrow, hold, hext, hok, rfl⟩
  · exact .inl (hgrow.get?_eq_some hdone)
  · have hmid := hgrow.get?_eq_some hdone
    rw [NameMap.get?_insert]
    by_cases hname : c.fullName = name
    · subst hname
      obtain rfl : old = token := by
        rw [hold] at hmid
        cases hmid
        rfl
      exact .inr ⟨c, token', ho, rfl, hok, hext, if_pos rfl⟩
    · rw [if_neg hname]
      exact .inl hmid

/-- A call that fails only makes the registry grow. -/
theorem grows_of_parseObject_error {reg reg' : Registry} {o : Object} {methods : List String}
    {depth : Nat} {e : Error}
    (h : (parseObject s depth o methods).runOn reg = (.error e, reg')) : Grows reg reg' := by
  rcases parseObject_cases s h with hgrow | ⟨_, _, _, _, _, _, _, _, hok, _⟩
  · exact hgrow
  · cases hok

end Methods

/-- After any calls, nothing is in progress. -/
theorem settled_after (s : Settings) (calls : List Call) :
    Settled ((Parser.new s).after calls).registry :=
  Parser.after_induction (fun _ h => nomatch h) fun _ _ _ hreg => parseObject_settled s hreg rfl

/-- **Every call leaves the registry consistent**, whatever calls came before it: nothing is in
progress, and a finished name keeps its token, except that a class may have got further methods by
a successful call for it. -/
theorem registry_after_call (s : Settings) (calls : List Call) (c : Call) :
    let p := (Parser.new s).after calls
    let result := (p.call c).1
    let p' := (p.call c).2
    (∀ name, p'.registry.get? name ≠ some .inProgress) ∧
    (∀ name token, p.registry.get? name = some (.done token) →
      p'.registry.get? name = some (.done token) ∨
        ∃ d token', c.object = .class d ∧ d.fullName = name ∧ result = .ok token' ∧
          token'.Extends token ∧ p'.registry.get? name = some (.done token')) ∧
    ((∃ e, result = .error e) → ∀ name entry, p.registry.get? name = some entry →
      p'.registry.get? name = some entry) := by
  intro p result p'
  have hrun : (parseObject p.settings c.depth c.object c.methods).runOn p.registry =
    (result, p'.registry) := rfl
  refine ⟨parseObject_settled _ (settled_after s calls) hrun,
    fun name token hdone => parseObject_done _ hrun hdone, ?_⟩
  rintro ⟨e, he⟩ name entry hentry
  rw [he] at hrun
  exact (grows_of_parseObject_error _ hrun).get?_eq_some hentry

end DocTree
