import DocTree.Proofs.Parse.Run

/-!
# The recursion limit

A recursion limit does nothing but cut a parse off: two parses with different limits go the same way
until one of them comes to its limit, and what happens there is the answer of the whole.

* `CutOff`: one computation is another one, cut off by a limit;
* `CutOff.bind`, `CutOff.run`, `CutOff.tracked`: the rules for sequencing, inquiries and objects;
* `parseWithin_cutOff`: a nested parse with fewer levels is one with more, cut off;
* **`parse_cutOff`**: a smaller limit gives the same answer or the error of the limit.
-/

namespace DocTree

/-- From every registry, `short` fails one level below `limit`, or goes as `long` does. -/
def CutOff {α : Type} (limit : Nat) (short long : ParseM α) : Prop :=
  ∀ reg, (short.runOn reg).1 = .error (.recursionLimit (limit + 1) limit) ∨
    short.runOn reg = long.runOn reg

namespace CutOff

variable {α β : Type} {limit : Nat}

theorem refl (x : ParseM α) : CutOff limit x x := fun _ => .inr rfl

theorem bind {x y : ParseM α} {f g : α → ParseM β} (hx : CutOff limit x y)
    (hf : ∀ a, CutOff limit (f a) (g a)) : CutOff limit (x >>= f) (y >>= g) := by
  intro reg
  rw [ParseM.runOn_bind, ParseM.runOn_bind]
  rcases hx reg with hlimit | hsame
  · left
    rcases hrun : x.runOn reg with ⟨e | a, mid⟩
    · rw [hrun] at hlimit
      exact congrArg Except.error (Except.error.inj hlimit)
    · rw [hrun] at hlimit
      cases hlimit
  · rw [hsame]
    rcases y.runOn reg with ⟨e | a, mid⟩
    · exact .inr rfl
    · exact hf a mid

/-- An inquiry is cut off where one of its questions is. -/
theorem run {need need' : Object → ParseM Token} (hneed : ∀ o, CutOff limit (need o) (need' o))
    (p : Inquiry α) : CutOff limit (p.run need) (p.run need') := by
  induction p with
  | done a => exact refl _
  | fail e => exact refl _
  | ask o next ih => exact (hneed o).bind ih

/-- An object whose parse is cut off leaves no entry, and the error goes on. -/
theorem tracked {short long : ParseM Token} (h : CutOff limit short long) (name : String) :
    CutOff limit (tracked name short) (tracked name long) := by
  intro reg
  rw [runOn_tracked, runOn_tracked]
  split
  · exact .inr rfl
  · exact .inr rfl
  · rcases h (reg.insert name .inProgress) with hlimit | hsame
    · left
      rcases hrun : short.runOn (reg.insert name .inProgress) with ⟨e | token, mid⟩
      · rw [hrun] at hlimit
        exact hlimit
      · rw [hrun] at hlimit
        cases hlimit
    · rw [hsame]
      exact .inr rfl

end CutOff

/-! ## Objects -/

section Objects

variable {limit : Nat} {need need' : Object → ParseM Token}
  (hneed : ∀ o, CutOff limit (need o) (need' o)) (s : Settings)

include hneed

theorem addMethods_cutOff (c : Class) (methods : List String) (token : Token) :
    CutOff limit (addMethods s need c methods token) (addMethods s need' c methods token) := by
  cases token with
  | function doc => exact .refl _
  | «class» doc =>
    rw [addMethods, addMethods]
    split
    · exact .refl _
    · exact (CutOff.run hneed _).bind fun docs => .refl _

theorem parseWith_cutOff (o : Object) (methods : List String) :
    CutOff limit (parseWith s need o methods) (parseWith s need' o methods) := by
  have hinquire := CutOff.run hneed (inquire s o methods)
  cases o with
  | «class» c => exact (hinquire.tracked c.fullName).bind (addMethods_cutOff hneed s c methods)
  | function f => exact hinquire.tracked f.fullName
  | «module» path => exact hinquire
  | value v => exact hinquire

end Objects

/-- **A nested parse with fewer levels is one with more levels, cut off.** The limit itself is read
where the levels end and nowhere else. -/
theorem parseWithin_cutOff (s : Settings) (limit limit' : Nat) {levels levels' : Nat}
    (h : levels ≤ levels') (o : Object) (methods : List String) :
    CutOff limit (parseWithin { s with recursionLimit := limit } levels o methods)
      (parseWithin { s with recursionLimit := limit' } levels' o methods) := by
  induction levels generalizing levels' o methods with
  | zero => exact fun reg => .inl rfl
  | succ levels ih =>
    obtain ⟨levels', rfl⟩ : ∃ n, levels' = n + 1 := ⟨levels' - 1, by omega⟩
    exact parseWith_cutOff (fun o => ih (Nat.le_of_succ_le_succ h) o []) s o methods

/-- **The recursion limit only cuts a parse off.** With a smaller limit, the answer of a new parser
is the same, or it is that the first depth above the limit was reached. -/
theorem parse_cutOff (s : Settings) (o : Object) (methods : List String) (limit limit' : Nat)
    (h : limit ≤ limit') :
    let answer := fun limit =>
      (((Parser.new s).withRecursionLimit limit).parseWithMethods o methods).1
    answer limit = answer limit' ∨ answer limit = .error (.recursionLimit (limit + 1) limit) := by
  intro answer
  have hanswer : ∀ limit, answer limit =
      ((parseWithin { s with recursionLimit := limit } (limit + 1) o methods).runOn .empty).1 :=
    fun limit => congrArg Prod.fst (runOn_parse { s with recursionLimit := limit } o methods _)
  have hcut := parseWithin_cutOff s limit limit' (Nat.succ_le_succ h) o methods .empty
  rw [hanswer, hanswer]
  rcases hcut with hlimit | hsame
  · exact .inr hlimit
  · exact .inl (congrArg Prod.fst hsame)

namespace Sample

/-- The function that links to another one needs one level: without it the limit is the answer, and
with it the answer is the same for all larger limits. -/
theorem parse_cutOff_of_link :
    let answer := fun limit =>
      (((Parser.new settings).withRecursionLimit limit).parseWithMethods (.function user) []).1
    answer 0 = .error (.recursionLimit 1 0) ∧ 1 ≤ 1000 ∧ (∃ token, answer 1 = .ok token) ∧
      answer 1 = answer 1000 := by
  intro answer
  have hok : ∃ token, answer 1 = .ok token := ⟨_, rfl⟩
  have h : (1 : Nat) ≤ 1000 := by decide
  refine ⟨rfl, h, hok, (parse_cutOff settings (.function user) [] 1 1000 h).resolve_right ?_⟩
  obtain ⟨token, hok⟩ := hok
  rintro hlimit
  cases hok.symm.trans hlimit

end Sample

end DocTree
