import DocTree.Proofs.Parse.Cycle
import DocTree.Proofs.Parse.Replay

/-!
# Methods at once or later

The methods of a class are parsed while the class is in progress if they are asked for at once, and
when it is finished if they are asked for later. So they may lead back to the class in the second
case only.

* `Registry.Ahead`, `Parallel`: two runs of which the second finds the class finished;
* `parseWithin_parallel`: **they come to the same unless the first comes back to the class**;
* `parseClass_eq`: the inquiry into a class asks for its methods last;
* **`methods_later`**: when the answers differ, and why.
-/

namespace DocTree

open Registry Inquiry
open Relation (ReflTransGen TransGen)

/-! ## A class in progress and the same class finished -/

/-- The two registries differ in one entry, which is in progress in the first and finished in the
second. -/
structure Registry.Ahead (name : String) (token : Token) (early late : Registry) : Prop where
  inProgress : early.get? name = some .inProgress
  done : late.get? name = some (.done token)
  rest : ∀ n, name ≠ n → early.get? n = late.get? n

/-- The first run comes back to the name, or both runs have the same result and their registries
differ as before. -/
def Parallel {α : Type} (name : String) (token : Token) (early late : Except Error α × Registry) :
    Prop :=
  early.1 = .error (.cycle name) ∨ early.1 = late.1 ∧ Ahead name token early.2 late.2

section Parallel

variable {α : Type} {name : String} {token : Token} {early late : Registry}

theorem Registry.Ahead.insert (h : Ahead name token early late) {n : String} (hn : name ≠ n)
    (entry : Progress) : Ahead name token (early.insert n entry) (late.insert n entry) where
  inProgress := by rw [NameMap.get?_insert, if_neg (Ne.symm hn), h.inProgress]
  done := by rw [NameMap.get?_insert, if_neg (Ne.symm hn), h.done]
  rest n' hn' := by rw [NameMap.get?_insert, NameMap.get?_insert, h.rest n' hn']

theorem Registry.Ahead.erase (h : Ahead name token early late) {n : String} (hn : name ≠ n) :
    Ahead name token (early.erase n) (late.erase n) where
  inProgress := by rw [NameMap.get?_erase, if_neg (Ne.symm hn), h.inProgress]
  done := by rw [NameMap.get?_erase, if_neg (Ne.symm hn), h.done]
  rest n' hn' := by rw [NameMap.get?_erase, NameMap.get?_erase, h.rest n' hn']

/-- An inquiry is parallel if its questions are. -/
theorem run_parallel {need : Object → ParseM Token}
    (hneed : ∀ o early late, Ahead name token early late →
      Parallel name token ((need o).runOn early) ((need o).runOn late))
    (p : Inquiry α) (h : Ahead name token early late) :
    Parallel name token ((p.run need).runOn early) ((p.run need).runOn late) := by
  induction p generalizing early late with
  | done a => exact .inr ⟨rfl, h⟩
  | fail e => exact .inr ⟨rfl, h⟩
  | ask o next ih =>
    have hask := hneed o early late h
    rw [runOn_run_ask, runOn_run_ask]
    rcases he : (need o).runOn early with ⟨e | t, early'⟩
    · rw [he] at hask
      rcases hask with hcycle | ⟨hsame, hahead⟩
      · exact .inl (congrArg _ (Except.error.inj hcycle))
      · rcases hl : (need o).runOn late with ⟨e' | t', late'⟩
        · rw [hl] at hsame hahead
          obtain rfl := Except.error.inj hsame
          exact .inr ⟨rfl, hahead⟩
        · rw [hl] at hsame
          cases hsame
    · rw [he] at hask
      rcases hask with hcycle | ⟨hsame, hahead⟩
      · cases hcycle
      · rcases hl : (need o).runOn late with ⟨e' | t', late'⟩
        · rw [hl] at hsame
          cases hsame
        · rw [hl] at hsame hahead
          obtain rfl := Except.ok.inj hsame
          exact ih t hahead

/-- An object of another name is started and ends in both runs. -/
theorem tracked_parallel {parse : ParseM Token}
    (hparse : ∀ early late, Ahead name token early late →
      Parallel name token (parse.runOn early) (parse.runOn late))
    (n : String) (h : Ahead name token early late) :
    Parallel name token ((tracked n parse).runOn early) ((tracked n parse).runOn late) := by
  rw [runOn_tracked, runOn_tracked]
  by_cases hn : name = n
  · subst hn
    rw [h.inProgress]
    exact .inl rfl
  · rw [← h.rest n hn]
    rcases early.get? n with _ | _ | t
    · have hrun := hparse _ _ (h.insert hn .inProgress)
      rcases he : parse.runOn (early.insert n .inProgress) with ⟨e | t, early'⟩
      · rw [he] at hrun
        rcases hrun with hcycle | ⟨hsame, hahead⟩
        · exact .inl (congrArg _ (Except.error.inj hcycle))
        · rcases hl : parse.runOn (late.insert n .inProgress) with ⟨e' | t', late'⟩
          · rw [hl] at hsame hahead
            exact .inr ⟨hsame, hahead.erase hn⟩
          · rw [hl] at hsame
            cases hsame
      · rw [he] at hrun
        rcases hrun with hcycle | ⟨hsame, hahead⟩
        · cases hcycle
        · rcases hl : parse.runOn (late.insert n .inProgress) with ⟨e' | t', late'⟩
          · rw [hl] at hsame
            cases hsame
          · rw [hl] at hsame hahead
            obtain rfl := Except.ok.inj hsame
            exact .inr ⟨rfl, hahead.insert hn _⟩
    · exact .inr ⟨rfl, h⟩
    · exact .inr ⟨rfl, h⟩

/-- **A nested parse comes to the same unless it comes back to the class in progress.** -/
theorem parseWithin_parallel (s : Settings) (levels : Nat) (o : Object)
    (h : Ahead name token early late) :
    Parallel name token ((parseWithin s levels o []).runOn early)
      ((parseWithin s levels o []).runOn late) := by
  refine parseWithin_induction s
    (P := fun _ run => ∀ {early late}, Ahead name token early late →
      Parallel name token (run early) (run late)) ?_ ?_ levels o h
  · exact fun _ _ _ _ _ h => .inr ⟨rfl, h⟩
  · exact fun _ _ n _ ih _ _ h =>
      tracked_parallel (fun _ _ h => run_parallel (fun o _ _ h => ih o h) _ h) n h

end Parallel

/-! ## Who is blamed for a cycle -/

section Blame

variable {s : Settings}

/-- Questions that do not blame `name` make an inquiry that does not. -/
theorem run_not_blames {α : Type} {need : Object → ParseM Token} {name : String} {token : Token}
    (hgrows : ∀ o reg, Grows reg ((need o).runOn reg).2)
    (hneed : ∀ o reg, reg.get? name = some (.done token) →
      ((need o).runOn reg).1 ≠ .error (.cycle name))
    {P : α → Prop} {p : Inquiry α}
    (hp : p.Ensures { Terms.any with fails := fun e => e ≠ .cycle name } P)
    {reg : Registry} (hdone : reg.get? name = some (.done token)) :
    ((p.run need).runOn reg).1 ≠ .error (.cycle name) := by
  have hkeep : ∀ o reg result reg', True → reg.get? name = some (.done token) →
      (need o).runOn reg = (result, reg') →
        reg'.get? name = some (.done token) ∧ (∀ t, result = .ok t → True) ∧
          ∀ e, result = .error e → e ≠ .cycle name := by
    intro o reg result reg' _ hdone hrun
    have h := hneed o reg hdone
    have hgrow := hgrows o reg
    rw [hrun] at h hgrow
    refine ⟨hgrow.get?_eq_some hdone, fun _ _ => trivial, ?_⟩
    rintro e rfl rfl
    exact h rfl
  exact fun herror => (hp.run hkeep hdone rfl).2.2 _ herror rfl

/-- A finished object is not blamed. -/
theorem parseWithin_not_blames (levels : Nat) (o : Object) {name : String} {token : Token}
    {reg : Registry} (hdone : reg.get? name = some (.done token)) :
    ((parseWithin s levels o []).runOn reg).1 ≠ .error (.cycle name) := by
  refine parseWithin_induction s
    (P := fun _ run => ∀ {reg}, reg.get? name = some (.done token) →
      (run reg).1 ≠ .error (.cycle name)) ?_ ?_ levels o hdone
  · exact fun _ e he _ _ h => he name (Except.error.inj h)
  · intro levels o n _ ih reg hdone
    rw [runOn_tracked]
    split
    · next hprogress =>
      rintro ⟨⟩
      rw [hdone] at hprogress
      cases hprogress
    · exact fun h => nomatch h
    · next hnone =>
      have hstart : (reg.insert n .inProgress).get? name = some (.done token) := by
        rw [NameMap.get?_insert, if_neg, hdone]
        rintro rfl
        rw [hdone] at hnone
        cases hnone
      have hasks : (inquire s o []).Ensures
          { Terms.any with fails := fun e => e ≠ .cycle name } fun t => t.object = o :=
        inquire_ensures (fun e he h => by rw [h] at he; cases he) (fun _ _ => trivial) (.inl rfl)
      have hrun := run_not_blames (parseWithin_grows s levels) (fun o _ h => ih o h) hasks hstart
      split
      · exact fun h => nomatch h
      · next heq =>
        rw [heq] at hrun
        rintro ⟨⟩
        exact hrun rfl

/-- An object that is blamed is one that needs lead to. -/
theorem parseWithin_blames (levels : Nat) {o : Object} {reg reg' : Registry} {name : String}
    (h : (parseWithin s levels o []).runOn reg = (.error (.cycle name), reg')) :
    ∃ o', ReflTransGen (Needs s) o o' ∧ o'.entryName? = some name := by
  refine parseWithin_induction s
    (P := fun o run => ∀ {reg reg'}, run reg = (.error (.cycle name), reg') →
      ∃ o', ReflTransGen (Needs s) o o' ∧ o'.entryName? = some name) ?_ ?_ levels o h
  · exact fun _ e he _ _ h => (he name (Except.error.inj (congrArg Prod.fst h))).elim
  · intro levels o n hname ih reg reg' h
    rw [runOn_tracked] at h
    split at h
    · cases h
      exact ⟨o, .refl, hname⟩
    · cases h
    · split at h
      · cases h
      · next hrun =>
        cases h
        have hasks : (inquire s o []).Ensures ⟨Needs s o, fun _ _ => True, fun e =>
            e = .cycle name → ∃ o', Needs s o o' ∧ ∃ o'', ReflTransGen (Needs s) o' o'' ∧
              o''.entryName? = some name⟩ fun t => t.object = o :=
          inquire_ensures (fun e he h => by rw [h] at he; cases he) (fun _ h => h) (.inl rfl)
        obtain ⟨o', hneeds, o'', hreach, hblamed⟩ := (hasks.run (I := fun _ => True)
          (fun o' _ result _ hneeds _ hrun' => ⟨trivial, fun _ _ => trivial, fun e he hcycle => by
            rw [he, hcycle] at hrun'
            exact ⟨o', hneeds, ih o' hrun'⟩⟩) trivial hrun).2.2 _ rfl rfl
        exact ⟨o'', ReflTransGen.head hneeds hreach, hblamed⟩

end Blame

/-! ## Methods last -/

section Methods

variable (s : Settings)

/-- The documentation of a class with that of further methods. -/
def withMethods (c : Class) (methods : List String) (doc : ClassDoc) : Inquiry ClassDoc :=
  if methods.isEmpty then return doc
  else do return { doc with methods := some (← parseMethods s c doc.attributes methods .empty) }

/-- **The inquiry into a class asks for its methods last.** -/
theorem parseClass_eq (c : Class) (methods : List String) :
    parseClass s c methods = parseClass s c [] >>= withMethods s c methods := by
  simp only [parseClass, bind_assoc, pure_bind, List.isEmpty_nil, if_true]
  refine bind_congr fun doc => bind_congr fun collected => bind_congr fun init => ?_
  unfold withMethods
  split
  · rfl
  · rw [map_eq_pure_bind, bind_assoc]
    exact bind_congr fun docs => pure_bind _ _

/-- A class has no methods before they are asked for. -/
theorem parseClass_no_methods (c : Class) :
    (parseClass s c []).Ensures .any fun doc => doc.methods = none := by
  refine (ensures_any _).bind fun doc _ => (ensures_any _).bind fun collected _ => ?_
  exact (ensures_any _).bind fun init _ => .done rfl

/-- All methods that are asked for are documented. -/
theorem parseMethods_contains (c : Class) (attributes : ArgMap) (methods : List String)
    (into : NameMap FunctionDoc) :
    (parseMethods s c attributes methods into).Ensures .any fun docs =>
      ∀ method ∈ methods, docs.contains method = true := by
  refine ensures_foldlM (I := fun seen docs => ∀ method ∈ seen, NameMap.contains docs method = true)
    (fun _ h => nomatch h) fun seen method docs _ hdocs => ?_
  refine (parseMethod s c attributes method).ensures_any.bind fun f _ => .done fun m hm => ?_
  unfold NameMap.contains
  rw [NameMap.get?_insert]
  split
  · rfl
  · next hne =>
    refine hdocs m ((List.mem_append.mp hm).resolve_right fun hlast => ?_)
    exact hne (List.mem_singleton.mp hlast).symm

theorem parseMethods_needs (c : Class) (attributes : ArgMap) (methods : List String)
    (into : NameMap FunctionDoc) {T : Terms}
    (hfails : ∀ e : Error, e.isFromNeed = false → T.fails e)
    (hasks : ∀ method ∈ methods, ∀ f, c.member? method = some (.function f) →
      ∀ o, Needs s (.function f) o → T.asks o) :
    (parseMethods s c attributes methods into).Ensures T fun _ => True := by
  refine ensures_foldlM (I := fun _ _ => True) trivial fun _ method docs hmethod _ => ?_
  have hone : (parseMethod s c attributes method).Ensures T fun _ => True := by
    unfold parseMethod
    split
    · next f hmember =>
      refine (parseFunction_ensures hfails fun d hd o ho => ?_).mono fun _ _ => trivial
      exact hasks method hmethod f hmember o ⟨d, hd, ho⟩
    · exact .fail (hfails _ rfl)
    · exact .fail (hfails _ rfl)
  exact hone.bind fun _ _ => .done trivial

end Methods

/-! ## The two calls -/

section Calls

variable {s : Settings} {c : Class} {methods : List String}

/-- How a class is parsed that has no entry yet. -/
theorem runOn_parseWith_class (need : Object → ParseM Token) {reg : Registry}
    (hnone : reg.get? c.fullName = none) :
    (parseWith s need (.class c) methods).runOn reg =
      match ((parseClass s c methods).run need).runOn (reg.insert c.fullName .inProgress) with
      | (.ok doc, reg) =>
        (.ok (.class doc), reg.insert c.fullName (.done (.class doc)))
      | (.error e, reg) => (.error e, reg.erase c.fullName) := by
  have hmissing : (parseClass s c methods).Ensures .any fun doc =>
      doc.missingMethods methods = [] := by
    rw [parseClass_eq]
    refine (parseClass_no_methods s c).bind fun doc _ => ?_
    unfold withMethods
    split
    · next hempty =>
      obtain rfl := List.isEmpty_iff.mp hempty
      exact .done rfl
    · refine (parseMethods_contains s c doc.attributes methods .empty).bind fun docs hdocs =>
        .done ?_
      simpa [ClassDoc.missingMethods] using hdocs
  rw [parseWith, ParseM.runOn_bind, runOn_tracked, hnone, inquire, map_eq_pure_bind,
    runOn_run_bind]
  rcases hrun : ((parseClass s c methods).run need).runOn (reg.insert c.fullName .inProgress)
    with ⟨e | doc, mid⟩
  · rfl
  · have hnothing := hmissing.of_run_ok hrun
    change (addMethods s need c methods (.class doc)).runOn _ = _
    rw [addMethods, hnothing]
    rfl

/-- To add methods to a class that has none is to parse it further. -/
theorem runOn_addMethods (need : Object → ParseM Token) {doc : ClassDoc} (hdoc : doc.methods = none)
    (reg : Registry) :
    ((addMethods s need c methods (.class doc)).runOn reg).1 =
      (((withMethods s c methods doc).run need).runOn reg).1.map .class := by
  have hmissing : doc.missingMethods methods = methods := by simp [ClassDoc.missingMethods, hdoc]
  rw [addMethods, withMethods, hmissing]
  split
  · rfl
  · rw [hdoc, Option.getD_none, ParseM.runOn_bind, runOn_run_bind]
    rcases ((parseMethods s c doc.attributes methods .empty).run need).runOn reg with
      ⟨e | docs, mid⟩
    · rfl
    · rfl

theorem withMethods_needs {doc : ClassDoc} {T : Terms}
    (hfails : ∀ e : Error, e.isFromNeed = false → T.fails e)
    (hasks : ∀ method ∈ methods, ∀ f, c.member? method = some (.function f) →
      ∀ o, Needs s (.function f) o → T.asks o) :
    (withMethods s c methods doc).Ensures T fun _ => True := by
  unfold withMethods
  split
  · exact .done trivial
  · exact (parseMethods_needs s c doc.attributes methods .empty hfails hasks).bind
      fun _ _ => .done trivial

/-- A method that is blamed for a cycle leads back to the class. -/
theorem exists_method_of_cycle {doc : ClassDoc} {levels : Nat} {reg : Registry} {name : String}
    (h : (((withMethods s c methods doc).run fun o => parseWithin s levels o []).runOn reg).1 =
      .error (.cycle name)) :
    ∃ method ∈ methods, ∃ f o, c.member? method = some (.function f) ∧
      TransGen (Needs s) (.function f) o ∧ o.entryName? = some name := by
  have hasks : (withMethods s c methods doc).Ensures ⟨fun o => ∃ method ∈ methods, ∃ f,
      c.member? method = some (.function f) ∧ Needs s (.function f) o, fun _ _ => True,
      fun e => e = .cycle name → ∃ method ∈ methods, ∃ f o, c.member? method = some (.function f) ∧
        TransGen (Needs s) (.function f) o ∧ o.entryName? = some name⟩ fun _ => True :=
    withMethods_needs (fun e he h => by rw [h] at he; cases he)
      fun method hmethod f hf o ho => ⟨method, hmethod, f, hf, ho⟩
  refine (hasks.run (I := fun _ => True) ?_ trivial rfl).2.2 _ h rfl
  rintro o reg result reg' ⟨method, hmethod, f, hf, hneeds⟩ _ hrun
  refine ⟨trivial, fun _ _ => trivial, ?_⟩
  rintro _ rfl rfl
  obtain ⟨o', hreach, hname⟩ := parseWithin_blames levels hrun
  exact ⟨method, hmethod, f, o', hf, TransGen.head' hneeds hreach, hname⟩

/-- A class in progress, and the registry in which it is finished. -/
theorem ahead_insert_done {reg mid : Registry} {name : String}
    (h : Grows (reg.insert name .inProgress) mid) (token : Token) :
    Ahead name token mid (mid.insert name (.done token)) where
  inProgress := h.get?_eq_some (by rw [NameMap.get?_insert, if_pos rfl])
  done := by rw [NameMap.get?_insert, if_pos rfl]
  rest n hn := by rw [NameMap.get?_insert, if_neg hn]

/-- A class that failed without methods fails in the same way with them, at once and later. -/
theorem parseWith_class_of_failed (methods : List String) {levels : Nat} {e : Error}
    {reg mid : Registry} (hnone : reg.get? c.fullName = none)
    (h : ((parseClass s c []).run fun o => parseWithin s levels o []).runOn
      (reg.insert c.fullName .inProgress) = (.error e, mid)) :
    ((parseWith s (fun o => parseWithin s levels o []) (.class c) methods).runOn reg).1 = .error e ∧
    ((parseWith s (fun o => parseWithin s levels o []) (.class c) methods).runOn
      (mid.erase c.fullName)).1 = .error e := by
  have hreplays := parseWithin_replays s levels
  have hgrows := run_grows hreplays.grows (parseClass s c []) (reg.insert c.fullName .inProgress)
  rw [h] at hgrows
  have hmid : mid.get? c.fullName = some .inProgress :=
    hgrows.get?_eq_some (by rw [NameMap.get?_insert, if_pos rfl])
  have hgone : (mid.erase c.fullName).get? c.fullName = none := by
    rw [NameMap.get?_erase, if_pos rfl]
  obtain ⟨after, hafter, -⟩ := hreplays.run_fails h (same_insert_erase hmid)
  constructor
  · rw [runOn_parseWith_class _ hnone, parseClass_eq, runOn_run_bind, h]
  · rw [runOn_parseWith_class _ hgone, parseClass_eq, runOn_run_bind, hafter]

/-- The methods of a class that was parsed without them, at once and later. -/
theorem parseWith_class_of_parsed (methods : List String) {levels : Nat} {doc : ClassDoc}
    {reg mid : Registry} (hnone : reg.get? c.fullName = none)
    (h : ((parseClass s c []).run fun o => parseWithin s levels o []).runOn
      (reg.insert c.fullName .inProgress) = (.ok doc, mid)) :
    ((parseWith s (fun o => parseWithin s levels o []) (.class c) methods).runOn reg).1 =
      (((withMethods s c methods doc).run fun o => parseWithin s levels o []).runOn mid).1.map
        .class ∧
    ((parseWith s (fun o => parseWithin s levels o []) (.class c) methods).runOn
      (mid.insert c.fullName (.done (.class doc)))).1 =
        (((withMethods s c methods doc).run fun o => parseWithin s levels o []).runOn
          (mid.insert c.fullName (.done (.class doc)))).1.map .class := by
  have hdoc : doc.methods = none := (parseClass_no_methods s c).of_run_ok h
  constructor
  · rw [runOn_parseWith_class _ hnone, parseClass_eq, runOn_run_bind, h]
    rcases hrun : ((withMethods s c methods doc).run fun o => parseWithin s levels o []).runOn mid
      with ⟨e | docs, after⟩
    · simp only [hrun, Except.map]
    · simp only [hrun, Except.map]
  · rw [← runOn_addMethods _ hdoc, parseWith, ParseM.runOn_bind, runOn_tracked,
      NameMap.get?_insert, if_pos rfl]

theorem parseWithMethods_eq (reg : Registry) :
    (⟨s, reg⟩ : Parser).parseWithMethods (.class c) methods =
      let after := (parseWith s (fun o => parseWithin s s.recursionLimit o []) (.class c)
        methods).runOn reg
      (after.1, ⟨s, after.2⟩) := by
  change (((parseObject s 0 (.class c) methods).runOn reg).1,
    (⟨s, ((parseObject s 0 (.class c) methods).runOn reg).2⟩ : Parser)) = _
  rw [runOn_parseObject, if_neg (Nat.not_lt_zero _)]
  rfl

/-- The class alone, parsed by a new parser. -/
abbrev runAlone (s : Settings) (c : Class) : Except Error ClassDoc × Registry :=
  ((parseClass s c []).run fun o => parseWithin s s.recursionLimit o []).runOn
    (NameMap.empty.insert c.fullName .inProgress)

/-- If the class alone fails, then all calls fail. -/
theorem answers_of_failed (methods : List String) {e : Error} {mid : Registry}
    (h : runAlone s c = (.error e, mid)) :
    ((Parser.new s).parse (.class c)).1 = .error e ∧
    ((Parser.new s).parseWithMethods (.class c) methods).1 = .error e ∧
    (((Parser.new s).parse (.class c)).2.parseWithMethods (.class c) methods).1 = .error e := by
  have hfirst : (Parser.new s).parse (.class c) = (.error e, ⟨s, mid.erase c.fullName⟩) := by
    rw [runAlone] at h
    refine (parseWithMethods_eq .empty).trans ?_
    rw [runOn_parseWith_class _ rfl, h]
  obtain ⟨hearly, hlate⟩ := parseWith_class_of_failed methods rfl h
  refine ⟨congrArg Prod.fst hfirst, ?_, ?_⟩
  · exact (congrArg Prod.fst (parseWithMethods_eq .empty)).trans hearly
  · rw [hfirst]
    exact (congrArg Prod.fst (parseWithMethods_eq _)).trans hlate

/-- If it has a token, then the other calls parse the methods further, from two registries. -/
theorem answers_of_parsed (methods : List String) {doc : ClassDoc} {mid : Registry}
    (h : runAlone s c = (.ok doc, mid)) :
    let further := (withMethods s c methods doc).run fun o => parseWithin s s.recursionLimit o []
    ((Parser.new s).parse (.class c)).1 = .ok (.class doc) ∧
    ((Parser.new s).parseWithMethods (.class c) methods).1 = (further.runOn mid).1.map .class ∧
    (((Parser.new s).parse (.class c)).2.parseWithMethods (.class c) methods).1 =
      (further.runOn (mid.insert c.fullName (.done (.class doc)))).1.map .class := by
  have hfirst : (Parser.new s).parse (.class c) =
      (.ok (.class doc), ⟨s, mid.insert c.fullName (.done (.class doc))⟩) := by
    rw [runAlone] at h
    refine (parseWithMethods_eq .empty).trans ?_
    rw [runOn_parseWith_class _ rfl, h]
  obtain ⟨hearly, hlate⟩ := parseWith_class_of_parsed methods rfl h
  refine ⟨congrArg Prod.fst hfirst, ?_, ?_⟩
  · exact (congrArg Prod.fst (parseWithMethods_eq .empty)).trans hearly
  · rw [hfirst]
    exact (congrArg Prod.fst (parseWithMethods_eq _)).trans hlate

/-- Parsing further never finds the class in progress where it is finished, and gives the same where
it is in progress, unless it is found there. -/
theorem withMethods_ahead (s : Settings) (methods : List String) (doc : ClassDoc) (levels : Nat)
    {token : Token} {reg reg' : Registry} (h : Ahead c.fullName token reg reg') :
    let further := (withMethods s c methods doc).run fun o => parseWithin s levels o []
    (further.runOn reg').1 ≠ .error (.cycle c.fullName) ∧
    ((further.runOn reg).1 = .error (.cycle c.fullName) ∨
      (further.runOn reg).1 = (further.runOn reg').1) := by
  have hasks : (withMethods s c methods doc).Ensures
      { Terms.any with fails := fun e => e ≠ .cycle c.fullName } fun _ => True :=
    withMethods_needs (fun e he h => by rw [h] at he; cases he) fun _ _ _ _ _ _ => trivial
  refine ⟨run_not_blames (parseWithin_grows s levels)
    (fun o _ h => parseWithin_not_blames _ o h) hasks h.done, ?_⟩
  exact (run_parallel (fun o _ _ h => parseWithin_parallel s levels o h)
    (withMethods s c methods doc) h).imp_right And.left

/-- **Asking for methods at once or later gives the same answer**, unless the class alone has a
token and one of the methods comes back to it. The class is in progress when its methods are parsed
at once, so the answer is a cycle then; it is not if the class is finished. -/
theorem methods_later (s : Settings) (c : Class) (methods : List String) :
    let atOnce := ((Parser.new s).parseWithMethods (.class c) methods).1
    let first := (Parser.new s).parse (.class c)
    let later := (first.2.parseWithMethods (.class c) methods).1
    (later = atOnce ↔
      ¬ (atOnce = .error (.cycle c.fullName) ∧ ∃ token, first.1 = .ok token)) ∧
    (atOnce = .error (.cycle c.fullName) → (∃ token, first.1 = .ok token) →
      ∃ method ∈ methods, ∃ f o, c.member? method = some (.function f) ∧
        TransGen (Needs s) (.function f) o ∧ o.entryName? = some c.fullName) := by
  intro atOnce first later
  rcases hbase : runAlone s c with ⟨e | doc, mid⟩
  · obtain ⟨hfirst, hearly, hlate⟩ := answers_of_failed methods hbase
    have hfailed : ¬ ∃ token, first.1 = .ok token := by
      rintro ⟨token, htoken⟩
      cases hfirst.symm.trans htoken
    refine ⟨⟨fun _ h => hfailed h.2, fun _ => ?_⟩, fun _ h => (hfailed h).elim⟩
    exact hlate.trans hearly.symm
  · obtain ⟨hfirst, hearly, hlate⟩ := answers_of_parsed methods hbase
    have hgrows := run_grows (parseWithin_grows s s.recursionLimit) (parseClass s c [])
      (NameMap.empty.insert c.fullName .inProgress)
    rw [runAlone] at hbase
    rw [hbase] at hgrows
    obtain ⟨hnever, hparallel⟩ := withMethods_ahead s methods doc s.recursionLimit
      (ahead_insert_done hgrows (.class doc))
    refine ⟨⟨fun hsame hcycle => ?_, fun h => ?_⟩, fun hcycle _ => ?_⟩
    · exact hnever (error_of_map (hlate.symm.trans (hsame.trans hcycle.1)))
    · rcases hparallel with hcycle | hsame
      · refine (h ⟨hearly.trans ?_, .class doc, hfirst⟩).elim
        rw [hcycle]
        rfl
      · exact hlate.trans ((congrArg _ hsame.symm).trans hearly.symm)
    · exact exists_method_of_cycle (error_of_map (hearly.symm.trans hcycle))

end Calls

/-! ## A method that comes back to its class -/

namespace Returning

def method : Function := ⟨"m", "C.run", some ":param see C:", some ["x"]⟩

def cls : Class :=
  ⟨"m", "C", some "C.\n\n.. attribute:: x\n    :type: int", none,
    NameMap.empty.insert "run" (.function method), [], none⟩

def settings : Settings :=
  ⟨⟨⟨NameMap.empty.insert "m" ⟨"m", none, NameMap.empty.insert "C" (.class cls)⟩⟩, .empty⟩, .rst,
    [], defaultRecursionLimit⟩

/-- **The two answers differ**: the method that links to its class is part of a cycle if it is asked
for at once, and has the attributes of the class if it is asked for later. -/
theorem later_differs :
    ((Parser.new settings).parseWithMethods (.class cls) ["run"]).1 = .error (.cycle "m.C") ∧
    ∃ token, (((Parser.new settings).parse (.class cls)).2.parseWithMethods
      (.class cls) ["run"]).1 = .ok token :=
  ⟨rfl, _, rfl⟩

end Returning

end DocTree
