import DocTree.Proofs.Literal.Sound
import DocTree.Proofs.Parse.Cycle
import DocTree.Proofs.Parse.Law
import DocTree.Proofs.Token.Same

/-!
# The registry as a cache

A parser that has parsed other objects before skips whole parts of a parse, with their checks of
depth and of cycles. It comes to the same result as a new parser, unless the new one runs into the
recursion limit, or a value that differs from itself makes the members of a union look different.

* `numberLaw_holds`, `coherent_of_all`: where every value is the same as itself, tokens can be told
  apart by their names;
* `Yields`, `Agree`: what is said of a run on a cold registry, alone or next to one on a warm one;
* `run_of_finished`, `run_lockstep`: the two ways of going through an inquiry;
* `parseWithin_of_finished`: **what is finished in the warm registry is parsed to the same token
  from the cold one**;
* **`parse_after_calls`**: the registry is transparent. `parse_after_calls_differs` has it answer
  for another function of the same full name, and for a union with NaN in it.
-/

open scoped Function

namespace DocTree

open Registry
open Relation (ReflTransGen TransGen)

/-! ## Tokens without NaN -/

section Numbers

variable {s : Settings}
  (hvalues : ∀ v, s.resolver.Reaches (.value v) → v.same v = true)

include hvalues

/-- What a token of a host stands for is the same as itself. -/
theorem same_self_of_resolve {ctx : Context} {token : String} {e : Entity}
    (h : s.resolver.resolve ctx token = .ok e) : e.same e = true := by
  rcases Resolver.resolve_cases h with ⟨o, rfl, hreach⟩ | ⟨b, rfl⟩ | ⟨v, text, rfl, hread⟩
  · cases o with
    | «class» c => exact c.isSame_self
    | function f => exact f.isSame_self
    | «module» path => exact beq_self_eq_true path
    | value v => exact hvalues v hreach
  · exact beq_self_eq_true b
  · exact (Literal.isRead_of_read hread).same_self

/-- **No NaN comes into a token.** A literal is never NaN, and no value within reach is. -/
theorem numberLaw_holds : numberLaw.Holds s where
  resolved h _ _ := same_self_of_resolve hvalues h
  expanded _ h := nomatch h
  union _ _ _ h := nomatch h
  default h := same_self_of_resolve hvalues h

end Numbers

/-- **Without NaN, the finished tokens are told apart by their names.** -/
theorem coherent_of_all {reg : Registry} (h : reg.All (Token.Follows numberLaw)) :
    Coherent (Holds reg) := by
  intro o o' t t' ht ht'
  obtain ⟨hname, htoken⟩ := h.of_holds ht
  constructor
  · intro hsame
    rw [hname, (h.of_holds ht').1, Token.qualifiedName_of_same hsame]
  · intro heq
    have ht'' : Holds reg o t' := by
      obtain ⟨name, hname', hdone⟩ := ht'
      exact ⟨name, heq.trans hname', hdone⟩
    obtain rfl := ht.unique ht''
    exact Token.same_self htoken

/-! ## Two runs -/

/-- The result is that the recursion limit was exceeded. -/
def IsLimit {α : Type} (result : Except Error α) : Prop :=
  ∃ depth limit, result = .error (.recursionLimit depth limit)

theorem isLimit_error {α β : Type} {e : Error} (h : IsLimit (.error e : Except Error α)) :
    IsLimit (.error e : Except Error β) := by
  obtain ⟨depth, limit, he⟩ := h
  exact ⟨depth, limit, congrArg _ (Except.error.inj he)⟩

theorem not_isLimit_ok {α : Type} {a : α} : ¬ IsLimit (.ok a : Except Error α) := by
  rintro ⟨_, _, he⟩
  cases he

section Runs

variable {α γ : Type}

/-- Unless the run exceeds the recursion limit, it has a result that looks as given. -/
def Yields (v : α → γ) (look : γ) (I : Registry → Prop) (cold : Except Error α × Registry) :
    Prop :=
  IsLimit cold.1 ∨ (∃ a, cold.1 = .ok a ∧ v a = look) ∧ I cold.2

/-- Unless the cold run exceeds the recursion limit, both have the same error, or results that look
the same and registries that are related. -/
def Agree (v : α → γ) (R : Registry → Registry → Prop) (cold warm : Except Error α × Registry) :
    Prop :=
  IsLimit cold.1 ∨ cold.1.map v = warm.1.map v ∧ ∀ a, cold.1 = .ok a → R cold.2 warm.2

variable {v : α → γ} {need : Object → ParseM Token} (hneed : Faithful need)

include hneed

/-- An inquiry that has a result with given answers has one that looks the same in a run, if the run
answers its questions that way. Its own answers are in the registry at the end. -/
theorem run_of_finished {T : Inquiry.Terms} {P : α → Prop} {I : Registry → Prop}
    {answers : Object → Token → Prop} {final : Registry} {p q : Inquiry α} {b : α}
    (hq : q.Gives answers b) (hpq : p.Alike (Holds final) answers (Eq on v) q)
    (hp : p.Ensures T P) (hT : ∀ o token, T.answers o token)
    (hyields : ∀ o token cold, T.asks o → answers o token → I cold →
      Yields Token.withoutMethods token.withoutMethods I ((need o).runOn cold))
    {cold : Registry} (hI : I cold) (hfinal : Grows ((p.run need).runOn cold).2 final) :
    Yields v (v b) I ((p.run need).runOn cold) := by
  induction hq generalizing p cold with
  | done b =>
    cases hpq with
    | done h => exact .inr ⟨⟨_, rfl, h⟩, hI⟩
  | @ask o token next b ht _ ih =>
    cases hpq with
    | ask hnext' =>
      cases hp with
      | ask ho hnext =>
        have h := hyields o token cold ho ht hI
        rw [Inquiry.runOn_run_ask] at hfinal ⊢
        rcases hc : (need o).runOn cold with ⟨e | t, cold'⟩
        · rw [hc] at h
          rcases h with hlimit | ⟨⟨t, he, _⟩, _⟩
          · exact .inl (isLimit_error hlimit)
          · cases he
        · rw [hc] at h hfinal
          rcases h with hlimit | ⟨⟨t', he, hsame⟩, hI'⟩
          · exact (not_isLimit_ok hlimit).elim
          · obtain rfl := Except.ok.inj he
            have hheld : Holds final o t :=
              (hneed.holds hc).mono ((hneed.run_grows _ _).trans hfinal)
            exact ih (hnext' t token hheld ht hsame) (hnext t (hT o t)) hI' hfinal

/-- Two inquiries that are alike agree if the questions do. -/
theorem run_lockstep {T : Inquiry.Terms} {P : α → Prop} {R : Registry → Registry → Prop}
    {final final' : Registry} {p q : Inquiry α}
    (hpq : p.Alike (Holds final) (Holds final') (Eq on v) q) (hp : p.Ensures T P)
    (hT : ∀ o token, T.answers o token)
    (hagree : ∀ o cold warm, T.asks o → R cold warm →
      Agree Token.withoutMethods R ((need o).runOn cold) ((need o).runOn warm))
    {cold warm : Registry} (hR : R cold warm) (hfinal : Grows ((p.run need).runOn cold).2 final)
    (hfinal' : Grows ((q.run need).runOn warm).2 final') :
    Agree v R ((p.run need).runOn cold) ((q.run need).runOn warm) := by
  induction hpq generalizing cold warm with
  | done h => exact .inr ⟨congrArg Except.ok h, fun _ _ => hR⟩
  | fail e => exact .inr ⟨rfl, fun _ h => nomatch h⟩
  | @ask o next next' _ ih =>
    cases hp with
    | ask ho hnext =>
      have h := hagree o cold warm ho hR
      rw [Inquiry.runOn_run_ask] at hfinal hfinal' ⊢
      rw [Inquiry.runOn_run_ask]
      rcases hc : (need o).runOn cold with ⟨e | t, cold'⟩
      · rw [hc] at h
        rcases h with hlimit | ⟨hsame, -⟩
        · exact .inl (isLimit_error hlimit)
        · rcases hw : (need o).runOn warm with ⟨e' | u, warm'⟩
          · rw [hw] at hsame
            obtain rfl := Except.error.inj hsame
            exact .inr ⟨rfl, fun _ h => nomatch h⟩
          · rw [hw] at hsame
            cases hsame
      · rw [hc] at h hfinal
        rcases h with hlimit | ⟨hsame, hR'⟩
        · exact (not_isLimit_ok hlimit).elim
        · rcases hw : (need o).runOn warm with ⟨e' | u, warm'⟩
          · rw [hw] at hsame
            cases hsame
          · rw [hw] at hsame hR' hfinal'
            have hheld : Holds final o t :=
              (hneed.holds hc).mono ((hneed.run_grows _ _).trans hfinal)
            have hheld' : Holds final' o u :=
              (hneed.holds hw).mono ((hneed.run_grows _ _).trans hfinal')
            exact ih t u hheld hheld' (Except.ok.inj hsame) (hnext t (hT o t)) (hR' t rfl) hfinal
              hfinal'

end Runs

section Tracked

variable {name : String} {parse : ParseM Token} {cold warm : Registry}

/-- What a started object yields, it yields when it is finished. -/
theorem tracked_yields {t : Token} {I J : Registry → Prop} (hcold : cold.get? name = none)
    (h : Yields Token.withoutMethods t I (parse.runOn (cold.insert name .inProgress)))
    (hI : ∀ token reg, token.withoutMethods = t → I reg → J (reg.insert name (.done token))) :
    Yields Token.withoutMethods t J ((tracked name parse).runOn cold) := by
  rw [runOn_tracked, hcold]
  rcases hc : parse.runOn (cold.insert name .inProgress) with ⟨e | token, cold'⟩
  · rw [hc] at h
    rcases h with hlimit | ⟨⟨_, hok, _⟩, _⟩
    · exact .inl hlimit
    · cases hok
  · rw [hc] at h
    rcases h with hlimit | ⟨⟨token', hok, hsame⟩, hreg⟩
    · exact (not_isLimit_ok hlimit).elim
    · obtain rfl := Except.ok.inj hok
      exact .inr ⟨⟨token, rfl, hsame⟩, hI token cold' hsame hreg⟩

/-- Two objects that are started and then agree are finished together. -/
theorem tracked_agree {R Q : Registry → Registry → Prop} (hcold : cold.get? name = none)
    (hwarm : warm.get? name = none)
    (h : Agree Token.withoutMethods R (parse.runOn (cold.insert name .inProgress))
      (parse.runOn (warm.insert name .inProgress)))
    (hR : ∀ t u cold warm, t.withoutMethods = u.withoutMethods → R cold warm →
      Q (cold.insert name (.done t)) (warm.insert name (.done u))) :
    Agree Token.withoutMethods Q ((tracked name parse).runOn cold)
      ((tracked name parse).runOn warm) := by
  rw [runOn_tracked, runOn_tracked, hcold, hwarm]
  rcases hc : parse.runOn (cold.insert name .inProgress) with ⟨e | t, cold'⟩
  · rw [hc] at h
    rcases h with hlimit | ⟨hsame, -⟩
    · exact .inl hlimit
    · rcases hw : parse.runOn (warm.insert name .inProgress) with ⟨e' | u, warm'⟩
      · rw [hw] at hsame
        exact .inr ⟨hsame, fun _ h => nomatch h⟩
      · rw [hw] at hsame
        cases hsame
  · rw [hc] at h
    rcases h with hlimit | ⟨hsame, hrel⟩
    · exact (not_isLimit_ok hlimit).elim
    · rcases hw : parse.runOn (warm.insert name .inProgress) with ⟨e' | u, warm'⟩
      · rw [hw] at hsame
        cases hsame
      · rw [hw] at hsame hrel
        exact .inr ⟨hsame, fun _ _ => hR t u _ _ (Except.ok.inj hsame) (hrel t rfl)⟩

end Tracked

/-! ## What is finished already -/

section Levels

variable {s : Settings} {known : Object → Prop} (hun : Unambiguous known)
  (hknown : ∀ o, s.resolver.Reaches o → known o) (hL : numberLaw.Holds s)

/-- Nothing that the object leads to is in progress. -/
def Free (s : Settings) (reg : Registry) (o : Object) : Prop :=
  ∀ o' name, ReflTransGen (Needs s) o o' → o'.entryName? = some name →
    reg.get? name ≠ some .inProgress

theorem Free.of_grows {reg reg' : Registry} {o : Object} (h : Free s reg o)
    (hgrows : Grows reg reg') : Free s reg' o :=
  fun o' name hreach hname hprogress =>
    h o' name hreach hname ((hgrows.inProgress_iff name).mp hprogress)

include hun hknown

/-- A grounded object that is started is not among those that its needs lead to. -/
theorem Free.insert {reg : Registry} {o o' : Object} {name : String} (h : Free s reg o)
    (ho : known o) (hname : o.entryName? = some name) (hground : Grounded s o)
    (hneeds : Needs s o o') : Free s (reg.insert name .inProgress) o' := by
  intro y name' hreach hy hprogress
  have hway : TransGen (Needs s) o y := TransGen.head' hneeds hreach
  rw [NameMap.get?_insert] at hprogress
  split at hprogress
  · next heq =>
    subst heq
    obtain rfl := hun o y name ho (known_of_needs hknown hway) hname hy
    exact hground.not_cyclic hway
  · exact h y name' hway.to_reflTransGen hy hprogress

include hL

/-- **What is finished in a consistent registry is parsed to the same token from a part of it**,
within the recursion limit and if nothing on the way is in progress. -/
theorem parseWithin_of_finished {warm : Registry}
    (hwarm : Consistent s known (Token.Follows numberLaw) warm) (levels : Nat)
    {o : Object} (ho : known o) {name : String} {t : Token} (hname : o.entryName? = some name)
    (hview : view warm name = some t) {cold : Registry} (hwithin : Within cold warm)
    (hcold : cold.All (Token.Follows numberLaw)) (hfree : Free s cold o) :
    Yields Token.withoutMethods t (Within · warm) ((parseWithin s levels o []).runOn cold) := by
  induction levels generalizing o name t cold with
  | zero => exact .inl ⟨_, _, rfl⟩
  | succ levels ih =>
    rw [parseWithin_succ s levels hname]
    rcases hget : cold.get? name with _ | _ | token
    · have hsup := hwarm.supports hun ho hname hview
      obtain ⟨past, token', hpast, hwithin', hgives, rfl⟩ := hsup.gives
      have hyields : ∀ o' token reg, Needs s o o' → Holds past o' token →
          (Within reg warm ∧ reg.All (Token.Follows numberLaw) ∧
            ∀ o', Needs s o o' → Free s reg o') →
          Yields Token.withoutMethods token.withoutMethods
            (fun reg => Within reg warm ∧ reg.All (Token.Follows numberLaw) ∧
              ∀ o', Needs s o o' → Free s reg o')
            ((parseWithin s levels o' []).runOn reg) := by
        rintro o' token reg hneeds hheld ⟨hreg, hall, hregfree⟩
        obtain ⟨name', hname', hview'⟩ := hheld.answers.mono hwithin'
        have h := ih (hknown o' hneeds.reaches) hname' hview' hreg hall (hregfree o' hneeds)
        refine h.imp_right fun ⟨hok, hreg'⟩ => ⟨hok, hreg', ?_, fun o'' hneeds' => ?_⟩
        · exact (parseWithin_promises (passedOn_follows hL) levels o' reg hall).1
        · exact (hregfree o'' hneeds').of_grows (parseWithin_grows s levels o' reg)
      have hstart : Within (cold.insert name .inProgress) warm := by
        intro name' t' hview'
        rw [view_insert_inProgress hget] at hview'
        exact hwithin name' t' hview'
      have hcold' : All (Token.Follows numberLaw) (cold.insert name .inProgress) :=
        hcold.insert_inProgress
      have hfinal := run_all (passedOn_follows hL) (inquire s o []) levels hcold'
      have hrun := run_of_finished (parseWithin_faithful s levels) hgives
        (inquire_alike (coherent_of_all hfinal) (coherent_of_all hpast) s o) (inquire_asks s o)
        (fun _ _ => trivial) hyields ⟨hstart, hcold', fun o' hneeds =>
          hfree.insert hun hknown ho hname hsup.grounded hneeds⟩ (.refl _)
      refine tracked_yields hget hrun fun token reg hsame hreg name' t' hview' => ?_
      rw [view_insert_done] at hview'
      split at hview'
      · next heq =>
        rw [← heq, hview, ← hview', hsame]
      · exact hreg.1 name' t' hview'
    · exact (hfree o name .refl hname hget).elim
    · have htoken := hwithin name _ (view_of_get? hget)
      rw [hview] at htoken
      rw [runOn_tracked, hget]
      exact .inr ⟨⟨token, rfl, (Option.some.inj htoken).symm⟩, hwithin⟩

end Levels

/-! ## In lockstep -/

/-- What the cold registry holds, the warm one holds as well; the same is in progress. -/
structure Registry.Below (cold warm : Registry) : Prop where
  inProgress_iff (name : String) :
    cold.get? name = some .inProgress ↔ warm.get? name = some .inProgress
  within : Within cold warm

namespace Registry

variable {cold warm cold' warm' : Registry} {name : String}

theorem Below.insert_inProgress (h : Below cold warm) (hcold : cold.get? name = none)
    (hwarm : warm.get? name = none) :
    Below (cold.insert name .inProgress) (warm.insert name .inProgress) where
  inProgress_iff name' := by
    rw [NameMap.get?_insert, NameMap.get?_insert]
    split
    · exact Iff.rfl
    · exact h.inProgress_iff name'
  within := by
    intro name' t hview
    rw [view_insert_inProgress hcold] at hview
    rw [view_insert_inProgress hwarm]
    exact h.within name' t hview

theorem Below.insert_done (h : Below cold warm) {token token' : Token}
    (hsame : token.withoutMethods = token'.withoutMethods) :
    Below (cold.insert name (.done token)) (warm.insert name (.done token')) where
  inProgress_iff name' := by
    rw [NameMap.get?_insert, NameMap.get?_insert]
    split
    · exact ⟨fun h => (nomatch h), fun h => (nomatch h)⟩
    · exact h.inProgress_iff name'
  within := by
    intro name' t hview
    rw [view_insert_done] at hview ⊢
    split
    · next heq =>
      rw [if_pos heq] at hview
      rw [← hsame]
      exact hview
    · next heq =>
      rw [if_neg heq] at hview
      exact h.within name' t hview

/-- A name that is not finished in the warm registry has the same entry in both. -/
theorem Below.get?_of_unfinished (h : Below cold warm) (hview : view warm name = none) :
    cold.get? name = none ∧ warm.get? name = none ∨
      cold.get? name = some .inProgress ∧ warm.get? name = some .inProgress := by
  have hcold : ∀ token, cold.get? name ≠ some (.done token) := by
    intro token hdone
    rw [h.within name _ (view_of_get? hdone)] at hview
    cases hview
  have hiff := h.inProgress_iff name
  rcases hw : warm.get? name with _ | _ | token
  · rcases hc : cold.get? name with _ | _ | token
    · exact .inl ⟨rfl, rfl⟩
    · rw [hc, hw] at hiff
      cases hiff.mp rfl
    · exact (hcold token hc).elim
  · exact .inr ⟨hiff.mpr hw, rfl⟩
  · rw [view_of_get? hw] at hview
    cases hview

/-- The warm registry may be left as it is. -/
theorem Below.of_grows (h : Below cold warm) (hgrows : Grows cold cold')
    (hwithin : Within cold' warm) : Below cold' warm where
  inProgress_iff name := (hgrows.inProgress_iff name).trans (h.inProgress_iff name)
  within := hwithin

end Registry

/-- A cold registry next to a warm one, which is consistent, and neither with NaN in it. -/
structure Registry.Beside (s : Settings) (known : Object → Prop) (cold warm : Registry) :
    Prop where
  below : Below cold warm
  cold : cold.All (Token.Follows numberLaw)
  warm : Consistent s known (Token.Follows numberLaw) warm

section Levels

variable {s : Settings} {known : Object → Prop} (hun : Unambiguous known)
  (hknown : ∀ o, s.resolver.Reaches o → known o) (hL : numberLaw.Holds s)

include hun hknown hL

/-- Where the warm parse has the token at once, the cold one finds it on its own. -/
theorem parseWithin_agree_of_finished (levels : Nat) {o : Object} (ho : known o) {name : String}
    {t : Token} (hname : o.entryName? = some name) {cold warm : Registry}
    (hview : view warm name = some t) (h : Beside s known cold warm) :
    Agree Token.withoutMethods (Beside s known) ((parseWithin s (levels + 1) o []).runOn cold)
      ((parseWithin s (levels + 1) o []).runOn warm) := by
  obtain ⟨cached, hcached, rfl⟩ := get?_of_view hview
  have hrunwarm : (parseWithin s (levels + 1) o []).runOn warm = (.ok cached, warm) := by
    rw [parseWithin_succ s levels hname, runOn_tracked, hcached]
  have hfree : Free s cold o := by
    intro o' name' hreach hname' hprogress
    obtain ⟨-, _, _, hname'', hview'⟩ := h.warm.of_reach hun hknown ho hname hview hreach
    rw [hname', Option.some.injEq] at hname''
    subst hname''
    rw [view, (h.below.inProgress_iff name').mp hprogress] at hview'
    cases hview'
  have hgrows := parseWithin_grows s (levels + 1) o cold
  have hcold := (parseWithin_promises (passedOn_follows hL) (levels + 1) o cold h.cold).1
  rw [hrunwarm]
  rcases parseWithin_of_finished hun hknown hL h.warm (levels + 1) ho hname hview h.below.within
    h.cold hfree with hlimit | ⟨⟨token, hok, hsame⟩, hwithin⟩
  · exact .inl hlimit
  · refine .inr ⟨?_, fun _ _ => ⟨h.below.of_grows hgrows hwithin, hcold, h.warm⟩⟩
    rw [hok]
    exact congrArg Except.ok hsame

/-- **A nested parse comes to the same on a cold and on a warm registry.** -/
theorem parseWithin_lockstep (levels : Nat) {o : Object} (ho : known o) {cold warm : Registry}
    (h : Beside s known cold warm) :
    Agree Token.withoutMethods (Beside s known)
      ((parseWithin s levels o []).runOn cold) ((parseWithin s levels o []).runOn warm) := by
  induction levels generalizing o cold warm with
  | zero => exact .inl ⟨_, _, rfl⟩
  | succ levels ih =>
    cases hname : o.entryName? with
    | none =>
      obtain ⟨_, _, hrun⟩ := runOn_parseWithin_of_none s levels hname
      rw [hrun, hrun]
      exact .inr ⟨rfl, fun _ h => nomatch h⟩
    | some name =>
      cases hview : view warm name with
      | some t => exact parseWithin_agree_of_finished hun hknown hL levels ho hname hview h
      | none =>
        rcases h.below.get?_of_unfinished hview with ⟨hcold, hnone⟩ | ⟨hcold, hprogress⟩
        · have hstart : Beside s known (cold.insert name .inProgress)
              (warm.insert name .inProgress) :=
            ⟨h.below.insert_inProgress hcold hnone, h.cold.insert_inProgress,
              h.warm.congr (view_insert_inProgress hnone) h.warm.all.insert_inProgress⟩
          have hfinal := run_all (passedOn_follows hL) (inquire s o []) levels hstart.cold
          have hfinal' := run_all (passedOn_follows hL) (inquire s o []) levels hstart.warm.all
          have hrun := run_lockstep (parseWithin_faithful s levels)
            (inquire_alike (coherent_of_all hfinal) (coherent_of_all hfinal') s o)
            (inquire_asks s o) (fun _ _ => trivial)
            (fun o' cold warm hneeds h => ih (hknown o' hneeds.reaches) h) hstart (.refl _)
            (.refl _)
          have hagree := tracked_agree (Q := Below) hcold hnone hrun
            fun t u cold warm hsame h => h.below.insert_done hsame
          -- What else is true of the registries is known of the parse as a whole.
          have hcold' := (parseWithin_promises (passedOn_follows hL) (levels + 1) o cold h.cold).1
          have hwarm' := parseWithin_keeps
            (consistent_keeps hun (passedOn_follows hL) hknown) hknown (levels + 1) ho h.warm
          rw [parseWithin_succ s levels hname] at hcold' hwarm' ⊢
          exact hagree.imp_right fun h => ⟨h.1, fun token hok => ⟨h.2 token hok, hcold', hwarm'⟩⟩
        · rw [parseWithin_succ s levels hname, runOn_tracked, runOn_tracked, hcold, hprogress]
          exact .inr ⟨rfl, fun _ h => nomatch h⟩

end Levels

/-! ## Calls -/

/-- **The registry is transparent.** If no two known classes or functions share a full name, and
every value within reach is the same as itself, a parser that has been used comes to the same result
as a new one, up to methods, unless the new one exceeds the recursion limit. -/
theorem parse_after_calls (s : Settings) (calls : List Call) (o : Object)
    (hun : Unambiguous (s.resolver.Knows (o :: calls.map Call.object)))
    (hvalues : ∀ v, s.resolver.Reaches (.value v) → v.same v = true)
    (hlimit : ∀ depth limit,
      ((Parser.new s).parse o).1 ≠ .error (.recursionLimit depth limit)) :
    (((Parser.new s).after calls).parse o).1.map Token.withoutMethods =
      ((Parser.new s).parse o).1.map Token.withoutMethods := by
  have ho : s.resolver.Knows (o :: calls.map Call.object) o := .inr List.mem_cons_self
  have hL : numberLaw.Holds s := numberLaw_holds hvalues
  have hbelow : Below .empty ((Parser.new s).after calls).registry :=
    ⟨fun name => ⟨fun h => (nomatch h), fun h => (settled_after s calls name h).elim⟩,
      fun _ _ h => nomatch h⟩
  have hwarm : Consistent s (s.resolver.Knows (o :: calls.map Call.object))
      (Token.Follows numberLaw) ((Parser.new s).after calls).registry :=
    consistent_after (passedOn_follows hL) calls hun fun c hc => .tail _ (List.mem_map_of_mem hc)
  have hagree := parseWithin_lockstep hun (fun _ => .inl) hL (s.recursionLimit + 1) ho
    ⟨hbelow, (fun _ _ h => nomatch h), hwarm⟩
  rw [← runOn_parse, ← runOn_parse] at hagree
  rcases hagree with ⟨depth, limit, he⟩ | ⟨hsame, -⟩
  · exact (hlimit depth limit he).elim
  · change ((parseObject ((Parser.new s).after calls).settings 0 o []).runOn _).1.map _ = _
    rw [Parser.settings_after]
    exact hsame.symm

namespace Sample

/-- The class has been parsed with its method, after a call that failed. -/
theorem parse_after_calls_of_methods :
    let calls : List Call := [⟨.function f, [], 0⟩, ⟨.class cls, ["run"], 0⟩]
    ((Parser.new settings).after calls).isParsed "m.C" = true ∧
    (((Parser.new settings).after calls).parse (.class cls)).1.map Token.withoutMethods =
      ((Parser.new settings).parse (.class cls)).1.map Token.withoutMethods := by
  have hok : ∃ token, ((Parser.new settings).parse (.class cls)).1 = .ok token := ⟨_, rfl⟩
  obtain ⟨token, hok⟩ := hok
  refine ⟨rfl, parse_after_calls settings _ _ (unambiguous (by simp [objects])) ?_ ?_⟩
  · intro v hv
    rcases mem_objects_of_reaches hv with hmem | ⟨path, hpath⟩
    · simp [objects] at hmem
    · cases hpath
  · intro depth limit h
    rw [hok] at h
    cases h

end Sample

/-! ## What the conditions rule out -/

/-- Two results that are looked at in the same way. -/
theorem exists_looks {α : Type} {x y : Except Error Token} {f : Token → α} {a b : α}
    (hx : x.toOption.map f = some a) (hy : y.toOption.map f = some b) :
    ∃ t t', x = .ok t ∧ y = .ok t' ∧ f t = a ∧ f t' = b := by
  obtain ⟨t, ht, ha⟩ := ok_of_toOption_map hx
  obtain ⟨t', ht', hb⟩ := ok_of_toOption_map hy
  exact ⟨t, t', ht, ht', ha, hb⟩

namespace NotANumber

/-- A method with NaN as a default. -/
def method : Function := ⟨"m", "A.run", some ":param x: X.\n:type x: float = X", some ["x"]⟩

def cls : Class :=
  ⟨"m", "A", some "A.", none, NameMap.empty.insert "run" (.function method), [], none⟩

/-- A function with a union that has the class as a member twice. -/
def function : Function := ⟨"m", "f", some ":param p: P.\n:type p: A | A", some ["p"]⟩

def host : Host :=
  ⟨NameMap.empty.insert "m" ⟨"m", none, NameMap.ofList [("A", .class cls),
    ("X", .value (.float (0.0 / 0.0))), ("f", .function function)]⟩⟩

def settings : Settings := ⟨⟨host, .empty⟩, .rst, ["m.A"], defaultRecursionLimit⟩

def objects : List Object :=
  [.class cls, .value (.float (0.0 / 0.0)), .function function, .function method]

theorem unambiguous_host : Unambiguous (Resolver.Reaches ⟨host, .empty⟩) := by
  have hroots : ∀ o ∈ settings.resolver.roots, o ∈ objects := by
    change ∀ o ∈ [.class cls, .value (.float (0.0 / 0.0)), .function function], o ∈ objects
    simp [objects]
  have hparts : ∀ o ∈ objects.flatMap Object.parts, o ∈ objects := by
    change ∀ o ∈ [.function method], o ∈ objects
    simp [objects]
  have hun : Unambiguous (settings.resolver.Knows []) :=
    Resolver.unambiguous_of_nodup hroots hparts (fun _ h => nomatch h) (by decide)
  exact hun.mono fun _ => .inl

end NotANumber

/-- **A used parser may come to something else** although no two objects of the host share a name:
the namespace has another function of the name, which was parsed before, or the class twice in the
union was parsed with a method that has NaN as a default. -/
theorem parse_after_calls_differs :
    (Unambiguous (Resolver.Reaches ⟨Foreign.host, .empty⟩) ∧
      ∃ t t', ((Parser.new Foreign.settings).parse (.function Foreign.linkOwn)).1 = .ok t ∧
        (((Parser.new Foreign.settings).after [⟨.function Foreign.linkOther, [], 0⟩]).parse
          (.function Foreign.linkOwn)).1 = .ok t' ∧
        (t.withoutMethods.argsFor .function).names = [] ∧
        (t'.withoutMethods.argsFor .function).names = ["y"]) ∧
    Unambiguous (Resolver.Reaches ⟨NotANumber.host, .empty⟩) ∧
      ∃ t t',
        ((Parser.new NotANumber.settings).parse (.function NotANumber.function)).1 = .ok t ∧
        (((Parser.new NotANumber.settings).after [⟨.class NotANumber.cls, ["run"], 0⟩]).parse
          (.function NotANumber.function)).1 = .ok t' ∧
        (t.withoutMethods.argsFor .function).toList.map (·.type.display) = ["m.A"] ∧
        (t'.withoutMethods.argsFor .function).toList.map (·.type.display) = ["m.A | m.A"] := by
  refine ⟨⟨Foreign.unambiguous_host, ?_⟩, NotANumber.unambiguous_host, ?_⟩
  · refine exists_looks (f := fun t => (t.withoutMethods.argsFor .function).names) ?_ ?_
    · decide +kernel
    · decide +kernel
  · let types (t : Token) := (t.withoutMethods.argsFor .function).toList.map (·.type.display)
    refine exists_looks (f := types) ?_ ?_
    · decide +kernel
    · decide +kernel

end DocTree
