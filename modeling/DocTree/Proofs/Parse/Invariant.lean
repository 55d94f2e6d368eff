import DocTree.Proofs.Parse.Growth
import DocTree.Proofs.Parse.Needs

/-!
# Invariants of the registry

Parsing changes the registry in four ways: an object is started, aborted or finished, or a finished
class gets further methods. What each of them keeps is kept by every call.

* `Registry.view`: the finished tokens, without their methods;
* `Registry.Holds`, `Registry.Answers`: the tokens that the registry gives as an answer, as they are
  and up to methods;
* `Inquiry.run_gives`: **a run that succeeds has the result that the registry after it gives**;
* `Registry.Keeps`, `Parser.keeps_after`: the rule for invariants.
-/

namespace DocTree

namespace Registry

/-! ## Views -/

/-- The token of a finished object, without its methods. -/
def view (reg : Registry) (name : String) : Option Token :=
  match reg.get? name with
  | some (.done token) => some token.withoutMethods
  | _ => none

variable {reg reg' : Registry} {name : String}

theorem view_of_get? {token : Token} (h : reg.get? name = some (.done token)) :
    view reg name = some token.withoutMethods := by
  rw [view, h]

theorem get?_of_view {t : Token} (h : view reg name = some t) :
    ∃ token, reg.get? name = some (.done token) ∧ token.withoutMethods = t := by
  unfold view at h
  split at h
  · next token hdone => exact ⟨token, hdone, Option.some.inj h⟩
  · cases h

theorem view_insert_done (token : Token) (name' : String) :
    view (reg.insert name (.done token)) name' =
      if name = name' then some token.withoutMethods else view reg name' := by
  rw [view, NameMap.get?_insert]
  by_cases h : name = name'
  · rw [if_pos h, if_pos h]
  · rw [if_neg h, if_neg h]
    rfl

/-- What is not finished does not show. -/
theorem view_insert_inProgress (h : reg.get? name = none) :
    view (reg.insert name .inProgress) = view reg := by
  funext name'
  rw [view, view, NameMap.get?_insert]
  by_cases heq : name = name'
  · subst heq
    rw [if_pos rfl, h]
  · rw [if_neg heq]

theorem view_erase (h : reg.get? name = some .inProgress) :
    view (reg.erase name) = view reg := by
  funext name'
  rw [view, view, NameMap.get?_erase]
  by_cases heq : name = name'
  · subst heq
    rw [if_pos rfl, h]
  · rw [if_neg heq]

/-- A token with further methods looks the same. -/
theorem view_insert_extended {old token : Token} (hold : reg.get? name = some (.done old))
    (h : token.Extends old) : view (reg.insert name (.done token)) = view reg := by
  obtain ⟨doc, docs, rfl, rfl, -⟩ := h
  funext name'
  rw [view_insert_done]
  by_cases heq : name = name'
  · subst heq
    rw [if_pos rfl, view_of_get? hold]
    exact congrArg (some ∘ Token.class) (doc.withoutMethods_congr (some docs))
  · rw [if_neg heq]

/-- All that is finished in one registry is so in the other, and looks the same. -/
def Within (reg reg' : Registry) : Prop :=
  ∀ name token, view reg name = some token → view reg' name = some token

/-! ## Answers -/

/-- The token is the answer of the registry for the object, up to methods. -/
def Answers (reg : Registry) (o : Object) (token : Token) : Prop :=
  ∃ name, o.entryName? = some name ∧ view reg name = some token.withoutMethods

theorem Answers.mono (h : Within reg reg') {o : Object} {token : Token}
    (hans : Answers reg o token) : Answers reg' o token := by
  obtain ⟨name, hname, hview⟩ := hans
  exact ⟨name, hname, h name _ hview⟩

/-- The token is the one that the registry has for the object. -/
def Holds (reg : Registry) (o : Object) (token : Token) : Prop :=
  ∃ name, o.entryName? = some name ∧ reg.get? name = some (.done token)

theorem Holds.mono (h : Grows reg reg') {o : Object} {token : Token} (hheld : Holds reg o token) :
    Holds reg' o token := by
  obtain ⟨name, hname, hdone⟩ := hheld
  exact ⟨name, hname, h.get?_eq_some hdone⟩

theorem Holds.answers {o : Object} {token : Token} (hheld : Holds reg o token) :
    Answers reg o token := by
  obtain ⟨name, hname, hdone⟩ := hheld
  exact ⟨name, hname, view_of_get? hdone⟩

theorem Holds.unique {o : Object} {token token' : Token} (hheld : Holds reg o token)
    (hheld' : Holds reg o token') : token = token' := by
  obtain ⟨name, hname, hdone⟩ := hheld
  obtain ⟨name', hname', hdone'⟩ := hheld'
  obtain rfl : name = name' := Option.some.inj (hname.symm.trans hname')
  exact Progress.done.inj (Option.some.inj (hdone.symm.trans hdone'))

end Registry

open Registry

/-- **A run that succeeds has the result that the registry after it gives.** -/
theorem Inquiry.run_gives {α : Type} {need : Object → ParseM Token}
    (hgrows : ∀ o reg, Grows reg ((need o).runOn reg).2)
    (hneed : ∀ {o reg reg' token}, (need o).runOn reg = (.ok token, reg') → Holds reg' o token)
    {p : Inquiry α} {a : α} {reg reg' : Registry}
    (h : (p.run need).runOn reg = (.ok a, reg')) : p.Gives (Holds reg') a := by
  induction p generalizing reg with
  | done a =>
    cases h
    exact .done a
  | fail e => cases h
  | ask o next ih =>
    rw [Inquiry.runOn_run_ask] at h
    rcases hn : (need o).runOn reg with ⟨e | token, mid⟩
    · rw [hn] at h
      cases h
    · rw [hn] at h
      change ((next token).run need).runOn mid = _ at h
      have hmid := Inquiry.run_grows hgrows (next token) mid
      rw [h] at hmid
      exact .ask ((hneed hn).mono hmid) (ih token h)

/-- Every answer of `need` is found in the registry afterwards, which grows. -/
structure Faithful (need : Object → ParseM Token) : Prop where
  grows (o : Object) (reg : Registry) : Grows reg ((need o).runOn reg).2
  holds {o : Object} {reg reg' : Registry} {token : Token}
    (h : (need o).runOn reg = (.ok token, reg')) : Holds reg' o token

namespace Faithful

variable {need : Object → ParseM Token} (hneed : Faithful need)

include hneed

theorem run_grows {α : Type} (p : Inquiry α) (reg : Registry) :
    Grows reg ((p.run need).runOn reg).2 :=
  Inquiry.run_grows hneed.grows p reg

theorem run_gives {α : Type} {p : Inquiry α} {a : α} {reg reg' : Registry}
    (h : (p.run need).runOn reg = (.ok a, reg')) : p.Gives (Holds reg') a :=
  Inquiry.run_gives hneed.grows hneed.holds h

end Faithful

/-- What a nested parse gives is found in the registry afterwards. -/
theorem holds_of_parseWithin {s : Settings} {levels : Nat} {o : Object} {reg reg' : Registry}
    {token : Token} (h : (parseWithin s levels o []).runOn reg = (.ok token, reg')) :
    Holds reg' o token := by
  cases levels with
  | zero => cases h
  | succ levels =>
    cases hname : o.entryName? with
    | none =>
      obtain ⟨_, _, hrun⟩ := runOn_parseWithin_of_none s levels hname
      rw [hrun] at h
      cases h
    | some name =>
      rw [parseWithin_succ s levels hname] at h
      exact ⟨name, hname, get?_of_tracked h⟩

theorem parseWithin_faithful (s : Settings) (levels : Nat) :
    Faithful fun o => parseWithin s levels o [] where
  grows := parseWithin_grows s levels
  holds h := holds_of_parseWithin h

/-- The result of an inquiry is the one that the finished tokens give. -/
theorem gives_of_run {α : Type} {s : Settings} {levels : Nat} {p : Inquiry α} {a : α}
    {reg reg' : Registry}
    (h : (p.run fun o => parseWithin s levels o []).runOn reg = (.ok a, reg')) :
    p.Gives (Holds reg') a :=
  (parseWithin_faithful s levels).run_gives h

theorem gives_of_run_needAt {α : Type} {s : Settings} {depth : Nat} {p : Inquiry α} {a : α}
    {reg reg' : Registry} (h : (p.run (needAt s depth)).runOn reg = (.ok a, reg')) :
    p.Gives (Holds reg') a :=
  gives_of_run h

/-! ## Invariants -/

/-- The four changes of the registry keep `I`. -/
structure Registry.Keeps (s : Settings) (known : Object → Prop) (I : Registry → Prop) : Prop where
  start {reg : Registry} {name : String} (h : I reg) (hnone : reg.get? name = none) :
    I (reg.insert name .inProgress)
  abort {reg : Registry} {name : String} (h : I reg)
    (hstarted : reg.get? name = some .inProgress) : I (reg.erase name)
  finish {reg : Registry} {name : String} {o : Object} {methods : List String} {token : Token}
    (h : I reg) (hstarted : reg.get? name = some .inProgress) (ho : known o)
    (hname : o.entryName? = some name)
    (hgives : (inquire s o methods).Gives (Holds reg) token) : I (reg.insert name (.done token))
  extend {reg : Registry} {c : Class} {doc : ClassDoc} {methods : List String}
    {docs : NameMap FunctionDoc} (h : I reg)
    (hold : reg.get? c.fullName = some (.done (.class doc)))
    (hgives : (parseMethods s c doc.attributes (doc.missingMethods methods)
      (doc.methods.getD .empty)).Gives (Holds reg) docs) :
    I (reg.insert c.fullName (.done (.class { doc with methods := some docs })))

section Keeps

variable {s : Settings} {known : Object → Prop} {I : Registry → Prop}
  {need : Object → ParseM Token} (hI : Keeps s known I) (hneed : Faithful need)
  (hkeep : ∀ o reg, s.resolver.Reaches o → I reg → I ((need o).runOn reg).2)

include hI hneed hkeep

theorem tracked_keeps {o : Object} {name : String} (ho : known o) (hname : o.entryName? = some name)
    (methods : List String) {reg : Registry} (hreg : I reg) :
    I ((tracked name ((inquire s o methods).run need)).runOn reg).2 := by
  have hasks := inquire_reaches s o methods
  rw [runOn_tracked]
  split
  · exact hreg
  · exact hreg
  · next hnone =>
    have hrun := hasks.run_keeps hkeep (hI.start hreg hnone)
    have hgrows := hneed.run_grows (inquire s o methods) (reg.insert name .inProgress)
    have hstarted : (reg.insert name .inProgress).get? name = some .inProgress := by simp
    split
    · next heq =>
      rw [heq] at hrun hgrows
      exact hI.finish hrun (hgrows.get?_eq_some hstarted) ho hname (hneed.run_gives heq)
    · next heq =>
      rw [heq] at hrun hgrows
      exact hI.abort hrun (hgrows.get?_eq_some hstarted)

theorem addMethods_keeps {c : Class} {methods : List String} {token : Token} {reg : Registry}
    (hreg : I reg) (htoken : reg.get? c.fullName = some (.done token)) :
    I ((addMethods s need c methods token).runOn reg).2 := by
  cases token with
  | function doc => exact hreg
  | «class» doc =>
    rw [addMethods]
    split
    · exact hreg
    · have hasks : (parseMethods s c doc.attributes (doc.missingMethods methods)
          (doc.methods.getD .empty)).Ensures
            { Inquiry.Terms.any with asks := s.resolver.Reaches } fun _ => True :=
        parseMethods_asks (fun _ _ => trivial) fun _ h => h
      have hrun := hasks.run_keeps hkeep hreg
      have hgrows := hneed.run_grows (parseMethods s c doc.attributes (doc.missingMethods methods)
        (doc.methods.getD .empty)) reg
      rw [ParseM.runOn_bind]
      split
      · next heq =>
        rw [heq] at hrun hgrows
        exact hI.extend hrun (hgrows.get?_eq_some htoken) (hneed.run_gives heq)
      · next heq =>
        rw [heq] at hrun
        exact hrun

theorem parseWith_keeps {o : Object} (ho : known o) (methods : List String) {reg : Registry}
    (hreg : I reg) : I ((parseWith s need o methods).runOn reg).2 := by
  cases o with
  | «class» c =>
    have htracked := tracked_keeps hI hneed hkeep ho rfl methods hreg
    rw [parseWith, ParseM.runOn_bind]
    split
    · next heq =>
      rw [heq] at htracked
      exact addMethods_keeps hI hneed hkeep htracked (get?_of_tracked heq)
    · next heq =>
      rw [heq] at htracked
      exact htracked
  | function f => exact tracked_keeps hI hneed hkeep ho rfl methods hreg
  | «module» path => exact hreg
  | value v => exact hreg

end Keeps

section Calls

variable {s : Settings} {known : Object → Prop} {I : Registry → Prop} (hI : Keeps s known I)
  (hknown : ∀ o, s.resolver.Reaches o → known o)

include hI hknown

theorem parseWithin_keeps (levels : Nat) {o : Object} (ho : known o) {reg : Registry}
    (hreg : I reg) : I ((parseWithin s levels o []).runOn reg).2 := by
  induction levels generalizing o reg with
  | zero => exact hreg
  | succ levels ih =>
    exact parseWith_keeps hI (parseWithin_faithful s levels)
      (fun o reg ho hreg => ih (hknown o ho) hreg) ho [] hreg

theorem parseObject_keeps {o : Object} (ho : known o) (methods : List String) (depth : Nat)
    {reg : Registry} (hreg : I reg) : I ((parseObject s depth o methods).runOn reg).2 := by
  rw [runOn_parseObject]
  split
  · exact hreg
  · exact parseWith_keeps hI (parseWithin_faithful s (s.recursionLimit - depth))
      (fun o reg ho hreg => parseWithin_keeps hI hknown _ (hknown o ho) hreg) ho methods hreg

/-- **The rule for invariants**: what holds of the empty registry and is kept by the four changes
holds after any calls. -/
theorem keeps_after (hempty : I .empty) {calls : List Call} (hcalls : ∀ c ∈ calls, known c.object) :
    I ((Parser.new s).after calls).registry :=
  Parser.after_induction hempty fun c hc _ hreg =>
    parseObject_keeps hI hknown (hcalls c hc) c.methods c.depth hreg

end Calls

end DocTree
