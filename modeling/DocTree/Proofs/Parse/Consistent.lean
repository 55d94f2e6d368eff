import Mathlib.Logic.Relation
import DocTree.Proofs.Parse.Erase
import DocTree.Proofs.Parse.Invariant
import DocTree.Proofs.Parse.Promise

/-!
# What the registry holds

Each finished token is what the inquiry into its object gives when the tokens that were finished
before answer it, which are among the finished ones still, up to methods. This does not say by which
calls they were parsed: it is kept by every call, also by one that fails halfway.

* `Grounded`: the needs of an object come to an end;
* `Registry.all_keeps`: what goes from the answers of each inquiry to its result;
* `Registry.Consistent`: **each finished token is given by others**, and its object is grounded;
* `Consistent.of_needs`: what a finished object needs is finished;
* **`consistent_after`**: the registry is consistent after any calls.
-/

namespace DocTree

open Relation (ReflTransGen TransGen)

/-! ## Grounded objects -/

/-- There is no endless chain of needs from the object. -/
def Grounded (s : Settings) (o : Object) : Prop := Acc (fun o' o => Needs s o o') o

section Grounded

variable {s : Settings} {o o' : Object}

theorem Grounded.of_needs (h : Grounded s o) (hneeds : Needs s o o') : Grounded s o' :=
  h.inv hneeds

theorem Grounded.of_reach (h : Grounded s o) (hreach : ReflTransGen (Needs s) o o') :
    Grounded s o' := by
  induction hreach with
  | refl => exact h
  | tail _ hneeds ih => exact ih.of_needs hneeds

/-- A grounded object does not need itself, however far the way. -/
theorem Grounded.not_cyclic (h : Grounded s o) : ¬ TransGen (Needs s) o o := by
  induction h with
  | intro o _ ih =>
    intro hcycle
    obtain ⟨mid, hneeds, hback⟩ := TransGen.head'_iff.mp hcycle
    exact ih mid hneeds (TransGen.tail' hback hneeds)

end Grounded

/-! ## Consistent registries -/

namespace Registry

variable {s : Settings} {known : Object → Prop} {P : Token → Prop} {reg reg' : Registry}

/-- The tokens that a registry holds are of the right name and satisfy `P`. -/
theorem All.of_holds (h : reg.All P) {o : Object} {token : Token} (hheld : Holds reg o token) :
    o.entryName? = some token.qualifiedName ∧ P token := by
  obtain ⟨name, hname, hdone⟩ := hheld
  obtain ⟨rfl, htoken⟩ := h name token hdone
  exact ⟨hname, htoken⟩

/-- What goes from the answers of each inquiry to its result is kept. -/
theorem all_keeps (hP : PassedOn s P) (known : Object → Prop) : Keeps s known (All P) where
  start h _ := h.insert_inProgress
  abort h _ := h.erase
  finish {reg name o methods token} h _ _ hname hgives := by
    have hobject : token.object = o :=
      hgives.ensured (inquire_ensures (T := .any) (fun _ _ => trivial) (fun _ _ => trivial)
        (.inr fun _ _ => trivial)) fun _ _ _ => trivial
    have hq := token.entryName?_object
    rw [hobject, hname] at hq
    exact h.insert_done (Option.some.inj hq).symm
      (hgives.ensured (hP.inquire o methods) fun _ _ => h.of_holds)
  extend h hold hgives := by
    obtain ⟨hname, hdoc⟩ := h _ _ hold
    exact h.insert_done hname (hgives.ensured (hP.addMethods _ _ hdoc) fun _ _ => h.of_holds)

/-- The token, up to methods, is what the inquiry into a known object of the name gave when a part
of the registry answered it. -/
structure Supports (s : Settings) (known : Object → Prop) (P : Token → Prop) (reg : Registry)
    (name : String) (o : Object) (token : Token) : Prop where
  known : known o
  name : o.entryName? = some name
  grounded : Grounded s o
  gives : ∃ past token', All P past ∧ Within past reg ∧
    (inquire s o []).Gives (Holds past) token' ∧ token'.withoutMethods = token

/-- **Every finished token is supported by others**, and all satisfy `P`. -/
structure Consistent (s : Settings) (known : Object → Prop) (P : Token → Prop) (reg : Registry) :
    Prop where
  all : reg.All P
  supported (name : String) (token : Token) (h : view reg name = some token) :
    ∃ o, Supports s known P reg name o token

theorem consistent_empty : Consistent s known P .empty where
  all _ _ h := nomatch h
  supported _ _ h := nomatch h

theorem Supports.mono (h : Within reg reg') {name : String} {o : Object} {token : Token}
    (hsup : Supports s known P reg name o token) : Supports s known P reg' name o token := by
  obtain ⟨past, token', hall, hpast, hgives, htoken⟩ := hsup.gives
  exact ⟨hsup.known, hsup.name, hsup.grounded, past, token', hall,
    fun name t ht => h name t (hpast name t ht), hgives, htoken⟩

/-- What the object needs is finished. -/
theorem Supports.of_needs {name : String} {o o' : Object} {token : Token}
    (hsup : Supports s known P reg name o token) (hneeds : Needs s o o') :
    ∃ name' token', o'.entryName? = some name' ∧ view reg name' = some token' := by
  obtain ⟨past, _, -, hpast, hgives, -⟩ := hsup.gives
  obtain ⟨answer, hheld⟩ := hgives.of_covers (inquire_covers hneeds [])
  obtain ⟨name', hname', hview⟩ := hheld.answers.mono hpast
  exact ⟨name', _, hname', hview⟩

/-- Only what is finished counts. -/
theorem Consistent.congr (h : view reg' = view reg) (hall : reg'.All P)
    (hreg : Consistent s known P reg) : Consistent s known P reg' where
  all := hall
  supported name token hview := by
    rw [h] at hview
    obtain ⟨o, hsup⟩ := hreg.supported name token hview
    refine ⟨o, hsup.mono fun name token hview => ?_⟩
    rwa [h]

section Unambiguous

variable (hun : Unambiguous known)

include hun

/-- The finished token of a known object is supported by that object. -/
theorem Consistent.supports (hreg : Consistent s known P reg) {o : Object} {name : String}
    {token : Token} (ho : known o) (hname : o.entryName? = some name)
    (hview : view reg name = some token) : Supports s known P reg name o token := by
  obtain ⟨o', hsup⟩ := hreg.supported name token hview
  obtain rfl := hun o o' name ho hsup.known hname hsup.name
  exact hsup

/-- What an inquiry gives can be added. -/
theorem Consistent.insert (hreg : Consistent s known P reg)
    (hknown : ∀ o, s.resolver.Reaches o → known o) {o : Object} {name : String}
    {methods : List String} {token : Token} (hnone : view reg name = none) (ho : known o)
    (hname : o.entryName? = some name) (hgives : (inquire s o methods).Gives (Holds reg) token)
    (hall : All P (reg.insert name (.done token))) :
    Consistent s known P (reg.insert name (.done token)) where
  all := hall
  supported := by
    have hwithin : Within reg (reg.insert name (.done token)) := by
      intro name' token' hview
      rw [view_insert_done, if_neg]
      · exact hview
      · rintro rfl
        rw [hnone] at hview
        cases hview
    obtain ⟨token', hgives', heq⟩ := inquire_gives s hgives
    -- Every way to a result asks for all needs, and what the registry holds is grounded.
    have hground : Grounded s o := by
      refine .intro o fun o' hneeds => ?_
      obtain ⟨answer, hheld⟩ := hgives'.of_covers (inquire_covers hneeds [])
      obtain ⟨name', hname', hview⟩ := hheld.answers
      exact (hreg.supports hun (hknown o' hneeds.reaches) hname' hview).grounded
    intro name' token'' hview
    rw [view_insert_done] at hview
    split at hview
    · next hsame =>
      subst hsame
      cases hview
      exact ⟨o, ho, hname, hground, reg, token', hreg.all, hwithin, hgives', heq.symm⟩
    · obtain ⟨o', hsup⟩ := hreg.supported name' token'' hview
      exact ⟨o', hsup.mono hwithin⟩

/-- All that a finished object leads to is finished. -/
theorem Consistent.of_reach (hreg : Consistent s known P reg)
    (hknown : ∀ o, s.resolver.Reaches o → known o) {o o' : Object} {name : String}
    {token : Token} (ho : known o) (hname : o.entryName? = some name)
    (hview : view reg name = some token) (hreach : ReflTransGen (Needs s) o o') :
    known o' ∧ ∃ name' token', o'.entryName? = some name' ∧ view reg name' = some token' := by
  induction hreach with
  | refl => exact ⟨ho, name, token, hname, hview⟩
  | tail _ hneeds ih =>
    obtain ⟨hmid, name', token', hname', hview'⟩ := ih
    exact ⟨hknown _ hneeds.reaches, (hreg.supports hun hmid hname' hview').of_needs hneeds⟩

theorem consistent_keeps (hP : PassedOn s P) (hknown : ∀ o, s.resolver.Reaches o → known o) :
    Keeps s known (Consistent s known P) where
  start h hnone := h.congr (view_insert_inProgress hnone) h.all.insert_inProgress
  abort h hstarted := h.congr (view_erase hstarted) h.all.erase
  finish h hstarted ho hname hgives := by
    refine h.insert hun hknown ?_ ho hname hgives
      ((all_keeps hP known).finish h.all hstarted ho hname hgives)
    rw [view, hstarted]
  extend {_ c doc methods docs} h hold hgives := by
    have hsame : SameExcept (doc.methods.getD .empty) (doc.missingMethods methods) docs :=
      hgives.ensured (parseMethods_ensures s c doc.attributes _ _) fun _ _ _ => trivial
    exact h.congr (view_insert_extended hold (extends_of_sameExcept hsame))
      ((all_keeps hP known).extend h.all hold hgives)

end Unambiguous

end Registry

open Registry

/-- **The registry is consistent after any calls.** -/
theorem consistent_after {s : Settings} {P : Token → Prop} (hP : PassedOn s P) (calls : List Call)
    {given : List Object} (hun : Unambiguous (s.resolver.Knows given))
    (hgiven : ∀ c ∈ calls, c.object ∈ given) :
    Consistent s (s.resolver.Knows given) P ((Parser.new s).after calls).registry :=
  keeps_after (consistent_keeps hun hP fun _ => .inl) (fun _ => .inl) consistent_empty
    fun c hc => .inr (hgiven c hc)

end DocTree
