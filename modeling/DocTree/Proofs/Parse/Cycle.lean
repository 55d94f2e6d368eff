import DocTree.Proofs.Parse.Consistent

/-!
# Cycles

A parse that comes back to an object in progress fails with the name of that object. So the error
`cycle` tells of a cycle of needs, and a result tells that there is none.

* `parseWithin_cycle`: the object that a nested parse blames is one that its needs lead to, and it
  is in progress already or needs itself;
* **`parse_cycle`**: for a new parser, a result and the error `cycle` say exactly this of the needs.
  `Foreign.parse_cycle_missed` has a cycle behind a name that two functions share.
-/

namespace DocTree

open Registry
open Relation (ReflTransGen TransGen)

section Levels

variable {s : Settings} {known : Object → Prop} (hun : Unambiguous known)
  (hknown : ∀ o, s.resolver.Reaches o → known o)

include hknown in
theorem known_of_needs {o o' : Object} (h : TransGen (Needs s) o o') : known o' := by
  cases h with
  | single h => exact hknown o' h.reaches
  | tail _ h => exact hknown o' h.reaches

/-- What a nested parse may blame: an object of the name to which needs lead, in progress already or
on a cycle. -/
def Blames (s : Settings) (reg : Registry) (o : Object) (name : String) : Prop :=
  ∃ o', o'.entryName? = some name ∧ ReflTransGen (Needs s) o o' ∧
    (reg.get? name = some .inProgress ∨ TransGen (Needs s) o' o')

include hun hknown

/-- What is blamed while an object is in progress was so before, unless the object needs itself. -/
theorem blames_of_needs {o o' : Object} {name blamed : String} {reg : Registry} (ho : known o)
    (hname : o.entryName? = some name) (hneeds : Needs s o o')
    (h : Blames s (reg.insert name .inProgress) o' blamed) : Blames s reg o blamed := by
  obtain ⟨y, hy, hreach, hcycle⟩ := h
  have hway : TransGen (Needs s) o y := TransGen.head' hneeds hreach
  refine ⟨y, hy, hway.to_reflTransGen, ?_⟩
  rcases hcycle with hprogress | hcycle
  · rw [NameMap.get?_insert] at hprogress
    split at hprogress
    · next heq =>
      subst heq
      obtain rfl := hun o y name ho (known_of_needs hknown hway) hname hy
      exact .inr hway
    · exact .inl hprogress
  · exact .inr hcycle

/-- **The object that a nested parse blames** is one that its needs lead to. -/
theorem parseWithin_cycle (levels : Nat) {o : Object} (ho : known o) {reg reg' : Registry}
    {blamed : String}
    (h : (parseWithin s levels o []).runOn reg = (.error (.cycle blamed), reg')) :
    Blames s reg o blamed := by
  induction levels generalizing o reg reg' blamed with
  | zero => cases h
  | succ levels ih =>
    cases hname : o.entryName? with
    | none =>
      obtain ⟨_, _, hrun⟩ := runOn_parseWithin_of_none s levels hname
      rw [hrun] at h
      cases h
    | some name =>
      rw [parseWithin_succ s levels hname, runOn_tracked] at h
      split at h
      · next hprogress =>
        cases h
        exact ⟨o, hname, .refl, .inl hprogress⟩
      · cases h
      · split at h
        · cases h
        · next e mid hrun =>
          cases h
          -- The error is not the inquiry's own, so it comes from one of its questions.
          have hasks : (inquire s o []).Ensures
              ⟨Needs s o, fun _ _ => True, fun e => ∀ n, e = .cycle n → Blames s reg o n⟩
              fun _ => True :=
            (inquire_ensures (fun e he n hn => by rw [hn] at he; cases he) (fun _ h => h)
              (.inl rfl)).mono fun _ _ => trivial
          have hneed : ∀ o' reg₁ result reg₂, Needs s o o' →
              Grows (reg.insert name .inProgress) reg₁ →
              (parseWithin s levels o' []).runOn reg₁ = (result, reg₂) →
              Grows (reg.insert name .inProgress) reg₂ ∧
                (∀ token, result = .ok token → True) ∧
                ∀ e, result = .error e → ∀ n, e = .cycle n → Blames s reg o n := by
            intro o' reg₁ result reg₂ hneeds hgrows hrun
            have hgrows' := (parseWithin_faithful s levels).grows o' reg₁
            rw [hrun] at hgrows'
            refine ⟨hgrows.trans hgrows', fun _ _ => trivial, ?_⟩
            rintro e rfl n rfl
            obtain ⟨y, hy, hreach, hcycle⟩ := ih (hknown o' hneeds.reaches) hrun
            refine blames_of_needs hun hknown ho hname hneeds ⟨y, hy, hreach, ?_⟩
            exact hcycle.imp_left (hgrows.inProgress_iff n).mp
          exact (hasks.run hneed (.refl _) hrun).2.2 _ rfl blamed rfl

end Levels

/-- **The detection of cycles is exact.** If a new parser has a token for an object, then nothing
that the object leads to by needs, itself included, needs itself in one or more steps. If it fails
with a cycle, then the object of the name it tells is one that the object leads to, and does need
itself. -/
theorem parse_cycle (s : Settings) (o : Object) (hun : Unambiguous (s.resolver.Knows [o])) :
    (∀ token, ((Parser.new s).parse o).1 = .ok token →
      ∀ o', ReflTransGen (Needs s) o o' → ¬ TransGen (Needs s) o' o') ∧
    ∀ name, ((Parser.new s).parse o).1 = .error (.cycle name) →
      ∃ o', o'.entryName? = some name ∧ ReflTransGen (Needs s) o o' ∧ TransGen (Needs s) o' o' := by
  have ho : s.resolver.Knows [o] o := .inr List.mem_cons_self
  constructor
  · intro token h o' hreach
    have hrun : (parseWithin s (s.recursionLimit + 1) o []).runOn .empty =
        (.ok token, ((Parser.new s).parse o).2.registry) := by
      rw [← runOn_parse]
      exact Prod.ext h rfl
    obtain ⟨name, hname, hview⟩ := (holds_of_parseWithin hrun).answers
    have hreg : Consistent s (s.resolver.Knows [o]) (fun _ => True)
        ((Parser.new s).parse o).2.registry :=
      consistent_after (passedOn_true s) [⟨o, [], 0⟩] hun fun c hc => by
        obtain rfl := List.mem_singleton.mp hc
        exact List.mem_cons_self
    have hground := (hreg.supports hun ho hname hview).grounded
    exact (hground.of_reach hreach).not_cyclic
  · intro name h
    have hrun : (parseWithin s (s.recursionLimit + 1) o []).runOn .empty =
        (.error (.cycle name), ((Parser.new s).parse o).2.registry) := by
      rw [← runOn_parse]
      exact Prod.ext h rfl
    obtain ⟨o', hname, hreach, hcycle⟩ := parseWithin_cycle hun (fun _ => .inl) _ ho hrun
    exact ⟨o', hname, hreach, hcycle.resolve_left fun hprogress => nomatch hprogress⟩

namespace Sample

/-- The function that links to a plain one is parsed, and the one on the cycle is blamed. -/
theorem parse_cycle_of_links :
    (∃ token, ((Parser.new settings).parse (.function user)).1 = .ok token ∧
      ∀ o', ReflTransGen (Needs settings) (.function user) o' →
        ¬ TransGen (Needs settings) o' o') ∧
    ((Parser.new settings).parse (.function f)).1 = .error (.cycle "m.f") ∧
    ∃ o', o'.entryName? = some "m.f" ∧ ReflTransGen (Needs settings) (.function f) o' ∧
      TransGen (Needs settings) o' o' := by
  have huser : Unambiguous (settings.resolver.Knows [.function user]) :=
    unambiguous (by simp [objects])
  have hf : Unambiguous (settings.resolver.Knows [.function f]) := unambiguous (by simp [objects])
  exact ⟨⟨_, rfl, (parse_cycle settings (.function user) huser).1 _ rfl⟩, rfl,
    (parse_cycle settings (.function f) hf).2 "m.f" rfl⟩

end Sample

namespace Foreign

theorem needs_looping :
    Needs settings (.function linkLooping) (.function looping) ∧
      Needs settings (.function looping) (.function looping) := by
  have hlink : ∀ ctx : Context, LinkNeeds settings ⟨"m", ctx.object⟩ "loop" (.function looping) :=
    fun _ => ⟨by decide, rfl, "m.F", rfl⟩
  constructor
  · exact ⟨_, List.mem_singleton_self _, _, rfl, _, .tail _ (.head _),
      .link rfl (hlink ⟨"m", "m.k"⟩)⟩
  · exact ⟨_, List.mem_singleton_self _, _, rfl, _, .head _, .link rfl (hlink ⟨"m", "m.F"⟩)⟩

/-- **A cycle may be missed** although no two objects of the host share a name: the function of the
namespace that needs itself has the name of one that is finished already. -/
theorem parse_cycle_missed :
    Unambiguous (Resolver.Reaches ⟨host, .empty⟩) ∧
    (∃ token, ((Parser.new settings).parse (.function linkLooping)).1 = .ok token) ∧
    ReflTransGen (Needs settings) (.function linkLooping) (.function looping) ∧
    TransGen (Needs settings) (.function looping) (.function looping) :=
  ⟨unambiguous_host, ⟨_, rfl⟩, .single needs_looping.1, .single needs_looping.2⟩

end Foreign

end DocTree
