import DocTree.Proofs.Parse.Invariant

/-!
# Parsing again

What happens when the same is asked again, of the registry that the first time left.

* `Registry.Same`: two registries with the same entries;
* `Replays`: what was answered is answered from the registry, and what failed fails again, with the
  same error and the same registry after it;
* `Replays.run_fails`: an inquiry that failed fails again;
* **`parseWithin_replays`**: so does a nested parse.
-/

namespace DocTree

open Registry

namespace Registry

/-- The same entries are found in both. -/
def Same (reg reg' : Registry) : Prop := ∀ name, reg.get? name = reg'.get? name

variable {reg reg' : Registry} {name : String}

theorem Same.refl (reg : Registry) : Same reg reg := fun _ => rfl

theorem Same.insert (h : Same reg reg') (name : String) (entry : Progress) :
    Same (reg.insert name entry) (reg'.insert name entry) := by
  intro n
  rw [NameMap.get?_insert, NameMap.get?_insert, h n]

theorem Same.erase (h : Same reg reg') (name : String) :
    Same (reg.erase name) (reg'.erase name) := by
  intro n
  rw [NameMap.get?_erase, NameMap.get?_erase, h n]

/-- To erase an entry and to put it back changes nothing. -/
theorem same_insert_erase {entry : Progress} (h : reg.get? name = some entry) :
    Same ((reg.erase name).insert name entry) reg := by
  intro n
  rw [NameMap.get?_insert, NameMap.get?_erase]
  by_cases heq : name = n
  · rw [if_pos heq, ← heq, h]
  · rw [if_neg heq, if_neg heq]

end Registry

/-! ## Questions and inquiries -/

/-- What `need` has answered or refused once, it answers or refuses again. -/
structure Replays (need : Object → ParseM Token) : Prop where
  grows (o : Object) (reg : Registry) : Grows reg ((need o).runOn reg).2
  /-- The answer is found in any registry that has the tokens of the one that was left. -/
  answers {o : Object} {reg reg' again : Registry} {token : Token}
    (h : (need o).runOn reg = (.ok token, reg'))
    (hagain : ∀ name t, reg'.get? name = some (.done t) → again.get? name = some (.done t)) :
    (need o).runOn again = (.ok token, again)
  fails {o : Object} {reg reg' again : Registry} {e : Error}
    (h : (need o).runOn reg = (.error e, reg')) (hagain : Same again reg') :
    ∃ after, (need o).runOn again = (.error e, after) ∧ Same after reg'

section Runs

variable {α β : Type} {need : Object → ParseM Token}

/-- **An inquiry that failed fails again**, with the same error. -/
theorem Replays.run_fails (hneed : Replays need) {p : Inquiry α} {e : Error}
    {reg reg' again : Registry} (h : (p.run need).runOn reg = (.error e, reg'))
    (hagain : Same again reg') :
    ∃ after, (p.run need).runOn again = (.error e, after) ∧ Same after reg' := by
  induction p generalizing reg with
  | done a => cases h
  | fail e =>
    cases h
    exact ⟨again, rfl, hagain⟩
  | ask o next ih =>
    rw [Inquiry.runOn_run_ask] at h ⊢
    rcases hn : (need o).runOn reg with ⟨e' | token, mid⟩
    · rw [hn] at h
      cases h
      obtain ⟨after, hafter, hsame⟩ := hneed.fails hn hagain
      exact ⟨after, by rw [hafter], hsame⟩
    · rw [hn] at h
      change ((next token).run need).runOn mid = _ at h
      -- The token is in the registry still, so that the question changes nothing now.
      have hgrows := Inquiry.run_grows hneed.grows (next token) mid
      rw [h] at hgrows
      have hanswer : (need o).runOn again = (.ok token, again) :=
        hneed.answers hn fun name t ht => by rw [hagain name, hgrows.get?_eq_some ht]
      rw [hanswer]
      exact ih token h

theorem tracked_fails_again (hneed : Replays need) {name : String} {p : Inquiry Token} {e : Error}
    {reg reg' again : Registry}
    (h : (tracked name (p.run need)).runOn reg = (.error e, reg')) (hagain : Same again reg') :
    ∃ after, (tracked name (p.run need)).runOn again = (.error e, after) ∧ Same after reg' := by
  rw [runOn_tracked] at h
  split at h
  · next hprogress =>
    cases h
    refine ⟨again, ?_, hagain⟩
    rw [runOn_tracked, hagain name, hprogress]
  · cases h
  · next hnone =>
    have hgrows := Inquiry.run_grows hneed.grows p (reg.insert name .inProgress)
    split at h
    · cases h
    · next e mid hrun =>
      cases h
      rw [hrun] at hgrows
      have hmid : mid.get? name = some .inProgress :=
        hgrows.get?_eq_some (by rw [NameMap.get?_insert, if_pos rfl])
      have hstart : Same (again.insert name .inProgress) mid := fun n =>
        (hagain.insert name .inProgress n).trans (same_insert_erase hmid n)
      obtain ⟨after, hafter, hsame⟩ := hneed.run_fails hrun hstart
      have hfree : again.get? name = none := by
        rw [hagain name, NameMap.get?_erase, if_pos rfl]
      refine ⟨after.erase name, ?_, hsame.erase name⟩
      rw [runOn_tracked, hfree, hafter]

end Runs

/-! ## Levels -/

section Levels

variable {s : Settings} {levels : Nat} {o : Object} {reg reg' again : Registry}

/-- The token of an object is answered from any registry that has it. -/
theorem runOn_parseWithin_again {token : Token}
    (h : (parseWithin s levels o []).runOn reg = (.ok token, reg'))
    (hagain : ∀ name t, reg'.get? name = some (.done t) → again.get? name = some (.done t)) :
    (parseWithin s levels o []).runOn again = (.ok token, again) := by
  cases levels with
  | zero => cases h
  | succ levels =>
    cases hname : o.entryName? with
    | none =>
      obtain ⟨_, _, hrun⟩ := runOn_parseWithin_of_none s levels hname
      rw [hrun] at h
      cases h
    | some name =>
      rw [parseWithin_succ s levels hname] at h ⊢
      rw [runOn_tracked, hagain name token (get?_of_tracked h)]

/-- **A nested parse comes to the same again.** -/
theorem parseWithin_replays (s : Settings) (levels : Nat) :
    Replays fun o => parseWithin s levels o [] := by
  induction levels with
  | zero =>
    refine ⟨parseWithin_grows s 0, runOn_parseWithin_again, fun h hagain => ?_⟩
    cases h
    exact ⟨_, rfl, hagain⟩
  | succ levels ih =>
    refine ⟨parseWithin_grows s _, runOn_parseWithin_again, fun {o _ _ again _} h hagain => ?_⟩
    cases hname : o.entryName? with
    | none =>
      obtain ⟨_, _, hrun⟩ := runOn_parseWithin_of_none s levels hname
      rw [hrun] at h ⊢
      cases h
      exact ⟨again, rfl, hagain⟩
    | some name =>
      rw [parseWithin_succ s levels hname] at h ⊢
      exact tracked_fails_again ih h hagain

end Levels

end DocTree
