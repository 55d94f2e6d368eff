import Mathlib.Data.List.Forall2

/-!
# Results and errors

What a computation that may fail has done if it succeeds, and where it has failed.

* `ok_of_bind`, `ok_of_map`, `ok_of_mapError`: its first step has succeeded;
* `error_of_map`, `error_of_bind`, `error_of_mapM`: one of its steps has failed;
* `mapM_eq_ok_iff`, `mapM_append_eq_ok_iff`: **the results of a list are those of its elements**;
* `foldlM_cons_eq_ok`: a loop goes on from what its first step gives.
-/

namespace DocTree

theorem ok_of_map {ε α β : Type} {x : Except ε α} {f : α → β} {b : β} (h : x.map f = .ok b) :
    ∃ a, x = .ok a ∧ f a = b := by
  cases x with
  | ok a => exact ⟨a, rfl, Except.ok.inj h⟩
  | error e => cases h

theorem ok_of_bind {ε α β : Type} {x : Except ε α} {f : α → Except ε β} {b : β}
    (h : (x >>= f) = .ok b) : ∃ a, x = .ok a ∧ f a = .ok b := by
  cases x with
  | ok a => exact ⟨a, rfl, h⟩
  | error e => cases h

theorem ok_of_mapError {ε ε' α : Type} {x : Except ε α} {f : ε → ε'} {a : α}
    (h : x.mapError f = .ok a) : x = .ok a := by
  cases x with
  | ok b => exact congrArg _ (Except.ok.inj h)
  | error e => cases h

theorem error_of_map {ε α β : Type} {x : Except ε α} {f : α → β} {e : ε}
    (h : x.map f = .error e) : x = .error e := by
  cases x with
  | ok a => cases h
  | error e' => exact congrArg _ (Except.error.inj h)

theorem error_of_bind {ε α β : Type} {x : Except ε α} {f : α → Except ε β} {e : ε}
    (h : (x >>= f) = .error e) : x = .error e ∨ ∃ a, x = .ok a ∧ f a = .error e := by
  cases x with
  | ok a => exact .inr ⟨a, rfl, h⟩
  | error e' => exact .inl (congrArg _ (Except.error.inj h))

/-! ## Lists of results -/

section mapM

variable {ε α β γ : Type} {f : α → Except ε β} {l : List α}

theorem mapM_cons_eq_ok {a : α} {bs : List β} (h : (a :: l).mapM f = .ok bs) :
    ∃ b rest, f a = .ok b ∧ l.mapM f = .ok rest ∧ bs = b :: rest := by
  rw [List.mapM_cons] at h
  obtain ⟨b, hb, h⟩ := ok_of_bind h
  obtain ⟨rest, hrest, h⟩ := ok_of_bind h
  cases h
  exact ⟨b, rest, hb, hrest, rfl⟩

/-- The results are those of the elements, one by one. -/
theorem mapM_eq_ok_iff {bs : List β} :
    l.mapM f = .ok bs ↔ List.Forall₂ (fun a b => f a = .ok b) l bs := by
  constructor
  · intro h
    induction l generalizing bs with
    | nil =>
      cases h
      exact .nil
    | cons a l ih =>
      obtain ⟨b, rest, hb, hrest, rfl⟩ := mapM_cons_eq_ok h
      exact .cons hb (ih hrest)
  · intro h
    induction h with
    | nil => rfl
    | cons hb _ ih =>
      rw [List.mapM_cons, hb, ih]
      rfl

/-- A list has a list of partners if each element has one. -/
theorem exists_forall₂_iff {R : α → β → Prop} :
    (∃ bs, List.Forall₂ R l bs) ↔ ∀ a ∈ l, ∃ b, R a b := by
  induction l with
  | nil => simp
  | cons a l ih =>
    simp only [List.forall_mem_cons, ← ih, List.forall₂_cons_left_iff]
    constructor
    · rintro ⟨_, b, bs, hb, hbs, rfl⟩
      exact ⟨⟨b, hb⟩, bs, hbs⟩
    · rintro ⟨⟨b, hb⟩, bs, hbs⟩
      exact ⟨_, b, bs, hb, hbs, rfl⟩

theorem length_of_mapM {bs : List β} (h : l.mapM f = .ok bs) : bs.length = l.length :=
  (mapM_eq_ok_iff.mp h).length_eq.symm

/-- What can be said of each result can be said of all. -/
theorem filterMap_of_mapM {g : β → Option γ} {g' : α → Option γ}
    (hf : ∀ a b, f a = .ok b → g b = g' a) {bs : List β} (h : l.mapM f = .ok bs) :
    bs.filterMap g = l.filterMap g' := by
  have hall := mapM_eq_ok_iff.mp h
  clear h
  induction hall with
  | nil => rfl
  | cons hb _ ih => simp [List.filterMap_cons, hf _ _ hb, ih]

theorem exists_mapM (hf : ∀ a ∈ l, ∃ b, f a = .ok b) : ∃ bs, l.mapM f = .ok bs := by
  obtain ⟨bs, hbs⟩ := exists_forall₂_iff.mpr hf
  exact ⟨bs, mapM_eq_ok_iff.mpr hbs⟩

/-- A list fails with the error of one of its elements. -/
theorem error_of_mapM {e : ε} (h : l.mapM f = .error e) : ∃ a ∈ l, f a = .error e := by
  induction l with
  | nil => cases h
  | cons a l ih =>
    rw [List.mapM_cons] at h
    rcases error_of_bind h with ha | ⟨b, -, h⟩
    · exact ⟨a, List.mem_cons_self, ha⟩
    · rcases error_of_bind h with hl | ⟨rest, -, h⟩
      · obtain ⟨a', ha', he⟩ := ih hl
        exact ⟨a', List.mem_cons_of_mem a ha', he⟩
      · cases h

/-- The results of two lists, one behind the other. -/
theorem mapM_append_eq_ok_iff {l' : List α} {bs : List β} :
    (l ++ l').mapM f = .ok bs ↔
      ∃ first second, l.mapM f = .ok first ∧ l'.mapM f = .ok second ∧ bs = first ++ second := by
  rw [List.mapM_append]
  constructor
  · intro h
    obtain ⟨first, hfirst, h⟩ := ok_of_bind h
    obtain ⟨second, hsecond, h⟩ := ok_of_bind h
    cases h
    exact ⟨first, second, hfirst, hsecond, rfl⟩
  · rintro ⟨first, second, hfirst, hsecond, rfl⟩
    rw [hfirst, hsecond]
    rfl

theorem mapM_congr_forall₂ {α' : Type} {g : α' → Except ε β} {l' : List α'}
    (h : List.Forall₂ (fun a a' => g a' = f a) l l') : l'.mapM g = l.mapM f := by
  induction h with
  | nil => rfl
  | cons ha _ ih => rw [List.mapM_cons, List.mapM_cons, ha, ih]

end mapM

/-! ## Loops -/

section foldlM

variable {ε α β : Type} {f : β → α → Except ε β} {l : List α} {b b' : β}

theorem foldlM_cons_eq_ok {a : α} (h : (a :: l).foldlM f b = .ok b') :
    ∃ mid, f b a = .ok mid ∧ l.foldlM f mid = .ok b' := by
  rw [List.foldlM_cons] at h
  exact ok_of_bind h

end foldlM

end DocTree
