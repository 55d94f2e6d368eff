import Mathlib.Data.List.Forall2
import DocTree.Value.Basic

/-!
# Lists without duplicates

What is left of a list when the elements that an earlier one is the same as are dropped. Sameness
need not be an equivalence, so the order of the two elements that are compared matters.

* `mem_of_mem_dedup`: nothing is new;
* `distinct_dedup`: **no element is the same as an earlier one**;
* `dedup_eq_self`: a list of which this is true already stays as it is;
* `forall₂_dedup`: of two lists whose elements compare alike, the same ones are left.
-/

namespace DocTree

variable {α : Type} [BEq α]

/-- No element is the same as an earlier one. -/
def Distinct (l : List α) : Prop := l.Pairwise fun a b => (b == a) = false

/-- One element more: the step of `dedup`. -/
def addNew (seen : List α) (a : α) : List α := if seen.contains a then seen else seen ++ [a]

theorem mem_of_mem_foldl_addNew {l : List α} {a : α} :
    ∀ {seen : List α}, a ∈ l.foldl addNew seen → a ∈ seen ∨ a ∈ l := by
  induction l with
  | nil => exact fun h => .inl h
  | cons b l ih =>
    intro seen h
    rcases ih h with h | h
    · unfold addNew at h
      split at h
      · exact .inl h
      · rcases List.mem_append.mp h with h | h
        · exact .inl h
        · exact .inr (List.mem_cons.mpr (.inl (List.mem_singleton.mp h)))
    · exact .inr (List.mem_cons_of_mem b h)

theorem mem_of_mem_dedup {l : List α} {a : α} (h : a ∈ dedup l) : a ∈ l :=
  (mem_of_mem_foldl_addNew h).resolve_left List.not_mem_nil

theorem dedup_ne_nil {l : List α} (h : l ≠ []) : dedup l ≠ [] := by
  have hgrows : ∀ (l seen : List α), seen ≠ [] → l.foldl addNew seen ≠ [] := by
    intro l
    induction l with
    | nil => exact fun _ h => h
    | cons a l ih =>
      intro seen hseen
      refine ih _ ?_
      unfold addNew
      split
      · exact hseen
      · simp
  cases l with
  | nil => exact absurd rfl h
  | cons a l => exact hgrows l _ (by simp)

theorem not_contains_iff {l : List α} {a : α} :
    l.contains a = false ↔ ∀ b ∈ l, (a == b) = false := by
  induction l with
  | nil => simp
  | cons b l ih => simp [List.contains_cons, ih]

theorem Distinct.addNew {seen : List α} (h : Distinct seen) (a : α) :
    Distinct (addNew seen a) := by
  unfold DocTree.addNew
  split
  · exact h
  · next hnew =>
    have hne : ∀ b ∈ seen, (a == b) = false := not_contains_iff.mp (by simpa using hnew)
    refine List.pairwise_append.mpr ⟨h, List.pairwise_singleton _ a, ?_⟩
    intro b hb c hc
    obtain rfl := List.mem_singleton.mp hc
    exact hne b hb

/-- **No element is the same as an earlier one.** -/
theorem distinct_dedup (l : List α) : Distinct (dedup l) := by
  suffices h : ∀ seen : List α, Distinct seen → Distinct (l.foldl addNew seen) from h [] .nil
  induction l with
  | nil => exact fun _ h => h
  | cons a l ih => exact fun seen h => ih _ (h.addNew a)

theorem dedup_eq_self {l : List α} (h : Distinct l) : dedup l = l := by
  suffices hfold : ∀ seen : List α, Distinct (seen ++ l) → l.foldl addNew seen = seen ++ l by
    exact hfold [] h
  clear h
  induction l with
  | nil => exact fun seen _ => (List.append_nil seen).symm
  | cons a l ih =>
    intro seen h
    have hnew : seen.contains a = false :=
      not_contains_iff.mpr fun b hb =>
        (List.pairwise_append.mp h).2.2 b hb a List.mem_cons_self
    have hstep : addNew seen a = seen ++ [a] := if_neg (by simp [hnew])
    rw [List.foldl_cons, hstep, ih _ (by simpa using h), List.append_assoc, List.singleton_append]

/-! ## Two lists -/

section Forall₂

variable {β : Type} [BEq β] {R : α → β → Prop}
  (hsame : ∀ {a b a' b'}, R a b → R a' b' → (a == a') = (b == b'))

include hsame

theorem contains_congr {seen : List α} {seen' : List β} (hseen : List.Forall₂ R seen seen') {a : α}
    {b : β} (hab : R a b) : seen.contains a = seen'.contains b := by
  induction hseen with
  | nil => rfl
  | cons h _ ih => rw [List.contains_cons, List.contains_cons, hsame hab h, ih]

/-- **Of two lists whose elements are related and compare alike, related elements are left.** -/
theorem forall₂_dedup {l : List α} {l' : List β} (h : List.Forall₂ R l l') :
    List.Forall₂ R (dedup l) (dedup l') := by
  suffices hfold : ∀ {seen : List α} {seen' : List β}, List.Forall₂ R seen seen' →
      List.Forall₂ R (l.foldl addNew seen) (l'.foldl addNew seen') from hfold .nil
  induction h with
  | nil => exact fun hseen => hseen
  | cons hab _ ih =>
    intro seen seen' hseen
    refine ih ?_
    unfold addNew
    rw [contains_congr hsame hseen hab]
    split
    · exact hseen
    · exact List.rel_append hseen (.cons hab .nil)

end Forall₂

end DocTree
