import DocTree.Proofs.Cast.Belongs
import DocTree.Proofs.Literal.Unambiguous
import DocTree.Proofs.Value.Same

/-!
# Choosing a literal

Which literal of a union is chosen by its own source form. A text chooses a string by its content
too, so a string whose content is the source form of another literal takes its place if it stands
before it.

* `Value.selectedBy_display_iff`: **what a source form chooses**;
* `Entity.not_mem_of_unionMembers`: a literal stands in a union once;
* `Entity.selected?_append_cons`: the first literal that the text chooses;
* **`Entity.cast_display`**: the source forms of the literals of a union.
-/

namespace DocTree

namespace Value

/-- **A source form chooses its value**, the string that it is the content of, and nothing else. -/
theorem selectedBy_display_iff {v w : Value} (hv : v.FloatFree) :
    w.selectedBy v.display = true ↔ w = v ∨ w = .str v.display := by
  rw [selectedBy_iff, Literal.display_eq_iff hv, eq_comm]

end Value

namespace Entity

section Union

variable {types before after : List Entity} {v : Value} {text : String}

/-- A literal stands in a union once. -/
theorem not_mem_of_unionMembers (hv : v.FloatFree)
    (h : unionMembers types = before ++ .value v :: after) : .value v ∉ before := by
  intro hmem
  have hdistinct : Distinct (before ++ .value v :: after) := h ▸ distinct_dedup types
  have hne : (Entity.value v == .value v) = false :=
    (List.pairwise_append.mp hdistinct).2.2 _ hmem _ List.mem_cons_self
  have hself : (Entity.value v == .value v) = true := Value.same_self hv
  rw [hself] at hne
  cases hne

/-- The text is cast to the first literal that it chooses. -/
theorem cast_union_of_first (hselected : v.selectedBy text = true)
    (hbefore : ∀ w, .value w ∈ before → w.selectedBy text = false) :
    cast (.union (before ++ .value v :: after)) text = .ok v := by
  have hnone : selected? before text = none := selected?_eq_none_iff.mpr hbefore
  have hfirst : selected? (before ++ .value v :: after) text = some v := by
    have hchosen : (value? (.value v)).filter (·.selectedBy text) = some v :=
      Option.filter_eq_some_iff.mpr ⟨rfl, hselected⟩
    rw [selected?] at hnone ⊢
    rw [List.findSome?_append, hnone, Option.none_or, List.findSome?_cons, hchosen]
  exact cast_union_eq_ok_iff.mpr (by rw [hfirst, Option.some_or])

/-- **A literal is chosen by its source form**, unless a string with this content stands before it.
Then the string is chosen. What stands behind the literal does not matter, nor do the other types. -/
theorem cast_display (hv : v.FloatFree) (h : unionMembers types = before ++ .value v :: after) :
    (.value (.str v.display) ∉ before →
      cast (.union (unionMembers types)) v.display = .ok v) ∧
    (.value (.str v.display) ∈ before →
      cast (.union (unionMembers types)) v.display = .ok (.str v.display)) := by
  have hstr : (Value.str v.display).FloatFree := Value.everywhere_of_leaf rfl nofun
  -- Only the literal itself and the string can be chosen, and neither stands twice.
  have hothers : ∀ members : List Entity, .value v ∉ members →
      .value (.str v.display) ∉ members →
        ∀ w, .value w ∈ members → w.selectedBy v.display = false := by
    intro members hself hstring w hw
    rw [← Bool.not_eq_true, Value.selectedBy_display_iff hv]
    rintro (rfl | rfl)
    · exact hself hw
    · exact hstring hw
  have hnotself := not_mem_of_unionMembers hv h
  constructor
  · intro hstring
    rw [h]
    refine cast_union_of_first ?_ (hothers before hnotself hstring)
    exact (Value.selectedBy_display_iff hv).mpr (.inl rfl)
  · intro hstring
    obtain ⟨first, more, rfl⟩ := List.append_of_mem hstring
    rw [List.append_assoc, List.cons_append] at h
    have hself : .value v ∉ first := fun hmem => hnotself (List.mem_append_left _ hmem)
    rw [h]
    refine cast_union_of_first ?_ (hothers first hself (not_mem_of_unionMembers hstr h))
    exact (Value.selectedBy_display_iff hv).mpr (.inr rfl)

end Union

end Entity

namespace Sample

/-- Two literals, and the strings that their source forms are the content of: one behind its
literal, the other one before. -/
def lookAlikes : List Entity :=
  [.builtin .int, .value (.str "None"), .value (.int 3), .value .none, .value (.str "3")]

theorem cast_display_of_lookAlikes :
    Entity.cast (.union (Entity.unionMembers lookAlikes)) "3" = .ok (.int 3) ∧
    Entity.cast (.union (Entity.unionMembers lookAlikes)) "None" = .ok (.str "None") := by
  have hmembers : Entity.unionMembers lookAlikes = lookAlikes :=
    dedup_eq_self (by unfold Distinct; decide)
  have hthree : Entity.unionMembers lookAlikes = [.builtin .int, .value (.str "None")] ++
      .value (.int 3) :: [.value .none, .value (.str "3")] := hmembers
  have hnone : Entity.unionMembers lookAlikes =
      [.builtin .int, .value (.str "None"), .value (.int 3)] ++
        .value .none :: [.value (.str "3")] := hmembers
  have hbefore : Entity.value (.str "3") ∉ [.builtin .int, .value (.str "None")] := by simp
  have hfreeThree : (Value.int 3).FloatFree := Value.everywhere_of_leaf rfl nofun
  have hfreeNone : Value.none.FloatFree := Value.everywhere_of_leaf rfl nofun
  exact ⟨(Entity.cast_display hfreeThree hthree).1 hbefore,
    (Entity.cast_display hfreeNone hnone).2 (List.mem_cons_of_mem _ List.mem_cons_self)⟩

/-- **A string that takes the place of another one**: the source form of the second literal is the
content of the first. -/
theorem string_chosen_for_literal :
    Entity.unionMembers [.value (.str "'a'"), .value (.str "a")] =
      [.value (.str "'a'"), .value (.str "a")] ∧
    (Value.str "a").display = "'a'" ∧
    Entity.cast (.union [.value (.str "'a'"), .value (.str "a")]) "'a'" = .ok (.str "'a'") ∧
    ¬ ∀ (types : List Entity) (v : Value), v.FloatFree → .value v ∈ Entity.unionMembers types →
      Entity.cast (.union (Entity.unionMembers types)) v.display = .ok v := by
  have hmembers : Entity.unionMembers [.value (.str "'a'"), .value (.str "a")] =
      [.value (.str "'a'"), .value (.str "a")] := dedup_eq_self (by unfold Distinct; decide)
  have hdisplay : (Value.str "a").display = "'a'" := by decide
  have hcast : Entity.cast (.union [.value (.str "'a'"), .value (.str "a")]) "'a'" =
      .ok (.str "'a'") := rfl
  refine ⟨hmembers, hdisplay, hcast, fun hall => ?_⟩
  have hfree : (Value.str "a").FloatFree := Value.everywhere_of_leaf rfl nofun
  have hchosen := hall [.value (.str "'a'"), .value (.str "a")] (.str "a") hfree
    (by rw [hmembers]; exact List.mem_cons_of_mem _ List.mem_cons_self)
  rw [hmembers, hdisplay, hcast] at hchosen
  exact absurd (Value.str.inj (Except.ok.inj hchosen)) (by decide)

end Sample

end DocTree
