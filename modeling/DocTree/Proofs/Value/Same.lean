import Mathlib
import DocTree.Proofs.Value.Parts

/-!
# Sameness of values

Two values are compared part by part, down to the floating-point numbers in them. One of these, NaN,
differs from itself, so sameness is no equivalence; but it is symmetric.

* `Value.same_comm`: **sameness is symmetric**;
* `Value.NotNaN`, `Value.same_self_iff`: **a value is the same as itself if no NaN is part of it**.
-/

namespace DocTree

/-! ## Sameness is symmetric -/

namespace Value

mutual

theorem same_comm : ∀ v w : Value, same v w = same w v
  | none, w => by cases w <;> rfl
  | ellipsis, w => by cases w <;> rfl
  | bool a, w => by
    cases w with
    | bool b => exact BEq.comm
    | _ => rfl
  | int a, w => by
    cases w with
    | int b => exact BEq.comm
    | _ => rfl
  | float x, w => by
    cases w with
    | float y => exact BEq.comm
    | _ => rfl
  | str a, w => by
    cases w with
    | str b => exact BEq.comm
    | _ => rfl
  | bytes a, w => by
    cases w with
    | bytes b => exact BEq.comm
    | _ => rfl
  | tuple as, w => by
    cases w with
    | tuple bs => exact sameItems_comm as bs
    | _ => rfl
  | list as, w => by
    cases w with
    | list bs => exact sameItems_comm as bs
    | _ => rfl
  | set as, w => by
    cases w with
    | set bs => exact sameItems_comm as bs
    | _ => rfl
  | dict ps, w => by
    cases w with
    | dict qs => exact samePairs_comm ps qs
    | _ => rfl

theorem sameItems_comm : ∀ as bs : List Value, sameItems as bs = sameItems bs as
  | [], [] => rfl
  | [], _ :: _ => rfl
  | _ :: _, [] => rfl
  | a :: as, b :: bs => by rw [sameItems, sameItems, same_comm a b, sameItems_comm as bs]

theorem samePairs_comm : ∀ ps qs : List (Value × Value), samePairs ps qs = samePairs qs ps
  | [], [] => rfl
  | [], _ :: _ => rfl
  | _ :: _, [] => rfl
  | (a, x) :: ps, (b, y) :: qs => by
    rw [samePairs, samePairs, same_comm a b, same_comm x y, samePairs_comm ps qs]

end

end Value

/-! ## Without NaN -/

namespace Value

/-- The value is not NaN. No other value without parts differs from itself. -/
def NotNaN : Value → Prop
  | float x => x.isNaN = false
  | _ => True

/-- The only number that differs from itself is NaN. -/
theorem same_float_self_iff (x : Float) : same (float x) (float x) = true ↔ x.isNaN = false := by
  rw [Float.isNaN_eq_decide_eq_nan, decide_eq_false_iff_not]
  exact Float.beq_self_iff

theorem sameItems_self_iff {items : List Value} :
    sameItems items items = true ↔ ∀ a ∈ items, same a a = true := by
  induction items with
  | nil => exact ⟨fun _ _ h => (nomatch h), fun _ => rfl⟩
  | cons a items ih => rw [sameItems, Bool.and_eq_true, ih, List.forall_mem_cons]

theorem samePairs_self_iff {pairs : List (Value × Value)} :
    samePairs pairs pairs = true ↔ ∀ c ∈ (dict pairs).children, same c c = true := by
  induction pairs with
  | nil => exact ⟨fun _ _ h => (nomatch h), fun _ => rfl⟩
  | cons pair pairs ih =>
    change _ ↔ ∀ c ∈ pair.1 :: pair.2 :: (dict pairs).children, same c c = true
    rw [samePairs, Bool.and_eq_true, Bool.and_eq_true, ih, List.forall_mem_cons,
      List.forall_mem_cons, and_assoc]

/-- Without parts, only NaN differs from itself; otherwise all depends on the parts. -/
theorem same_self_iff_children (v : Value) :
    same v v = true ↔ v.NotNaN ∧ ∀ c ∈ v.children, same c c = true := by
  have hleaf : ∀ {p : Prop}, p ↔ p ∧ ∀ c ∈ ([] : List Value), same c c = true :=
    (and_iff_left fun _ h => nomatch h).symm
  have htrivial : ∀ {p : Prop}, p ↔ True ∧ p := (and_iff_right trivial).symm
  cases v with
  | none | ellipsis => exact (iff_of_true rfl trivial).trans hleaf
  | bool _ | int _ | str _ | bytes _ =>
    exact (iff_of_true (beq_self_eq_true _) trivial).trans hleaf
  | float x => exact (same_float_self_iff x).trans hleaf
  | tuple items | list items | set items => exact sameItems_self_iff.trans htrivial
  | dict pairs => exact samePairs_self_iff.trans htrivial

/-- **A value is the same as itself if no NaN is part of it**, and only then. -/
theorem same_self_iff {v : Value} : same v v = true ↔ v.Everywhere NotNaN := by
  induction v using induction_parts with
  | h v ih =>
    rw [same_self_iff_children, everywhere_iff]
    exact and_congr_right fun _ => forall₂_congr ih

/-- A value without floating-point numbers is the same as itself. -/
theorem same_self {v : Value} (hv : v.FloatFree) : same v v = true := by
  refine same_self_iff.mpr fun u hu => ?_
  cases u with
  | float x => exact (hv _ hu x rfl).elim
  | _ => trivial

/-- A value that is read is the same as itself. -/
theorem IsRead.same_self {v : Value} (hv : v.IsRead) : same v v = true := by
  refine same_self_iff.mpr fun u hu => ?_
  cases u with
  | float x => exact hv _ hu
  | _ => trivial

end Value

end DocTree
