import DocTree.Proofs.Token.Same

/-!
# Unions

A union is made of the alternatives of a type without those that repeat. Sameness is no equivalence,
as NaN differs from itself; but it is symmetric, and the members that are left differ both ways.

* `Entity.AreMembers`: two or more entities, no two of them the same, and none of them a union;
* `Entity.areMembers_unionMembers`: what is left of several alternatives is of this kind.
-/

namespace DocTree

namespace Entity

/-- Two or more entities, no two of them the same, and none of them a union. -/
structure AreMembers (members : List Entity) : Prop where
  two_le : 2 ≤ members.length
  distinct : ∀ (i j : Nat) (hi : i < members.length) (hj : j < members.length), i ≠ j →
    (members[i] == members[j]) = false
  flat : ∀ m ∈ members, ∀ inner, m ≠ .union inner

/-- What is left of several alternatives are members of a union, unless a single one is left. -/
theorem areMembers_unionMembers {types : List Entity} (hne : types ≠ [])
    (hflat : ∀ t ∈ types, ∀ inner, t ≠ .union inner) (hmany : (unionMembers types).length ≠ 1) :
    AreMembers (unionMembers types) where
  two_le := by
    have hpos : 0 < (unionMembers types).length := List.length_pos_iff.mpr (dedup_ne_nil hne)
    omega
  distinct i j hi hj hij := by
    have hlater : ∀ (i j : Nat) (hi : i < (unionMembers types).length)
        (hj : j < (unionMembers types).length), i < j →
          ((unionMembers types)[j] == (unionMembers types)[i]) = false :=
      List.pairwise_iff_getElem.mp (distinct_dedup types)
    rcases Nat.lt_or_gt_of_ne hij with hlt | hgt
    · exact (same_comm _ _).trans (hlater i j hi hj hlt)
    · exact hlater j i hj hi hgt
  flat m hm := hflat m (mem_of_mem_dedup hm)

end Entity

end DocTree
