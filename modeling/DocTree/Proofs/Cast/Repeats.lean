import DocTree.Proofs.Cast.Belongs
import DocTree.Proofs.Literal.RoundTrip
import DocTree.Proofs.Token.Unions

/-!
# Sets and dicts without repeats

No member of a set and no key of a dict comes twice in what is read from a text, at any depth. A
cast keeps this, but for one conversion: the elements of a list that is cast to a set stay as they
are.

* `Value.PairwiseUnequal`, `Value.NoRepeats`: no repeats, **at any depth**;
* `Literal.noRepeats_of_read`: what is read;
* `Entity.Source`, `Entity.source_of_cast`: where the value of a cast comes from;
* **`Entity.cast_noRepeats`**: when a value that is cast has repeats.
-/

namespace DocTree

namespace Value

/-- No two of the values are equal, whichever of them is compared with the other. -/
def PairwiseUnequal (values : List Value) : Prop :=
  values.Pairwise fun a b => (a == b) = false ∧ (b == a) = false

/-- No member of the set, or no key of the dict, comes twice. -/
def OnceEach : Value → Prop
  | set items => PairwiseUnequal items
  | dict pairs => PairwiseUnequal (pairs.map Prod.fst)
  | _ => True

/-- No set and no dict in the value has repeats. -/
def NoRepeats (v : Value) : Prop := v.Everywhere OnceEach

theorem pairwiseUnequal_iff {values : List Value} :
    PairwiseUnequal values ↔ values.Pairwise fun a b => (a == b) = false := by
  refine ⟨fun h => h.imp And.left, fun h => h.imp fun {a b} hne => ⟨hne, ?_⟩⟩
  exact (same_comm b a).trans hne

theorem AsRead.onceEach {v : Value} (h : v.AsRead) : v.OnceEach := by
  cases v with
  | set items =>
    refine pairwiseUnequal_iff.mpr (h.imp fun {a b} hne => ?_)
    exact (same_comm a b).trans hne
  | dict pairs => exact pairwiseUnequal_iff.mpr (List.pairwise_map.mpr h)
  | _ => trivial

theorem noRepeats_of_leaf {v : Value} (hleaf : v.children = []) : v.NoRepeats := by
  refine everywhere_of_leaf hleaf ?_
  cases v with
  | set items =>
    obtain rfl : items = [] := hleaf
    exact .nil
  | dict pairs =>
    cases pairs with
    | nil => exact .nil
    | cons pair pairs => cases hleaf
  | _ => trivial

theorem noRepeats_tuple {items : List Value} (h : (list items).NoRepeats) :
    (tuple items).NoRepeats :=
  everywhere_iff.mpr ⟨trivial, (everywhere_iff.mp h).2⟩

/-- The elements of a list are a set without repeats if they are unequal. -/
theorem noRepeats_set_iff {items : List Value} (h : (list items).NoRepeats) :
    (set items).NoRepeats ↔ PairwiseUnequal items :=
  ⟨fun hset => hset.self, fun hitems => everywhere_iff.mpr ⟨hitems, (everywhere_iff.mp h).2⟩⟩

end Value

open Value

/-- **What is read from a text has no repeats.** -/
theorem Literal.noRepeats_of_read {text : String} {v : Value} (h : read text = .ok v) :
    v.NoRepeats :=
  fun u hu => (isRead_of_read h u hu).onceEach

theorem Builtin.leaf_or_container_of_cast {b : Builtin} {text : String} {v : Value}
    (h : b.cast text = .ok v) : v.children = [] ∨ b.castContainer text = .ok v := by
  cases b with
  | str | object | bytes =>
    cases h
    exact .inl rfl
  | bool =>
    obtain ⟨truth, -, rfl⟩ := ok_of_map h
    exact .inl rfl
  | int | float =>
    unfold cast at h
    dsimp only at h
    split at h
    · cases h
      exact .inl rfl
    · cases h
  | complex | type => cases h
  | list | tuple | dict | set | frozenSet => exact .inr h

namespace Entity

/-- Where the value of a cast comes from. -/
inductive Source (t : Entity) (text : String) : Value → Prop where
  /-- A literal of the type. -/
  | literal {v : Value} (h : t.HasAlternative (.value v)) : Source t text v
  /-- A scalar. -/
  | leaf {v : Value} (h : v.children = []) : Source t text v
  | read {v : Value} (h : Literal.read text = .ok v) : Source t text v
  | listToTuple {items : List Value} (h : Literal.read text = .ok (.list items)) :
      Source t text (.tuple items)
  | listToSet {items : List Value} (h : Literal.read text = .ok (.list items)) :
      Source t text (.set items)

theorem source_of_cast {t : Entity} {text : String} {v : Value} (h : t.cast text = .ok v) :
    t.Source text v := by
  obtain ⟨a, ha, hgives⟩ := exists_alternative_of_cast t h
  cases hgives with
  | value => exact .literal ha
  | builtin hcast =>
    rcases Builtin.leaf_or_container_of_cast hcast with hleaf | hcontainer
    · exact .leaf hleaf
    · rcases Builtin.castContainer_eq_ok hcontainer with
        ⟨hread, -⟩ | ⟨items, hread, ⟨-, rfl⟩ | ⟨-, rfl⟩⟩
      · exact .read hread
      · exact .listToTuple hread
      · exact .listToSet hread

/-- **Sets and dicts without repeats.** What is read from a text has none. Nor has what a text is
cast to, if the literals of the type were read themselves, unless it is the set of a list: then it
has repeats exactly if the list has two equal elements, and none further inside. -/
theorem cast_noRepeats {t : Entity} {text : String}
    (hread : ∀ v, t.HasAlternative (.value v) → ∃ source, Literal.read source = .ok v) :
    (∀ source v, Literal.read source = .ok v → v.NoRepeats) ∧
    ∀ v, t.cast text = .ok v →
      (∀ c ∈ v.children, c.NoRepeats) ∧
      (v.NoRepeats ↔
        ∀ items, Literal.read text = .ok (.list items) → v = .set items → PairwiseUnequal items) := by
  refine ⟨fun source v => Literal.noRepeats_of_read, fun v h => ?_⟩
  have hdone : v.NoRepeats → (∀ c ∈ v.children, c.NoRepeats) ∧ (v.NoRepeats ↔
      ∀ items, Literal.read text = .ok (.list items) → v = .set items → PairwiseUnequal items) := by
    intro hv
    refine ⟨fun c hc => hv.child hc, iff_of_true hv ?_⟩
    rintro items - rfl
    exact hv.self
  cases source_of_cast h with
  | literal hliteral =>
    obtain ⟨source, hsource⟩ := hread v hliteral
    exact hdone (Literal.noRepeats_of_read hsource)
  | leaf hleaf => exact hdone (noRepeats_of_leaf hleaf)
  | read hv => exact hdone (Literal.noRepeats_of_read hv)
  | listToTuple hlist => exact hdone (noRepeats_tuple (Literal.noRepeats_of_read hlist))
  | @listToSet items hlist =>
    have hitems := Literal.noRepeats_of_read hlist
    refine ⟨fun c hc => hitems.child hc, (noRepeats_set_iff hitems).trans ?_⟩
    constructor
    · rintro hunequal _ - ⟨⟩
      exact hunequal
    · exact fun hunequal => hunequal items hlist rfl

end Entity

namespace Sample

theorem floatFree_int (n : Int) : (Value.int n).FloatFree := everywhere_of_leaf rfl nofun

/-- A set, or the one that is written out. -/
def oneOrSet : Entity := .union [.value (.set [.int 1]), .builtin .set]

/-- The set of a list that holds a set. -/
theorem cast_noRepeats_of_list :
    (∀ w, oneOrSet.HasAlternative (.value w) → ∃ source, Literal.read source = .ok w) ∧
    oneOrSet.cast "[1, \x7b2, 2\x7d]" = .ok (.set [.int 1, .set [.int 2]]) ∧
    (Value.set [.int 1, .set [.int 2]]).NoRepeats := by
  have hliterals : ∀ w, oneOrSet.HasAlternative (.value w) →
      ∃ source, Literal.read source = .ok w := by
    rintro w (_ | ⟨hm, hw⟩)
    simp only [List.mem_cons, List.not_mem_nil, or_false] at hm
    rcases hm with rfl | rfl
    · cases hw
      have hfree : (Value.set [.int 1]).FloatFree :=
        everywhere_iff.mpr ⟨nofun, List.forall_mem_singleton.mpr (floatFree_int 1)⟩
      exact ⟨"\x7b1\x7d", Literal.read_eq_of_same hfree (by decide +kernel)⟩
    · cases hw
  have hread : Literal.read "[1, \x7b2, 2\x7d]" = .ok (.list [.int 1, .set [.int 2]]) := by
    have hset : (Value.set [.int 2]).FloatFree :=
      everywhere_iff.mpr ⟨nofun, List.forall_mem_singleton.mpr (floatFree_int 2)⟩
    have hfree : (Value.list [.int 1, .set [.int 2]]).FloatFree :=
      everywhere_iff.mpr ⟨nofun, List.forall_mem_cons.mpr
        ⟨floatFree_int 1, List.forall_mem_singleton.mpr hset⟩⟩
    exact Literal.read_eq_of_same hfree (by decide +kernel)
  have hset : Entity.cast (.builtin .set) "[1, \x7b2, 2\x7d]" =
      .ok (.set [.int 1, .set [.int 2]]) := by
    rw [Entity.cast, Builtin.cast, Builtin.castContainer, hread]
    rfl
  have hcast : oneOrSet.cast "[1, \x7b2, 2\x7d]" = .ok (.set [.int 1, .set [.int 2]]) := by
    refine Entity.cast_union_eq_ok_iff.mpr (Option.or_eq_some_iff.mpr (.inr ⟨rfl, ?_⟩))
    simp [Entity.castFirst, Entity.isValue, hset]
  refine ⟨hliterals, hcast, ((Entity.cast_noRepeats hliterals).2 _ hcast).2.mpr ?_⟩
  rintro items - ⟨⟩
  unfold PairwiseUnequal
  decide +kernel

/-- **A list with two equal elements** is cast to a set that has them both, though the same elements
in braces are a set of one. -/
theorem list_cast_to_set_repeats :
    Entity.cast (.builtin .set) "[1, 1]" = .ok (.set [.int 1, .int 1]) ∧
    Literal.read "\x7b1, 1\x7d" = .ok (.set [.int 1]) ∧
    ¬ ∀ (t : Entity) (text : String) (v : Value),
      (∀ w, t.HasAlternative (.value w) → ∃ source, Literal.read source = .ok w) →
        t.cast text = .ok v → v.NoRepeats := by
  have hset : (Value.set [.int 1]).FloatFree :=
    everywhere_iff.mpr ⟨nofun, List.forall_mem_singleton.mpr (floatFree_int 1)⟩
  have hlist : (Value.list [.int 1, .int 1]).FloatFree :=
    everywhere_iff.mpr ⟨nofun, List.forall_mem_cons.mpr
      ⟨floatFree_int 1, List.forall_mem_singleton.mpr (floatFree_int 1)⟩⟩
  have hread : Literal.read "[1, 1]" = .ok (.list [.int 1, .int 1]) :=
    Literal.read_eq_of_same hlist (by decide +kernel)
  have hcast : Entity.cast (.builtin .set) "[1, 1]" = .ok (.set [.int 1, .int 1]) := by
    rw [Entity.cast, Builtin.cast, Builtin.castContainer, hread]
    rfl
  refine ⟨hcast, Literal.read_eq_of_same hset (by decide +kernel), fun hall => ?_⟩
  have hset := (hall _ _ _ (fun w hw => by cases hw) hcast).self
  have hne : (Value.int 1 == .int 1) = false := (List.pairwise_pair.mp hset).1
  cases hne

end Sample

end DocTree
