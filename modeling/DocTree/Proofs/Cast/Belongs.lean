import DocTree.Cast
import DocTree.Proofs.Results

/-!
# What a cast gives

A value that a text is cast to belongs to the type, and the cast to a union fails only if no member
of it takes the text.

* `Builtin.castContainer_eq_ok`, `Builtin.accepts_of_cast`: **the built-in types**, one by one;
* `Entity.Contains`: the values that belong to a type;
* `Entity.selected?_eq_some`, `Entity.selected?_eq_none_iff`: the literals of a union;
* `Entity.castFirst_eq_none_iff`: its other members;
* `Entity.HasAlternative`, `Entity.exists_alternative_of_cast`: **one alternative gives the value**,
  by recursion over nested unions;
* **`Entity.cast_contained`**: all of it at once.
-/

namespace DocTree

/-- A text selects a literal by its source form, or a string by its content. -/
theorem Value.selectedBy_iff {v : Value} {text : String} :
    v.selectedBy text = true ↔ text = v.display ∨ v = .str text := by
  unfold selectedBy
  cases v with
  | str s => simp [or_comm, eq_comm (a := text)]
  | _ => simp [eq_comm (a := text)]

/-! ## Built-in types -/

namespace Builtin

variable {b : Builtin} {text : String} {v : Value}

/-- A container is what the text is read as, or a list is converted to a tuple or a set. -/
theorem castContainer_eq_ok (h : b.castContainer text = .ok v) :
    (Literal.read text = .ok v ∧ b.accepts v = true) ∨
      ∃ items, Literal.read text = .ok (.list items) ∧
        (b = .tuple ∧ v = .tuple items ∨ (b = .set ∨ b = .frozenSet) ∧ v = .set items) := by
  unfold castContainer at h
  split at h
  · next hread =>
    split at h
    · next haccepts =>
      cases h
      exact .inl ⟨hread, haccepts⟩
    · split at h
      · cases h
        exact .inr ⟨_, hread, .inl ⟨rfl, rfl⟩⟩
      · cases h
        exact .inr ⟨_, hread, .inr ⟨.inl rfl, rfl⟩⟩
      · cases h
        exact .inr ⟨_, hread, .inr ⟨.inr rfl, rfl⟩⟩
      · cases h
  · cases h

theorem accepts_of_castContainer (h : b.castContainer text = .ok v) : b.accepts v = true := by
  rcases castContainer_eq_ok h with
    ⟨-, haccepts⟩ | ⟨items, -, ⟨rfl, rfl⟩ | ⟨rfl | rfl, rfl⟩⟩
  · exact haccepts
  all_goals rfl

/-- **A text is cast to values of the built-in type only.** -/
theorem accepts_of_cast (h : b.cast text = .ok v) : b.accepts v = true := by
  cases b with
  | str | object | bytes =>
    cases h
    rfl
  | bool =>
    obtain ⟨truth, -, rfl⟩ := ok_of_map h
    rfl
  | int | float =>
    unfold cast at h
    dsimp only at h
    split at h
    · cases h
      rfl
    · cases h
  | complex | type => cases h
  | list | tuple | dict | set | frozenSet => exact accepts_of_castContainer h

end Builtin

namespace Entity

/-- The value belongs to the type. A literal is the type of its own value, and a union has the
values of its members. No value is known to belong to a class or a function. -/
inductive Contains : Entity → Value → Prop where
  | builtin {b : Builtin} {v : Value} (h : b.accepts v = true) : Contains (.builtin b) v
  | value (v : Value) : Contains (.value v) v
  | union {members : List Entity} {m : Entity} {v : Value} (hm : m ∈ members) (h : Contains m v) :
      Contains (.union members) v

/-! ## The members of a union -/

section Members

variable {members : List Entity} {text : String}

theorem selected?_eq_some {v : Value} (h : selected? members text = some v) :
    .value v ∈ members ∧ v.selectedBy text = true := by
  obtain ⟨m, hm, hv⟩ := List.exists_of_findSome?_eq_some h
  obtain ⟨hvalue, hselected⟩ := Option.filter_eq_some_iff.mp hv
  cases m with
  | value w =>
    cases hvalue
    exact ⟨hm, hselected⟩
  | _ => cases hvalue

theorem selected?_eq_none_iff :
    selected? members text = none ↔ ∀ v, .value v ∈ members → v.selectedBy text = false := by
  rw [selected?, List.findSome?_eq_none_iff]
  constructor
  · intro h v hv
    simpa [value?] using h _ hv
  · intro h m hm
    cases m with
    | value v => simpa [value?] using h v hm
    | _ => rfl

theorem isValue_eq_false_iff {m : Entity} : m.isValue = false ↔ ∀ v, m ≠ .value v := by
  cases m <;> simp [isValue]

/-- **No member takes the text** exactly if each cast of its own fails. Literals are not cast. -/
theorem castFirst_eq_none_iff :
    castFirst members text = none ↔
      ∀ m ∈ members, (∀ v, m ≠ .value v) → ∃ e, m.cast text = .error e := by
  induction members with
  | nil => simp [castFirst]
  | cons m ms ih =>
    rw [castFirst, List.forall_mem_cons, ← ih, ← isValue_eq_false_iff]
    cases m.isValue with
    | true => simp
    | false => cases m.cast text <;> simp

theorem cast_union_eq_ok_iff {v : Value} :
    cast (.union members) text = .ok v ↔
      (selected? members text).or (castFirst members text) = some v := by
  rw [cast]
  cases (selected? members text).or (castFirst members text) <;> simp

end Members

/-! ## Any type -/

/-- The second type is the first one, or a member of a union in it. -/
inductive HasAlternative : Entity → Entity → Prop where
  | self (t : Entity) : HasAlternative t t
  | member {members : List Entity} {m t : Entity} (hm : m ∈ members) (h : HasAlternative m t) :
      HasAlternative (.union members) t

theorem HasAlternative.contains {t a : Entity} {v : Value} (h : t.HasAlternative a)
    (ha : a.Contains v) : t.Contains v := by
  induction h with
  | self t => exact ha
  | member hm _ ih => exact .union hm (ih ha)

/-- The type gives the value for the text by itself, as no union does. -/
inductive Gives (text : String) (v : Value) : Entity → Prop where
  | value (h : v.selectedBy text = true) : Gives text v (.value v)
  | builtin {b : Builtin} (h : b.cast text = .ok v) : Gives text v (.builtin b)

section Alternatives

variable {text : String} {v : Value}

mutual

/-- **One alternative of the type gives the value**, however deep in it. -/
theorem exists_alternative_of_cast :
    ∀ t : Entity, t.cast text = .ok v → ∃ a, t.HasAlternative a ∧ a.Gives text v
  | .builtin b, h => by
    rw [cast] at h
    exact ⟨_, .self _, .builtin h⟩
  | .value w, h => by
    rw [cast] at h
    split at h
    · next hselected =>
      cases h
      exact ⟨_, .self _, .value hselected⟩
    · cases h
  | .union members, h => by
    rcases Option.or_eq_some_iff.mp (cast_union_eq_ok_iff.mp h) with hvalue | ⟨-, hfirst⟩
    · obtain ⟨hmem, hselected⟩ := selected?_eq_some hvalue
      exact ⟨_, .member hmem (.self _), .value hselected⟩
    · obtain ⟨m, hm, a, ha, hgives⟩ := exists_alternative_of_castFirst members hfirst
      exact ⟨a, .member hm ha, hgives⟩
  | .function _, h => nomatch h
  | .class _, h => nomatch h
  | .module _, h => nomatch h
  | .expanded _, h => nomatch h

theorem exists_alternative_of_castFirst :
    ∀ members : List Entity, castFirst members text = some v →
      ∃ m ∈ members, ∃ a, m.HasAlternative a ∧ a.Gives text v
  | [], h => nomatch h
  | m :: ms, h => by
    have hlater : castFirst ms text = some v →
        ∃ m' ∈ m :: ms, ∃ a, m'.HasAlternative a ∧ a.Gives text v := by
      intro h
      obtain ⟨m', hm', ha⟩ := exists_alternative_of_castFirst ms h
      exact ⟨m', List.mem_cons_of_mem m hm', ha⟩
    rw [castFirst] at h
    split at h
    · exact hlater h
    · split at h
      · next hcast =>
        cases h
        exact ⟨m, List.mem_cons_self, exists_alternative_of_cast m hcast⟩
      · exact hlater h

end

/-- **A text is cast to values of the type only.** -/
theorem contains_of_cast {t : Entity} (h : t.cast text = .ok v) : t.Contains v := by
  obtain ⟨a, ha, hgives⟩ := exists_alternative_of_cast t h
  cases hgives with
  | value => exact ha.contains (.value v)
  | builtin hcast => exact ha.contains (.builtin (Builtin.accepts_of_cast hcast))

end Alternatives

/-- **A cast gives a value of the type, and a union leaves no member untried.** The cast to a union
fails exactly if the text is neither the source form nor the content of one of its literals and the
cast to each other member fails. -/
theorem cast_contained (text : String) :
    (∀ (t : Entity) (v : Value), t.cast text = .ok v → t.Contains v) ∧
    ∀ members : List Entity,
      (∃ e, cast (.union members) text = .error e) ↔
        (∀ v, .value v ∈ members → text ≠ v.display ∧ v ≠ .str text) ∧
        ∀ m ∈ members, (∀ v, m ≠ .value v) → ∃ e, m.cast text = .error e := by
  refine ⟨fun t v => contains_of_cast, fun members => ?_⟩
  have hliterals : selected? members text = none ↔
      ∀ v, .value v ∈ members → text ≠ v.display ∧ v ≠ .str text := by
    rw [selected?_eq_none_iff]
    refine forall₂_congr fun v _ => ?_
    rw [← Bool.not_eq_true, Value.selectedBy_iff, not_or]
  have hfails : (∃ e, cast (.union members) text = .error e) ↔
      selected? members text = none ∧ castFirst members text = none := by
    rw [cast]
    cases selected? members text <;> cases castFirst members text <;> simp
  rw [hfails, hliterals, castFirst_eq_none_iff]

end Entity

namespace Sample

/-- A string, and a union within the union. -/
def choices : List Entity := [.value (.str "8"), .union [.builtin .int, .value .none]]

theorem cast_contained_of_choices :
    Entity.cast (.union choices) "9" = .ok (.int 9) ∧ (Entity.union choices).Contains (.int 9) ∧
    (∃ e, Entity.cast (.union choices) "x" = .error e) ∧
    ∃ e, Entity.cast (.union [.builtin .int, .value .none]) "x" = .error e := by
  have hint : Entity.cast (.union choices) "9" = .ok (.int 9) := rfl
  have hfails : ∃ e, Entity.cast (.union choices) "x" = .error e := ⟨_, rfl⟩
  have hinner := (((Entity.cast_contained "x").2 choices).mp hfails).2
  exact ⟨hint, (Entity.cast_contained "9").1 _ _ hint, hfails,
    hinner _ (List.mem_cons_of_mem _ List.mem_cons_self) nofun⟩

end Sample

end DocTree
