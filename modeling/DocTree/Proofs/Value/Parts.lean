import DocTree.Decimal.Reader
import DocTree.Proofs.Value.Dedup

/-!
# The parts of a value

* `Value.HasPart`, `Value.Everywhere`: what a value is made of, **at any depth**, and a property of
  all of it;
* `Value.FloatFree`: no floating-point number is part of the value;
* `Value.AsRead`, `Value.IsRead`: what is true of the values that are read from texts. An integer
  has 64 bits, a floating-point number is not NaN, bytes are ASCII, and neither the members of a set
  nor the keys of a dict repeat;
* `Value.IsLiteral`: both at once;
* **`Value.eq_of_same`**: without floating-point numbers, only equal values are the same.
-/

namespace DocTree

/-- No key is the same as a later one. -/
def DistinctKeys (pairs : List (Value × Value)) : Prop :=
  pairs.Pairwise fun p q => (p.1 == q.1) = false

namespace Value

/-- The values that stand directly in a value. -/
def children : Value → List Value
  | tuple items | list items | set items => items
  | dict pairs => pairs.flatMap fun pair => [pair.1, pair.2]
  | _ => []

/-- The second value is part of the first, or the first itself. -/
inductive HasPart : Value → Value → Prop where
  | self (v : Value) : HasPart v v
  | child {v c u : Value} (hc : c ∈ v.children) (h : HasPart c u) : HasPart v u

/-- `P` holds of the value and of all its parts. -/
def Everywhere (P : Value → Prop) (v : Value) : Prop := ∀ u, v.HasPart u → P u

/-- No floating-point number is part of the value. -/
def FloatFree (v : Value) : Prop := v.Everywhere fun u => ∀ x, u ≠ .float x

/-- What is true of a value that is read, apart from its parts. -/
def AsRead : Value → Prop
  | int n => n.natAbs ≤ Decimal.maxInt64
  | float x => x.isNaN = false
  | bytes data => ∀ b ∈ data, b.toNat < 0x80
  | set items => Distinct items
  | dict pairs => DistinctKeys pairs
  | _ => True

/-- The value may have been read. -/
def IsRead (v : Value) : Prop := v.Everywhere AsRead

/-- The value may have been read, and no floating-point number is part of it. -/
structure IsLiteral (v : Value) : Prop where
  isRead : v.IsRead
  floatFree : v.FloatFree

/-! ## Everywhere -/

section Everywhere

variable {P : Value → Prop} {v : Value}

theorem everywhere_iff : v.Everywhere P ↔ P v ∧ ∀ c ∈ v.children, c.Everywhere P := by
  constructor
  · exact fun h => ⟨h v (.self v), fun c hc u hu => h u (.child hc hu)⟩
  · rintro ⟨hv, hchildren⟩ u hu
    cases hu with
    | self _ => exact hv
    | child hc hu => exact hchildren _ hc u hu

theorem Everywhere.self (h : v.Everywhere P) : P v := h v (.self v)

theorem Everywhere.child (h : v.Everywhere P) {c : Value} (hc : c ∈ v.children) :
    c.Everywhere P := (everywhere_iff.mp h).2 c hc

theorem everywhere_of_leaf (hleaf : v.children = []) (h : P v) : v.Everywhere P :=
  everywhere_iff.mpr ⟨h, fun _ hc => absurd hc (hleaf ▸ List.not_mem_nil)⟩

theorem sizeOf_lt_of_mem_children {c : Value} (hc : c ∈ v.children) : sizeOf c < sizeOf v := by
  cases v with
  | tuple items | list items | set items =>
    have : sizeOf c < sizeOf items := List.sizeOf_lt_of_mem hc
    simp only [tuple.sizeOf_spec, list.sizeOf_spec, set.sizeOf_spec]
    omega
  | dict pairs =>
    obtain ⟨pair, hpair, hc⟩ := List.mem_flatMap.mp hc
    have := List.sizeOf_lt_of_mem hpair
    have hsize : sizeOf pair = 1 + sizeOf pair.1 + sizeOf pair.2 := rfl
    rw [dict.sizeOf_spec]
    rcases List.mem_cons.mp hc with rfl | hc
    · omega
    · obtain rfl := List.mem_singleton.mp hc
      omega
  | _ => cases hc

/-- What holds of a value follows from what holds of its parts. -/
theorem induction_parts {P : Value → Prop} (h : ∀ v, (∀ c ∈ v.children, P c) → P v) (v : Value) :
    P v := by
  induction hn : sizeOf v using Nat.strongRecOn generalizing v with
  | ind n ih => exact h v fun c hc => ih _ (hn ▸ sizeOf_lt_of_mem_children hc) c rfl

theorem mem_children_dict {pairs : List (Value × Value)} {c : Value} :
    c ∈ (dict pairs).children ↔ ∃ pair ∈ pairs, c = pair.1 ∨ c = pair.2 := by
  simp [children]

end Everywhere

theorem IsLiteral.child {v c : Value} (h : v.IsLiteral) (hc : c ∈ v.children) : c.IsLiteral :=
  ⟨h.isRead.child hc, h.floatFree.child hc⟩

theorem isLiteral_of_leaf {v : Value} (hleaf : v.children = []) (hread : v.AsRead)
    (hfloat : ∀ x, v ≠ .float x) : v.IsLiteral :=
  ⟨everywhere_of_leaf hleaf hread, everywhere_of_leaf hleaf hfloat⟩

theorem isLiteral_of_children {v : Value} (hread : v.AsRead) (hfloat : ∀ x, v ≠ .float x)
    (h : ∀ c ∈ v.children, c.IsLiteral) : v.IsLiteral :=
  ⟨everywhere_iff.mpr ⟨hread, fun c hc => (h c hc).isRead⟩,
    everywhere_iff.mpr ⟨hfloat, fun c hc => (h c hc).floatFree⟩⟩

/-! ## Sameness -/

mutual

/-- **Without floating-point numbers, only equal values are the same.** -/
theorem eq_of_same : ∀ {v w : Value}, v.FloatFree → same v w = true → v = w
  | none, w, _, h => by cases w <;> first | rfl | cases h
  | ellipsis, w, _, h => by cases w <;> first | rfl | cases h
  | bool a, w, _, h => by
    cases w with
    | bool b => exact congrArg bool (eq_of_beq h)
    | _ => cases h
  | int a, w, _, h => by
    cases w with
    | int b => exact congrArg int (eq_of_beq h)
    | _ => cases h
  | float a, _, hfree, _ => (hfree.self a rfl).elim
  | str a, w, _, h => by
    cases w with
    | str b => exact congrArg str (eq_of_beq h)
    | _ => cases h
  | bytes a, w, _, h => by
    cases w with
    | bytes b => exact congrArg bytes (eq_of_beq h)
    | _ => cases h
  | tuple as, w, hfree, h => by
    cases w with
    | tuple bs => exact congrArg tuple (eq_of_sameItems (fun _ ha => hfree.child ha) h)
    | _ => cases h
  | list as, w, hfree, h => by
    cases w with
    | list bs => exact congrArg list (eq_of_sameItems (fun _ ha => hfree.child ha) h)
    | _ => cases h
  | set as, w, hfree, h => by
    cases w with
    | set bs => exact congrArg set (eq_of_sameItems (fun _ ha => hfree.child ha) h)
    | _ => cases h
  | dict ps, w, hfree, h => by
    cases w with
    | dict qs =>
      refine congrArg dict (eq_of_samePairs (fun p hp => ?_) h)
      exact ⟨hfree.child (mem_children_dict.mpr ⟨p, hp, .inl rfl⟩),
        hfree.child (mem_children_dict.mpr ⟨p, hp, .inr rfl⟩)⟩
    | _ => cases h

theorem eq_of_sameItems : ∀ {as bs : List Value}, (∀ a ∈ as, a.FloatFree) →
    sameItems as bs = true → as = bs
  | [], [], _, _ => rfl
  | a :: as, b :: bs, hfree, h => by
    obtain ⟨ha, has⟩ := List.forall_mem_cons.mp hfree
    obtain ⟨hab, hrest⟩ := Bool.and_eq_true_iff.mp h
    rw [eq_of_same ha hab, eq_of_sameItems has hrest]

theorem eq_of_samePairs : ∀ {ps qs : List (Value × Value)},
    (∀ p ∈ ps, p.1.FloatFree ∧ p.2.FloatFree) → samePairs ps qs = true → ps = qs
  | [], [], _, _ => rfl
  | (a, x) :: ps, (b, y) :: qs, hfree, h => by
    obtain ⟨⟨ha, hx⟩, hps⟩ := List.forall_mem_cons.mp hfree
    obtain ⟨hkey, hrest⟩ := Bool.and_eq_true_iff.mp h
    obtain ⟨hab, hxy⟩ := Bool.and_eq_true_iff.mp hkey
    obtain rfl : a = b := eq_of_same ha hab
    obtain rfl : x = y := eq_of_same hx hxy
    rw [eq_of_samePairs hps hrest]

end

end Value

end DocTree
