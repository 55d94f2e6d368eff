import DocTree.Proofs.Literal.Inline
import DocTree.Resolver

/-!
# Resolving what was written

Built-in types and values are resolved from their written forms, whatever the host and the names
outside its modules are: their names come first, and no other written form is a dotted name.

* `Entity.IsPlain`: a built-in type, or a value that may be read and holds no floating-point number;
* `not_isDottedName_text`: only constants have the form of a name;
* **`resolve_display`**: the written form of a plain entity stands for it.
-/

namespace DocTree

open Text Literal

/-- A built-in type, or a value that may be read and holds no floating-point number. -/
def Entity.IsPlain : Entity → Prop
  | .builtin _ => True
  | .value v => v.IsLiteral
  | _ => False

/-! ## Dotted names -/

theorem mem_of_isDottedName {s : String} (h : isDottedName s = true) {c : Char}
    (hc : c ∈ s.toList) : c.isAlphanum = true ∨ c = '_' ∨ c = '.' := by
  by_cases hdot : c = '.'
  · exact .inr (.inr hdot)
  · have hkept : c ∈ (splitWhere (· == '.') s.toList).flatten := by
      rw [flatten_splitWhere]
      exact List.mem_filter.mpr ⟨hc, by simpa using hdot⟩
    obtain ⟨piece, hpiece, hc⟩ := List.mem_flatten.mp hkept
    have hname := List.all_eq_true.mp h piece hpiece
    cases piece with
    | nil => cases hc
    | cons d cs =>
      rw [isAsciiName, Bool.and_eq_true, Bool.or_eq_true, beq_iff_eq] at hname
      rcases List.mem_cons.mp hc with rfl | hc
      · refine hname.1.imp (fun halpha => ?_) .inl
        rw [Char.isAlphanum, halpha, Bool.true_or]
      · have := List.all_eq_true.mp hname.2 c hc
        rw [Bool.or_eq_true, beq_iff_eq] at this
        exact this.imp id .inl

theorem not_isDigit_of_isAlpha {c : Char} (h : c.isAlpha = true) : c.isDigit = false := by
  rw [Bool.eq_false_iff]
  intro hdigit
  have h9 : '9'.toNat = 57 := rfl
  have hrange := (digit_range hdigit).2
  have hletter := letter_range h
  omega

/-- A dotted name begins with a letter or an underscore. -/
theorem first_of_isDottedName {s : String} (h : isDottedName s = true) :
    ∃ c cs, s.toList = c :: cs ∧ (c.isAlpha = true ∨ c = '_') := by
  cases hs : s.toList with
  | nil =>
    rw [isDottedName, hs] at h
    cases h
  | cons c cs =>
    rw [isDottedName, hs, splitWhere] at h
    split at h
    · cases h
    · obtain ⟨piece, hfirst⟩ : ∃ piece, isAsciiName (c :: piece) = true := by
        split at h
        · exact ⟨[], List.all_eq_true.mp h _ List.mem_cons_self⟩
        · exact ⟨_, List.all_eq_true.mp h _ List.mem_cons_self⟩
      rw [isAsciiName, Bool.and_eq_true, Bool.or_eq_true, beq_iff_eq] at hfirst
      exact ⟨c, cs, rfl, hfirst.1⟩

/-- A dotted name does not begin with a digit. -/
theorem not_isDigit_of_isDottedName {s : String} (h : isDottedName s = true) {c : Char}
    {cs : List Char} (hs : s.toList = c :: cs) : c.isDigit = false := by
  obtain ⟨d, ds, hcons, hfirst⟩ := first_of_isDottedName h
  obtain ⟨rfl, -⟩ := List.cons_eq_cons.mp (hs.symm.trans hcons)
  rcases hfirst with halpha | rfl
  · exact not_isDigit_of_isAlpha halpha
  · rfl

/-- **Only constants have the form of a name.** -/
theorem not_isDottedName_text {v : Value} (hv : ∀ x, v ≠ .float x)
    (hconstant : ∀ name, (name, v) ∉ constants) : isDottedName v.display = false := by
  rw [Bool.eq_false_iff]
  intro h
  have hnone : ∀ c ∈ ['-', '\'', '"', '(', '[', '{'], c ∉ text v := by
    intro c hc hmem
    have hother : ∀ c ∈ ['-', '\'', '"', '(', '[', '{'],
        ¬ (c.isAlphanum = true ∨ c = '_' ∨ c = '.') := by decide
    exact hother c hc (mem_of_isDottedName h hmem)
  rcases text_cases hv with ⟨name, hname⟩ | ⟨n, rfl⟩ | ⟨lead, -, left, hleft, mid, right, -, htext⟩
  · exact hconstant name hname
  · obtain ⟨c, cs, htext, -⟩ := text_opens hv
    rcases mem_text_int (htext ▸ List.mem_cons_self) with rfl | hdigit
    · exact hnone '-' (by decide) (htext ▸ List.mem_cons_self)
    · rw [not_isDigit_of_isDottedName h htext] at hdigit
      cases hdigit
  · exact hnone left (List.mem_cons_of_mem _ hleft) (by rw [htext]; simp)

/-! ## Resolving -/

namespace Resolver

/-- The names that come first are dotted names. -/
theorem isDottedName_of_builtin? {token : String} {e : Entity} (h : builtin? token = some e) :
    isDottedName token = true := by
  unfold builtin? at h
  split at h
  · next heq => rw [heq]; decide
  · split at h
    · next heq => rw [heq]; decide
    · split at h
      · next heq => rw [heq]; decide
      · split at h
        · next heq => rw [heq]; decide
        · obtain ⟨b, hb, -⟩ := Option.map_eq_some_iff.mp h
          have hname := List.find?_some hb
          rw [← eq_of_beq hname]
          cases b <;> decide

theorem builtin?_constant {name : String} {v : Value} (h : (name, v) ∈ constants) :
    builtin? v.display = some (.value v) := by
  simp only [constants, List.mem_cons, Prod.mk.injEq, List.not_mem_nil, or_false] at h
  rcases h with ⟨-, rfl⟩ | ⟨-, rfl⟩ | ⟨-, rfl⟩ | ⟨-, rfl⟩ <;> rfl

theorem resolve_of_builtin? (r : Resolver) (ctx : Context) {token : String} {e : Entity}
    (htoken : trim token = token) (h : builtin? token = some e) : r.resolve ctx token = .ok e := by
  have hfirst : r.apply ctx token .builtin = some e := h
  rw [resolve, htoken, Strategy.order, List.findSome?_cons, hfirst]

theorem trim_display {v : Value} (hv : ∀ x, v ≠ .float x) : trim v.display = v.display :=
  trim_of_tight (tight_text hv)

/-- A value that does not have the form of a name is read as a literal. -/
theorem resolve_literal (r : Resolver) (ctx : Context) {v : Value} (hv : v.IsLiteral)
    (hname : isDottedName v.display = false) : r.resolve ctx v.display = .ok (.value v) := by
  have hbuiltin : r.apply ctx v.display .builtin = none := by
    cases hb : r.apply ctx v.display .builtin with
    | none => rfl
    | some e =>
      rw [isDottedName_of_builtin? hb] at hname
      cases hname
  have hmodule : r.apply ctx v.display .module = none := by
    rw [apply, hname]
    rfl
  have hscope : r.apply ctx v.display .scope = none := by
    rw [apply, hname]
    rfl
  have hliteral : r.apply ctx v.display .literal = some (.value v) := by
    rw [apply, read_display hv]
    rfl
  rw [resolve, trim_display hv.floatFree.self, Strategy.order, List.findSome?_cons, hbuiltin]
  dsimp only
  rw [List.findSome?_cons, hmodule]
  dsimp only
  rw [List.findSome?_cons, hscope]
  dsimp only
  rw [List.findSome?_cons, hliteral]

/-- **The written form of a plain entity stands for it.** -/
theorem resolve_display (r : Resolver) (ctx : Context) {e : Entity} (he : e.IsPlain) :
    r.resolve ctx e.display = .ok e := by
  cases e with
  | builtin b =>
    refine resolve_of_builtin? r ctx ?_ ?_
    · cases b <;> rfl
    · cases b <;> rfl
  | value v =>
    by_cases hconstant : ∃ name, (name, v) ∈ constants
    · obtain ⟨name, hname⟩ := hconstant
      exact resolve_of_builtin? r ctx (trim_display he.floatFree.self) (builtin?_constant hname)
    · exact resolve_literal r ctx he
        (not_isDottedName_text he.floatFree.self (not_exists.mp hconstant))
  | _ => exact he.elim

end Resolver

end DocTree
