import DocTree.Proofs.Literal.Adjacent
import DocTree.Proofs.Names
import DocTree.Proofs.Resolve

/-!
# Literals among the strategies

Built-in names come first. From there on, it makes no difference when literals are tried: no token
is both a literal and a name to be looked up.

* `Resolver.resolveBy`: the strategies in another order;
* `readWord_eq_ok`: a word without quotes and brackets behind it is read only if it is a constant;
* **`read_dottedName_iff`**: the dotted names that are literals;
* `Resolver.apply_literal_comm`: behind the built-in names, literals and any other strategy may
  change places;
* **`Resolver.resolve_literal_anywhere`**: so they may stand anywhere.
-/

namespace DocTree

open Text Literal

/-! ## Dotted names as literals -/

/-- A word is a constant if there is neither a quote nor a bracket in the text. -/
theorem readWord_eq_ok {cs rest : List Char} {v : Value}
    (hcs : ∀ c ∈ cs, isQuote c = false ∧ c ≠ '(') (h : readWord cs = .ok (v, rest)) :
    (String.ofList (cs.takeWhile isWordChar), v) ∈ constants ∧ rest = cs.dropWhile isWordChar := by
  have hbehind : ∀ c ∈ cs.dropWhile isWordChar, isQuote c = false ∧ c ≠ '(' := fun c hc =>
    hcs c ((List.dropWhile_suffix _).mem hc)
  have hquote : (cs.dropWhile isWordChar).head?.any isQuote = false := by
    cases hdrop : cs.dropWhile isWordChar with
    | nil => rfl
    | cons c tail => exact (hbehind c (hdrop ▸ List.mem_cons_self)).1
  unfold readWord at h
  dsimp only at h
  rw [hquote, Bool.false_and, if_neg Bool.false_ne_true] at h
  split at h
  · next _ hword => rw [hword]; cases h; exact ⟨by simp [constants], rfl⟩
  · next _ hword => rw [hword]; cases h; exact ⟨by simp [constants], rfl⟩
  · next _ hword => rw [hword]; cases h; exact ⟨by simp [constants], rfl⟩
  · next _ hword => rw [hword]; cases h; exact ⟨by simp [constants], rfl⟩
  · next hdrop => exact absurd rfl (hbehind '(' (hdrop ▸ List.mem_cons_self)).2
  · cases h

/-- A text that begins like a name is a word. -/
theorem readForm_first (part : List Char → Except Stopped (Front Value)) {c : Char}
    (h : c.isAlpha = true ∨ c = '_') (cs : List Char) :
    readForm part (c :: cs) = readWord (c :: cs) := by
  rcases h with hletter | rfl
  · exact readForm_letter part hletter cs
  · rfl

/-- A letter or a digit of ASCII is neither a quote nor a bracket, and it may stand in a word. -/
theorem alphanum_classes {c : Char} (h : c.isAlphanum = true) :
    isQuote c = false ∧ c ≠ '(' ∧ isWordChar c = true := by
  have hascii : ∀ n < 0x80, (Char.ofNat n).isAlphanum = true →
      isQuote (Char.ofNat n) = false ∧ Char.ofNat n ≠ '(' ∧ isWordChar (Char.ofNat n) = true := by
    decide
  have hlt : c.toNat < 0x80 := by
    rw [Char.isAlphanum, Bool.or_eq_true] at h
    have h9 : '9'.toNat = 57 := rfl
    rcases h with halpha | hdigit
    · have hrange := letter_range halpha
      omega
    · have hrange := (digit_range hdigit).2
      omega
  have hclasses := hascii c.toNat hlt
  rw [Char.ofNat_toNat] at hclasses
  exact hclasses h

theorem chars_of_isDottedName {token : String} (h : isDottedName token = true) {c : Char}
    (hc : c ∈ token.toList) : isQuote c = false ∧ c ≠ '(' ∧ (isWordChar c = true ∨ c = '.') := by
  rcases mem_of_isDottedName h hc with halphanum | rfl | rfl
  · exact (alphanum_classes halphanum).imp_right (.imp_right .inl)
  · decide
  · decide

/-- A word in a dotted name ends with it or before a dot. -/
theorem head?_dropWhile_of_isDottedName {token : String} (h : isDottedName token = true) :
    ∀ c ∈ (token.toList.dropWhile isWordChar).head?, c = '.' := by
  intro c hc
  have hword : isWordChar c = false := by
    have hhead := List.head?_dropWhile_not isWordChar token.toList
    rwa [Option.mem_def.mp hc] at hhead
  have hmem := (List.dropWhile_suffix _).mem (List.mem_of_head? hc)
  rcases (chars_of_isDottedName h hmem).2.2 with hchar | hdot
  · rw [hchar] at hword
    cases hword
  · exact hdot

/-- **The dotted names that are literals** are the constants. -/
theorem read_dottedName_iff {token : String} (h : isDottedName token = true) {v : Value} :
    Literal.read token = .ok v ↔ (token, v) ∈ constants := by
  constructor
  · intro hread
    obtain ⟨c, cs, htoken, hfirst⟩ := first_of_isDottedName h
    have hform : readValue token.toList.length token.toList = readWord token.toList := by
      rw [htoken]
      exact readForm_first _ hfirst cs
    cases hword : readWord token.toList with
    | error stopped =>
      rw [read_of_readValue_error (hform.trans hword)] at hread
      cases hread
    | ok front =>
      obtain ⟨w, rest⟩ := front
      obtain ⟨hconstant, hrest⟩ := readWord_eq_ok (fun c hc =>
        (chars_of_isDottedName h hc).imp_right And.left) hword
      have hdot := head?_dropWhile_of_isDottedName h
      rw [← hrest] at hdot
      -- Behind the word there is nothing or a dot, and a dot is no part of a literal.
      cases rest with
      | nil =>
        rw [read_of_readValue (hform.trans hword) nofun] at hread
        cases hread
        have hwhole : token.toList.takeWhile isWordChar = token.toList := by
          have hsplit := List.takeWhile_append_dropWhile (p := isWordChar) (l := token.toList)
          rwa [← hrest, List.append_nil] at hsplit
        rwa [hwhole, String.ofList_toList] at hconstant
      | cons d rest =>
        obtain rfl := hdot d rfl
        rw [read_of_readValue (hform.trans hword) (by simp [skipSpace, isSpace])] at hread
        cases hread
  · intro hconstant
    simp only [constants, List.mem_cons, Prod.mk.injEq, List.not_mem_nil, or_false] at hconstant
    rcases hconstant with ⟨rfl, rfl⟩ | ⟨rfl, rfl⟩ | ⟨rfl, rfl⟩ | ⟨rfl, rfl⟩ <;> rfl

namespace Resolver

variable (r : Resolver) (ctx : Context) (token : String)

/-- Resolve a token as `resolve` does, with the strategies in another order. -/
def resolveBy (order : List Strategy) : Except Error Entity :=
  let token := Text.trim token
  match order.findSome? (r.apply ctx token) with
  | some entity => .ok entity
  | none => .error (.unresolved token ctx.object)

theorem resolve_eq_resolveBy : r.resolve ctx token = r.resolveBy ctx token Strategy.order := rfl

variable {r ctx token}

theorem builtin?_of_mem_constants {v : Value} (h : (token, v) ∈ constants) :
    builtin? token = some (.value v) := by
  simp only [constants, List.mem_cons, Prod.mk.injEq, List.not_mem_nil, or_false] at h
  rcases h with ⟨rfl, rfl⟩ | ⟨rfl, rfl⟩ | ⟨rfl, rfl⟩ | ⟨rfl, rfl⟩ <;> rfl

/-- Only literals stand for anything that is not a dotted name. -/
theorem apply_of_not_isDottedName (h : isDottedName token = false) {strategy : Strategy}
    (hstrategy : strategy ≠ .literal) : r.apply ctx token strategy = none := by
  cases strategy with
  | builtin =>
    cases hbuiltin : r.apply ctx token .builtin with
    | none => rfl
    | some e =>
      rw [isDottedName_of_builtin? hbuiltin] at h
      cases h
  | literal => exact absurd rfl hstrategy
  | _ =>
    rw [apply, h]
    rfl

/-- A dotted name that is not built in is no literal. -/
theorem apply_literal_of_isDottedName (h : isDottedName token = true)
    (hbuiltin : builtin? token = none) : r.apply ctx token .literal = none := by
  cases hread : Literal.read token with
  | error e => rw [apply, hread]; rfl
  | ok v =>
    rw [builtin?_of_mem_constants ((read_dottedName_iff h).mp hread)] at hbuiltin
    cases hbuiltin

/-- **Behind the built-in names, literals and any other strategy may change places.** -/
theorem apply_literal_comm (hbuiltin : builtin? token = none) (strategy : Strategy) :
    (r.apply ctx token strategy).or (r.apply ctx token .literal) =
      (r.apply ctx token .literal).or (r.apply ctx token strategy) := by
  by_cases hstrategy : strategy = .literal
  · rw [hstrategy]
  · cases hname : isDottedName token with
    | true => rw [apply_literal_of_isDottedName hname hbuiltin, Option.or_none, Option.none_or]
    | false => rw [apply_of_not_isDottedName hname hstrategy, Option.or_none, Option.none_or]

theorem findSome?_cons_or {α β : Type} (f : α → Option β) (a : α) (l : List α) :
    (a :: l).findSome? f = (f a).or (l.findSome? f) := by
  rw [List.findSome?_cons]
  cases f a <;> rfl

/-- Literals may be tried before any strategies that stand in front of them. -/
theorem findSome?_literal (hbuiltin : builtin? token = none) (before after : List Strategy) :
    (before ++ .literal :: after).findSome? (r.apply ctx token) =
      (.literal :: (before ++ after)).findSome? (r.apply ctx token) := by
  induction before with
  | nil => rfl
  | cons strategy before ih =>
    rw [List.cons_append, findSome?_cons_or, ih, List.cons_append, findSome?_cons_or,
      findSome?_cons_or, findSome?_cons_or, ← Option.or_assoc, apply_literal_comm hbuiltin,
      Option.or_assoc]

theorem resolveBy_literal (before after : List Strategy) :
    r.resolveBy ctx token (.builtin :: (before ++ .literal :: after)) =
      r.resolveBy ctx token (.builtin :: .literal :: (before ++ after)) := by
  rw [resolveBy, resolveBy]
  rw [findSome?_cons_or, findSome?_cons_or]
  cases hbuiltin : builtin? (trim token) with
  | none => rw [findSome?_literal hbuiltin]
  | some e =>
    have hfirst : r.apply ctx (trim token) .builtin = some e := hbuiltin
    rw [hfirst, Option.some_or, Option.some_or]

/-- **Literals may stand anywhere behind the built-in names.** A token resolves to the same entity,
or fails with the same error. For the only dotted names that are literals are the constants, and what
is both a literal and a name to be looked up is built in. -/
theorem resolve_literal_anywhere (r : Resolver) (ctx : Context) (token : String) :
    (∀ before after, before ++ after = [.module, .scope, .dottedPath] →
      r.resolveBy ctx token (.builtin :: (before ++ .literal :: after)) = r.resolve ctx token) ∧
    (isDottedName token = true → ∀ v, Literal.read token = .ok v ↔ (token, v) ∈ constants) ∧
    ∀ v e strategy, Literal.read token = .ok v → strategy ≠ .literal →
      r.apply ctx token strategy = some e → builtin? token = some (.value v) := by
  refine ⟨fun before after h => ?_, fun hname v => read_dottedName_iff hname,
    fun v e strategy hread hstrategy happly => ?_⟩
  · have horder : Strategy.order = .builtin :: ([.module, .scope] ++ .literal :: [.dottedPath]) := rfl
    rw [resolve_eq_resolveBy, horder, resolveBy_literal, resolveBy_literal, h]
    rfl
  · cases hname : isDottedName token with
    | true => exact builtin?_of_mem_constants ((read_dottedName_iff hname).mp hread)
    | false =>
      rw [apply_of_not_isDottedName hname hstrategy] at happly
      cases happly

end Resolver

namespace Sample

/-- A name is bound to a module though it is a literal. -/
def shadowing : Resolver := ⟨host, NameMap.empty.insert "None" (.module "m")⟩

theorem resolve_literal_anywhere_of_none :
    let ctx : Context := ⟨"m", "m.f"⟩
    [] ++ [Strategy.module, .scope, .dottedPath] = [.module, .scope, .dottedPath] ∧
    shadowing.resolveBy ctx "None" [.builtin, .literal, .module, .scope, .dottedPath] =
      shadowing.resolve ctx "None" ∧
    isDottedName "None" = true ∧
    (Literal.read "None" = .ok .none ↔ ("None", Value.none) ∈ constants) ∧
    Literal.read "None" = .ok .none ∧
    shadowing.apply ctx "None" .scope = some (.module "m") ∧
    Resolver.builtin? "None" = some (.value .none) := by
  intro ctx
  obtain ⟨horder, hname, hlookup⟩ := Resolver.resolve_literal_anywhere shadowing ctx "None"
  have hread : Literal.read "None" = .ok .none := rfl
  have hscope : shadowing.apply ctx "None" .scope = some (.module "m") := rfl
  exact ⟨rfl, horder [] _ rfl, rfl, hname rfl .none, hread, hscope,
    hlookup _ _ .scope hread (by decide) hscope⟩

end Sample

end DocTree
