import Mathlib.Tactic.SplitIfs
import DocTree.Text.Scan

/-!
# What the scanner passes over

A text is cut nowhere if the characters at which it could be cut do not stand outside quotes and
brackets.

* `Scans`: the way of the scanner through such a text (`Scans.append`);
* `ScanState.run_deeper`: between brackets, a balanced text has nothing that stands outside;
* `splitTop_pieces`, `scans_of_splitTopFrom`: **pieces with separators between them are cut apart**,
  and the pieces of a text are of this kind;
* `ScanState.Proper.eq_outside`: white space at the end of a text has no part in its balance;
* `Clear`: a text in which nothing that stands outside is a hit, given its neighbours;
* `Clear.cutTopFrom`: what has been passed over stands before the cut;
* `cutAssignment_none`, `cutAssignment_append`: a text without an assignment, and one with it;
* `cutColon_append`, `cutColon_eq_some`: **the first field colon cuts a text exactly if what is
  behind it is balanced**, and the parts and the colon make up the text.
-/

namespace DocTree.Text

open ScanState

/-- A character at which the body of a type field may be cut. -/
def isSeparator (c : Char) : Bool := c == '|' || c == '='

/-- The scanner goes from a state to another one, and no character that satisfies `p` stands outside
on the way. -/
inductive Scans (p : Char → Bool) : ScanState → List Char → ScanState → Prop where
  | nil (st : ScanState) : Scans p st [] st
  | cons {st mid st' : ScanState} {c : Char} {cs : List Char} (hc : st = outside → p c = false)
      (hstep : st.step c = some mid) (h : Scans p mid cs st') : Scans p st (c :: cs) st'

section Scans

variable {p : Char → Bool} {st mid st' : ScanState} {cs ds : List Char}

theorem Scans.append (h : Scans p st cs mid) (h' : Scans p mid ds st') :
    Scans p st (cs ++ ds) st' := by
  induction h with
  | nil => exact h'
  | cons hc hstep _ ih => exact .cons hc hstep (ih h')

theorem Scans.of_append (h : Scans p st (cs ++ ds) st') :
    ∃ mid, Scans p st cs mid ∧ Scans p mid ds st' := by
  induction cs generalizing st with
  | nil => exact ⟨st, .nil st, h⟩
  | cons c cs ih =>
    cases h with
    | cons hc hstep hrest =>
      obtain ⟨mid, hcs, hds⟩ := ih hrest
      exact ⟨mid, .cons hc hstep hcs, hds⟩

theorem Scans.mono {q : Char → Bool} (h : Scans p st cs st')
    (hpq : ∀ c, p c = false → q c = false) : Scans q st cs st' := by
  induction h with
  | nil => exact .nil _
  | cons hc hstep _ ih => exact .cons (fun hst => hpq _ (hc hst)) hstep ih

theorem scans_one {c : Char} (hc : st = outside → p c = false) (hstep : st.step c = some st') :
    Scans p st [c] st' := .cons hc hstep (.nil _)

theorem ScanState.step_of_not_isDelimiter {c : Char} (h : isDelimiter c = false) (depth : Nat) :
    step (.plain depth) c = some (.plain depth) := by
  simp only [isDelimiter, Bool.or_eq_false_iff] at h
  simp [step, h]

/-- Characters that do not change the state. -/
theorem scans_of_forall (hcs : ∀ c ∈ cs, p c = false) (hstep : ∀ c ∈ cs, st.step c = some st) :
    Scans p st cs st := by
  induction cs with
  | nil => exact .nil st
  | cons c cs ih =>
    obtain ⟨hc, hcs⟩ := List.forall_mem_cons.mp hcs
    obtain ⟨hfirst, hstep⟩ := List.forall_mem_cons.mp hstep
    exact .cons (fun _ => hc) hfirst (ih hcs hstep)

theorem scans_flatMap {α : Type} {l : List α} {f : α → List Char}
    (h : ∀ a ∈ l, Scans p st (f a) st) : Scans p st (l.flatMap f) st := by
  induction l with
  | nil => exact .nil st
  | cons a l ih =>
    obtain ⟨ha, hl⟩ := List.forall_mem_cons.mp h
    rw [List.flatMap_cons]
    exact ha.append (ih hl)

theorem ScanState.run_nil_eq_some : st.run [] = some st' ↔ st = st' := Option.some_inj

theorem ScanState.run_cons_eq_some {c : Char} :
    st.run (c :: cs) = some st' ↔ ∃ mid, st.step c = some mid ∧ mid.run cs = some st' := by
  rw [ScanState.run, List.foldlM_cons]
  exact Option.bind_eq_some_iff

theorem Scans.run (h : Scans p st cs st') : st.run cs = some st' := by
  induction h with
  | nil => rfl
  | cons _ hstep _ ih => exact run_cons_eq_some.mpr ⟨_, hstep, ih⟩

/-- What the scanner finds outside does not satisfy `p`. -/
theorem Scans.not_outside {l r : List Char} {c : Char} (h : Scans p st (l ++ c :: r) st')
    (hl : st.run l = some outside) : p c = false := by
  induction l generalizing st with
  | nil =>
    cases h with
    | cons hc _ _ => exact hc (run_nil_eq_some.mp hl)
  | cons a l ih =>
    cases h with
    | cons _ hstep hrest =>
      obtain ⟨mid, hmid, hl⟩ := run_cons_eq_some.mp hl
      obtain rfl := Option.some.inj (hstep.symm.trans hmid)
      exact ih hrest hl

/-- What has been passed over has no part in the balance. -/
theorem Scans.balancedFrom_append (h : Scans p st cs st') (rest : List Char) :
    balancedFrom st (cs ++ rest) = balancedFrom st' rest := by
  have hrun := h.run
  simp only [ScanState.run] at hrun
  simp [balancedFrom, ScanState.run, List.foldlM_append, hrun]

/-! ## Between brackets -/

/-- The same state behind one more opening bracket. -/
def ScanState.deeper : ScanState → ScanState
  | plain d => plain (d + 1)
  | quoted d q escaped => quoted (d + 1) q escaped

theorem ScanState.deeper_ne_outside (st : ScanState) : st.deeper ≠ outside := by
  cases st <;> simp [deeper, outside]

theorem ScanState.step_deeper {c : Char} (h : st.step c = some st') :
    st.deeper.step c = some st'.deeper := by
  cases st with
  | quoted d q escaped =>
    cases escaped with
    | true => cases h; rfl
    | false =>
      simp only [step, Option.some.injEq] at h
      subst h
      simp only [deeper, step]
      split_ifs <;> rfl
  | plain d =>
    simp only [step] at h
    simp only [deeper, step]
    split_ifs at h ⊢ with hquote hopen hclose
    · cases h; rfl
    · cases h; rfl
    · cases d with
      | zero => cases h
      | succ d => cases h; rfl
    · cases h; rfl

/-- **A text that can be read can be read between brackets, and nothing in it stands outside.** -/
theorem ScanState.run_deeper (h : st.run cs = some st') : Scans p st.deeper cs st'.deeper := by
  induction cs generalizing st with
  | nil =>
    obtain rfl := run_nil_eq_some.mp h
    exact .nil _
  | cons c cs ih =>
    obtain ⟨mid, hstep, hrest⟩ := run_cons_eq_some.mp h
    exact .cons (fun hout => absurd hout st.deeper_ne_outside) (step_deeper hstep) (ih hrest)

/-! ## Cutting apart -/

/-- What has been scanned becomes part of the first piece. -/
theorem Scans.splitTopFrom (h : Scans p st cs st') {sep : Char} (hp : p sep = true)
    (rest : List Char) :
    splitTopFrom sep st (cs ++ rest) =
      (splitTopFrom sep st' rest).map fun pieces => cs.foldr consPiece pieces := by
  induction h with
  | nil => exact Option.map_id'.symm
  | cons hc hstep _ ih =>
    rw [List.cons_append, Text.splitTopFrom, if_neg, hstep]
    · change Option.map _ _ = _
      rw [ih, Option.map_map]
      rfl
    · rintro ⟨hst, -, rfl⟩
      rw [hc hst] at hp
      cases hp

theorem foldr_consPiece (cs piece : List Char) (pieces : List (List Char)) :
    cs.foldr consPiece (piece :: pieces) = (cs ++ piece) :: pieces := by
  induction cs with
  | nil => rfl
  | cons c cs ih => rw [List.foldr_cons, ih]; rfl

/-- **Pieces with separators between them are cut apart.** -/
theorem splitTop_pieces {sep : Char} (hsep : isDelimiter sep = false) (hp : p sep = true)
    {first : List Char} {pieces : List (List Char)}
    (h : ∀ piece ∈ first :: pieces, Scans p outside piece outside) :
    splitTop sep ([sep].intercalate (first :: pieces)) = some (first :: pieces) := by
  induction pieces generalizing first with
  | nil =>
    have hfirst := (h first List.mem_cons_self).splitTopFrom hp []
    rw [List.append_nil] at hfirst
    rw [List.intercalate_singleton, splitTop, hfirst, Text.splitTopFrom, if_pos rfl,
      Option.map_some, foldr_consPiece, List.append_nil]
  | cons second pieces ih =>
    obtain ⟨hfirst, hrest⟩ := List.forall_mem_cons.mp h
    have hsplit := ih hrest
    have hcut : outside = outside ∧ ¬ isDelimiter sep = true ∧ sep = sep :=
      ⟨rfl, Bool.eq_false_iff.mp hsep, rfl⟩
    rw [splitTop] at hsplit
    rw [List.intercalate_cons_cons, List.append_assoc, List.singleton_append, splitTop,
      hfirst.splitTopFrom hp, Text.splitTopFrom, if_pos hcut, hsplit]
    change some (first.foldr consPiece ([] :: second :: pieces)) = _
    rw [foldr_consPiece, List.append_nil]

theorem splitTopFrom_ne_nil {sep : Char} {pieces : List (List Char)}
    (h : Text.splitTopFrom sep st cs = some pieces) : pieces ≠ [] := by
  cases cs with
  | nil =>
    rw [Text.splitTopFrom] at h
    split at h
    · obtain rfl := Option.some.inj h
      exact List.cons_ne_nil _ _
    · cases h
  | cons c cs =>
    rw [Text.splitTopFrom] at h
    split at h
    · obtain ⟨rest, _, rfl⟩ := Option.map_eq_some_iff.mp h
      exact List.cons_ne_nil _ _
    · obtain ⟨st', _, hrest⟩ := Option.bind_eq_some_iff.mp h
      obtain ⟨rest, _, rfl⟩ := Option.map_eq_some_iff.mp hrest
      cases rest <;> exact List.cons_ne_nil _ _

/-- **The pieces of a text.** With separators between them they are the text. Each is balanced, and
the separator does not stand outside in it. -/
theorem scans_of_splitTopFrom {sep : Char} (hsep : isDelimiter sep = false) {first : List Char}
    {pieces : List (List Char)} (h : Text.splitTopFrom sep st cs = some (first :: pieces)) :
    [sep].intercalate (first :: pieces) = cs ∧ Scans (· == sep) st first outside ∧
      ∀ piece ∈ pieces, Scans (· == sep) outside piece outside := by
  induction cs generalizing st first pieces with
  | nil =>
    rw [Text.splitTopFrom] at h
    split at h
    · next hst =>
      cases h
      exact ⟨rfl, hst ▸ .nil _, List.forall_mem_nil _⟩
    · cases h
  | cons c cs ih =>
    rw [Text.splitTopFrom] at h
    split at h
    · next hcut =>
      -- A cut: the piece that ends here is empty, and the next one begins outside.
      obtain ⟨hst, -, rfl⟩ := hcut
      obtain ⟨rest, hrest, heq⟩ := Option.map_eq_some_iff.mp h
      obtain ⟨rfl, rfl⟩ := List.cons_eq_cons.mp heq
      obtain ⟨second, rest, rfl⟩ := List.exists_cons_of_ne_nil (splitTopFrom_ne_nil hrest)
      obtain ⟨hjoin, hsecond, hscans⟩ := ih hrest
      refine ⟨?_, hst ▸ .nil _, List.forall_mem_cons.mpr ⟨hst ▸ hsecond, hscans⟩⟩
      rw [List.intercalate_cons_cons, hjoin]
      rfl
    · next hcut =>
      obtain ⟨mid, hstep, hmap⟩ := Option.bind_eq_some_iff.mp h
      obtain ⟨rest, hrest, heq⟩ := Option.map_eq_some_iff.mp hmap
      obtain ⟨second, rest, rfl⟩ := List.exists_cons_of_ne_nil (splitTopFrom_ne_nil hrest)
      obtain ⟨rfl, rfl⟩ := List.cons_eq_cons.mp heq
      obtain ⟨hjoin, hsecond, hscans⟩ := ih hrest
      refine ⟨?_, .cons (fun hst => beq_eq_false_iff_ne.mpr ?_) hstep hsecond, hscans⟩
      · rw [← hjoin]
        cases rest <;> rfl
      · rintro rfl
        exact hcut ⟨hst, Bool.eq_false_iff.mp hsep, rfl⟩

/-! ## White space -/

/-- The mark of a string is a quote mark. -/
def ScanState.Proper : ScanState → Prop
  | .plain _ => True
  | .quoted _ mark _ => isQuote mark = true

theorem ScanState.Proper.step {c : Char} (h : st.Proper) (hstep : st.step c = some st') :
    st'.Proper := by
  cases st with
  | quoted d mark escaped =>
    cases escaped with
    | true => cases hstep; exact h
    | false =>
      simp only [ScanState.step, Option.some.injEq] at hstep
      subst hstep
      split_ifs
      · exact h
      · exact trivial
      · exact h
  | plain d =>
    simp only [ScanState.step] at hstep
    split_ifs at hstep with hquote hopen hclose
    · cases hstep; exact hquote
    · cases hstep; exact trivial
    · cases d with
      | zero => cases hstep
      | succ d => cases hstep; exact trivial
    · cases hstep; exact trivial

theorem ScanState.Proper.run (h : st.Proper) (hrun : st.run cs = some st') : st'.Proper := by
  induction cs generalizing st with
  | nil =>
    obtain rfl := run_nil_eq_some.mp hrun
    exact h
  | cons c cs ih =>
    obtain ⟨mid, hstep, hrest⟩ := run_cons_eq_some.mp hrun
    exact ih (h.step hstep) hrest

theorem ScanState.step_space {c : Char} (hc : isSpace c = true) (d : Nat) :
    step (.plain d) c = some (.plain d) := by
  have hne : ∀ e, isSpace e = false → c ≠ e := by
    rintro _ he rfl
    rw [he] at hc
    cases hc
  refine step_of_not_isDelimiter ?_ d
  simp [isDelimiter, isQuote, isOpening, isClosing, hne '\'' rfl, hne '"' rfl, hne '(' rfl,
    hne '[' rfl, hne '{' rfl, hne ')' rfl, hne ']' rfl, hne '}' rfl]

theorem scans_space (hp : ∀ c, isSpace c = true → p c = false)
    (hspace : ∀ c ∈ cs, isSpace c = true) (d : Nat) : Scans p (.plain d) cs (.plain d) :=
  scans_of_forall (fun c hc => hp c (hspace c hc)) fun c hc => step_space (hspace c hc) d

/-- White space at the end does not lead outside. -/
theorem ScanState.Proper.eq_outside (h : st.Proper) (hspace : ∀ c ∈ cs, isSpace c = true)
    (hrun : st.run cs = some outside) : st = outside := by
  induction cs generalizing st with
  | nil => exact run_nil_eq_some.mp hrun
  | cons c cs ih =>
    obtain ⟨hc, hcs⟩ := List.forall_mem_cons.mp hspace
    obtain ⟨mid, hstep, hrest⟩ := run_cons_eq_some.mp hrun
    obtain rfl := ih (h.step hstep) hcs hrest
    cases st with
    | plain d =>
      rw [step_space hc] at hstep
      exact Option.some.inj hstep
    | quoted d mark escaped =>
      cases escaped with
      | true => cases hstep
      | false =>
        have hmark : c ≠ mark := by
          rintro rfl
          change isQuote c = true at h
          simp only [isQuote, Bool.or_eq_true, beq_iff_eq] at h
          rcases h with rfl | rfl <;> cases hc
        simp only [ScanState.step, Option.some.injEq] at hstep
        split_ifs at hstep <;> cases hstep

/-! ## Cutting once -/

theorem getLast?_cons_or {α : Type} (a : α) (l : List α) (before : Option α) :
    (a :: l).getLast?.or before = l.getLast?.or (some a) := by
  rw [List.getLast?_cons]
  cases l.getLast? <;> rfl

section Cut

variable {hit : Option Char → Char → Option Char → Bool}

/-- No character of `cs` that stands outside quotes and brackets is a hit, given its neighbours. The
scanner is in the state `st` in front of `cs`; `before` and `after` are the characters around it. -/
def Clear (hit : Option Char → Char → Option Char → Bool) (st : ScanState) (before : Option Char)
    (cs : List Char) (after : Option Char) : Prop :=
  ∀ l c r, cs = l ++ c :: r → st.run l = some outside →
    hit (l.getLast?.or before) c (r.head?.or after) = false

theorem clear_cons {before after : Option Char} {c : Char} :
    Clear hit st before (c :: cs) after ↔
      (st = outside → hit before c (cs.head?.or after) = false) ∧
        ∀ mid, st.step c = some mid → Clear hit mid (some c) cs after := by
  constructor
  · refine fun h => ⟨fun hst => h [] c cs rfl (congrArg some hst), ?_⟩
    rintro mid hstep l d r rfl hl
    have hclear := h (c :: l) d r rfl (run_cons_eq_some.mpr ⟨mid, hstep, hl⟩)
    rwa [getLast?_cons_or] at hclear
  · rintro ⟨hfirst, hrest⟩ l d r hcs hl
    cases l with
    | nil =>
      obtain ⟨rfl, rfl⟩ := List.cons_eq_cons.mp hcs
      exact hfirst (run_nil_eq_some.mp hl)
    | cons a l =>
      obtain ⟨rfl, rfl⟩ := List.cons_eq_cons.mp hcs
      obtain ⟨mid, hstep, hmid⟩ := run_cons_eq_some.mp hl
      rw [getLast?_cons_or]
      exact hrest mid hstep l d r rfl hmid

instance decidableClear : ∀ (st : ScanState) (before : Option Char) (cs : List Char)
    (after : Option Char), Decidable (Clear hit st before cs after)
  | _, _, [], _ => .isTrue fun l _ _ h => absurd h.symm (by simp)
  | st, before, c :: cs, after =>
    match hstep : st.step c with
    | none =>
      decidable_of_iff (st = outside → hit before c (cs.head?.or after) = false) <| by
        simp [clear_cons, hstep]
    | some mid =>
      have := decidableClear mid (some c) cs after
      decidable_of_iff ((st = outside → hit before c (cs.head?.or after) = false) ∧
        Clear hit mid (some c) cs after) <| by simp [clear_cons, hstep]

theorem Clear.append {before after : Option Char} (hcs : Clear hit st before cs (ds.head?.or after))
    (hrun : st.run cs = some mid) (hds : Clear hit mid (cs.getLast?.or before) ds after) :
    Clear hit st before (cs ++ ds) after := by
  induction cs generalizing st before with
  | nil =>
    obtain rfl := run_nil_eq_some.mp hrun
    exact hds
  | cons c cs ih =>
    obtain ⟨st', hstep, hrest⟩ := run_cons_eq_some.mp hrun
    obtain ⟨hfirst, htail⟩ := clear_cons.mp hcs
    rw [getLast?_cons_or] at hds
    rw [List.cons_append]
    refine clear_cons.mpr ⟨fun hst => ?_, fun mid' hmid => ?_⟩
    · rw [List.head?_append, Option.or_assoc]
      exact hfirst hst
    · obtain rfl := Option.some.inj (hstep.symm.trans hmid)
      exact ih (htail _ hstep) hrest hds

/-- Where no character that satisfies `p` stands outside, there is no hit among such characters. -/
theorem Scans.clear (h : Scans p st cs st')
    (hp : ∀ before c after, hit before c after = true → p c = true) (before after : Option Char) :
    Clear hit st before cs after := by
  rintro l c r rfl hl
  refine Bool.eq_false_iff.mpr fun hhit => ?_
  exact Bool.false_ne_true ((h.not_outside hl).symm.trans (hp _ _ _ hhit))

theorem scans_of_clear {before after : Option Char} (hrun : st.run cs = some st')
    (h : Clear (fun _ c _ => p c) st before cs after) : Scans p st cs st' := by
  induction cs generalizing st before with
  | nil =>
    obtain rfl := run_nil_eq_some.mp hrun
    exact .nil _
  | cons c cs ih =>
    obtain ⟨mid, hstep, hrest⟩ := run_cons_eq_some.mp hrun
    obtain ⟨hfirst, htail⟩ := clear_cons.mp h
    exact .cons hfirst hstep (ih hrest (htail mid hstep))

/-- **What is passed over without a hit becomes part of what stands before the cut.** -/
theorem Clear.cutTopFrom {before : Option Char} (rest : List Char)
    (h : Clear hit st before cs rest.head?) (hrun : st.run cs = some st') :
    cutTopFrom hit st before (cs ++ rest) =
      (cutTopFrom hit st' (cs.getLast?.or before) rest).map
        (Option.map fun (l, r) => (cs ++ l, r)) := by
  induction cs generalizing st before with
  | nil =>
    obtain rfl := run_nil_eq_some.mp hrun
    change Text.cutTopFrom hit st before rest = (Text.cutTopFrom hit st before rest).map _
    rcases Text.cutTopFrom hit st before rest with _ | _ | _ <;> rfl
  | cons c cs ih =>
    obtain ⟨mid, hstep, hrest⟩ := run_cons_eq_some.mp hrun
    obtain ⟨hfirst, htail⟩ := clear_cons.mp h
    rw [List.cons_append, Text.cutTopFrom, if_neg, hstep]
    · change Option.map _ (Text.cutTopFrom hit mid (some c) (cs ++ rest)) = _
      rw [ih (htail mid hstep) hrest, Option.map_map, getLast?_cons_or]
      congr 1
      funext cut
      cases cut <;> rfl
    · rintro ⟨hst, -, hhit⟩
      rw [List.head?_append] at hhit
      exact Bool.false_ne_true ((hfirst hst).symm.trans hhit)

/-- The first hit is the cut, if what is behind it is balanced. -/
theorem Clear.cutTopFrom_hit {c : Char} {rest : List Char} (h : Clear hit outside none cs (some c))
    (hrun : outside.run cs = some outside) (hc : isDelimiter c = false)
    (hhit : hit cs.getLast? c rest.head? = true) :
    Text.cutTopFrom hit outside none (cs ++ c :: rest) =
      if balanced rest then some (some (cs, rest)) else none := by
  have hfirst : outside = outside ∧ ¬ isDelimiter c = true ∧
      hit (cs.getLast?.or none) c rest.head? = true := by
    rw [Option.or_none, hc]
    exact ⟨rfl, Bool.false_ne_true, hhit⟩
  rw [Clear.cutTopFrom (c :: rest) h hrun, Text.cutTopFrom, if_pos hfirst, balanced]
  split
  · change some (some (cs ++ [], rest)) = _
    rw [List.append_nil]
  · rfl

/-- **Nothing but the character at the cut is lost.** -/
theorem cutTopFrom_eq_some {before : Option Char} {l r : List Char}
    (h : cutTopFrom hit st before cs = some (some (l, r))) :
    ∃ before c, cs = l ++ c :: r ∧ hit before c r.head? = true := by
  induction cs generalizing st before l with
  | nil =>
    rw [cutTopFrom] at h
    split at h <;> simp at h
  | cons c cs ih =>
    rw [cutTopFrom] at h
    split at h
    · next hcut =>
      split at h
      · cases h
        exact ⟨before, c, rfl, hcut.2.2⟩
      · cases h
    · obtain ⟨mid, -, hrest⟩ := Option.bind_eq_some_iff.mp h
      obtain ⟨cut, hcut, hmap⟩ := Option.map_eq_some_iff.mp hrest
      obtain ⟨⟨l', r'⟩, rfl, hpair⟩ := Option.map_eq_some_iff.mp hmap
      cases hpair
      obtain ⟨b, d, rfl, hhit⟩ := ih hcut
      exact ⟨b, d, rfl, hhit⟩

end Cut

/-! ## Cutting at the assignment -/

theorem eq_of_isAssignment {before after : Option Char} {c : Char}
    (h : isAssignment before c after = true) : c = '=' := by
  simp only [isAssignment, Bool.and_eq_true, beq_iff_eq] at h
  exact h.1.1

theorem cutAssignment_none (hrun : outside.run cs = some outside)
    (h : Clear isAssignment outside none cs none) : cutAssignment cs = some none := by
  have hcut := h.cutTopFrom [] hrun
  rw [List.append_nil] at hcut
  exact hcut

/-- **The first assignment cuts a text exactly if what is behind it is balanced.** -/
theorem cutAssignment_append (rest : List Char) (hrun : outside.run cs = some outside)
    (h : Clear isAssignment outside none cs (some '='))
    (hhit : isAssignment cs.getLast? '=' rest.head? = true) :
    cutAssignment (cs ++ '=' :: rest) = if balanced rest then some (some (cs, rest)) else none :=
  h.cutTopFrom_hit hrun (by decide) hhit

/-- Spaces around a text are no neighbours that count. -/
theorem isAssignment_space {before after : Option Char} (hbefore : ∀ b ∈ before, b = ' ')
    (hafter : ∀ a ∈ after, a = ' ') (l r : Option Char) (c : Char) :
    isAssignment (l.or before) c (r.or after) = isAssignment l c r := by
  have hl : ∀ d, ' ' ≠ d → (l.or before == some d) = (l == some d) := by
    intro d hd
    cases l with
    | some _ => rfl
    | none =>
      cases before with
      | none => rfl
      | some b =>
        obtain rfl := hbefore b rfl
        exact beq_eq_false_iff_ne.mpr fun h => hd (Option.some.inj h)
  have hr : (r.or after != some '=') = (r != some '=') := by
    cases r with
    | some _ => rfl
    | none =>
      cases after with
      | none => rfl
      | some a =>
        obtain rfl := hafter a rfl
        decide
  rw [isAssignment, isAssignment, hr, hl '=' (by decide), hl '<' (by decide), hl '>' (by decide),
    hl '!' (by decide)]

theorem Clear.spaced {before after : Option Char} (h : Clear isAssignment st none cs none)
    (hbefore : ∀ b ∈ before, b = ' ') (hafter : ∀ a ∈ after, a = ' ') :
    Clear isAssignment st before cs after := by
  intro l c r hcs hl
  have hclear := h l c r hcs hl
  rw [Option.or_none, Option.or_none] at hclear
  rw [isAssignment_space hbefore hafter, hclear]

/-! ## Cutting at the colon -/

theorem eq_of_isFieldColon {before after : Option Char} {c : Char}
    (h : isFieldColon before c after = true) : c = ':' := by
  simp only [isFieldColon, Bool.and_eq_true, beq_iff_eq] at h
  exact h.1

/-- **The first field colon cuts a text exactly if what is behind it is balanced.** -/
theorem cutColon_append (hp : p ':' = true) (hcs : Scans p outside cs outside) {rest : List Char}
    (hrest : rest.head?.all isAsciiSpace = true) :
    cutColon (cs ++ ':' :: rest) = if balanced rest then some (cs, rest) else none := by
  have hcolon : ∀ before c after, isFieldColon before c after = true → p c = true :=
    fun _ _ _ hhit => eq_of_isFieldColon hhit ▸ hp
  have hclear := hcs.clear hcolon none (some ':')
  rw [cutColon, hclear.cutTopFrom_hit hcs.run (by decide) (by simp [isFieldColon, hrest])]
  split <;> rfl

theorem cutColon_eq_some {l r : List Char} (h : cutColon cs = some (l, r)) :
    cs = l ++ ':' :: r ∧ r.head?.all isAsciiSpace = true := by
  obtain ⟨before, c, rfl, hhit⟩ := cutTopFrom_eq_some (Option.join_eq_some_iff.mp h)
  obtain rfl := eq_of_isFieldColon hhit
  simp only [isFieldColon, Bool.and_eq_true] at hhit
  exact ⟨rfl, hhit.2⟩

end Scans

end DocTree.Text
