import DocTree.Proofs.Literal.Passes

/-!
# Literals under the scanner

The scanner passes over a whole literal, with one lemma for each reader.

* `Leaves`: the text that a reader leaves unread;
* `strings_passes`, `number_passes`, `readWord_passes`: values without parts;
* `readItems_passes`, `readPairs_passes`, `readForm_passes`: displays, whose parts are passed over;
* **`scans_of_read`**: a text that is a literal.
-/

namespace DocTree.Literal

open Text ScanState

/-! ## Values without parts -/

/-- The text that a reader leaves satisfies `P`. -/
def Leaves {α : Type} (x : Except Stopped (Front α)) (P : List Char → Prop) : Prop :=
  ∀ a rest, x = .ok (a, rest) → P rest

section Leaves

variable {α β : Type} {P Q : List Char → Prop}

theorem leaves_ok (a : α) {rest : List Char} (h : P rest) :
    Leaves (.ok (a, rest) : Except Stopped (Front α)) P := by
  rintro _ _ ⟨⟩
  exact h

theorem leaves_stop (rest : List Char) (fault : LiteralFault) :
    Leaves (stop rest fault : Except Stopped (Front α)) P :=
  fun _ _ h => nomatch h

theorem Leaves.bind {x : Except Stopped (Front α)} {f : Front α → Except Stopped (Front β)}
    (hx : Leaves x P) (hf : ∀ a rest, P rest → Leaves (f (a, rest)) Q) : Leaves (x >>= f) Q := by
  intro b rest h
  obtain ⟨⟨a, mid⟩, ha, hb⟩ := ok_of_bind h
  exact hf a mid (hx a mid ha) b rest hb

theorem Leaves.map {x : Except Stopped (Front α)} {f : Front α → Front β} (hx : Leaves x P)
    (hf : ∀ a rest, P rest → Q (f (a, rest)).2) : Leaves (x.map f) Q := by
  intro b rest h
  obtain ⟨⟨a, mid⟩, ha, hb⟩ := ok_of_map h
  have hq := hf a mid (hx a mid ha)
  rwa [hb] at hq

end Leaves

/-- A string behind its opening mark, triple or not. -/
theorem quoted_passes {raw : Bool} {mark : Char} (hmark : isQuote mark = true) (cs : List Char) :
    Leaves (quoted raw mark cs) (Passes .outside (mark :: cs)) := by
  intro text rest h
  by_cases htriple : ∃ tail, cs = mark :: mark :: tail
  · obtain ⟨tail, rfl⟩ := htriple
    rw [quoted_triple] at h
    exact passes_openTriple hmark (quotedFrom_passes ⟨mark, true, raw⟩ hmark h).2
  · have hsingle : ∀ tail, cs ≠ mark :: mark :: tail := fun tail heq => htriple ⟨tail, heq⟩
    rw [quoted_single hsingle] at h
    exact passes_open hmark hsingle (quotedFrom_passes ⟨mark, false, raw⟩ hmark h).2

theorem stringsWithin_passes (bound : Nat) (kind : Option Bool) (cs : List Char) :
    Leaves (stringsWithin bound kind cs) (Passes .outside cs) := by
  induction bound generalizing kind cs with
  | zero => exact leaves_ok _ (.refl cs)
  | succ bound ih =>
    have hspace := passes_dropWhile (p := isSpace) (by decide) cs
    have hletters := passes_dropWhile (p := Char.isAlpha) (by decide) (cs.dropWhile isSpace)
    rw [stringsWithin]
    dsimp only
    split
    · exact leaves_ok _ hspace
    · next mark body hbody =>
      rw [hbody] at hletters
      split
      · exact leaves_ok _ hspace
      · next hmark =>
        rw [Bool.not_eq_true', Bool.not_eq_false] at hmark
        split
        · exact leaves_stop _ _
        · refine (quoted_passes hmark body).bind fun text rest hquoted => ?_
          split
          · exact leaves_stop _ _
          · refine (ih _ rest).bind fun more rest' hrest => ?_
            exact leaves_ok _ (hspace.trans (hletters.trans (hquoted.trans hrest)))

/-- **The scanner passes over adjacent strings.** -/
theorem strings_passes (cs : List Char) : Leaves (strings cs) (Passes .outside cs) :=
  (stringsWithin_passes _ none cs).map fun _ _ h => h

theorem takeSign_passes (cs : List Char) : Passes .outside cs (Decimal.takeSign cs).2 := by
  unfold Decimal.takeSign
  split
  · exact (Passes.refl _).plain (by decide)
  · exact (Passes.refl _).plain (by decide)
  · exact .refl _

theorem base?_passes {cs rest : List Char} {base : Nat} (h : base? cs = some (base, rest)) :
    Passes .outside cs rest := by
  unfold base? at h
  split at h
  · next c cs' =>
    have hletter : ∀ d ∈ ['x', 'X', 'o', 'O', 'b', 'B'], d ∉ signs := by decide
    have hpasses : c ∈ ['x', 'X', 'o', 'O', 'b', 'B'] → Passes .outside ('0' :: c :: cs') cs' :=
      fun hc => ((Passes.refl cs').plain (hletter c hc)).plain (by decide)
    split at h
    · next hc =>
      cases h
      exact hpasses (by rcases hc with rfl | rfl <;> decide)
    · split at h
      · next hc =>
        cases h
        exact hpasses (by rcases hc with rfl | rfl <;> decide)
      · split at h
        · next hc =>
          cases h
          exact hpasses (by rcases hc with rfl | rfl <;> decide)
        · cases h
  · cases h

theorem fractionPart_passes (cs : List Char) : Passes .outside cs (fractionPart cs).2 := by
  unfold fractionPart
  split
  · next cs' =>
    split
    · exact .refl _
    · exact (passes_dropWhile (by decide) cs').plain (by decide)
  · exact .refl _

theorem exponentPart_passes (cs : List Char) : Passes .outside cs (exponentPart cs).2 := by
  unfold exponentPart
  split
  · next e cs' =>
    split
    · next he =>
      have hletter : e ∉ signs := by rcases he with rfl | rfl <;> decide
      split
      · next s ds =>
        split
        · next hs =>
          have hsign : s ∉ signs := by rcases hs with rfl | rfl <;> decide
          exact ((passes_dropWhile (by decide) ds).plain hsign).plain hletter
        · exact (passes_dropWhile (by decide) _).plain hletter
      · exact (Passes.refl _).plain hletter
    · exact .refl _
  · exact .refl _

theorem number_passes (cs : List Char) : Leaves (number cs) (Passes .outside cs) := by
  have hbased : ∀ negative base cs,
      Leaves (basedInteger negative base cs) (Passes .outside cs) := by
    intro negative base cs
    unfold basedInteger
    dsimp only
    split
    · exact leaves_ok _ (passes_dropWhile (by decide) cs)
    · exact leaves_stop _ _
  have hdecimal : ∀ negative cs, Leaves (decimal negative cs) (Passes .outside cs) := by
    intro negative cs
    have hdigits := passes_dropWhile (p := isDigitOrUnderscore) (by decide) cs
    have hrest := hdigits.trans ((fractionPart_passes _).trans (exponentPart_passes _))
    unfold decimal
    dsimp only
    split
    · exact leaves_stop _ _
    · split
      · exact leaves_stop _ _
      · split
        · split
          · exact leaves_ok _ hrest
          · exact leaves_stop _ _
        · split
          · exact leaves_ok _ hrest
          · exact leaves_stop _ _
  have hsign := (takeSign_passes cs).trans (passes_skipSpace _)
  intro v rest h
  unfold number at h
  dsimp only at h
  split at h
  · next hbase => exact hsign.trans ((base?_passes hbase).trans (hbased _ _ _ _ _ h))
  · exact hsign.trans (hdecimal _ _ _ _ h)

theorem readWord_passes (cs : List Char) : Leaves (readWord cs) (Passes .outside cs) := by
  have hword := passes_dropWhile (p := isWordChar) (by decide) cs
  unfold readWord
  dsimp only
  split
  · exact strings_passes cs
  · split
    · exact leaves_ok _ hword
    · exact leaves_ok _ hword
    · exact leaves_ok _ hword
    · exact leaves_ok _ hword
    · next rest _ hset =>
      rw [hset] at hword
      have hbrackets : Passes .outside ('(' :: ')' :: rest) rest :=
        passes_brackets (by decide) (by decide) (.refl _)
      exact leaves_ok _ (hword.trans hbrackets)
    · exact leaves_stop _ _

theorem readDots_passes (cs : List Char) : Leaves (readDots cs) (Passes .outside cs) := by
  unfold readDots
  split
  · have hdots : ∀ c ∈ ['.', '.', '.'], c ∉ signs := by decide
    exact leaves_ok _ (passes_append hdots _)
  · exact leaves_stop _ _

/-! ## Displays -/

theorem cons_of_head? {cs : List Char} {c : Char} (h : cs.head? = some c) :
    c :: cs.drop 1 = cs := by
  cases cs with
  | nil => cases h
  | cons d cs => rw [Option.some.inj h]; rfl

/-- A sign between the parts of a display. -/
theorem passes_sign {cs : List Char} {c : Char} (h : cs.head? = some c) (hc : c ∈ [',', ':']) :
    Passes .outside cs (cs.drop 1) := by
  have hsign : ∀ c ∈ [',', ':'], c ∉ signs := by decide
  have hpasses := (Passes.refl (cs.drop 1)).plain (hsign c hc)
  rwa [cons_of_head? h] at hpasses

/-- The rest of a text behind the bracket that ends a display. -/
theorem Passes.upTo {cs mid : List Char} {close : Char} (h : Passes .outside cs mid)
    (hclose : mid.head? = some close) : Passes .outside cs (close :: mid.drop 1) := by
  rwa [cons_of_head? hclose]

section Displays

variable {part : List Char → Except Stopped (Front Value)}
  (hpart : ∀ cs, Leaves (part cs) (Passes .outside cs))

include hpart

theorem readItems_passes (close : Char) (bound : Nat) (cs : List Char) :
    Leaves (readItems part close bound cs) fun rest => Passes .outside cs (close :: rest) := by
  induction bound generalizing cs with
  | zero => exact leaves_stop _ _
  | succ bound ih =>
    have hspace := passes_skipSpace cs
    rw [readItems]
    dsimp only
    split
    · next hclose => exact leaves_ok _ (hspace.upTo hclose)
    · refine (hpart _).bind fun item rest hitem => ?_
      have hrest := hspace.trans (hitem.trans (passes_skipSpace rest))
      dsimp only
      split
      · next hcomma =>
        refine (ih _).bind fun items rest' hitems => leaves_ok _ ?_
        exact hrest.trans ((passes_sign hcomma (by decide)).trans hitems)
      · split
        · next hclose => exact leaves_ok _ (hrest.upTo hclose)
        · exact leaves_stop _ _

theorem readTail_passes (close : Option Char) (bound : Nat) (cs : List Char) :
    Leaves (readTail part close bound cs) (Passes .outside cs) := by
  induction bound generalizing cs with
  | zero => exact leaves_ok _ (.refl cs)
  | succ bound ih =>
    rw [readTail]
    split
    · exact leaves_ok _ (.refl cs)
    · next hcomma =>
      have hspace := (passes_sign (not_not.mp hcomma) (by decide)).trans (passes_skipSpace _)
      dsimp only
      split
      · exact leaves_ok _ hspace
      · refine (hpart _).bind fun item rest hitem => ?_
        have hrest := hspace.trans (hitem.trans (passes_skipSpace rest))
        exact (ih _).bind fun items rest' hitems => leaves_ok _ (hrest.trans hitems)

theorem readSequence_passes (close : Option Char) (cs : List Char) :
    Leaves (readSequence part close cs) (Passes .outside cs) := by
  refine (hpart cs).bind fun first rest hfirst => ?_
  have hrest := hfirst.trans (passes_skipSpace rest)
  dsimp only
  split
  · exact leaves_ok _ hrest
  · exact (readTail_passes hpart close _ _).bind fun items rest' hitems =>
      leaves_ok _ (hrest.trans hitems)

theorem readTuple_passes (cs : List Char) :
    Leaves (readTuple part cs) fun rest => Passes .outside cs (')' :: rest) := by
  have hspace := passes_skipSpace cs
  unfold readTuple
  dsimp only
  split
  · next hclose => exact leaves_ok _ (hspace.upTo hclose)
  · refine (readSequence_passes hpart _ _).bind fun inner rest hinner => ?_
    have hrest := hspace.trans (hinner.trans (passes_skipSpace rest))
    dsimp only
    split
    · next hclose => exact leaves_ok _ (hrest.upTo hclose)
    · exact leaves_stop _ _

theorem readPairs_passes (bound : Nat) (key : Value) (cs : List Char) :
    Leaves (readPairs part bound key cs) fun rest => Passes .outside cs ('}' :: rest) := by
  induction bound generalizing key cs with
  | zero => exact leaves_stop _ _
  | succ bound ih =>
    rw [readPairs]
    refine (hpart cs).bind fun value rest hvalue => ?_
    have hrest := hvalue.trans (passes_skipSpace rest)
    dsimp only
    -- A comma may stand before the closing bracket.
    have hcomma : Passes .outside cs (if (skipSpace rest).head? = some ',' then
        skipSpace ((skipSpace rest).drop 1) else skipSpace rest) := by
      split
      · next hcomma =>
        exact hrest.trans ((passes_sign hcomma (by decide)).trans (passes_skipSpace _))
      · exact hrest
    generalize (if (skipSpace rest).head? = some ',' then
      skipSpace ((skipSpace rest).drop 1) else skipSpace rest) = behind at hcomma ⊢
    split
    · next hclose => exact leaves_ok _ (hcomma.upTo hclose)
    · split
      · exact leaves_stop _ _
      · refine (hpart _).bind fun next rest' hnext => ?_
        have hrest' := hcomma.trans (hnext.trans (passes_skipSpace rest'))
        dsimp only
        split
        · exact leaves_stop _ _
        · next hcolon =>
          refine (ih _ _).bind fun pairs rest'' hpairs => leaves_ok _ ?_
          exact hrest'.trans ((passes_sign (not_not.mp hcolon) (by decide)).trans hpairs)

theorem readBrace_passes (cs : List Char) :
    Leaves (readBrace part cs) fun rest => Passes .outside cs ('}' :: rest) := by
  have hspace := passes_skipSpace cs
  unfold readBrace
  dsimp only
  split
  · next hclose => exact leaves_ok _ (hspace.upTo hclose)
  · refine (hpart _).bind fun first rest hfirst => ?_
    have hrest := hspace.trans (hfirst.trans (passes_skipSpace rest))
    dsimp only
    split
    · next hcolon =>
      refine (readPairs_passes hpart _ _ _).bind fun pairs rest' hpairs => leaves_ok _ ?_
      exact hrest.trans ((passes_sign hcolon (by decide)).trans hpairs)
    · split
      · next hcomma =>
        refine (readItems_passes hpart _ _ _).bind fun items rest' hitems => leaves_ok _ ?_
        exact hrest.trans ((passes_sign hcomma (by decide)).trans hitems)
      · split
        · next hclose => exact leaves_ok _ (hrest.upTo hclose)
        · exact leaves_stop _ _

theorem readForm_passes (cs : List Char) : Leaves (readForm part cs) (Passes .outside cs) := by
  have hspace := passes_skipSpace cs
  unfold readForm
  dsimp only
  split
  · exact leaves_stop _ _
  · next c rest hcs =>
    rw [hcs] at hspace
    have hform : ∀ {x : Except Stopped (Front Value)},
        Leaves x (Passes .outside (c :: rest)) → Leaves x (Passes .outside cs) :=
      fun hx v rest' h => hspace.trans (hx v rest' h)
    have hbracket : ∀ {x : Except Stopped (Front Value)} {close : Char}, c ∈ ['(', '[', '{'] →
        close ∈ [')', ']', '}'] → Leaves x (fun rest' => Passes .outside rest (close :: rest')) →
          Leaves x (Passes .outside (c :: rest)) :=
      fun hc hclose hx v rest' h => passes_brackets hc hclose (hx v rest' h)
    refine hform ?_
    split
    · next hc => exact hbracket (by simp [hc]) (by decide) (readTuple_passes hpart rest)
    · split
      · next hc =>
        have hclose : ']' ∈ [')', ']', '}'] := by decide
        refine hbracket (by simp [hc]) hclose ?_
        exact (readItems_passes hpart _ _ rest).map fun _ _ h => h
      · split
        · next hc => exact hbracket (by simp [hc]) (by decide) (readBrace_passes hpart rest)
        · split
          · exact hcs ▸ strings_passes _
          · split
            · exact hcs ▸ readDots_passes _
            · split
              · exact hcs ▸ number_passes _
              · split
                · exact hcs ▸ readWord_passes _
                · exact leaves_stop _ _

end Displays

/-! ## Texts -/

theorem readValue_passes (depth : Nat) (cs : List Char) :
    Leaves (readValue depth cs) (Passes .outside cs) := by
  induction depth generalizing cs with
  | zero => exact leaves_stop _ _
  | succ depth ih => exact readForm_passes ih cs

/-- **The scanner passes over a whole literal**, if the strings in triple quotes end at their first
marks. -/
theorem scans_of_read {text : String} {v : Value} (h : read text = .ok v)
    (hmarks : marksHidden .outside text.toList = true) :
    Scans isSeparator outside text.toList outside := by
  obtain ⟨⟨value, rest⟩, hseq, hrest⟩ := ok_of_bind (ok_of_mapError h)
  have hpasses := (readSequence_passes (readValue_passes _) none _ _ _ hseq).trans
    (passes_skipSpace rest)
  dsimp only at hrest
  split at hrest
  · next hend =>
    rw [hend] at hpasses
    obtain ⟨-, front, hfront, hscans⟩ := hpasses hmarks
    rw [List.append_nil] at hfront
    exact hfront ▸ hscans 0
  · cases hrest

end DocTree.Literal
