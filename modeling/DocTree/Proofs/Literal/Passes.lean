import DocTree.Proofs.Literal.Inline

/-!
# Strings under the scanner

The scanner knows single quotes and backslashes, but neither triple quotes nor the letters in front
of them. It still passes over a whole string, unless one in triple quotes holds its own mark.

* `Place`, `marksHidden`: the texts whose strings in triple quotes end at the first of their marks
  that no backslash hides. A text without three marks in a row is one (`marksHidden_of_not_infix`);
* `Passes`: the way of the scanner from a place in a text to another one outside the strings, with
  one lemma for each kind of character;
* `passes_brackets`, `passes_open`, `passes_close`: brackets and quotes;
* **`quotedFrom_passes`**: the scanner is behind a string where its reader is.
-/

namespace DocTree.Literal

open Text ScanState

/-! ## Marks in triple quotes -/

/-- Where a text stands with respect to the strings in it. -/
inductive Place where
  | outside
  /-- Between quotes, single or triple; `hidden` behind a backslash. -/
  | inside (mark : Char) (triple hidden : Bool)
  deriving DecidableEq, Repr

/-- Whether, from a place on, each string in triple quotes ends at the first of its marks that no
backslash hides. -/
def marksHidden : Place → List Char → Bool
  | _, [] => true
  | .outside, c :: cs =>
    if isQuote c then
      match cs with
      | a :: b :: rest =>
        if a = c ∧ b = c then marksHidden (.inside c true false) rest
        else marksHidden (.inside c false false) (a :: b :: rest)
      | cs => marksHidden (.inside c false false) cs
    else marksHidden .outside cs
  | .inside mark triple true, _ :: cs => marksHidden (.inside mark triple false) cs
  | .inside mark triple false, c :: cs =>
    if c = '\\' then marksHidden (.inside mark triple true) cs
    else if c ≠ mark then marksHidden (.inside mark triple false) cs
    else if !triple then marksHidden .outside cs
    else match cs with
      | a :: b :: rest => (a = mark ∧ b = mark) && marksHidden .outside rest
      | _ => false

section Marks

variable {mark c : Char} {triple : Bool} {cs : List Char}

theorem marksHidden_plain (hc : isQuote c = false) :
    marksHidden .outside (c :: cs) = marksHidden .outside cs := by
  rw [marksHidden.eq_def]
  dsimp only
  rw [hc, if_neg Bool.false_ne_true]

theorem marksHidden_open (hmark : isQuote mark = true)
    (hsingle : ∀ tail, cs ≠ mark :: mark :: tail) :
    marksHidden .outside (mark :: cs) = marksHidden (.inside mark false false) cs := by
  rw [marksHidden.eq_def]
  dsimp only
  rw [if_pos hmark]
  split
  · next a b tail =>
    rw [if_neg]
    rintro ⟨rfl, rfl⟩
    exact hsingle tail rfl
  · rfl

theorem marksHidden_openTriple (hmark : isQuote mark = true) :
    marksHidden .outside (mark :: mark :: mark :: cs) =
      marksHidden (.inside mark true false) cs := by
  rw [marksHidden.eq_def]
  dsimp only
  rw [if_pos hmark, if_pos ⟨rfl, rfl⟩]

theorem marksHidden_hidden :
    marksHidden (.inside mark triple true) (c :: cs) =
      marksHidden (.inside mark triple false) cs := by
  rw [marksHidden.eq_def]

theorem marksHidden_within (hc : c ∉ [mark, '\\']) :
    marksHidden (.inside mark triple false) (c :: cs) =
      marksHidden (.inside mark triple false) cs := by
  simp only [List.mem_cons, List.not_mem_nil, or_false, not_or] at hc
  rw [marksHidden.eq_def]
  dsimp only
  rw [if_neg hc.2, if_pos hc.1]

theorem marksHidden_backslash :
    marksHidden (.inside mark triple false) ('\\' :: cs) =
      marksHidden (.inside mark triple true) cs := by
  rw [marksHidden.eq_def]
  dsimp only
  rw [if_pos rfl]

section Mark

variable (hmark : mark ≠ '\\')

include hmark

theorem marksHidden_close :
    marksHidden (.inside mark false false) (mark :: cs) = marksHidden .outside cs := by
  rw [marksHidden.eq_def]
  dsimp only
  rw [if_neg hmark, if_neg (not_not_intro rfl)]
  rfl

theorem marksHidden_closeTriple :
    marksHidden (.inside mark true false) (mark :: mark :: mark :: cs) =
      marksHidden .outside cs := by
  rw [marksHidden.eq_def]
  dsimp only
  rw [if_neg hmark, if_neg (not_not_intro rfl), decide_eq_true ⟨rfl, rfl⟩]
  rfl

/-- A mark that does not end its string in triple quotes. -/
theorem marksHidden_lone (hlone : ∀ tail, cs ≠ mark :: mark :: tail) :
    marksHidden (.inside mark true false) (mark :: cs) = false := by
  rw [marksHidden.eq_def]
  dsimp only
  rw [if_neg hmark, if_neg (not_not_intro rfl), if_neg (by decide)]
  split
  · next a b tail =>
    have hne : ¬ (a = mark ∧ b = mark) := by
      rintro ⟨rfl, rfl⟩
      exact hlone tail rfl
    rw [decide_eq_false hne, Bool.false_and]
  · rfl

end Mark

/-- Without three marks in a row there is no string in triple quotes. -/
theorem marksHidden_of_not_infix (h : ∀ mark, isQuote mark = true → ¬ [mark, mark, mark] <:+: cs) :
    marksHidden .outside cs = true ∧
      ∀ mark hidden, marksHidden (.inside mark false hidden) cs = true := by
  induction cs with
  | nil => exact ⟨rfl, fun _ _ => rfl⟩
  | cons c cs ih =>
    obtain ⟨houtside, hinside⟩ := ih fun mark hmark hcs =>
      h mark hmark (hcs.trans (List.suffix_cons c cs).isInfix)
    refine ⟨?_, fun mark hidden => ?_⟩
    · cases hc : isQuote c with
      | false => rwa [marksHidden_plain hc]
      | true =>
        rw [marksHidden_open hc, hinside]
        rintro tail rfl
        exact h c hc (List.prefix_append [c, c, c] tail).isInfix
    · cases hidden with
      | true => rw [marksHidden_hidden, hinside]
      | false =>
        rw [marksHidden.eq_def]
        dsimp only
        split
        · exact hinside _ _
        · split
          · exact hinside _ _
          · exact houtside

end Marks

/-! ## Passing over characters -/

/-- The state of the scanner at a place within `depth` brackets. -/
def Place.scanState (depth : Nat) : Place → ScanState
  | .outside => .plain depth
  | .inside mark _ hidden => .quoted depth mark hidden

/-- From a place in a text to a later one outside its strings: if marks are hidden, the scanner is
outside there as well, and has met no separator outside quotes and brackets. -/
def Passes (place : Place) (cs rest : List Char) : Prop :=
  marksHidden place cs = true → marksHidden .outside rest = true ∧
    ∃ front, cs = front ++ rest ∧
      ∀ depth, Scans isSeparator (place.scanState depth) front (.plain depth)

/-- The characters that mean something to the scanner or to the grammar of type bodies. -/
def signs : List Char := ['\'', '"', '(', '[', '{', ')', ']', '}', '|', '=']

/-- A character of a class without signs. -/
theorem not_mem_signs {p : Char → Bool} (hp : ∀ d ∈ signs, p d = false) {c : Char}
    (hc : p c = true) : c ∉ signs := fun hmem => by
  rw [hp c hmem] at hc
  cases hc

section Passes

variable {place place' : Place} {c : Char} {cs mid rest : List Char}

theorem Passes.refl (cs : List Char) : Passes .outside cs cs :=
  fun h => ⟨h, [], rfl, fun _ => .nil _⟩

theorem Passes.trans (h : Passes place cs mid) (h' : Passes .outside mid rest) :
    Passes place cs rest := by
  intro hmarks
  obtain ⟨hmid, front, rfl, hfront⟩ := h hmarks
  obtain ⟨hrest, front', rfl, hfront'⟩ := h' hmid
  exact ⟨hrest, front ++ front', (List.append_assoc _ _ _).symm,
    fun depth => (hfront depth).append (hfront' depth)⟩

/-- One character, which takes the scanner along. -/
theorem Passes.cons (hmarks : marksHidden place (c :: cs) = true → marksHidden place' cs = true)
    (hstep : ∀ depth, (place.scanState depth = outside → isSeparator c = false) ∧
      (place.scanState depth).step c = some (place'.scanState depth))
    (h : Passes place' cs rest) : Passes place (c :: cs) rest := by
  intro hcons
  obtain ⟨hrest, front, rfl, hfront⟩ := h (hmarks hcons)
  exact ⟨hrest, c :: front, rfl, fun depth =>
    .cons (hstep depth).1 (hstep depth).2 (hfront depth)⟩

theorem Passes.plain (hc : c ∉ signs) (h : Passes .outside cs rest) :
    Passes .outside (c :: cs) rest := by
  simp only [signs, List.mem_cons, List.not_mem_nil, or_false, not_or] at hc
  refine h.cons (fun hmarks => ?_) fun depth => ⟨fun _ => ?_, ?_⟩
  · rwa [marksHidden_plain (by simp [isQuote, hc])] at hmarks
  · simp [isSeparator, hc]
  · simp [Place.scanState, step, isQuote, isOpening, isClosing, hc]

theorem passes_append {front : List Char} (h : ∀ c ∈ front, c ∉ signs) (rest : List Char) :
    Passes .outside (front ++ rest) rest := by
  induction front with
  | nil => exact .refl rest
  | cons c front ih =>
    obtain ⟨hc, hfront⟩ := List.forall_mem_cons.mp h
    exact (ih hfront).plain hc

theorem passes_dropWhile {p : Char → Bool} (hp : ∀ d ∈ signs, p d = false) (cs : List Char) :
    Passes .outside cs (cs.dropWhile p) := by
  have hfront : ∀ c ∈ cs.takeWhile p, c ∉ signs := fun c hc =>
    not_mem_signs hp (List.mem_takeWhile_imp hc)
  have h := passes_append hfront (cs.dropWhile p)
  rwa [List.takeWhile_append_dropWhile] at h

theorem passes_skipSpace (cs : List Char) : Passes .outside cs (skipSpace cs) :=
  passes_dropWhile (by decide) cs

/-- A pair of brackets around what is passed over. -/
theorem passes_brackets {left right : Char} (hleft : left ∈ ['(', '[', '{'])
    (hright : right ∈ [')', ']', '}']) (h : Passes .outside cs (right :: rest)) :
    Passes .outside (left :: cs) rest := by
  have hfirst : isQuote left = false ∧ isSeparator left = false ∧
      ∀ depth, step (.plain depth) left = some (.plain (depth + 1)) := by
    simp only [List.mem_cons, List.not_mem_nil, or_false] at hleft
    rcases hleft with rfl | rfl | rfl <;> exact ⟨rfl, rfl, fun _ => rfl⟩
  have hlast : isQuote right = false ∧
      ∀ depth, step (.plain (depth + 1)) right = some (.plain depth) := by
    simp only [List.mem_cons, List.not_mem_nil, or_false] at hright
    rcases hright with rfl | rfl | rfl <;> exact ⟨rfl, fun _ => rfl⟩
  intro hmarks
  rw [marksHidden_plain hfirst.1] at hmarks
  obtain ⟨hrest, front, rfl, hfront⟩ := h hmarks
  rw [marksHidden_plain hlast.1] at hrest
  refine ⟨hrest, left :: (front ++ [right]), by simp, fun depth => ?_⟩
  exact .cons (fun _ => hfirst.2.1) (hfirst.2.2 depth)
    ((hfront (depth + 1)).append (scans_one (fun hout => nomatch hout) (hlast.2 depth)))

end Passes

/-! ## Strings -/

section Strings

variable {mark c : Char} {triple : Bool} {cs rest : List Char}

theorem Place.not_outside {P : Prop} {mark : Char} {triple hidden : Bool} {depth : Nat}
    (h : (Place.inside mark triple hidden).scanState depth = ScanState.outside) : P := nomatch h

theorem Passes.within (hc : c ∉ [mark, '\\']) (h : Passes (.inside mark triple false) cs rest) :
    Passes (.inside mark triple false) (c :: cs) rest := by
  refine h.cons (fun hmarks => ?_) fun depth => ⟨Place.not_outside, ?_⟩
  · rwa [marksHidden_within hc] at hmarks
  · simp only [List.mem_cons, List.not_mem_nil, or_false, not_or] at hc
    simp [Place.scanState, step, hc]

theorem Passes.backslash (h : Passes (.inside mark triple true) cs rest) :
    Passes (.inside mark triple false) ('\\' :: cs) rest := by
  refine h.cons (fun hmarks => ?_) fun depth => ⟨Place.not_outside, ?_⟩
  · rwa [marksHidden_backslash] at hmarks
  · simp [Place.scanState, step]

theorem Passes.hidden (h : Passes (.inside mark triple false) cs rest) :
    Passes (.inside mark triple true) (c :: cs) rest := by
  refine h.cons (fun hmarks => ?_) fun depth => ⟨Place.not_outside, rfl⟩
  rwa [marksHidden_hidden] at hmarks

section Quote

variable (hmark : isQuote mark = true)

include hmark

theorem mark_ne_backslash : mark ≠ '\\' := by
  rcases mark_cases hmark with rfl | rfl <;> decide

theorem scans_close (depth : Nat) :
    Scans isSeparator (.quoted depth mark false) [mark] (.plain depth) := by
  refine scans_one (fun hout => nomatch hout) ?_
  rcases mark_cases hmark with rfl | rfl <;> rfl

theorem scans_open (depth : Nat) :
    Scans isSeparator (.plain depth) [mark] (.quoted depth mark false) := by
  rcases mark_cases hmark with rfl | rfl <;> exact scans_one (fun _ => rfl) rfl

theorem passes_close (rest : List Char) :
    Passes (.inside mark false false) (mark :: rest) rest := by
  intro hmarks
  rw [marksHidden_close (mark_ne_backslash hmark)] at hmarks
  exact ⟨hmarks, [mark], rfl, scans_close hmark⟩

/-- Three marks in a row close a string, open one and close it again. -/
theorem passes_closeTriple (rest : List Char) :
    Passes (.inside mark true false) (mark :: mark :: mark :: rest) rest := by
  intro hmarks
  rw [marksHidden_closeTriple (mark_ne_backslash hmark)] at hmarks
  exact ⟨hmarks, [mark] ++ ([mark] ++ [mark]), rfl, fun depth =>
    (scans_close hmark depth).append ((scans_open hmark depth).append (scans_close hmark depth))⟩

theorem passes_lone (hlone : ∀ tail, cs ≠ mark :: mark :: tail) (rest : List Char) :
    Passes (.inside mark true false) (mark :: cs) rest := by
  intro hmarks
  rw [marksHidden_lone (mark_ne_backslash hmark) hlone] at hmarks
  cases hmarks

theorem passes_open (hsingle : ∀ tail, cs ≠ mark :: mark :: tail)
    (h : Passes (.inside mark false false) cs rest) : Passes .outside (mark :: cs) rest := by
  intro hmarks
  rw [marksHidden_open hmark hsingle] at hmarks
  obtain ⟨hrest, front, rfl, hfront⟩ := h hmarks
  exact ⟨hrest, [mark] ++ front, rfl, fun depth => (scans_open hmark depth).append (hfront depth)⟩

theorem passes_openTriple (h : Passes (.inside mark true false) cs rest) :
    Passes .outside (mark :: mark :: mark :: cs) rest := by
  intro hmarks
  rw [marksHidden_openTriple hmark] at hmarks
  obtain ⟨hrest, front, rfl, hfront⟩ := h hmarks
  exact ⟨hrest, [mark] ++ ([mark] ++ ([mark] ++ front)), rfl, fun depth =>
    (scans_open hmark depth).append ((scans_close hmark depth).append
      ((scans_open hmark depth).append (hfront depth)))⟩

end Quote

end Strings

/-! ## Escapes -/

/-- A numeric escape consists of digits, perhaps behind a plus sign. -/
theorem mem_of_codePoint? {cs : List Char} {c : Char} (h : codePoint? cs = some c) :
    ∀ d ∈ cs, d ∉ ['\'', '"', '\\'] := by
  have hdigits : ∀ cs n, Decimal.readDigits 16 0x10FFFF cs = .ok n →
      ∀ d ∈ cs, d ∉ ['\'', '"', '\\'] := by
    intro cs n hread d hd hmem
    rw [Decimal.readDigits] at hread
    split at hread
    · cases hread
    · have hnone : ∀ d ∈ ['\'', '"', '\\'], (Decimal.digitValue? d).isSome = false := by decide
      have hsome := digit_of_mem hread d hd
      rw [hnone d hmem] at hsome
      cases hsome
  unfold codePoint? at h
  dsimp only at h
  split at h
  · next n hread =>
    split at hread
    · exact List.forall_mem_cons.mpr ⟨by decide, hdigits _ n hread⟩
    · exact hdigits _ n hread
  · cases h

theorem ok_of_prepend {c : Char} {x : Except Stopped (Front (List Char))} {text rest : List Char}
    (h : prepend c x = .ok (text, rest)) : ∃ text', x = .ok (text', rest) := by
  obtain ⟨⟨text', rest'⟩, hx, heq⟩ := ok_of_map h
  obtain ⟨-, rfl⟩ := Prod.mk.inj heq
  exact ⟨text', hx⟩

theorem ok_of_foldr_prepend {cs : List Char} {x : Except Stopped (Front (List Char))}
    {text rest : List Char} (h : cs.foldr prepend x = .ok (text, rest)) :
    ∃ text', x = .ok (text', rest) := by
  induction cs generalizing text with
  | nil => exact ⟨text, h⟩
  | cons c cs ih =>
    obtain ⟨text', htext⟩ := ok_of_prepend h
    exact ih htext

/-- The place in the text where a reader of a string stands. -/
def QuoteState.place (form : QuoteForm) : QuoteState → Place
  | .text => .inside form.mark form.triple false
  | .digits _ _ _ => .inside form.mark form.triple false
  | .escape => .inside form.mark form.triple true
  | .rawEscape => .inside form.mark form.triple true

/-- The characters of a numeric escape that have been read. -/
def QuoteState.seen : QuoteState → List Char
  | .digits _ seen _ => seen
  | _ => []

/-- **The scanner is behind a string where its reader is.** The digits of an escape are known to be
digits only when all of them have been read. -/
theorem quotedFrom_passes (form : QuoteForm) (hmark : isQuote form.mark = true) {state : QuoteState}
    {cs text rest : List Char} (h : quotedFrom form state cs = .ok (text, rest)) :
    (∀ d ∈ state.seen, d ∉ [form.mark, '\\']) ∧ Passes (state.place form) cs rest := by
  have hnone : ∀ d ∈ QuoteState.text.seen, d ∉ [form.mark, '\\'] := fun _ hd => nomatch hd
  induction cs generalizing state text with
  | nil =>
    rw [quotedFrom.eq_def] at h
    cases state with
    | text => cases h
    | escape => cases h
    | rawEscape => cases h
    | digits letter seen missing =>
      dsimp only at h
      split at h <;> cases h
  | cons c cs ih =>
    rw [quotedFrom.eq_def] at h
    cases state with
    | text =>
      refine ⟨hnone, ?_⟩
      dsimp only at h
      split at h
      · next hc =>
        subst hc
        cases htriple : form.triple with
        | false =>
          rw [htriple] at h
          cases h
          rw [QuoteState.place, htriple]
          exact passes_close hmark rest
        | true =>
          rw [htriple, if_neg (by decide)] at h
          rw [QuoteState.place, htriple]
          split at h
          · next a b tail =>
            split at h
            · next hclose =>
              obtain ⟨rfl, rfl⟩ := hclose
              cases h
              exact passes_closeTriple hmark rest
            · next hopen =>
              refine passes_lone hmark (fun tail' heq => hopen ?_) rest
              obtain ⟨rfl, htail⟩ := List.cons_eq_cons.mp heq
              exact ⟨rfl, (List.cons_eq_cons.mp htail).1⟩
          · next hshort =>
            exact passes_lone hmark (fun tail heq => hshort _ _ _ heq) rest
      · next hc =>
        split at h
        · cases h
        · split at h
          · next hbackslash =>
            obtain ⟨text', h⟩ := ok_of_prepend h
            exact (ih h).2.within (by simp [hc, hbackslash])
          · next hbackslash =>
            obtain rfl := not_not.mp hbackslash
            split at h
            · obtain ⟨text', h⟩ := ok_of_prepend h
              exact (ih h).2.backslash
            · exact (ih h).2.backslash
    | rawEscape =>
      obtain ⟨text', h⟩ := ok_of_prepend h
      exact ⟨hnone, (ih h).2.hidden⟩
    | escape =>
      refine ⟨hnone, ?_⟩
      dsimp only at h
      split at h
      · exact (ih h).2.hidden
      · obtain ⟨text', h⟩ := ok_of_foldr_prepend h
        exact (ih h).2.hidden
    | digits letter seen missing =>
      dsimp only at h
      split at h
      · split at h
        · next d hcode =>
          obtain ⟨text', h⟩ := ok_of_prepend h
          have hdigits : ∀ d ∈ seen ++ [c], d ∉ [form.mark, '\\'] := by
            intro d hd hmem
            have hsigns := mem_of_codePoint? hcode d hd
            rcases mark_cases hmark with hm | hm <;> simp_all
          obtain ⟨hseen, hc⟩ := List.forall_mem_append.mp hdigits
          exact ⟨hseen, (ih h).2.within (hc c List.mem_cons_self)⟩
        · cases h
      · obtain ⟨hdigits, hpasses⟩ := ih h
        obtain ⟨hseen, hc⟩ := List.forall_mem_append.mp hdigits
        exact ⟨hseen, hpasses.within (hc c List.mem_cons_self)⟩

end DocTree.Literal
