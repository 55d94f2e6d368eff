import Mathlib.Data.List.DropRight
import DocTree.Proofs.Literal.Atoms
import DocTree.Proofs.Literal.Sound

/-!
# Reading back values

The source form of a value, followed by what may stand behind a value, is read as that value, unless
a floating-point number is part of it.

* `text`, `text_cases`: the source form as characters, and **what it looks like**;
* `Reads`: a reader that reads back a value;
* `readItems_texts`, `readTail_texts`, `readPairs_texts`: a reader of parts makes one of displays;
* `readValue_reads`: **values with displays nested within bounds**;
* `read_of_readValue`: a text that begins with one value;
* `read_display`, **`read_display_of_read`**: what is read from a text is read from its source form.
-/

namespace DocTree.Literal

open Text Value

/-! ## Source forms as characters -/

/-- The source form of a value. -/
def text (v : Value) : List Char := v.display.toList

/-- The source form of a pair. -/
def pairText (pair : Value × Value) : List Char := text pair.1 ++ ':' :: ' ' :: text pair.2

/-- Texts behind a first one, each after a comma and a space. -/
def further (texts : List (List Char)) : List Char := texts.flatMap fun t => ',' :: ' ' :: t

theorem further_cons (t : List Char) (texts : List (List Char)) (rest : List Char) :
    further (t :: texts) ++ rest = ',' :: ' ' :: (t ++ (further texts ++ rest)) := by
  simp [further]

theorem displayItems_eq (items : List Value) : displayItems items = items.map display := by
  induction items with
  | nil => rfl
  | cons item items ih => rw [displayItems, ih, List.map_cons]

theorem displayPairs_eq (pairs : List (Value × Value)) :
    displayPairs pairs = pairs.map fun pair => display pair.1 ++ ": " ++ display pair.2 := by
  induction pairs with
  | nil => rfl
  | cons pair pairs ih => rw [displayPairs, ih, List.map_cons]

theorem intercalate_cons (first : List Char) (texts : List (List Char)) :
    [',', ' '].intercalate (first :: texts) = first ++ further texts := by
  induction texts generalizing first with
  | nil => simp [further]
  | cons t texts ih =>
    rw [List.intercalate_cons_cons, ih]
    simp [further]

/-- The source forms of several values, with commas between them. -/
theorem toList_intercalate (first : Value) (items : List Value) :
    (", ".intercalate (display first :: displayItems items)).toList =
      text first ++ further (items.map text) := by
  rw [String.toList_intercalate, displayItems_eq, List.map_cons, List.map_map]
  exact intercalate_cons _ _

theorem text_str (s : String) :
    text (str s) = quoteMark s.toList ::
      (s.toList.flatMap (escape (quoteMark s.toList)) ++ [quoteMark s.toList]) := by
  rw [text, display, Value.quoted, String.toList_ofList]
  rfl

theorem text_bytes (data : List UInt8) :
    text (bytes data) = 'b' :: '\'' :: (data.flatMap byteText ++ ['\'']) := by
  rw [text, display, bytesText, String.toList_ofList]
  rfl

theorem text_list (first : Value) (items : List Value) :
    text (list (first :: items)) = '[' :: (text first ++ further (items.map text) ++ [']']) := by
  change ("[" ++ ", ".intercalate (display first :: displayItems items) ++ "]").toList = _
  rw [String.toList_append, String.toList_append, toList_intercalate]
  rfl

theorem text_set (first : Value) (items : List Value) :
    text (set (first :: items)) = '{' :: (text first ++ further (items.map text) ++ ['}']) := by
  change ("\x7b" ++ ", ".intercalate (display first :: displayItems items) ++ "\x7d").toList = _
  rw [String.toList_append, String.toList_append, toList_intercalate]
  rfl

theorem text_singleton (first : Value) :
    text (tuple [first]) = '(' :: (text first ++ [',', ')']) := by
  change ("(" ++ display first ++ ",)").toList = _
  rw [String.toList_append, String.toList_append]
  rfl

theorem text_tuple (first second : Value) (items : List Value) :
    text (tuple (first :: second :: items)) =
      '(' :: (text first ++ further ((second :: items).map text) ++ [')']) := by
  change ("(" ++ ", ".intercalate (display first :: displayItems (second :: items)) ++
    ")").toList = _
  rw [String.toList_append, String.toList_append, toList_intercalate]
  rfl

theorem text_dict (first : Value × Value) (pairs : List (Value × Value)) :
    text (dict (first :: pairs)) =
      '{' :: (pairText first ++ further (pairs.map pairText) ++ ['}']) := by
  have hpair : ∀ pair : Value × Value,
      (display pair.1 ++ ": " ++ display pair.2).toList = pairText pair := by
    intro pair
    rw [String.toList_append, String.toList_append]
    simp [pairText, text]
  change ("\x7b" ++ ", ".intercalate (displayPairs (first :: pairs)) ++ "\x7d").toList = _
  rw [String.toList_append, String.toList_append, String.toList_intercalate, displayPairs_eq,
    List.map_map, List.map_cons]
  rw [show ", ".toList = [',', ' '] from rfl, intercalate_cons]
  simp only [Function.comp_def, hpair]
  rfl

/-! ## How a source form begins -/

/-- The text begins neither with white space nor with what may stand behind a value. -/
def Opens (cs : List Char) : Prop := ∃ c tail, cs = c :: tail ∧ isSpace c = false ∧ c ∉ stopChars

section Opens

variable {cs : List Char}

theorem Opens.append (h : Opens cs) (rest : List Char) : Opens (cs ++ rest) := by
  obtain ⟨c, tail, rfl, hspace, hstop⟩ := h
  exact ⟨c, tail ++ rest, rfl, hspace, hstop⟩

theorem Opens.skipSpace (h : Opens cs) : skipSpace cs = cs := by
  obtain ⟨c, tail, rfl, hspace, -⟩ := h
  exact List.dropWhile_cons_of_neg (by rw [hspace]; exact Bool.false_ne_true)

theorem Opens.skipSpace_cons (h : Opens cs) : Literal.skipSpace (' ' :: cs) = cs := h.skipSpace

theorem Opens.head?_ne (h : Opens cs) {c : Char} (hc : c ∈ stopChars) : cs.head? ≠ some c := by
  obtain ⟨d, tail, rfl, -, hstop⟩ := h
  rintro ⟨⟩
  exact hstop hc

theorem Opens.ne_nil (h : Opens cs) : cs ≠ [] := by
  obtain ⟨c, tail, rfl, -⟩ := h
  exact List.cons_ne_nil _ _

end Opens

/-- Quotes or brackets around something, perhaps behind letters. -/
def Enclosed (cs : List Char) : Prop :=
  ∃ lead ∈ [[], ['b'], ['s', 'e', 't']], ∃ left ∈ ['\'', '"', '(', '[', '{'],
    ∃ mid, ∃ right ∈ ['\'', '"', ')', ']', '}'], cs = lead ++ left :: (mid ++ [right])

theorem Enclosed.opens {cs : List Char} (h : Enclosed cs) : Opens cs := by
  obtain ⟨lead, hlead, left, hleft, mid, right, -, rfl⟩ := h
  have hfirst : ∀ lead ∈ [[], ['b'], ['s', 'e', 't']], ∀ left ∈ ['\'', '"', '(', '[', '{'],
      ∃ c tail, lead ++ [left] = c :: tail ∧ isSpace c = false ∧ c ∉ stopChars := by
    intro lead hlead left hleft
    simp only [List.mem_cons, List.not_mem_nil, or_false] at hlead hleft
    rcases hlead with rfl | rfl | rfl
    · rcases hleft with rfl | rfl | rfl | rfl | rfl <;> exact ⟨_, _, rfl, by decide, by decide⟩
    · exact ⟨_, _, rfl, by decide, by decide⟩
    · exact ⟨_, _, rfl, by decide, by decide⟩
  rw [List.append_cons]
  exact Opens.append (hfirst lead hlead left hleft) _

/-- **What a source form looks like**: the name of a constant, a decimal integer, or something
enclosed. -/
theorem text_cases {v : Value} (h : ∀ x, v ≠ .float x) :
    (∃ name, (name, v) ∈ constants) ∨ (∃ n, v = int n) ∨ Enclosed (text v) := by
  cases v with
  | none => exact .inl ⟨"None", by simp [constants]⟩
  | bool b =>
    cases b with
    | false => exact .inl ⟨"False", by simp [constants]⟩
    | true => exact .inl ⟨"True", by simp [constants]⟩
  | ellipsis => exact .inl ⟨"Ellipsis", by simp [constants]⟩
  | float x => exact (h x rfl).elim
  | int n => exact .inr (.inl ⟨n, rfl⟩)
  | str s =>
    have hmark := mark_cases (isQuote_quoteMark s.toList)
    refine .inr (.inr ⟨[], by decide, _, ?_, _, _, ?_, text_str s⟩)
    · rcases hmark with hmark | hmark <;> rw [hmark] <;> decide
    · rcases hmark with hmark | hmark <;> rw [hmark] <;> decide
  | bytes data =>
    exact .inr (.inr ⟨['b'], by decide, _, by decide, _, _, by decide, text_bytes data⟩)
  | tuple items =>
    refine .inr (.inr ?_)
    rcases items with _ | ⟨first, _ | ⟨second, items⟩⟩
    · exact ⟨[], by decide, '(', by decide, [], ')', by decide, rfl⟩
    · refine ⟨[], by decide, '(', by decide, text first ++ [','], ')', by decide, ?_⟩
      rw [text_singleton, List.append_cons]
      rfl
    · exact ⟨[], by decide, _, by decide, _, _, by decide, text_tuple first second items⟩
  | list items =>
    refine .inr (.inr ?_)
    cases items with
    | nil => exact ⟨[], by decide, '[', by decide, [], ']', by decide, rfl⟩
    | cons first items =>
      exact ⟨[], by decide, _, by decide, _, _, by decide, text_list first items⟩
  | dict pairs =>
    refine .inr (.inr ?_)
    cases pairs with
    | nil => exact ⟨[], by decide, '{', by decide, [], '}', by decide, rfl⟩
    | cons first pairs =>
      exact ⟨[], by decide, _, by decide, _, _, by decide, text_dict first pairs⟩
  | set items =>
    refine .inr (.inr ?_)
    cases items with
    | nil => exact ⟨['s', 'e', 't'], by decide, '(', by decide, [], ')', by decide, rfl⟩
    | cons first items =>
      exact ⟨[], by decide, _, by decide, _, _, by decide, text_set first items⟩

theorem text_opens {v : Value} (h : ∀ x, v ≠ .float x) : Opens (text v) := by
  rcases text_cases h with ⟨name, hname⟩ | ⟨n, rfl⟩ | henclosed
  · have hwords : ∀ pair ∈ constants, ∃ c tail,
        text pair.2 = c :: tail ∧ isSpace c = false ∧ c ∉ stopChars := by
      simp only [constants, List.forall_mem_cons]
      refine ⟨?_, ?_, ?_, ?_, List.forall_mem_nil _⟩ <;> exact ⟨_, _, rfl, by decide, by decide⟩
    exact hwords (name, v) hname
  · change Opens (toString n).toList
    rw [toList_toString]
    split
    · exact ⟨_, _, rfl, by decide, by decide⟩
    · obtain ⟨d, ds, hn, hd, -⟩ := isDigit_cases (n := n.natAbs)
      rw [hn]
      refine ⟨d, ds, rfl, not_isSpace_of_isDigit hd, fun hstop => ?_⟩
      have hnone : ∀ c ∈ stopChars, c.isDigit = false := by decide
      rw [hnone d hstop] at hd
      cases hd
  · exact henclosed.opens

/-! ## Displays -/

section Displays

variable {part : List Char → Except Stopped (Front Value)}

/-- A reader that reads the value back, also behind a space. -/
structure Reads (part : List Char → Except Stopped (Front Value)) (v : Value) : Prop where
  opens : Opens (text v)
  reads {rest : List Char} (hrest : Stops rest) : part (text v ++ rest) = .ok (v, rest)
  spaced {rest : List Char} (hrest : Stops rest) : part (' ' :: (text v ++ rest)) = .ok (v, rest)

theorem stops_further (texts : List (List Char)) {close : Char} (hclose : close ∈ stopChars)
    (rest : List Char) : Stops (further texts ++ close :: rest) := by
  cases texts with
  | nil => exact stops_cons hclose rest
  | cons t texts => exact stops_cons (by decide) _

theorem ok_bind {α β : Type} (a : α) (f : α → Except Stopped β) : (Except.ok a >>= f) = f a := rfl

/-- Values with commas between them are read up to the closing bracket. -/
theorem readItems_texts {first : Value} {items : List Value}
    (hread : ∀ v ∈ first :: items, Reads part v) {close : Char} (hclose : close ∈ stopChars)
    (hcomma : close ≠ ',') {bound : Nat} (hbound : items.length < bound) {cs rest : List Char}
    (hcs : skipSpace cs = text first ++ (further (items.map text) ++ close :: rest)) :
    readItems part close bound cs = .ok (first :: items, rest) := by
  induction items generalizing first bound cs with
  | nil =>
    obtain ⟨bound, rfl⟩ := Nat.exists_eq_add_of_lt hbound
    have hfirst := hread first List.mem_cons_self
    have hstops := stops_cons hclose rest
    rw [readItems]
    dsimp only
    rw [hcs, if_neg ((hfirst.opens.append _).head?_ne hclose)]
    change (part (text first ++ close :: rest) >>= _) = _
    rw [hfirst.reads hstops, ok_bind]
    dsimp only
    rw [hstops.skipSpace, if_neg (by simpa using hcomma),
      if_pos (show (close :: rest).head? = some close from rfl)]
    rfl
  | cons second items ih =>
    obtain ⟨bound, rfl⟩ := Nat.exists_eq_add_of_lt hbound
    obtain ⟨hfirst, hrest⟩ := List.forall_mem_cons.mp hread
    have hstops := stops_further ((second :: items).map text) hclose rest
    have hsecond := (hrest second List.mem_cons_self).opens.append
      (further (items.map text) ++ close :: rest)
    have hless : items.length < (second :: items).length + bound := by simp; omega
    have hmore := ih hrest hless hsecond.skipSpace_cons
    rw [readItems]
    dsimp only
    rw [hcs, if_neg ((hfirst.opens.append _).head?_ne hclose), hfirst.reads hstops, ok_bind]
    dsimp only
    rw [hstops.skipSpace, if_pos (by rfl), List.map_cons, further_cons, List.drop_one,
      List.tail_cons, hmore]
    rfl

/-- Values behind the first one of a sequence are read up to the closing parenthesis. -/
theorem readTail_texts {items : List Value} (hread : ∀ v ∈ items, Reads part v) {bound : Nat}
    (hbound : items.length ≤ bound) (rest : List Char) :
    readTail part (some ')') bound (further (items.map text) ++ ')' :: rest) =
      .ok (items, ')' :: rest) := by
  induction items generalizing bound with
  | nil => cases bound <;> rfl
  | cons item items ih =>
    obtain ⟨bound, rfl⟩ := Nat.exists_eq_add_of_le hbound
    obtain ⟨hitem, hrest⟩ := List.forall_mem_cons.mp hread
    have hstops : Stops (further (items.map text) ++ ')' :: rest) :=
      stops_further _ (by decide) rest
    have hopens := hitem.opens.append (further (items.map text) ++ ')' :: rest)
    have hmore := ih hrest (Nat.le_add_right items.length bound)
    rw [List.length_cons, Nat.add_right_comm, List.map_cons, further_cons, readTail]
    dsimp only
    rw [if_neg (by simp), List.drop_one, List.tail_cons, hopens.skipSpace_cons, if_neg ?_,
      hitem.reads hstops, ok_bind]
    · dsimp only
      rw [hstops.skipSpace, hmore]
      rfl
    · rw [Bool.or_eq_true, not_or, List.isEmpty_iff, decide_eq_true_iff]
      exact ⟨hopens.ne_nil, hopens.head?_ne (by decide)⟩

/-- Pairs with commas between them are read up to the closing brace. -/
theorem readPairs_texts {key value : Value} {pairs : List (Value × Value)}
    (hread : ∀ pair ∈ (key, value) :: pairs, Reads part pair.1 ∧ Reads part pair.2) {bound : Nat}
    (hbound : pairs.length < bound) (rest : List Char) :
    readPairs part bound key
      (' ' :: (text value ++ (further (pairs.map pairText) ++ '}' :: rest))) =
        .ok ((key, value) :: pairs, rest) := by
  induction pairs generalizing key value bound with
  | nil =>
    obtain ⟨bound, rfl⟩ := Nat.exists_eq_add_of_lt hbound
    have hstops := stops_cons (c := '}') (by decide) rest
    have hvalue := (hread _ List.mem_cons_self).2.spaced hstops
    change (part (' ' :: (text value ++ '}' :: rest)) >>= _) = _
    rw [hvalue, ok_bind]
    dsimp only
    rw [hstops.skipSpace]
    rfl
  | cons pair pairs ih =>
    obtain ⟨bound, rfl⟩ := Nat.exists_eq_add_of_lt hbound
    obtain ⟨⟨-, hvalue⟩, hrest⟩ := List.forall_mem_cons.mp hread
    obtain ⟨hnext, -⟩ := hrest pair List.mem_cons_self
    have hstops : Stops (further ((pair :: pairs).map pairText) ++ '}' :: rest) :=
      stops_further _ (by decide) rest
    have hless : pairs.length < (pair :: pairs).length + bound := by simp; omega
    have hmore := ih hrest hless
    have hcolon := stops_cons (c := ':') (by decide)
      (' ' :: (text pair.2 ++ (further (pairs.map pairText) ++ '}' :: rest)))
    have hopens := hnext.opens.append
      (':' :: ' ' :: (text pair.2 ++ (further (pairs.map pairText) ++ '}' :: rest)))
    rw [readPairs, hvalue.spaced hstops, ok_bind]
    dsimp only
    have hcomma : (further ((pair :: pairs).map pairText) ++ '}' :: rest).head? = some ',' := rfl
    have hskip : skipSpace ((further ((pair :: pairs).map pairText) ++ '}' :: rest).drop 1) =
        text pair.1 ++
          ':' :: ' ' :: (text pair.2 ++ (further (pairs.map pairText) ++ '}' :: rest)) := by
      rw [← hopens.skipSpace_cons]
      simp [further, pairText]
    rw [hstops.skipSpace, if_pos hcomma, hskip, if_neg (hopens.head?_ne (by decide)),
      if_neg (by rw [decide_eq_true hcomma]; exact Bool.false_ne_true), hnext.reads hcolon,
      ok_bind]
    dsimp only
    rw [hcolon.skipSpace, if_neg (by simp), List.drop_one, List.tail_cons, hmore]
    rfl

/-! ## Brackets -/

theorem length_le_further (texts : List (List Char)) : texts.length ≤ (further texts).length := by
  induction texts with
  | nil => exact Nat.zero_le _
  | cons t texts ih =>
    have := further_cons t texts []
    simp only [List.append_nil] at this
    rw [this]
    simp
    omega

theorem readTuple_of_readSequence {cs rest : List Char} {v : Value} (hcs : Opens cs)
    (h : readSequence part (some ')') cs = .ok (v, ')' :: rest)) :
    readTuple part cs = .ok (v, rest) := by
  rw [readTuple]
  dsimp only
  rw [hcs.skipSpace, if_neg (hcs.head?_ne (by decide)), h]
  rfl

/-- A value in parentheses with a comma behind it is a tuple. -/
theorem readTuple_singleton {first : Value} (hfirst : Reads part first) (rest : List Char) :
    readTuple part (text first ++ ',' :: ')' :: rest) = .ok (tuple [first], rest) := by
  refine readTuple_of_readSequence (hfirst.opens.append _) ?_
  rw [readSequence, hfirst.reads (stops_cons (by decide) _)]
  rfl

theorem readTuple_texts {first second : Value} {items : List Value}
    (hread : ∀ v ∈ first :: second :: items, Reads part v) (rest : List Char) :
    readTuple part (text first ++ (further ((second :: items).map text) ++ ')' :: rest)) =
      .ok (tuple (first :: second :: items), rest) := by
  obtain ⟨hfirst, hrest⟩ := List.forall_mem_cons.mp hread
  have hstops : Stops (further ((second :: items).map text) ++ ')' :: rest) :=
    stops_further _ (by decide) rest
  have hbound := length_le_further ((second :: items).map text)
  refine readTuple_of_readSequence (hfirst.opens.append _) ?_
  rw [readSequence, hfirst.reads hstops, ok_bind]
  dsimp only
  rw [hstops.skipSpace, if_neg (by simp [further]), readTail_texts hrest ?_]
  · rfl
  · rw [List.length_map] at hbound
    exact hbound.trans (by simp)

theorem insertPair_new {pairs : List (Value × Value)} {new : Value × Value}
    (h : ∀ p ∈ pairs, (p.1 == new.1) = false) : insertPair pairs new = pairs ++ [new] := by
  induction pairs with
  | nil => rfl
  | cons p pairs ih =>
    obtain ⟨hp, hpairs⟩ := List.forall_mem_cons.mp h
    rw [insertPair, if_neg (by rw [hp]; exact Bool.false_ne_true), ih hpairs, List.cons_append]

/-- Pairs whose keys differ are kept. -/
theorem foldl_insertPair {pairs : List (Value × Value)} (h : DistinctKeys pairs) :
    pairs.foldl insertPair [] = pairs := by
  suffices hfold : ∀ seen : List (Value × Value), DistinctKeys (seen ++ pairs) →
      pairs.foldl insertPair seen = seen ++ pairs from hfold [] h
  clear h
  induction pairs with
  | nil => exact fun seen _ => (List.append_nil seen).symm
  | cons p pairs ih =>
    intro seen h
    have hnew := insertPair_new fun q hq =>
      (List.pairwise_append.mp h).2.2 q hq p List.mem_cons_self
    rw [List.foldl_cons, hnew, ih _ (by simpa using h), List.append_assoc, List.singleton_append]

theorem readBrace_pairs {first : Value × Value} {pairs : List (Value × Value)}
    (hread : ∀ pair ∈ first :: pairs, Reads part pair.1 ∧ Reads part pair.2)
    (hkeys : DistinctKeys (first :: pairs)) (rest : List Char) :
    readBrace part (pairText first ++ (further (pairs.map pairText) ++ '}' :: rest)) =
      .ok (dict (first :: pairs), rest) := by
  obtain ⟨hkey, -⟩ := hread first List.mem_cons_self
  have hcolon := stops_cons (c := ':') (by decide)
    (' ' :: (text first.2 ++ (further (pairs.map pairText) ++ '}' :: rest)))
  have hopens := hkey.opens.append
    (':' :: ' ' :: (text first.2 ++ (further (pairs.map pairText) ++ '}' :: rest)))
  have hbound := length_le_further (pairs.map pairText)
  rw [List.length_map] at hbound
  rw [pairText, List.append_assoc, List.cons_append, List.cons_append, readBrace]
  dsimp only
  rw [hopens.skipSpace, if_neg (hopens.head?_ne (by decide)), hkey.reads hcolon, ok_bind]
  dsimp only
  rw [hcolon.skipSpace, if_pos (by rfl), List.drop_one, List.tail_cons,
    readPairs_texts hread (by simp; omega), ok_bind]
  dsimp only
  rw [foldl_insertPair hkeys]
  rfl

theorem readBrace_items {first : Value} {items : List Value}
    (hread : ∀ v ∈ first :: items, Reads part v) (hitems : Distinct (first :: items))
    (rest : List Char) :
    readBrace part (text first ++ (further (items.map text) ++ '}' :: rest)) =
      .ok (set (first :: items), rest) := by
  obtain ⟨hfirst, hrest⟩ := List.forall_mem_cons.mp hread
  have hstops : Stops (further (items.map text) ++ '}' :: rest) :=
    stops_further _ (by decide) rest
  have hopens := hfirst.opens.append (further (items.map text) ++ '}' :: rest)
  have hbound := length_le_further (items.map text)
  rw [List.length_map] at hbound
  rw [readBrace]
  dsimp only
  rw [hopens.skipSpace, if_neg (hopens.head?_ne (by decide)), hfirst.reads hstops, ok_bind]
  dsimp only
  rw [hstops.skipSpace]
  cases items with
  | nil => rfl
  | cons second items =>
    have hsecond := (hrest second List.mem_cons_self).opens.append
      (further (items.map text) ++ '}' :: rest)
    have hless : items.length < (further ((second :: items).map text) ++ '}' :: rest).length := by
      simp at hbound ⊢
      omega
    have hmore := readItems_texts hrest (by decide) (by decide) hless hsecond.skipSpace_cons
    have hdrop : (further ((second :: items).map text) ++ '}' :: rest).drop 1 =
        ' ' :: (text second ++ (further (items.map text) ++ '}' :: rest)) := by
      rw [List.map_cons, further_cons, List.drop_one, List.tail_cons]
    rw [if_neg (by simp [further]), if_pos (by rfl), hdrop, hmore, ok_bind]
    dsimp only
    rw [dedup_eq_self hitems]
    rfl

/-- A list behind its opening bracket. -/
theorem readItems_list {first : Value} {items : List Value}
    (hread : ∀ v ∈ first :: items, Reads part v) (rest : List Char) :
    (readItems part ']' (text first ++ (further (items.map text) ++ ']' :: rest)).length
      (text first ++ (further (items.map text) ++ ']' :: rest))) = .ok (first :: items, rest) := by
  have hfirst := hread first List.mem_cons_self
  have hbound := length_le_further (items.map text)
  rw [List.length_map] at hbound
  exact readItems_texts hread (by decide) (by decide) (by simp; omega)
    (hfirst.opens.append _).skipSpace

/-! ## Any value -/

theorem readForm_number {c : Char} (h : c.isDigit = true ∨ c = '-') (rest : List Char) :
    readForm part (c :: rest) = number (c :: rest) := by
  rcases h with h | rfl
  · have hne : ∀ d : Char, d.isDigit = false → c ≠ d := by
      rintro d hd rfl
      rw [hd] at h
      cases h
    have hquote : isQuote c = false := by
      rw [Bool.eq_false_iff]
      intro hquote
      rcases mark_cases hquote with rfl | rfl <;> exact absurd h (by decide)
    have hskip : skipSpace (c :: rest) = c :: rest :=
      List.dropWhile_cons_of_neg (by rw [not_isSpace_of_isDigit h]; exact Bool.false_ne_true)
    unfold readForm
    rw [hskip]
    dsimp only
    rw [if_neg (hne _ (by decide)), if_neg (hne _ (by decide)), if_neg (hne _ (by decide)), hquote,
      if_neg Bool.false_ne_true, if_neg fun hdots => hne _ (by decide) hdots.1, h]
    rfl
  · rfl

theorem readForm_quote {c : Char} (h : isQuote c = true) (rest : List Char) :
    readForm part (c :: rest) = strings (c :: rest) := by
  rcases mark_cases h with rfl | rfl <;> rfl

theorem readForm_bytes (body : List Char) :
    readForm part ('b' :: '\'' :: body) = strings ('b' :: '\'' :: body) := by
  have htake : ('b' :: '\'' :: body).takeWhile isWordChar = ['b'] := rfl
  have hdrop : ('b' :: '\'' :: body).dropWhile isWordChar = '\'' :: body := rfl
  have hword : ∀ tail, readForm part ('b' :: tail) = readWord ('b' :: tail) := fun _ => rfl
  rw [hword]
  unfold readWord
  dsimp only
  rw [htake, hdrop, if_pos (by rfl)]

theorem readForm_bytesText (data : List UInt8) {rest : List Char} (hrest : Stops rest) :
    readForm part ((bytesText data).toList ++ rest) =
      if data.all (·.toNat < 0x80) then .ok (bytes data, rest) else stop rest .nonAsciiBytes := by
  rw [← strings_bytesText data hrest, toList_bytesText]
  exact readForm_bytes _

/-- A value whose parts are read back is read back. -/
theorem readForm_text {v : Value} (hv : v.IsLiteral) (hread : ∀ c ∈ v.children, Reads part c)
    {rest : List Char} (hrest : Stops rest) :
    readForm part (text v ++ rest) = .ok (v, rest) := by
  cases v with
  | none => exact readWord_constant "None" (by simp [constants]) hrest
  | bool b =>
    cases b with
    | false => exact readWord_constant "False" (by simp [constants]) hrest
    | true => exact readWord_constant "True" (by simp [constants]) hrest
  | ellipsis => exact readWord_constant "Ellipsis" (by simp [constants]) hrest
  | float x => exact (hv.floatFree.self x rfl).elim
  | int n =>
    have hnumber := number_toString (hv.isRead.self) hrest
    rw [← hnumber, text, display, toList_toString]
    split
    · exact readForm_number (.inr rfl) _
    · obtain ⟨d, ds, hn, hd, -⟩ := isDigit_cases (n := n.natAbs)
      rw [hn]
      exact readForm_number (.inl hd) _
  | str s =>
    have hstring := strings_quoted s hrest
    rw [← hstring, text, display, Value.quoted, String.toList_ofList]
    exact readForm_quote (isQuote_quoteMark s.toList) _
  | bytes data =>
    have hdata : ∀ b ∈ data, b.toNat < 0x80 := hv.isRead.self
    have hascii : data.all (·.toNat < 0x80) = true := by simpa using hdata
    rw [text, display, readForm_bytesText data hrest, hascii, if_pos rfl]
  | tuple items =>
    rcases items with _ | ⟨first, _ | ⟨second, items⟩⟩
    · rfl
    · rw [text_singleton, List.cons_append, List.append_assoc]
      exact readTuple_singleton (hread first List.mem_cons_self) rest
    · rw [text_tuple, List.cons_append, List.append_assoc, List.append_assoc]
      exact readTuple_texts hread rest
  | list items =>
    cases items with
    | nil => rfl
    | cons first items =>
      rw [text_list, List.cons_append, List.append_assoc, List.append_assoc]
      change Except.map _ _ = _
      rw [List.singleton_append, readItems_list hread]
      rfl
  | dict pairs =>
    cases pairs with
    | nil => rfl
    | cons first pairs =>
      rw [text_dict, List.cons_append, List.append_assoc, List.append_assoc]
      refine readBrace_pairs (fun pair hpair => ⟨?_, ?_⟩) hv.isRead.self rest
      · exact hread _ (mem_children_dict.mpr ⟨pair, hpair, .inl rfl⟩)
      · exact hread _ (mem_children_dict.mpr ⟨pair, hpair, .inr rfl⟩)
  | set items =>
    cases items with
    | nil => exact readWord_set rest
    | cons first items =>
      rw [text_set, List.cons_append, List.append_assoc, List.append_assoc]
      exact readBrace_items hread hv.isRead.self rest

end Displays

/-! ## Texts -/

theorem length_le_of_mem {first t : List Char} {texts : List (List Char)} (h : t ∈ first :: texts) :
    t.length ≤ (first ++ further texts).length := by
  rcases List.mem_cons.mp h with rfl | h
  · exact List.length_append ▸ Nat.le_add_right _ _
  · have hsub := List.sublist_flatten_of_mem (List.mem_map_of_mem (f := fun t => ',' :: ' ' :: t) h)
    have hle := hsub.length_le
    rw [List.length_append, further, List.flatMap_def]
    simp only [List.length_cons] at hle
    omega

/-- A part is shorter than the whole. -/
theorem length_text_lt {v c : Value} (h : c ∈ v.children) :
    (text c).length < (text v).length := by
  have hitems : ∀ {first : Value} {items : List Value}, c ∈ first :: items →
      (text c).length ≤ (text first ++ further (items.map text)).length :=
    fun h => length_le_of_mem (List.mem_map_of_mem (f := text) h)
  cases v with
  | tuple items =>
    match items with
    | [first] =>
      obtain rfl := List.mem_singleton.mp h
      rw [text_singleton, List.length_cons, List.length_append]
      omega
    | first :: second :: items =>
      have := hitems h
      rw [text_tuple, List.length_cons, List.length_append]
      omega
  | list items =>
    cases items with
    | nil => cases h
    | cons first items =>
      have := hitems h
      rw [text_list, List.length_cons, List.length_append]
      omega
  | set items =>
    cases items with
    | nil => cases h
    | cons first items =>
      have := hitems h
      rw [text_set, List.length_cons, List.length_append]
      omega
  | dict pairs =>
    cases pairs with
    | nil => cases h
    | cons first pairs =>
      obtain ⟨pair, hpair, hc⟩ := mem_children_dict.mp h
      have hle := length_le_of_mem (List.mem_map_of_mem (f := pairText) hpair)
      have hpart : (text c).length ≤ (pairText pair).length := by
        rw [pairText, List.length_append, List.length_cons, List.length_cons]
        rcases hc with rfl | rfl <;> omega
      rw [text_dict, List.length_cons, List.length_append]
      omega
  | _ => cases h

theorem readValue_reads {depth : Nat} : ∀ {v : Value}, v.IsLiteral → (text v).length ≤ depth →
    Reads (readValue depth) v := by
  induction depth with
  | zero =>
    intro v hv hlength
    exact absurd (List.eq_nil_of_length_eq_zero (Nat.le_zero.mp hlength))
      (text_opens (hv.floatFree.self)).ne_nil
  | succ depth ih =>
    intro v hv hlength
    have hread : ∀ c ∈ v.children, Reads (readValue depth) c := fun c hc =>
      ih (hv.child hc) (Nat.le_of_lt_succ ((length_text_lt hc).trans_le hlength))
    exact ⟨text_opens hv.floatFree.self, readForm_text hv hread, readForm_text hv hread⟩

/-! ## Whole texts -/

theorem readValue_of_ne_nil {cs : List Char} (h : cs ≠ []) :
    ∃ depth, readValue cs.length cs = readForm (readValue depth) cs := by
  obtain ⟨c, tail, rfl⟩ := List.exists_cons_of_ne_nil h
  exact ⟨tail.length, rfl⟩

section Whole

variable {text : String} {v : Value} {rest : List Char}

/-- A text that begins with one value, and what is left of it. -/
theorem read_of_readValue (h : readValue text.toList.length text.toList = .ok (v, rest))
    (hcomma : (skipSpace rest).head? ≠ some ',') :
    read text = match skipSpace rest with
      | [] => .ok v
      | c :: rest' => .error ⟨byteLength text.toList - byteLength (c :: rest'), .unexpected c⟩ := by
  have hskip : skipSpace (skipSpace rest) = skipSpace rest := List.dropWhile_idempotent _ _
  rw [read, readAll, readSequence, h, ok_bind]
  dsimp only
  rw [if_pos hcomma]
  change Except.mapError _ (match skipSpace (skipSpace rest) with
    | [] => _
    | c :: rest => _) = _
  rw [hskip]
  cases skipSpace rest <;> rfl

theorem read_of_readValue_error {stopped : Stopped}
    (h : readValue text.toList.length text.toList = .error stopped) :
    read text =
      .error ⟨byteLength text.toList - byteLength stopped.rest, stopped.fault⟩ := by
  rw [read, readAll, readSequence, h]
  rfl

end Whole

/-- **The source form of a value is read as that value.** -/
theorem read_display {v : Value} (hv : v.IsLiteral) : read v.display = .ok v := by
  have hvalue := (readValue_reads hv (Nat.le_refl _)).reads stops_nil
  rw [List.append_nil] at hvalue
  exact read_of_readValue hvalue nofun

/-- **The values that can be read**, of those without floating-point numbers. -/
theorem isLiteral_iff_read {v : Value} :
    v.IsLiteral ↔ v.FloatFree ∧ ∃ t, read t = .ok v :=
  ⟨fun h => ⟨h.floatFree, _, read_display h⟩, fun ⟨hfree, _, h⟩ => ⟨isRead_of_read h, hfree⟩⟩

/-- Reading can be tested, though equality of values cannot. -/
theorem read_eq_of_same {t : String} {v : Value} (hfree : v.FloatFree)
    (h : (read t).toOption.any (same v) = true) : read t = .ok v := by
  cases hread : read t with
  | error fault => rw [hread] at h; cases h
  | ok w => rw [hread] at h; exact congrArg _ (eq_of_same hfree h).symm

/-- **What is read from a text is read from its source form**, unless a floating-point number is
part of it. -/
theorem read_display_of_read {t : String} {v : Value} (h : read t = .ok v) (hfree : v.FloatFree) :
    read v.display = .ok v := read_display ⟨isRead_of_read h, hfree⟩

/-- A text that is not the source form of its value: a key in two pieces that comes twice, and a
tuple of one. -/
theorem read_display_of_dict :
    let v := dict [(str "it's", tuple [none])]
    read "\x7b\"it's\": 1, 'it' \"'s\": ( None , )\x7d" = .ok v ∧ v.FloatFree ∧
      read v.display = .ok v := by
  intro v
  have hkey : (str "it's").FloatFree := everywhere_of_leaf rfl nofun
  have htuple : (tuple [none]).FloatFree :=
    everywhere_iff.mpr ⟨nofun, List.forall_mem_singleton.mpr (everywhere_of_leaf rfl nofun)⟩
  have hfree : v.FloatFree := everywhere_iff.mpr
    ⟨nofun, List.forall_mem_cons.mpr ⟨hkey, List.forall_mem_singleton.mpr htuple⟩⟩
  have hread : read "\x7b\"it's\": 1, 'it' \"'s\": ( None , )\x7d" = .ok v :=
    read_eq_of_same hfree (by decide +kernel)
  exact ⟨hread, hfree, read_display_of_read hread hfree⟩

end DocTree.Literal
