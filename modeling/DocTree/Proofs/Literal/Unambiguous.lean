import DocTree.Proofs.Literal.Inline

/-!
# Source forms are unambiguous

No two values have one source form, if no floating-point number is part of one of them; and where a
source form ends is seen from what stands behind it. The values need not be such as are read:
integers of any size and any bytes are told apart, and sets with repeats.

* `Unambiguous`: what is written is told from anything else that is written, **with more behind**;
* `unambiguous_str`, `unambiguous_bytes`, `unambiguous_int`: values without parts;
* `further_unambiguous`: parts with commas between them;
* `text_float_cases`, `text_append_ne_float`: a floating-point number is written like nothing else;
* `opening`, `BeginAlike`: what the first character tells;
* `list_unambiguous`, `tuple_unambiguous`, `dict_unambiguous`, `text_set_ne_dict`: brackets;
* **`unambiguous_text`**, **`display_eq_iff`**: source forms.
-/

namespace DocTree.Literal

open Text Value

/-- What is written for `a` begins nothing that is written for anything else, where what stands
behind is what may stand behind a value. -/
def Unambiguous {α : Type} (write : α → List Char) (a : α) : Prop :=
  ∀ ⦃b : α⦄ ⦃s t : List Char⦄, Stops s → Stops t → write a ++ s = write b ++ t → a = b ∧ s = t

/-! ## Values without parts -/

theorem unambiguous_str (a : String) : Unambiguous (fun s => text (str s)) a := by
  intro b s t hs ht h
  have hread : strings (text (str a) ++ s) = .ok (str a, s) := strings_quoted a hs
  have hother : strings (text (str b) ++ t) = .ok (str b, t) := strings_quoted b ht
  rw [h, hother] at hread
  cases hread
  exact ⟨rfl, rfl⟩

theorem ofNat_byte_injective : Function.Injective fun b : UInt8 => Char.ofNat b.toNat := by
  intro b c h
  have hvalue := congrArg Char.toNat h
  simp only [toNat_ofNat_byte] at hvalue
  exact UInt8.toNat_inj.mp hvalue

theorem unambiguous_bytes (a : List UInt8) : Unambiguous (fun data => text (bytes data)) a := by
  intro b s t hs ht h
  have hread := quoted_bytes a hs
  simp only [text_bytes, List.cons_append, List.append_assoc, List.cons.injEq, true_and,
    List.nil_append] at h
  rw [h, quoted_bytes b ht] at hread
  obtain ⟨hdata, hrest⟩ := Prod.mk.inj (Except.ok.inj hread)
  exact ⟨List.map_injective_iff.mpr ofNat_byte_injective hdata.symm, hrest.symm⟩

/-- The characters of integers. -/
def isSignOrDigit (c : Char) : Bool := c = '-' || c.isDigit

theorem isSignOrDigit_of_mem {n : Int} : ∀ c ∈ text (int n), isSignOrDigit c = true := by
  intro c hc
  rcases mem_text_int hc with rfl | hdigit
  · rfl
  · rw [isSignOrDigit, hdigit, Bool.or_true]

theorem toDigits_injective {m n : Nat} (h : Nat.toDigits 10 m = Nat.toDigits 10 n) : m = n := by
  have hvalue := congrArg (Nat.ofDigitChars 10 · 0) h
  simpa only [Nat.ofDigitChars_ten_toDigits] using hvalue

theorem toDigits_ne_minus {n : Nat} {cs : List Char} : Nat.toDigits 10 n ≠ '-' :: cs := by
  obtain ⟨d, ds, hn, hd, -⟩ := isDigit_cases (n := n)
  rw [hn]
  rintro ⟨⟩
  exact absurd hd (by decide)

theorem text_int_injective {m n : Int} (h : text (int m) = text (int n)) : m = n := by
  change (toString m).toList = (toString n).toList at h
  rw [toList_toString, toList_toString] at h
  split at h <;> split at h
  · have := toDigits_injective (List.append_cancel_left h)
    omega
  · exact absurd h.symm toDigits_ne_minus
  · exact absurd h toDigits_ne_minus
  · have := toDigits_injective h
    omega

theorem unambiguous_int (a : Int) : Unambiguous (fun n => text (int n)) a := by
  intro b s t hs ht h
  have hfirst := congrArg (List.takeWhile isSignOrDigit) h
  rw [hs.takeWhile_append (by decide) isSignOrDigit_of_mem,
    ht.takeWhile_append (by decide) isSignOrDigit_of_mem] at hfirst
  obtain rfl := text_int_injective hfirst
  exact ⟨rfl, List.append_cancel_left h⟩

/-! ## Parts -/

section Parts

variable {α : Type} {write : α → List Char} {close : Char} {s t : List Char}

/-- Parts behind a first one are told apart up to the closing bracket. -/
theorem further_unambiguous {as bs : List α} (has : ∀ a ∈ as, Unambiguous write a)
    (hclose : close ∈ stopChars) (hcomma : close ≠ ',')
    (h : further (as.map write) ++ close :: s = further (bs.map write) ++ close :: t) :
    as = bs ∧ s = t := by
  induction as generalizing bs with
  | nil =>
    cases bs with
    | nil => exact ⟨rfl, List.tail_eq_of_cons_eq h⟩
    | cons b bs => exact absurd (List.head_eq_of_cons_eq h) hcomma
  | cons a as ih =>
    obtain ⟨ha, has⟩ := List.forall_mem_cons.mp has
    cases bs with
    | nil => exact absurd (List.head_eq_of_cons_eq h).symm hcomma
    | cons b bs =>
      simp only [List.map_cons, further_cons, List.cons.injEq, true_and] at h
      obtain ⟨rfl, hrest⟩ := ha (stops_further _ hclose s) (stops_further _ hclose t) h
      obtain ⟨rfl, rfl⟩ := ih has hrest
      exact ⟨rfl, rfl⟩

/-- So are all the parts between two brackets. -/
theorem items_unambiguous {a b : α} {as bs : List α} (has : ∀ x ∈ a :: as, Unambiguous write x)
    (hclose : close ∈ stopChars) (hcomma : close ≠ ',')
    (h : write a ++ further (as.map write) ++ [close] ++ s =
      write b ++ further (bs.map write) ++ [close] ++ t) : a :: as = b :: bs ∧ s = t := by
  obtain ⟨ha, has⟩ := List.forall_mem_cons.mp has
  simp only [List.append_assoc, List.singleton_append] at h
  obtain ⟨rfl, hrest⟩ := ha (stops_further _ hclose s) (stops_further _ hclose t) h
  obtain ⟨rfl, rfl⟩ := further_unambiguous has hclose hcomma hrest
  exact ⟨rfl, rfl⟩

theorem unambiguous_pairText {pair : Value × Value} (hkey : Unambiguous text pair.1)
    (hvalue : Unambiguous text pair.2) : Unambiguous pairText pair := by
  intro other s t hs ht h
  simp only [pairText, List.append_assoc, List.cons_append] at h
  obtain ⟨hfirst, hrest⟩ := hkey (stops_cons (by decide) _) (stops_cons (by decide) _) h
  simp only [List.cons.injEq, true_and] at hrest
  obtain ⟨hsecond, hst⟩ := hvalue hs ht hrest
  exact ⟨Prod.ext hfirst hsecond, hst⟩

end Parts

/-! ## Floating-point numbers -/

/-- There are only digits in front of the point. -/
theorem positional_cases (d : Decimal) :
    ∃ lead rest, d.positional = lead ++ '.' :: rest ∧ ∀ c ∈ lead, c.isDigit = true := by
  have hdigits : ∀ c ∈ d.digits, c.isDigit = true :=
    fun c hc => Nat.isDigit_of_mem_toDigits (by decide) (by decide) hc
  unfold Decimal.positional
  split
  · refine ⟨_, ['0'], rfl, List.forall_mem_append.mpr ⟨hdigits, fun c hc => ?_⟩⟩
    rw [List.eq_of_mem_replicate hc]
    rfl
  · split
    · exact ⟨_, _, rfl, fun c hc => hdigits c (List.mem_of_mem_take hc)⟩
    · exact ⟨['0'], _, rfl, by decide⟩

/-- The text is a sign and digits with a point or an infinity behind them. -/
def PointOrInfinity (cs : List Char) : Prop :=
  ∃ lead c rest, cs = lead ++ c :: rest ∧ (∀ d ∈ lead, isSignOrDigit d = true) ∧
    (c = '.' ∨ c = 'i')

theorem pointOrInfinity_of_sign (negative : Bool) {body : String} (lead : List Char)
    {rest : List Char} {c : Char} (hbody : body.toList = lead ++ c :: rest)
    (hlead : ∀ d ∈ lead, d.isDigit = true) (hc : c = '.' ∨ c = 'i') :
    PointOrInfinity ((if negative then "-" else "") ++ body).toList := by
  refine ⟨(if negative then "-" else "").toList ++ lead, c, rest, ?_, ?_, hc⟩
  · rw [String.toList_append, hbody, List.append_assoc]
  · refine List.forall_mem_append.mpr ⟨?_, fun d hd => ?_⟩
    · cases negative <;> decide
    · rw [isSignOrDigit, hlead d hd, Bool.or_true]

/-- **What a floating-point number looks like**. -/
theorem text_float_cases (x : Float) :
    text (.float x) = ['N', 'a', 'N'] ∨ PointOrInfinity (text (.float x)) := by
  rw [text, display, floatText]
  dsimp only
  cases FloatShape.of x with
  | nan => exact .inl rfl
  | infinite negative =>
    exact .inr (pointOrInfinity_of_sign negative [] rfl (List.forall_mem_nil _) (.inr rfl))
  | zero negative =>
    exact .inr (pointOrInfinity_of_sign negative ['0'] rfl (by decide) (.inl rfl))
  | finite negative value =>
    have hlayout : ∃ d : Decimal, (if value.isWhole then (Decimal.mk value.whole 0).positional
        else (value.shortest .up).positional) = d.positional := by
      split
      · exact ⟨_, rfl⟩
      · exact ⟨_, rfl⟩
    obtain ⟨d, hd⟩ := hlayout
    obtain ⟨lead, rest, hpositional, hlead⟩ := positional_cases d
    dsimp only
    rw [hd, hpositional]
    exact .inr (pointOrInfinity_of_sign negative lead String.toList_ofList hlead (.inl rfl))

/-! ## Source forms -/

/-- The character that a form begins with, up to `charClass`. -/
def opening : Value → Char
  | .none => 'N'
  | .bool true => 'T'
  | .bool false => 'F'
  | .ellipsis => 'E'
  | .int _ | .float _ => '0'
  | .str _ => '\''
  | .bytes _ => 'b'
  | .tuple _ => '('
  | .list _ => '['
  | .set [] => 's'
  | .set (_ :: _) | .dict _ => '{'

/-- A number may begin with any digit or a sign, and a string with either quote. -/
def charClass (c : Char) : Char :=
  if isSignOrDigit c then '0' else if isQuote c then '\'' else c

theorem text_opening {v : Value} (h : ∀ x, v ≠ .float x) :
    ∃ c cs, text v = c :: cs ∧ charClass c = opening v := by
  cases v with
  | none => exact ⟨_, _, rfl, rfl⟩
  | bool b => cases b <;> exact ⟨_, _, rfl, rfl⟩
  | ellipsis => exact ⟨_, _, rfl, rfl⟩
  | float x => exact (h x rfl).elim
  | int n =>
    obtain ⟨c, cs, htext, -, -⟩ := text_opens h
    refine ⟨c, cs, htext, if_pos (isSignOrDigit_of_mem (n := n) c ?_)⟩
    rw [htext]
    exact List.mem_cons_self
  | str s =>
    refine ⟨_, _, text_str s, ?_⟩
    rcases mark_cases (isQuote_quoteMark s.toList) with hmark | hmark <;> rw [hmark] <;> rfl
  | bytes data => exact ⟨_, _, text_bytes data, rfl⟩
  | tuple items =>
    match items with
    | [] => exact ⟨_, _, rfl, rfl⟩
    | [first] => exact ⟨_, _, text_singleton first, rfl⟩
    | first :: second :: items => exact ⟨_, _, text_tuple first second items, rfl⟩
  | list items =>
    cases items with
    | nil => exact ⟨_, _, rfl, rfl⟩
    | cons first items => exact ⟨_, _, text_list first items, rfl⟩
  | dict pairs =>
    cases pairs with
    | nil => exact ⟨_, _, rfl, rfl⟩
    | cons first pairs => exact ⟨_, _, text_dict first pairs, rfl⟩
  | set items =>
    cases items with
    | nil => exact ⟨_, _, rfl, rfl⟩
    | cons first items => exact ⟨_, _, text_set first items, rfl⟩

/-- Two values that begin alike, apart from floating-point numbers. -/
inductive BeginAlike : Value → Value → Prop where
  | same (v : Value) : BeginAlike v v
  | int (m n : Int) : BeginAlike (.int m) (.int n)
  | str (a b : String) : BeginAlike (.str a) (.str b)
  | bytes (a b : List UInt8) : BeginAlike (.bytes a) (.bytes b)
  | tuple (as bs : List Value) : BeginAlike (.tuple as) (.tuple bs)
  | list (as bs : List Value) : BeginAlike (.list as) (.list bs)
  | set (a b : Value) (as bs : List Value) : BeginAlike (.set (a :: as)) (.set (b :: bs))
  | dict (ps qs : List (Value × Value)) : BeginAlike (.dict ps) (.dict qs)
  | setDict (a : Value) (as : List Value) (qs : List (Value × Value)) :
      BeginAlike (.set (a :: as)) (.dict qs)
  | dictSet (ps : List (Value × Value)) (b : Value) (bs : List Value) :
      BeginAlike (.dict ps) (.set (b :: bs))

/-- The first character tells the constructor, but for a set and a dict in braces. -/
theorem beginAlike_of_opening {v w : Value} (hv : ∀ x, v ≠ .float x) (hw : ∀ x, w ≠ .float x)
    (h : opening v = opening w) : BeginAlike v w := by
  fun_cases opening v <;> fun_cases opening w <;>
    first
    | exact (hv _ rfl).elim
    | exact (hw _ rfl).elim
    | exact .same _
    | constructor
    | exact absurd h (by simp [opening])

section Begin

variable {v w : Value} {s t : List Char}

theorem beginAlike_of_eq (hv : ∀ x, v ≠ .float x) (hw : ∀ x, w ≠ .float x)
    (h : text v ++ s = text w ++ t) : BeginAlike v w := by
  obtain ⟨c, cs, hc, hcv⟩ := text_opening hv
  obtain ⟨d, ds, hd, hdw⟩ := text_opening hw
  rw [hc, hd] at h
  obtain rfl : c = d := List.head_eq_of_cons_eq h
  exact beginAlike_of_opening hv hw (hcv.symm.trans hdw)

/-- Behind the digits comes the point, which does not stand behind a value. -/
theorem text_int_append_ne (n : Int) (hs : Stops s) {cs : List Char} (hcs : PointOrInfinity cs) :
    text (.int n) ++ s ≠ cs ++ t := by
  obtain ⟨lead, c, rest, rfl, hlead, hc⟩ := hcs
  intro h
  have hrest := congrArg (List.dropWhile isSignOrDigit) h
  have hend : ¬ isSignOrDigit c = true := by rcases hc with rfl | rfl <;> decide
  rw [hs.dropWhile_append (by decide) isSignOrDigit_of_mem, List.append_assoc,
    List.dropWhile_append_of_pos hlead, List.cons_append, List.dropWhile_cons_of_neg hend] at hrest
  have hmem : c ∈ stopChars := hs c (hrest ▸ rfl)
  rcases hc with rfl | rfl <;> exact absurd hmem (by decide)

theorem PointOrInfinity.opens {cs : List Char} (h : PointOrInfinity cs) : Opens cs := by
  obtain ⟨lead, c, rest, rfl, hlead, hc⟩ := h
  cases lead with
  | nil => rcases hc with rfl | rfl <;> exact ⟨_, _, rfl, by decide, by decide⟩
  | cons d lead =>
    have hd := hlead d List.mem_cons_self
    refine ⟨d, _, rfl, ?_, fun hstop => ?_⟩
    · rcases Bool.or_eq_true_iff.mp hd with hminus | hdigit
      · rw [of_decide_eq_true hminus]
        rfl
      · exact not_isSpace_of_isDigit hdigit
    · have hnone : ∀ c ∈ stopChars, isSignOrDigit c = false := by decide
      rw [hnone d hstop] at hd
      cases hd

/-- Nothing else is written as a floating-point number is. -/
theorem text_append_ne_float (hv : ∀ x, v ≠ .float x) (hs : Stops s) (x : Float) :
    text v ++ s ≠ text (.float x) ++ t := by
  intro h
  obtain ⟨c, cs, hc, hopening⟩ := text_opening hv
  -- By the first character, only a constant or an integer comes close.
  rcases text_float_cases x with hnan | hnumber
  · rw [hc, hnan] at h
    obtain rfl : c = 'N' := List.head_eq_of_cons_eq h
    cases beginAlike_of_opening (w := .none) hv nofun hopening.symm
    cases hc
    cases h
  · obtain ⟨lead, d, rest, htext, hlead, hd⟩ := id hnumber
    rw [htext] at h
    cases lead with
    | nil =>
      have hother : ∀ v : Value, opening v ≠ '.' ∧ opening v ≠ 'i' := by
        intro v
        fun_cases opening v <;> decide
      rw [hc] at h
      obtain rfl : c = d := List.head_eq_of_cons_eq h
      rcases hd with rfl | rfl
      · exact (hother v).1 hopening.symm
      · exact (hother v).2 hopening.symm
    | cons e lead =>
      have hclass : charClass e = '0' := if_pos (hlead e List.mem_cons_self)
      obtain rfl : c = e := List.head_eq_of_cons_eq (hc ▸ h)
      have hint : ∃ n, v = .int n := by
        cases beginAlike_of_opening (w := .int 0) hv nofun (hopening.symm.trans hclass) with
        | same => exact ⟨0, rfl⟩
        | int n => exact ⟨n, rfl⟩
      obtain ⟨n, rfl⟩ := hint
      exact text_int_append_ne n hs hnumber (htext ▸ h)

theorem opens_text (w : Value) : Opens (text w) := by
  by_cases hw : ∀ x, w ≠ .float x
  · exact text_opens hw
  · obtain ⟨x, hx⟩ := not_forall.mp hw
    obtain rfl := not_not.mp hx
    rcases text_float_cases x with hnan | hnumber
    · exact ⟨_, _, hnan, by decide, by decide⟩
    · exact hnumber.opens

theorem cons_ne_text_append {close : Char} (hclose : close ∈ stopChars) :
    close :: s ≠ text w ++ t := by
  intro h
  exact ((opens_text w).append t).head?_ne hclose (h ▸ rfl)

end Begin

section Brackets

variable {as bs : List Value} {ps qs : List (Value × Value)} {s t : List Char}

theorem list_unambiguous (has : ∀ a ∈ as, Unambiguous text a)
    (h : text (.list as) ++ s = text (.list bs) ++ t) : as = bs ∧ s = t := by
  cases as with
  | nil =>
    cases bs with
    | nil => exact ⟨rfl, List.append_cancel_left h⟩
    | cons b bs =>
      rw [text_list, List.cons_append, List.append_assoc, List.append_assoc] at h
      exact absurd (List.tail_eq_of_cons_eq h) (cons_ne_text_append (by decide))
  | cons a as =>
    cases bs with
    | nil =>
      rw [text_list, List.cons_append, List.append_assoc, List.append_assoc] at h
      exact absurd (List.tail_eq_of_cons_eq h).symm (cons_ne_text_append (by decide))
    | cons b bs =>
      rw [text_list, text_list] at h
      exact items_unambiguous has (by decide) (by decide) (List.tail_eq_of_cons_eq h)

/-- What stands behind the first part of a tuple. -/
def tupleTail : List Value → List Char
  | [] => [',', ')']
  | second :: items => further ((second :: items).map text) ++ [')']

theorem text_tuple_cons (first : Value) (items : List Value) :
    text (.tuple (first :: items)) = '(' :: (text first ++ tupleTail items) := by
  cases items with
  | nil => exact text_singleton first
  | cons second items => rw [text_tuple, List.append_assoc, tupleTail]

theorem stops_tupleTail (items : List Value) (s : List Char) : Stops (tupleTail items ++ s) := by
  cases items with
  | nil => exact stops_cons (by decide) _
  | cons second items => exact stops_cons (by decide) _

theorem tupleTail_unambiguous (has : ∀ a ∈ as, Unambiguous text a)
    (h : tupleTail as ++ s = tupleTail bs ++ t) : as = bs ∧ s = t := by
  cases as with
  | nil =>
    cases bs with
    | nil => exact ⟨rfl, List.append_cancel_left h⟩
    | cons b bs => cases h
  | cons a as =>
    cases bs with
    | nil => cases h
    | cons b bs =>
      rw [tupleTail, tupleTail, List.append_assoc, List.append_assoc] at h
      exact further_unambiguous has (by decide) (by decide) h

theorem tuple_unambiguous (has : ∀ a ∈ as, Unambiguous text a)
    (h : text (.tuple as) ++ s = text (.tuple bs) ++ t) : as = bs ∧ s = t := by
  cases as with
  | nil =>
    cases bs with
    | nil => exact ⟨rfl, List.append_cancel_left h⟩
    | cons b bs =>
      rw [text_tuple_cons, List.cons_append, List.append_assoc] at h
      exact absurd (List.tail_eq_of_cons_eq h) (cons_ne_text_append (by decide))
  | cons a as =>
    obtain ⟨ha, has⟩ := List.forall_mem_cons.mp has
    rw [text_tuple_cons, List.cons_append, List.append_assoc] at h
    cases bs with
    | nil => exact absurd (List.tail_eq_of_cons_eq h).symm (cons_ne_text_append (by decide))
    | cons b bs =>
      rw [text_tuple_cons, List.cons_append, List.append_assoc] at h
      obtain ⟨rfl, hrest⟩ :=
        ha (stops_tupleTail as s) (stops_tupleTail bs t) (List.tail_eq_of_cons_eq h)
      obtain ⟨rfl, rfl⟩ := tupleTail_unambiguous has hrest
      exact ⟨rfl, rfl⟩

theorem dict_unambiguous (hps : ∀ p ∈ ps, Unambiguous pairText p)
    (h : text (.dict ps) ++ s = text (.dict qs) ++ t) : ps = qs ∧ s = t := by
  cases ps with
  | nil =>
    cases qs with
    | nil => exact ⟨rfl, List.append_cancel_left h⟩
    | cons q qs =>
      simp only [text_dict, pairText, List.cons_append, List.append_assoc] at h
      exact absurd (List.tail_eq_of_cons_eq h) (cons_ne_text_append (by decide))
  | cons p ps =>
    cases qs with
    | nil =>
      simp only [text_dict, pairText, List.cons_append, List.append_assoc] at h
      exact absurd (List.tail_eq_of_cons_eq h).symm (cons_ne_text_append (by decide))
    | cons q qs =>
      rw [text_dict, text_dict] at h
      exact items_unambiguous hps (by decide) (by decide) (List.tail_eq_of_cons_eq h)

/-- The colon tells a dict from a set. -/
theorem text_set_ne_dict {a : Value} (hunambiguous : Unambiguous text a ∨
      ∀ p ∈ ps, Unambiguous text p.1) :
    text (.set (a :: as)) ++ s ≠ text (.dict ps) ++ t := by
  intro h
  rw [text_set] at h
  cases ps with
  | nil =>
    simp only [List.cons_append, List.append_assoc] at h
    exact cons_ne_text_append (by decide) (List.tail_eq_of_cons_eq h).symm
  | cons p ps =>
    simp only [text_dict, pairText, List.cons_append, List.append_assoc, List.cons.injEq, true_and,
      List.nil_append] at h
    have hset : Stops (further (as.map text) ++ '}' :: s) := stops_further _ (by decide) s
    have hdict := stops_cons (c := ':') (by decide)
      (' ' :: (text p.2 ++ (further (ps.map pairText) ++ '}' :: t)))
    have hbehind : further (as.map text) ++ '}' :: s =
        ':' :: ' ' :: (text p.2 ++ (further (ps.map pairText) ++ '}' :: t)) := by
      rcases hunambiguous with ha | hp
      · exact (ha hset hdict h).2
      · exact (hp p List.mem_cons_self hdict hset h.symm).2.symm
    cases as with
    | nil => cases hbehind
    | cons b as => cases hbehind

end Brackets

/-- **Source forms are unambiguous.** The source form of a value without floating-point numbers
begins no other one, if what stands behind the two may stand behind a value. -/
theorem unambiguous_text {v : Value} (hv : v.FloatFree) : Unambiguous text v := by
  induction v using induction_parts with
  | h v ih =>
    have hparts : ∀ c ∈ v.children, Unambiguous text c := fun c hc => ih c hc (hv.child hc)
    intro w s t hs ht h
    have hw : ∀ x, w ≠ .float x := by
      rintro x rfl
      exact text_append_ne_float hv.self hs x h
    cases beginAlike_of_eq hv.self hw h with
    | same => exact ⟨rfl, List.append_cancel_left h⟩
    | int m n => exact (unambiguous_int m hs ht h).imp_left (congrArg Value.int)
    | str a b => exact (unambiguous_str a hs ht h).imp_left (congrArg Value.str)
    | bytes a b => exact (unambiguous_bytes a hs ht h).imp_left (congrArg Value.bytes)
    | tuple as bs => exact (tuple_unambiguous hparts h).imp_left (congrArg Value.tuple)
    | list as bs => exact (list_unambiguous hparts h).imp_left (congrArg Value.list)
    | set a b as bs =>
      rw [text_set, text_set] at h
      have hitems := items_unambiguous hparts (by decide) (by decide) (List.tail_eq_of_cons_eq h)
      exact hitems.imp_left (congrArg Value.set)
    | dict ps qs =>
      have hpairs : ∀ p ∈ ps, Unambiguous pairText p := fun p hp =>
        unambiguous_pairText (hparts _ (mem_children_dict.mpr ⟨p, hp, .inl rfl⟩))
          (hparts _ (mem_children_dict.mpr ⟨p, hp, .inr rfl⟩))
      exact (dict_unambiguous hpairs h).imp_left (congrArg Value.dict)
    | setDict a as qs => exact (text_set_ne_dict (.inl (hparts a List.mem_cons_self)) h).elim
    | dictSet ps b bs =>
      have hkeys : ∀ p ∈ ps, Unambiguous text p.1 := fun p hp =>
        hparts _ (mem_children_dict.mpr ⟨p, hp, .inl rfl⟩)
      exact (text_set_ne_dict (.inr hkeys) h.symm).elim

/-- **A value is known by its source form.** -/
theorem display_eq_iff {v w : Value} (hv : v.FloatFree) : v.display = w.display ↔ v = w := by
  refine ⟨fun h => ?_, congrArg display⟩
  have htext : text v ++ [] = text w ++ [] := congrArg (·.toList ++ []) h
  exact (unambiguous_text hv stops_nil stops_nil htext).1

end DocTree.Literal
