import DocTree.Literal.Reader
import DocTree.Proofs.Literal.Digits
import DocTree.Proofs.Literal.Floats
import DocTree.Proofs.Parse.Fields
import DocTree.Proofs.Value.Parts

/-!
# What is read

Every value that is read from a text is as `Value.IsRead` says, with one lemma for each reader.

* `ReadsTo`: what holds of every value that a reader may give;
* `number_readsTo`, `strings_readsTo`, `readWord_readsTo`: values without parts;
* `readItems_readsTo`, `readTail_readsTo`, `readPairs_readsTo`, `readBrace_readsTo`: displays, whose
  parts are read by a reader that is right;
* **`isRead_of_read`**: a text that is a literal.
-/

namespace DocTree.Literal

open Value

/-- All that the reader gives for a text satisfies `P`. -/
def ReadsTo {α : Type} (x : Except Stopped (Front α)) (P : α → Prop) : Prop :=
  ∀ a rest, x = .ok (a, rest) → P a

section ReadsTo

variable {α β : Type} {P : α → Prop}

theorem readsTo_ok {a : α} (h : P a) (rest : List Char) : ReadsTo (.ok (a, rest)) P := by
  rintro _ _ ⟨⟩
  exact h

theorem readsTo_stop (rest : List Char) (fault : LiteralFault) :
    ReadsTo (stop rest fault : Except Stopped (Front α)) P :=
  fun _ _ h => nomatch h

theorem ReadsTo.bind {Q : β → Prop} {x : Except Stopped (Front α)}
    {f : Front α → Except Stopped (Front β)} (hx : ReadsTo x P)
    (hf : ∀ a rest, P a → ReadsTo (f (a, rest)) Q) : ReadsTo (x >>= f) Q := by
  intro b rest h
  obtain ⟨⟨a, mid⟩, ha, hb⟩ := ok_of_bind h
  exact hf a mid (hx a mid ha) b rest hb

theorem ReadsTo.map {Q : β → Prop} {x : Except Stopped (Front α)} {f : Front α → Front β}
    (hx : ReadsTo x P) (hf : ∀ a rest, P a → Q (f (a, rest)).1) : ReadsTo (x.map f) Q := by
  intro b rest h
  obtain ⟨⟨a, mid⟩, ha, hb⟩ := ok_of_map h
  have := hf a mid (hx a mid ha)
  rwa [hb] at this

end ReadsTo

/-! ## Values without parts -/

theorem isRead_signed {n : Nat} (negative : Bool) (h : n ≤ Decimal.maxInt64) :
    (signed negative n).IsRead := by
  refine everywhere_of_leaf rfl ?_
  cases negative with
  | true =>
    change (-(n : Int)).natAbs ≤ Decimal.maxInt64
    rwa [Int.natAbs_neg, Int.natAbs_natCast]
  | false => exact h

theorem number_readsTo (cs : List Char) : ReadsTo (number cs) IsRead := by
  have hbased : ∀ negative base cs, ReadsTo (basedInteger negative base cs) IsRead := by
    intro negative base cs
    unfold basedInteger
    dsimp only
    split
    · next n h => exact readsTo_ok (isRead_signed negative (readDigits_le h)) _
    · exact readsTo_stop _ _
  have hdecimal : ∀ negative cs, ReadsTo (decimal negative cs) IsRead := by
    intro negative cs
    unfold decimal
    dsimp only
    split
    · exact readsTo_stop _ _
    · split
      · exact readsTo_stop _ _
      · split
        · split
          · next n h => exact readsTo_ok (isRead_signed negative (readDigits_le h)) _
          · exact readsTo_stop _ _
        · split
          · next hread =>
            refine readsTo_ok (everywhere_of_leaf rfl ?_) _
            cases negative with
            | true => exact Floats.isNaN_neg (isNaN_of_decimal hread)
            | false => exact isNaN_of_decimal hread
          · exact readsTo_stop _ _
  unfold number
  dsimp only
  split
  · exact hbased _ _ _
  · exact hdecimal _ _

/-- Adjacent strings are of the kind of those before, and bytes are ASCII. -/
structure OfKind (kind : Option Bool) (joined : Bool × List Char) : Prop where
  kind (b : Bool) (h : kind = some b) : joined.1 = b
  ascii (h : joined.1 = true) : ∀ c ∈ joined.2, c.toNat < 0x80

theorem ofKind_nil (kind : Option Bool) : OfKind kind (kind.getD false, []) where
  kind b h := by rw [h]; rfl
  ascii _ _ h := nomatch h

theorem stringsWithin_readsTo (bound : Nat) (kind : Option Bool) (cs : List Char) :
    ReadsTo (stringsWithin bound kind cs) (OfKind kind) := by
  induction bound generalizing kind cs with
  | zero => exact readsTo_ok (ofKind_nil kind) _
  | succ bound ih =>
    rw [stringsWithin]
    dsimp only
    split
    · exact readsTo_ok (ofKind_nil kind) _
    · split
      · exact readsTo_ok (ofKind_nil kind) _
      · split
        · exact readsTo_stop _ _
        · next hkind =>
          have htext : ∀ x : Except Stopped (Front (List Char)), ReadsTo x fun _ => True :=
            fun _ _ _ _ => trivial
          refine (htext _).bind fun text rest _ => ?_
          split
          · exact readsTo_stop _ _
          · next hascii =>
            refine (ih _ rest).bind fun ⟨isBytes, more⟩ rest hmore => ?_
            obtain rfl := hmore.kind _ rfl
            refine readsTo_ok ⟨fun b hb => ?_, fun hbytes c hc => ?_⟩ _
            · subst hb
              simp only [Option.any_some, bne_iff_ne, ne_eq, Decidable.not_not] at hkind
              exact hkind.symm
            · rw [Bool.and_eq_true_iff, not_and, Bool.not_eq_true', Bool.not_eq_false] at hascii
              rcases List.mem_append.mp hc with hc | hc
              · exact of_decide_eq_true (List.all_eq_true.mp (hascii hbytes) c hc)
              · exact hmore.ascii hbytes c hc

/-- One or more strings in a row. -/
theorem strings_readsTo (cs : List Char) : ReadsTo (strings cs) IsRead := by
  refine (stringsWithin_readsTo _ none cs).map fun ⟨isBytes, text⟩ rest h => ?_
  cases isBytes with
  | false => exact everywhere_of_leaf rfl trivial
  | true =>
    refine everywhere_of_leaf rfl fun b hb => ?_
    obtain ⟨c, hc, rfl⟩ := List.mem_map.mp hb
    have hlt := h.ascii rfl c hc
    simp
    omega

theorem readWord_readsTo (cs : List Char) : ReadsTo (readWord cs) IsRead := by
  unfold readWord
  dsimp only
  split
  · exact strings_readsTo cs
  · split
    · exact readsTo_ok (everywhere_of_leaf rfl trivial) _
    · exact readsTo_ok (everywhere_of_leaf rfl trivial) _
    · exact readsTo_ok (everywhere_of_leaf rfl trivial) _
    · exact readsTo_ok (everywhere_of_leaf rfl trivial) _
    · exact readsTo_ok (everywhere_of_leaf rfl .nil) _
    · exact readsTo_stop _ _

/-! ## Containers -/

theorem isRead_tuple {items : List Value} (h : ∀ v ∈ items, v.IsRead) : (tuple items).IsRead :=
  everywhere_iff.mpr ⟨trivial, h⟩

/-- The pairs are made of values that are right. -/
def PairsRead (pairs : List (Value × Value)) : Prop :=
  ∀ pair ∈ pairs, pair.1.IsRead ∧ pair.2.IsRead

theorem pairsRead_insertPair {pairs : List (Value × Value)} {new : Value × Value}
    (h : PairsRead pairs) (hnew : new.1.IsRead ∧ new.2.IsRead) :
    PairsRead (insertPair pairs new) := by
  induction pairs with
  | nil => exact List.forall_mem_singleton.mpr hnew
  | cons pair pairs ih =>
    obtain ⟨hpair, hpairs⟩ := List.forall_mem_cons.mp h
    rw [insertPair]
    split
    · exact List.forall_mem_cons.mpr ⟨⟨hpair.1, hnew.2⟩, hpairs⟩
    · exact List.forall_mem_cons.mpr ⟨hpair, ih hpairs⟩

/-- The keys after an insertion are those before, and perhaps the new one. -/
theorem key_of_mem_insertPair {pairs : List (Value × Value)} {new p : Value × Value}
    (h : p ∈ insertPair pairs new) : p.1 = new.1 ∨ ∃ q ∈ pairs, p.1 = q.1 := by
  induction pairs with
  | nil => exact .inl (congrArg _ (List.mem_singleton.mp h))
  | cons pair pairs ih =>
    rw [insertPair] at h
    split at h
    · rcases List.mem_cons.mp h with rfl | h
      · exact .inr ⟨pair, List.mem_cons_self, rfl⟩
      · exact .inr ⟨p, List.mem_cons_of_mem _ h, rfl⟩
    · rcases List.mem_cons.mp h with rfl | h
      · exact .inr ⟨_, List.mem_cons_self, rfl⟩
      · refine (ih h).imp_right ?_
        rintro ⟨q, hq, hkey⟩
        exact ⟨q, List.mem_cons_of_mem _ hq, hkey⟩

theorem distinctKeys_insertPair {pairs : List (Value × Value)} {new : Value × Value}
    (h : DistinctKeys pairs) : DistinctKeys (insertPair pairs new) := by
  induction pairs with
  | nil => exact List.pairwise_singleton _ _
  | cons pair pairs ih =>
    obtain ⟨hpair, hpairs⟩ := List.pairwise_cons.mp h
    rw [insertPair]
    split
    · exact List.pairwise_cons.mpr ⟨hpair, hpairs⟩
    · next hne =>
      refine List.pairwise_cons.mpr ⟨fun p hp => ?_, ih hpairs⟩
      rcases key_of_mem_insertPair hp with hkey | ⟨q, hq, hkey⟩
      · rw [hkey]
        exact Bool.eq_false_iff.mpr hne
      · rw [hkey]
        exact hpair q hq

theorem isRead_dict {pairs : List (Value × Value)} (h : PairsRead pairs) :
    (dict (pairs.foldl insertPair [])).IsRead := by
  have hfold : ∀ start : List (Value × Value), PairsRead start → DistinctKeys start →
      PairsRead (pairs.foldl insertPair start) ∧ DistinctKeys (pairs.foldl insertPair start) := by
    induction pairs with
    | nil => exact fun _ hread hkeys => ⟨hread, hkeys⟩
    | cons pair pairs ih =>
      obtain ⟨hpair, hpairs⟩ := List.forall_mem_cons.mp h
      exact fun start hread hkeys =>
        ih hpairs _ (pairsRead_insertPair hread hpair) (distinctKeys_insertPair hkeys)
  obtain ⟨hread, hkeys⟩ := hfold [] (fun _ h => nomatch h) .nil
  refine everywhere_iff.mpr ⟨hkeys, fun c hc => ?_⟩
  obtain ⟨pair, hpair, rfl | rfl⟩ := mem_children_dict.mp hc
  · exact (hread pair hpair).1
  · exact (hread pair hpair).2

theorem isRead_set {items : List Value} (h : ∀ v ∈ items, v.IsRead) :
    (set (dedup items)).IsRead :=
  everywhere_iff.mpr ⟨distinct_dedup items, fun v hv => h v (mem_of_mem_dedup hv)⟩

/-! ## Displays -/

section Displays

variable {part : List Char → Except Stopped (Front Value)} (hpart : ∀ cs, ReadsTo (part cs) IsRead)

include hpart

theorem readItems_readsTo (close : Char) (bound : Nat) (cs : List Char) :
    ReadsTo (readItems part close bound cs) fun items => ∀ v ∈ items, v.IsRead := by
  induction bound generalizing cs with
  | zero => exact readsTo_stop _ _
  | succ bound ih =>
    rw [readItems]
    dsimp only
    split
    · exact readsTo_ok (fun _ h => nomatch h) _
    · refine (hpart _).bind fun item rest hitem => ?_
      dsimp only
      split
      · exact (ih _).bind fun items rest hitems =>
          readsTo_ok (List.forall_mem_cons.mpr ⟨hitem, hitems⟩) _
      · split
        · exact readsTo_ok (List.forall_mem_singleton.mpr hitem) _
        · exact readsTo_stop _ _

theorem readTail_readsTo (close : Option Char) (bound : Nat) (cs : List Char) :
    ReadsTo (readTail part close bound cs) fun items => ∀ v ∈ items, v.IsRead := by
  induction bound generalizing cs with
  | zero => exact readsTo_ok (fun _ h => nomatch h) _
  | succ bound ih =>
    rw [readTail]
    split
    · exact readsTo_ok (fun _ h => nomatch h) _
    · dsimp only
      split
      · exact readsTo_ok (fun _ h => nomatch h) _
      · refine (hpart _).bind fun item rest hitem => ?_
        exact (ih _).bind fun items rest hitems =>
          readsTo_ok (List.forall_mem_cons.mpr ⟨hitem, hitems⟩) _

theorem readSequence_readsTo (close : Option Char) (cs : List Char) :
    ReadsTo (readSequence part close cs) IsRead := by
  refine (hpart cs).bind fun first rest hfirst => ?_
  dsimp only
  split
  · exact readsTo_ok hfirst _
  · exact (readTail_readsTo hpart close _ _).bind fun items rest hitems =>
      readsTo_ok (isRead_tuple (List.forall_mem_cons.mpr ⟨hfirst, hitems⟩)) _

theorem readTuple_readsTo (cs : List Char) : ReadsTo (readTuple part cs) IsRead := by
  unfold readTuple
  dsimp only
  split
  · exact readsTo_ok (isRead_tuple (List.forall_mem_nil _)) _
  · refine (readSequence_readsTo hpart _ _).bind fun inner rest hinner => ?_
    dsimp only
    split
    · exact readsTo_ok hinner _
    · exact readsTo_stop _ _

theorem readPairs_readsTo (bound : Nat) {key : Value} (hkey : key.IsRead) (cs : List Char) :
    ReadsTo (readPairs part bound key cs) PairsRead := by
  induction bound generalizing key cs with
  | zero => exact readsTo_stop _ _
  | succ bound ih =>
    rw [readPairs]
    refine (hpart cs).bind fun value rest hvalue => ?_
    dsimp only
    generalize (if (skipSpace rest).head? = some ',' then
      skipSpace ((skipSpace rest).drop 1) else skipSpace rest) = rest'
    split
    · exact readsTo_ok (List.forall_mem_singleton.mpr ⟨hkey, hvalue⟩) _
    · split
      · exact readsTo_stop _ _
      · refine (hpart _).bind fun next rest hnext => ?_
        dsimp only
        split
        · exact readsTo_stop _ _
        · exact (ih hnext _).bind fun pairs rest hpairs =>
            readsTo_ok (List.forall_mem_cons.mpr ⟨⟨hkey, hvalue⟩, hpairs⟩) _

theorem readBrace_readsTo (cs : List Char) : ReadsTo (readBrace part cs) IsRead := by
  unfold readBrace
  dsimp only
  split
  · exact readsTo_ok (everywhere_iff.mpr ⟨List.Pairwise.nil, List.forall_mem_nil _⟩) _
  · refine (hpart _).bind fun first rest hfirst => ?_
    dsimp only
    split
    · exact (readPairs_readsTo hpart _ hfirst _).bind fun pairs rest hpairs =>
        readsTo_ok (isRead_dict hpairs) _
    · split
      · exact (readItems_readsTo hpart _ _ _).bind fun items rest hitems =>
          readsTo_ok (isRead_set (List.forall_mem_cons.mpr ⟨hfirst, hitems⟩)) _
      · split
        · exact readsTo_ok (isRead_set (List.forall_mem_singleton.mpr hfirst)) _
        · exact readsTo_stop _ _

theorem readForm_readsTo (cs : List Char) : ReadsTo (readForm part cs) IsRead := by
  unfold readForm
  dsimp only
  split
  · exact readsTo_stop _ _
  · split
    · exact readTuple_readsTo hpart _
    · split
      · exact (readItems_readsTo hpart _ _ _).map fun items rest hitems =>
          everywhere_iff.mpr ⟨trivial, hitems⟩
      · split
        · exact readBrace_readsTo hpart _
        · split
          · exact strings_readsTo _
          · split
            · unfold readDots
              split
              · exact readsTo_ok (everywhere_of_leaf rfl trivial) _
              · exact readsTo_stop _ _
            · split
              · exact number_readsTo _
              · split
                · exact readWord_readsTo _
                · exact readsTo_stop _ _

end Displays

/-! ## Texts -/

theorem readValue_readsTo (depth : Nat) (cs : List Char) : ReadsTo (readValue depth cs) IsRead := by
  induction depth generalizing cs with
  | zero => exact readsTo_stop _ _
  | succ depth ih => exact readForm_readsTo ih cs

/-- **What is read from a text is as `IsRead` says.** -/
theorem isRead_of_read {text : String} {v : Value} (h : read text = .ok v) : v.IsRead := by
  obtain ⟨⟨value, rest⟩, hseq, hrest⟩ := ok_of_bind (ok_of_mapError h)
  dsimp only at hrest
  split at hrest
  · cases hrest
    exact readSequence_readsTo (readValue_readsTo _) none _ _ _ hseq
  · cases hrest

end DocTree.Literal
