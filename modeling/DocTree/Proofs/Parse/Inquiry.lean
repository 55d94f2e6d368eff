import Mathlib.Data.List.Forall2
import DocTree.Parse.Inquiry
import DocTree.Proofs.Token.Methods

/-!
# Reasoning about inquiries

What can be said of an inquiry before it is known how its questions are answered.

* `Inquiry.Ensures`: its questions, errors and results are as promised, given that the answers are
  as agreed;
* `Inquiry.Covers`: it comes to no result without asking for a given object;
* `Inquiry.Gives`: the result for given answers;
* `Inquiry.Alike`: two inquiries that go the same way with answers that differ in methods only.

Each comes with one rule for sequencing and one for each kind of loop.
-/

open scoped Function

namespace DocTree.Inquiry

variable {α β γ δ : Type}

/-! ## Promises -/

/-- What an inquiry may ask, what it may rely on in the answers, and how it may fail. -/
structure Terms where
  asks : Object → Prop
  answers : Object → Token → Prop
  fails : Error → Prop

/-- The terms that promise nothing. -/
def Terms.any : Terms := ⟨fun _ => True, fun _ _ => True, fun _ => True⟩

/-- Under the given terms, every result satisfies `gives`. -/
inductive Ensures (T : Terms) (gives : α → Prop) : Inquiry α → Prop where
  | done {a : α} (h : gives a) : Ensures T gives (.done a)
  | fail {e : Error} (h : T.fails e) : Ensures T gives (.fail e)
  | ask {o : Object} {next : Token → Inquiry α} (ho : T.asks o)
      (h : ∀ token, T.answers o token → Ensures T gives (next token)) :
      Ensures T gives (.ask o next)

section Ensures

variable {T : Terms} {P : α → Prop} {Q : β → Prop}

theorem Ensures.bind {p : Inquiry α} {f : α → Inquiry β} (hp : p.Ensures T P)
    (hf : ∀ a, P a → (f a).Ensures T Q) : (p >>= f).Ensures T Q := by
  induction hp with
  | done h => exact hf _ h
  | fail h => exact .fail h
  | ask ho _ ih => exact .ask ho ih

theorem Ensures.map {p : Inquiry α} {f : α → β} (hp : p.Ensures T P)
    (hf : ∀ a, P a → Q (f a)) : (f <$> p).Ensures T Q :=
  hp.bind fun a ha => .done (hf a ha)

theorem Ensures.mono {p : Inquiry α} {P' : α → Prop} (hp : p.Ensures T P)
    (h : ∀ a, P a → P' a) : p.Ensures T P' := by
  induction hp with
  | done ha => exact .done (h _ ha)
  | fail he => exact .fail he
  | ask ho _ ih => exact .ask ho ih

/-- Two promises at once, the second of which may rely on less. -/
theorem Ensures.and {T' : Terms} {P' : α → Prop} {p : Inquiry α} (hp : p.Ensures T P)
    (hp' : p.Ensures T' P') (h : ∀ o token, T.answers o token → T'.answers o token) :
    p.Ensures T fun a => P a ∧ P' a := by
  induction hp with
  | done ha =>
    cases hp' with
    | done ha' => exact .done ⟨ha, ha'⟩
  | fail he => exact .fail he
  | ask ho _ ih =>
    cases hp' with
    | ask _ hnext => exact .ask ho fun token ht => ih token ht (hnext token (h _ token ht))

theorem ensures_ofExcept {x : Except Error α} (hok : ∀ a, x = .ok a → P a)
    (herr : ∀ e, x = .error e → T.fails e) : (ofExcept x).Ensures T P := by
  cases x with
  | ok a => exact .done (hok a rfl)
  | error e => exact .fail (herr e rfl)

/-- A loop keeps an invariant, which may speak of the elements it has gone through. -/
theorem ensures_foldlM {f : β → α → Inquiry β} {I : List α → β → Prop} {l : List α} {b : β}
    (hb : I [] b)
    (hf : ∀ seen a b, a ∈ l → I seen b → (f b a).Ensures T (I (seen ++ [a]))) :
    (l.foldlM f b).Ensures T (I l) := by
  suffices h : ∀ seen b, I seen b → (l.foldlM f b).Ensures T (I (seen ++ l)) from h [] b hb
  clear hb
  induction l with
  | nil =>
    intro seen b h
    refine .done ?_
    rwa [List.append_nil]
  | cons a l ih =>
    intro seen b h
    rw [List.foldlM_cons]
    refine (hf seen a b List.mem_cons_self h).bind fun b' h' => ?_
    have := ih (fun seen c b hc => hf seen c b (List.mem_cons_of_mem a hc)) (seen ++ [a]) b' h'
    rwa [List.append_assoc] at this

/-- What the results are to the elements they are computed from. -/
theorem ensures_mapM_forall₂ {R : α → β → Prop} {f : α → Inquiry β} {l : List α}
    (hf : ∀ a ∈ l, (f a).Ensures T (R a)) : (l.mapM f).Ensures T (List.Forall₂ R l) := by
  induction l with
  | nil => exact .done .nil
  | cons a l ih =>
    rw [List.mapM_cons]
    refine (hf a List.mem_cons_self).bind fun b hb => ?_
    exact (ih fun c hc => hf c (List.mem_cons_of_mem a hc)).bind fun bs hbs => .done (.cons hb hbs)

theorem ensures_mapM {f : α → Inquiry β} {l : List α} (hf : ∀ a ∈ l, (f a).Ensures T Q) :
    (l.mapM f).Ensures T fun bs => ∀ b ∈ bs, Q b := by
  refine (ensures_mapM_forall₂ (R := fun _ => Q) hf).mono fun bs h => ?_
  have hflip : List.Forall₂ (fun b _ => Q b ∧ True) bs l :=
    (List.Forall₂.flip h).imp fun _ _ hb => ⟨hb, trivial⟩
  exact ((List.forall₂_and_left bs l).mp hflip).1

end Ensures

/-- Terms that allow any question and any error ask nothing of an inquiry. -/
theorem ensures_true {T : Terms} (hasks : ∀ o, T.asks o) (hfails : ∀ e, T.fails e)
    (p : Inquiry α) : p.Ensures T fun _ => True := by
  induction p with
  | done a => exact .done trivial
  | fail e => exact .fail (hfails e)
  | ask o next ih => exact .ask (hasks o) fun token _ => ih token

theorem ensures_any (p : Inquiry α) : p.Ensures .any fun _ => True :=
  ensures_true (fun _ => trivial) (fun _ => trivial) p

/-- As many results as there are elements. -/
theorem ensures_length_mapM (f : α → Inquiry β) (l : List α) :
    (l.mapM f).Ensures .any fun bs => bs.length = l.length :=
  (ensures_mapM_forall₂ (R := fun _ _ => True) fun a _ => (f a).ensures_any).mono
    fun _ h => h.length_eq.symm

/-! ## Questions that are always asked -/

/-- Every way to a result asks for the token of `o`. -/
inductive Covers (o : Object) : Inquiry α → Prop where
  | fail (e : Error) : Covers o (.fail e)
  | here (next : Token → Inquiry α) : Covers o (.ask o next)
  | later {o' : Object} {next : Token → Inquiry α} (h : ∀ token, Covers o (next token)) :
      Covers o (.ask o' next)

section Covers

variable {o : Object}

theorem Covers.bind {p : Inquiry α} (hp : p.Covers o) (f : α → Inquiry β) :
    (p >>= f).Covers o := by
  induction hp with
  | fail e => exact .fail e
  | here next => exact .here _
  | later _ ih => exact .later ih

/-- Results that a first part never has need not be looked at. -/
theorem Ensures.covers_bind {T : Terms} {P : α → Prop} {p : Inquiry α} {f : α → Inquiry β}
    (hp : p.Ensures T P) (hT : ∀ o token, T.answers o token) (hf : ∀ a, P a → (f a).Covers o) :
    (p >>= f).Covers o := by
  induction hp with
  | done h => exact hf _ h
  | fail h => exact .fail _
  | ask _ _ ih => exact .later fun token => ih token (hT _ token)

theorem covers_bind (p : Inquiry α) {f : α → Inquiry β} (hf : ∀ a, (f a).Covers o) :
    (p >>= f).Covers o :=
  p.ensures_any.covers_bind (fun _ _ => trivial) fun a _ => hf a

theorem covers_ofExcept_bind {x : Except Error α} {f : α → Inquiry β}
    (hf : ∀ a, x = .ok a → (f a).Covers o) : (ofExcept x >>= f).Covers o := by
  cases x with
  | ok a => exact hf a rfl
  | error e => exact .fail e

theorem covers_foldlM {f : β → α → Inquiry β} {l : List α} {a : α} (ha : a ∈ l)
    (hf : ∀ b, (f b a).Covers o) : ∀ b, (l.foldlM f b).Covers o := by
  induction l with
  | nil => cases ha
  | cons c l ih =>
    intro b
    rw [List.foldlM_cons]
    rcases List.mem_cons.mp ha with rfl | ha
    · exact (hf b).bind _
    · exact covers_bind _ fun b' => ih ha b'

theorem covers_mapM {f : α → Inquiry β} {l : List α} {a : α} (ha : a ∈ l)
    (hf : (f a).Covers o) : (l.mapM f).Covers o := by
  induction l with
  | nil => cases ha
  | cons c l ih =>
    rw [List.mapM_cons]
    rcases List.mem_cons.mp ha with rfl | ha
    · exact hf.bind _
    · exact covers_bind _ fun _ => (ih ha).bind _

end Covers

/-! ## Results for given answers -/

/-- With the given answers, the inquiry comes to a result. -/
inductive Gives (answers : Object → Token → Prop) : Inquiry α → α → Prop where
  | done (a : α) : Gives answers (.done a) a
  | ask {o : Object} {token : Token} {next : Token → Inquiry α} {a : α}
      (ht : answers o token) (h : Gives answers (next token) a) : Gives answers (.ask o next) a

section Gives

variable {answers : Object → Token → Prop}

theorem Gives.of_bind {p : Inquiry α} {f : α → Inquiry β} {b : β}
    (h : (p >>= f).Gives answers b) : ∃ a, p.Gives answers a ∧ (f a).Gives answers b := by
  induction p with
  | done a => exact ⟨a, .done a, h⟩
  | fail e => cases h
  | ask o next ih =>
    cases h with
    | ask ht h =>
      obtain ⟨a, ha, hb⟩ := ih _ h
      exact ⟨a, .ask ht ha, hb⟩

theorem Gives.bind {p : Inquiry α} {f : α → Inquiry β} {a : α} {b : β} (ha : p.Gives answers a)
    (hb : (f a).Gives answers b) : (p >>= f).Gives answers b := by
  induction ha with
  | done a => exact hb
  | ask ht _ ih => exact .ask ht (ih hb)

theorem Gives.ensured {T : Terms} {P : α → Prop} {p : Inquiry α} {a : α} (h : p.Gives answers a)
    (hp : p.Ensures T P) (hT : ∀ o token, answers o token → T.answers o token) : P a := by
  induction h with
  | done a =>
    cases hp with
    | done ha => exact ha
  | ask ht _ ih =>
    cases hp with
    | ask _ hnext => exact ih (hnext _ (hT _ _ ht))

theorem Gives.of_covers {p : Inquiry α} {a : α} {o : Object} (h : p.Gives answers a)
    (hc : p.Covers o) : ∃ token, answers o token := by
  induction h with
  | done a => cases hc
  | ask ht _ ih =>
    cases hc with
    | here => exact ⟨_, ht⟩
    | later hnext => exact ih (hnext _)

end Gives

/-! ## Answers that differ in methods only -/

/-- Two inquiries that ask the same questions, fail with the same errors and have results related by
`R`, as long as `A` answers the one and `B` the other, and the answers differ in methods only. -/
inductive Alike (A B : Object → Token → Prop) (R : α → β → Prop) :
    Inquiry α → Inquiry β → Prop where
  | done {a : α} {b : β} (h : R a b) : Alike A B R (.done a) (.done b)
  | fail (e : Error) : Alike A B R (.fail e) (.fail e)
  | ask {o : Object} {next : Token → Inquiry α} {next' : Token → Inquiry β}
      (h : ∀ t u : Token, A o t → B o u → t.withoutMethods = u.withoutMethods →
        Alike A B R (next t) (next' u)) :
      Alike A B R (.ask o next) (.ask o next')

section Alike

variable {A B : Object → Token → Prop} {R : α → β → Prop} {S : γ → δ → Prop}

theorem Alike.bind {p : Inquiry α} {q : Inquiry β} {f : α → Inquiry γ} {g : β → Inquiry δ}
    (h : p.Alike A B R q) (hf : ∀ a b, R a b → (f a).Alike A B S (g b)) :
    (p >>= f).Alike A B S (q >>= g) := by
  induction h with
  | done h => exact hf _ _ h
  | fail e => exact .fail e
  | ask _ ih => exact .ask fun t u ht hu htu => ih t u ht hu htu

theorem Alike.map {p : Inquiry α} {q : Inquiry β} {f : α → γ} {g : β → δ} (h : p.Alike A B R q)
    (hf : ∀ a b, R a b → S (f a) (g b)) : (f <$> p).Alike A B S (g <$> q) :=
  h.bind fun a b hab => .done (hf a b hab)

theorem alike_done {view : α → γ} {a b : α} (h : view a = view b) :
    (done a).Alike A B (Eq on view) (done b) :=
  .done h

theorem alike_ofExcept {view : α → γ} {x y : Except Error α} (h : x.map view = y.map view) :
    (ofExcept x).Alike A B (Eq on view) (ofExcept y) := by
  cases x with
  | ok a =>
    cases y with
    | ok b => exact .done (Except.ok.inj h)
    | error e => cases h
  | error e =>
    cases y with
    | ok b => cases h
    | error e' =>
      obtain rfl := Except.error.inj h
      exact .fail e

/-- What comes after one and the same computation that asks for nothing. -/
theorem alike_ofExcept_bind (x : Except Error α) {f : α → Inquiry γ} {g : α → Inquiry δ}
    (h : ∀ a, x = .ok a → (f a).Alike A B S (g a)) :
    (ofExcept x >>= f).Alike A B S (ofExcept x >>= g) := by
  cases x with
  | ok a => exact h a rfl
  | error e => exact .fail e

theorem alike_tokenOf (o : Object) : (tokenOf o).Alike A B
    (fun t u => A o t ∧ B o u ∧ t.withoutMethods = u.withoutMethods) (tokenOf o) :=
  .ask fun _ _ ht hu h => .done ⟨ht, hu, h⟩

/-- Loops over lists that look the same. -/
theorem alike_foldlM {ε ζ : Type} {v : ε → ζ} {f : α → ε → Inquiry α} {g : β → ε → Inquiry β}
    {l l' : List ε} (hl : l.map v = l'.map v)
    (hf : ∀ c c' a b, v c = v c' → R a b → (f a c).Alike A B R (g b c')) :
    ∀ {a : α} {b : β}, R a b → (l.foldlM f a).Alike A B R (l'.foldlM g b) := by
  induction l generalizing l' with
  | nil =>
    intro a b h
    obtain rfl : l' = [] := List.map_eq_nil_iff.mp hl.symm
    exact .done h
  | cons c l ih =>
    intro a b h
    cases l' with
    | nil => cases hl
    | cons c' l' =>
      rw [List.map_cons, List.map_cons] at hl
      obtain ⟨hc, hl⟩ := List.cons_eq_cons.mp hl
      rw [List.foldlM_cons, List.foldlM_cons]
      exact (hf c c' a b hc h).bind fun a' b' h' => ih hl h'

/-- The results are related one by one. -/
theorem alike_mapM {ε : Type} {f : ε → Inquiry α} {g : ε → Inquiry β} {l : List ε}
    (hf : ∀ c ∈ l, (f c).Alike A B R (g c)) :
    (l.mapM f).Alike A B (List.Forall₂ R) (l.mapM g) := by
  induction l with
  | nil => exact .done .nil
  | cons c l ih =>
    rw [List.mapM_cons, List.mapM_cons]
    refine (hf c List.mem_cons_self).bind fun a b hab => ?_
    exact (ih fun d hd => hf d (List.mem_cons_of_mem c hd)).bind fun as bs h =>
      .done (.cons hab h)

end Alike

end DocTree.Inquiry
