import DocTree.Proofs.Parse.Nested

/-!
# The depth of calls

Recursion ends by itself. A call that is made at some depth finds at least as many names with an
entry in the registry as it is deep, since each call on the way has started an object under a name
that had none. So no call is deeper than there are names within reach, whatever the limit is.

* `Occupied`: so many names within reach have an entry;
* `Placed`: what a call finds, and **`Placed.makes`**: what each call that it makes finds;
* **`calls_within_names`**: the depth of calls is bounded by the number of names, and a limit that
  is not below that number is never exceeded.
-/

namespace DocTree

open Registry Inquiry
open Relation (ReflTransGen TransGen)

/-! ## Names with an entry -/

/-- At least `n` names within reach have an entry in the registry. -/
def Occupied (r : Resolver) (reg : Registry) (n : Nat) : Prop :=
  ∃ names : Finset String, names.card = n ∧
    ∀ name ∈ names, name ∈ r.names ∧ ∃ entry, reg.get? name = some entry

section Occupied

variable {r : Resolver} {reg reg' : Registry} {n : Nat} {name : String}

theorem occupied_zero : Occupied r reg 0 := ⟨∅, rfl, fun _ h => nomatch h⟩

theorem occupied_one (hname : name ∈ r.names) {entry : Progress}
    (hentry : reg.get? name = some entry) : Occupied r reg 1 := by
  refine ⟨{name}, Finset.card_singleton name, fun name' h => ?_⟩
  obtain rfl := Finset.mem_singleton.mp h
  exact ⟨hname, entry, hentry⟩

/-- Entries stay. -/
theorem Occupied.of_grows (h : Occupied r reg n) (hgrows : Grows reg reg') :
    Occupied r reg' n := by
  obtain ⟨names, hcard, hnames⟩ := h
  refine ⟨names, hcard, fun name hname => ?_⟩
  obtain ⟨hreach, entry, hentry⟩ := hnames name hname
  exact ⟨hreach, entry, hgrows.get?_eq_some hentry⟩

/-- To start an object takes a new name. -/
theorem Occupied.start (h : Occupied r reg n) (hname : name ∈ r.names)
    (hnone : reg.get? name = none) : Occupied r (reg.insert name .inProgress) (n + 1) := by
  obtain ⟨names, hcard, hnames⟩ := h
  have hnew : name ∉ names := by
    intro hmem
    obtain ⟨-, entry, hentry⟩ := hnames name hmem
    rw [hnone] at hentry
    cases hentry
  refine ⟨insert name names, by rw [Finset.card_insert_of_notMem hnew, hcard], fun name' h' => ?_⟩
  rw [NameMap.get?_insert]
  rcases Finset.mem_insert.mp h' with rfl | h'
  · exact ⟨hname, _, if_pos rfl⟩
  · obtain ⟨hreach, entry, hentry⟩ := hnames name' h'
    refine ⟨hreach, entry, ?_⟩
    rw [if_neg, hentry]
    rintro rfl
    exact hnew h'

theorem Occupied.le_ncard (h : Occupied r reg n) : n ≤ r.names.ncard := by
  obtain ⟨names, rfl, hnames⟩ := h
  rw [← Set.ncard_coe_finset names]
  exact Set.ncard_le_ncard (fun name hname => (hnames name hname).1) r.finite_names

end Occupied

/-! ## Calls -/

/-- What a call finds: its object is within reach, as many names as it is deep have an entry, and it
asks for methods at depth zero only. -/
structure Placed (s : Settings) (v : Call × Registry) : Prop where
  reaches : s.resolver.Reaches v.1.object
  methods : v.1.depth = 0 ∨ v.1.methods = []
  occupied : Occupied s.resolver v.2 v.1.depth

section Placed

variable {s : Settings}

/-- A question of the inquiry into an object is put when the object is started. -/
theorem trackedQuestions_occupied {o : Object} {name : String} {methods : List String}
    {depth n : Nat} {reg : Registry} (ho : s.resolver.Reaches o)
    (hname : o.entryName? = some name) (h : Occupied s.resolver reg n) {q : Object × Registry}
    (hq : q ∈ trackedQuestions (needAt s depth) name (inquire s o methods) reg) :
    s.resolver.Reaches q.1 ∧ Occupied s.resolver q.2 (n + 1) := by
  have hasks := inquire_reaches s o methods
  unfold trackedQuestions at hq
  cases hget : reg.get? name with
  | some entry =>
    rw [hget] at hq
    cases hq
  | none =>
    rw [hget] at hq
    obtain ⟨hreach, hgrows⟩ := hasks.of_mem_questions (parseWithin_grows s _) hq
    exact ⟨hreach, (h.start ⟨o, ho, hname⟩ hget).of_grows hgrows⟩

/-- A question about further methods is put when the class is finished. -/
theorem addedQuestions_occupied {c : Class} {methods : List String} {token : Token} {depth : Nat}
    {reg : Registry} (ho : s.resolver.Reaches (.class c))
    (hdone : reg.get? c.fullName = some (.done token)) {q : Object × Registry}
    (hq : q ∈ addedQuestions s (needAt s depth) c methods token reg) :
    s.resolver.Reaches q.1 ∧ Occupied s.resolver q.2 1 := by
  cases token with
  | function doc => cases hq
  | «class» doc =>
    have hasks : (parseMethods s c doc.attributes (doc.missingMethods methods)
        (doc.methods.getD .empty)).Ensures { Terms.any with asks := s.resolver.Reaches }
          fun _ => True :=
      parseMethods_asks (fun _ _ => trivial) fun _ h => h
    obtain ⟨hreach, hgrows⟩ := hasks.of_mem_questions (parseWithin_grows s _) hq
    exact ⟨hreach, (occupied_one ⟨_, ho, rfl⟩ hdone).of_grows hgrows⟩

/-- Without methods, nothing is added to a finished token. -/
theorem addedQuestions_nil {need : Object → ParseM Token} (c : Class) (token : Token)
    (reg : Registry) : addedQuestions s need c [] token reg = [] := by
  cases token <;> rfl

/-- **What a call finds, each call that it makes finds.** -/
theorem Placed.makes {v w : Call × Registry} (h : Placed s v) (hmakes : Makes s v w) :
    Placed s w := by
  obtain ⟨-, q, hq, rfl⟩ := hmakes
  suffices hfound : s.resolver.Reaches q.1 ∧ Occupied s.resolver q.2 (v.1.depth + 1) from
    ⟨hfound.1, .inr rfl, hfound.2⟩
  rcases question_cases hq with ⟨name, hname, hq⟩ | ⟨c, token, mid, hc, hrun, hq⟩
  · exact trackedQuestions_occupied h.reaches hname h.occupied hq
  · rcases h.methods with hzero | hnil
    · rw [hzero]
      exact addedQuestions_occupied (hc ▸ h.reaches) (get?_of_tracked hrun) hq
    · rw [hnil, addedQuestions_nil] at hq
      cases hq

/-- What a call finds, all calls on the way find. -/
theorem Placed.reaches_calls {v w : Call × Registry} (h : Placed s v)
    (hcalls : ReflTransGen (Makes s) v w) : Placed s w := by
  induction hcalls with
  | refl => exact h
  | tail _ hmakes ih => exact ih.makes hmakes

end Placed

/-- **The depth of calls is bounded by the names within reach**, whatever the parser has been asked
before. No call that a call at depth zero makes is deeper than there are such names. So if the
recursion limit is not below their number, then the answer is never that it was exceeded. -/
theorem calls_within_names (p : Parser) (o : Object) (methods : List String)
    (ho : p.settings.resolver.Reaches o) :
    (∀ c reg, TransGen (Makes p.settings) (⟨o, methods, 0⟩, p.registry) (c, reg) →
      c.depth ≤ p.settings.resolver.names.ncard) ∧
    (p.settings.resolver.names.ncard ≤ p.settings.recursionLimit →
      ∀ depth limit, (p.parseWithMethods o methods).1 ≠ .error (.recursionLimit depth limit)) := by
  have hplaced : Placed p.settings (⟨o, methods, 0⟩, p.registry) := ⟨ho, .inl rfl, occupied_zero⟩
  constructor
  · intro c reg hcalls
    exact (hplaced.reaches_calls hcalls.to_reflTransGen).occupied.le_ncard
  · intro hnames depth limit h
    obtain ⟨v, hcalls, hdeep⟩ := reaches_limit p.settings ⟨o, methods, 0⟩ p.registry h
    have hdepth := (hplaced.reaches_calls hcalls).occupied.le_ncard
    omega

namespace Sample

theorem ncard_names_le : resolver.names.ncard ≤ 6 := by
  have hnames : resolver.names ⊆ ↑(objects.filterMap Object.entryName?).toFinset := by
    rintro name ⟨o, ho, hname⟩
    rcases mem_objects_of_reaches ho with hmem | ⟨path, rfl⟩
    · exact List.mem_toFinset.mpr (List.mem_filterMap.mpr ⟨o, hmem, hname⟩)
    · cases hname
  have hcard := Set.ncard_le_ncard hnames (Finset.finite_toSet _)
  rw [Set.ncard_coe_finset] at hcard
  exact hcard.trans (List.toFinset_card_le _)

/-- Two functions that link to each other, after a call that finished another one: the second call
comes back to the first function, and within the number of names the answer is the cycle. -/
theorem calls_within_names_of_cycle :
    let p := (Parser.new { settings with recursionLimit := 6 }).after [⟨.function user, [], 0⟩]
    p.settings.resolver.Reaches (.function f) ∧
    p.settings.resolver.names.ncard ≤ p.settings.recursionLimit ∧
    (∀ c reg, TransGen (Makes p.settings) (⟨.function f, [], 0⟩, p.registry) (c, reg) →
      c.depth ≤ 6) ∧
    (∀ depth limit,
      (p.parseWithMethods (.function f) []).1 ≠ .error (.recursionLimit depth limit)) ∧
    (p.parseWithMethods (.function f) []).1 = .error (.cycle "m.f") := by
  intro p
  have hmember : p.settings.resolver.host.member? (.module "m") "f" = some (.function f) := rfl
  have ho : p.settings.resolver.Reaches (.function f) :=
    (Resolver.Reaches.module "m").member hmember
  have hlimit : p.settings.resolver.names.ncard ≤ p.settings.recursionLimit := ncard_names_le
  have h := calls_within_names p (.function f) [] ho
  exact ⟨ho, hlimit, fun c reg hcalls => (h.1 c reg hcalls).trans hlimit, h.2 hlimit, rfl⟩

/-- The first function asks for the second one, which asks for the first one again. -/
example :
    let first := questionsOf settings (needAt settings 0) (.function f) [] .empty
    first.map (·.1.entryName?) = [some "m.g"] ∧
      first.flatMap (fun q => (questionsOf settings (needAt settings 1) q.1 [] q.2).map
        (·.1.entryName?)) = [some "m.f"] :=
  ⟨rfl, rfl⟩

end Sample

end DocTree
