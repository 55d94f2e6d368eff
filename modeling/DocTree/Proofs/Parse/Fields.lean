import DocTree.Parse.Collect
import DocTree.Proofs.Reach
import DocTree.Proofs.Results

/-!
# The fields of a docstring

What the steps of collecting do by themselves, apart from the objects that are asked for.

* `updateDraft_cases`, `linkOne_cases`, `toList_appendArgs`: what a step gives if it succeeds;
* `Error.isFromNeed`, `FailsAlone`: which errors come from parsing other objects, and that **no step
  on the fields gives such an error**;
* `Fields.links`: the targets of links to all arguments, which **no field but a link changes**.
-/

namespace DocTree

/-! ## What a step gives -/

/-- A draft is made for a name that has none, and changed for one that has. -/
theorem updateDraft_cases {name : String} {f : Draft → Except Error Draft} :
    ∀ {slots slots' : List Slot}, updateDraft name f slots = .ok slots' →
      ∃ old draft, f old = .ok draft ∧
        (old = .empty ∧ (∀ d, .arg name d ∉ slots) ∧ slots' = slots ++ [.arg name draft] ∨
        ∃ before after, slots = before ++ .arg name old :: after ∧
          slots' = before ++ .arg name draft :: after)
  | [], slots', h => by
    obtain ⟨draft, hdraft, rfl⟩ := ok_of_map h
    exact ⟨.empty, draft, hdraft, .inl ⟨rfl, fun _ => List.not_mem_nil, rfl⟩⟩
  | .arg n old :: rest, slots', h => by
    rw [updateDraft] at h
    split at h
    · next hn =>
      subst hn
      obtain ⟨draft, hdraft, rfl⟩ := ok_of_map h
      exact ⟨old, draft, hdraft, .inr ⟨[], rest, rfl, rfl⟩⟩
    · next hn =>
      obtain ⟨rest', hrest, rfl⟩ := ok_of_map h
      obtain ⟨old', draft, hdraft, ⟨hold, hnew, rfl⟩ | ⟨before, after, rfl, rfl⟩⟩ :=
        updateDraft_cases hrest
      · refine ⟨old', draft, hdraft, .inl ⟨hold, fun d => ?_, rfl⟩⟩
        simpa [Ne.symm hn] using hnew d
      · exact ⟨old', draft, hdraft, .inr ⟨_ :: before, after, rfl, rfl⟩⟩
  | .linkAll target :: rest, slots', h => by
    obtain ⟨rest', hrest, rfl⟩ := ok_of_map h
    obtain ⟨old, draft, hdraft, ⟨hold, hnew, rfl⟩ | ⟨before, after, rfl, rfl⟩⟩ :=
      updateDraft_cases hrest
    · refine ⟨old, draft, hdraft, .inl ⟨hold, fun d => ?_, rfl⟩⟩
      simpa using hnew d
    · exact ⟨old, draft, hdraft, .inr ⟨_ :: before, after, rfl, rfl⟩⟩

theorem eq_of_make {name : String} {type : Entity} {arg : Arg} (h : Arg.make name type = .ok arg) :
    arg = ⟨name, type, none, none⟩ := by
  unfold Arg.make at h
  split at h
  · exact (Except.ok.inj h).symm
  · cases h

/-- A link to an attribute gives a new argument, of its own name and the type of the attribute. -/
theorem linkOne_cases {object name target : String} {arg description : Option String}
    {parent : Option ArgMap} {linked : Arg}
    (h : linkOne object name target arg description parent = .ok linked) :
    ∃ sourceName attributes source made, linkSource? name target arg = some sourceName ∧
      parent = some attributes ∧ attributes.get? sourceName = some source ∧
      Arg.make name source.type = .ok made ∧
      linked = { made with
        description := description.or source.description
        default := source.default } := by
  unfold linkOne at h
  split at h
  · cases h
  · next sourceName hlink =>
    split at h
    · cases h
    · next attributes =>
      split at h
      · cases h
      · next source hsource =>
        obtain ⟨made, hmake, hok⟩ := ok_of_bind h
        cases hok
        exact ⟨sourceName, attributes, source, made, hlink, rfl, hsource, hmake, rfl⟩

theorem toList_insert? {args args' : ArgMap} {arg : Arg} (h : args.insert? arg = some args') :
    args'.toList = args.toList ++ [arg] := by
  unfold ArgMap.insert? at h
  split at h
  · cases h
  · exact congrArg ArgMap.toList (Option.some.inj h).symm

/-- Nothing is lost or moved where arguments are appended. -/
theorem toList_appendArgs {object : String} {new : List Arg} {args args' : ArgMap}
    (h : appendArgs object args new = .ok args') : args'.toList = args.toList ++ new := by
  induction new generalizing args with
  | nil =>
    cases h
    rw [List.append_nil]
  | cons arg rest ih =>
    rw [appendArgs] at h
    split at h
    · next more hinsert =>
      rw [ih h, toList_insert? hinsert, List.append_assoc, List.singleton_append]
    · cases h

/-! ## Errors -/

/-- Whether an error comes from parsing other objects rather than from reading a docstring. -/
def Error.isFromNeed : Error → Bool
  | .cycle _ | .recursionLimit .. => true
  | _ => false

/-- The computation fails by itself, if at all. -/
def FailsAlone {α : Type} (x : Except Error α) : Prop :=
  ∀ e, x = .error e → e.isFromNeed = false

theorem failsAlone_ok {α : Type} (a : α) : FailsAlone (.ok a : Except Error α) :=
  fun _ h => nomatch h

theorem failsAlone_error {α : Type} {e : Error} (he : e.isFromNeed = false) :
    FailsAlone (.error e : Except Error α) := by
  rintro _ ⟨⟩
  exact he

theorem FailsAlone.bind {α β : Type} {x : Except Error α} {f : α → Except Error β}
    (hx : FailsAlone x) (hf : ∀ a, x = .ok a → FailsAlone (f a)) : FailsAlone (x >>= f) := by
  cases x with
  | ok a => exact hf a rfl
  | error e =>
    rintro _ ⟨⟩
    exact hx e rfl

theorem FailsAlone.map {α β : Type} {x : Except Error α} (hx : FailsAlone x) (f : α → β) :
    FailsAlone (x.map f) := by
  cases x with
  | ok a => exact failsAlone_ok _
  | error e => exact failsAlone_error (hx e rfl)

theorem failsAlone_markup {α : Type} (x : Except MarkupError α) :
    FailsAlone (x.mapError Error.markup) := by
  cases x with
  | ok a => exact failsAlone_ok a
  | error e => exact failsAlone_error rfl

theorem failsAlone_resolve (r : Resolver) (ctx : Context) (token : String) :
    FailsAlone (r.resolve ctx token) := by
  intro e he
  obtain ⟨name, rfl⟩ := Resolver.resolve_error he
  rfl

theorem failsAlone_make (name : String) (type : Entity) : FailsAlone (Arg.make name type) := by
  unfold Arg.make
  split
  · exact failsAlone_ok _
  · exact failsAlone_error rfl

theorem failsAlone_linkOne (object name target : String) (arg description : Option String)
    (parent : Option ArgMap) :
    FailsAlone (linkOne object name target arg description parent) := by
  unfold linkOne
  split
  · exact failsAlone_error rfl
  · split
    · exact failsAlone_error rfl
    · split
      · exact failsAlone_error rfl
      · exact (failsAlone_make _ _).bind fun _ _ => failsAlone_ok _

theorem failsAlone_appendArgs (object : String) (new : List Arg) (args : ArgMap) :
    FailsAlone (appendArgs object args new) := by
  induction new generalizing args with
  | nil => exact failsAlone_ok args
  | cons arg rest ih =>
    rw [appendArgs]
    split
    · exact ih _
    · exact failsAlone_error rfl

theorem failsAlone_updateDraft {name : String} {f : Draft → Except Error Draft}
    (hf : ∀ draft, FailsAlone (f draft)) :
    ∀ slots : List Slot, FailsAlone (updateDraft name f slots)
  | [] => (hf .empty).map _
  | .arg n draft :: rest => by
    rw [updateDraft]
    split
    · exact (hf draft).map _
    · exact (failsAlone_updateDraft hf rest).map _
  | .linkAll target :: rest => (failsAlone_updateDraft hf rest).map _

theorem failsAlone_addParam (object name body : String) (fs : Fields) :
    FailsAlone (fs.addParam object name body) := by
  refine (failsAlone_updateDraft (fun draft => ?_) fs.slots).bind fun _ _ => failsAlone_ok _
  split
  · exact failsAlone_error rfl
  · exact failsAlone_ok _

theorem failsAlone_addType (object name : String) (typed : Typed) (fs : Fields) :
    FailsAlone (fs.addType object name typed) := by
  refine (failsAlone_updateDraft (fun draft => ?_) fs.slots).bind fun _ _ => failsAlone_ok _
  split
  · exact failsAlone_error rfl
  · exact failsAlone_ok _

theorem failsAlone_addReturns (object body : String) (fs : Fields) :
    FailsAlone (fs.addReturns object body) := by
  unfold Fields.addReturns
  split
  · exact failsAlone_error rfl
  · exact failsAlone_ok _

/-! ## Links -/

/-- The target of a place for all arguments of an object. -/
def Slot.linkTarget? : Slot → Option String
  | .arg .. => none
  | .linkAll target => some target

/-- The targets in the order of their places. -/
def Fields.links (fs : Fields) : List String := fs.slots.filterMap Slot.linkTarget?

/-- Drafts come and change, the places for linked arguments stay. -/
theorem links_updateDraft {name : String} {f : Draft → Except Error Draft}
    {slots slots' : List Slot} (h : updateDraft name f slots = .ok slots') :
    slots'.filterMap Slot.linkTarget? = slots.filterMap Slot.linkTarget? := by
  obtain ⟨old, draft, -, ⟨-, -, rfl⟩ | ⟨before, after, rfl, rfl⟩⟩ := updateDraft_cases h
  · rw [List.filterMap_append]
    exact List.append_nil _
  · rw [List.filterMap_append, List.filterMap_append]
    rfl

theorem links_addParam {object name body : String} {fs fs' : Fields}
    (h : fs.addParam object name body = .ok fs') : fs'.links = fs.links := by
  obtain ⟨slots, hslots, hfs⟩ := ok_of_bind h
  cases hfs
  exact links_updateDraft hslots

theorem links_addType {object name : String} {typed : Typed} {fs fs' : Fields}
    (h : fs.addType object name typed = .ok fs') : fs'.links = fs.links := by
  obtain ⟨slots, hslots, hfs⟩ := ok_of_bind h
  cases hfs
  exact links_updateDraft hslots

theorem slots_addReturns {object body : String} {fs fs' : Fields}
    (h : fs.addReturns object body = .ok fs') : fs'.slots = fs.slots := by
  unfold Fields.addReturns at h
  split at h
  · cases h
  · cases h
    rfl

theorem links_addReturns {object body : String} {fs fs' : Fields}
    (h : fs.addReturns object body = .ok fs') : fs'.links = fs.links := by
  rw [Fields.links, slots_addReturns h, Fields.links]

theorem links_addLinkAll (target : String) (fs : Fields) :
    (fs.addLinkAll target).links = fs.links ++ [target] := by
  simp [Fields.links, Fields.addLinkAll, Slot.linkTarget?]

end DocTree
