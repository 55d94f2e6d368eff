import DocTree.Proofs.Parse.Arguments

/-!
# Fields that pair up

Each name of a docstring takes one type and one description; a link stands for both. The first phase
refuses a second field of one kind, the check behind it a missing one.

* `TypeBody.IsLink`, `Paired`, `LacksField`: what the remarks have to say of a name, and what may be
  missing;
* `single_kept`: no name has two fields of one kind;
* `mem_unmatched`, `sublist_unmatched`: the names that are blamed;
* **`collect_pairing`**: fields that are accepted pair up, and the others are blamed by their names.
-/

namespace DocTree

open Inquiry Registry

/-- The body of a type field is a link. -/
def TypeBody.IsLink (body : String) : Prop := ∃ words, TypeBody.read body = .ok (.link words)

/-- A name has one type, at most one description, and exactly one unless its type is a link. -/
structure Paired (remarks : List Remark) (name : String) : Prop where
  type : ∃ body, typeBodiesOf remarks name = [body] ∧
    (¬ TypeBody.IsLink body → (descriptionsOf remarks name).length = 1)
  description : (descriptionsOf remarks name).length ≤ 1

/-- A name has no type, or a type that is no link and no description. -/
inductive LacksField (remarks : List Remark) (name : String) : Prop where
  | type (h : typeBodiesOf remarks name = [])
  | description {body : String} (hbody : body ∈ typeBodiesOf remarks name)
      (hlink : ¬ TypeBody.IsLink body) (h : descriptionsOf remarks name = [])

/-- Where nothing is said twice, nothing else than a missing field keeps a name from being paired. -/
theorem Single.paired {remarks : List Remark} {name : String} (h : Single remarks)
    (hfull : ¬ LacksField remarks name) : Paired remarks name where
  type := by
    cases htype : typeBodyOf? remarks name with
    | none => exact absurd (.type (by rw [h.typeBodiesOf_eq, htype]; rfl)) hfull
    | some body =>
      have hbodies : typeBodiesOf remarks name = [body] := by
        rw [h.typeBodiesOf_eq, htype]
        rfl
      refine ⟨body, hbodies, fun hlink => ?_⟩
      have hsome : descriptionsOf remarks name ≠ [] := fun hnone =>
        hfull (.description (hbodies ▸ List.mem_singleton_self body) hlink hnone)
      exact le_antisymm (h.description name) (List.length_pos_iff.mpr hsome)
  description := h.description name

section Pairing

variable {s : Settings} {ctx : Context} {reg : Registry} {remarks : List Remark}
  {slots slots' : List Slot}

theorem Means.isLink_iff {body : String} {typed : Typed} (h : Means s ctx reg body typed) :
    TypeBody.IsLink body ↔ ∃ target arg, typed = .link target arg := by
  cases h with
  | resolved hread =>
    constructor
    · rintro ⟨words, hlink⟩
      cases hread.symm.trans hlink
    · rintro ⟨target, arg, ⟨⟩⟩
  | link hread => exact ⟨fun _ => ⟨_, _, rfl⟩, fun _ => ⟨_, hread⟩⟩

/-! ## Nothing is said twice -/

namespace Drafts

/-- The draft that a field changes has what has been said of its name so far. -/
theorem exists_old (h : Drafts s ctx reg remarks slots) {name : String}
    {f : Draft → Except Error Draft} (hok : updateDraft name f slots = .ok slots') :
    ∃ old draft, f old = .ok draft ∧
      old.Records s ctx reg (descriptionOf? remarks name) (typeBodyOf? remarks name) := by
  obtain ⟨old, draft, hdraft, ⟨rfl, hnew, -⟩ | ⟨before, after, rfl, -⟩⟩ := updateDraft_cases hok
  · have hunlisted := h.not_mem_mentions hnew
    refine ⟨.empty, draft, hdraft, ?_⟩
    rw [descriptionOf?_of_not_mem hunlisted, typeBodyOf?_of_not_mem hunlisted]
    exact Draft.records_empty
  · exact ⟨old, draft, hdraft, h.records (by simp)⟩

variable {fs fs' : Fields} {object name body : String}

theorem description_free (h : Drafts s ctx reg remarks fs.slots)
    (hok : fs.addParam object name body = .ok fs') : descriptionOf? remarks name = none := by
  obtain ⟨slots, hslots, -⟩ := ok_of_bind hok
  obtain ⟨old, draft, hdraft, hold⟩ := h.exists_old hslots
  split at hdraft
  · cases hdraft
  · next hfree => exact hold.description_eq_none hfree

theorem type_free (h : Drafts s ctx reg remarks fs.slots) {typed : Typed}
    (hok : fs.addType object name typed = .ok fs') : typeBodyOf? remarks name = none := by
  obtain ⟨slots, hslots, -⟩ := ok_of_bind hok
  obtain ⟨old, draft, hdraft, hold⟩ := h.exists_old hslots
  split at hdraft
  · cases hdraft
  · next hfree => exact hold.type_eq_none hfree

end Drafts

/-- **A second field of one kind is refused.** -/
theorem single_kept : KeptByRemarks s ctx reg fun remarks slots =>
    Drafts s ctx reg remarks slots ∧ Single remarks where
  description h hok := ⟨h.1.addParam hok, h.2.concat_description (h.1.description_free hok) _⟩
  type h htyped hok := ⟨h.1.addType htyped hok, h.2.concat_type (h.1.type_free hok) _⟩
  marker h target := ⟨h.1.addLinkAll target, h.2.concat_marker target⟩

/-! ## The names that are blamed -/

/-- A draft is blamed if a field of its name is missing. -/
theorem Draft.Records.unmatchedName?_iff {name : String} {draft : Draft} (hsingle : Single remarks)
    (h : draft.Records s ctx reg (descriptionOf? remarks name) (typeBodyOf? remarks name)) :
    Fields.unmatchedName? (.arg name draft) = some name ↔ LacksField remarks name := by
  have htypes := hsingle.typeBodiesOf_eq name
  have hdescriptions := hsingle.descriptionsOf_eq name
  rw [Fields.unmatchedName?]
  cases htyped : draft.typed with
  | none =>
    have hnone : typeBodyOf? remarks name = none := h.type_eq_none (by simp [htyped])
    exact ⟨fun _ => .type (by rw [htypes, hnone]; rfl), fun _ => rfl⟩
  | some typed =>
    obtain ⟨body, hbody, hmeans⟩ := h.exists_means htyped
    rw [hbody, Option.toList_some] at htypes
    -- The only type of the name is the one that the draft has.
    have hlacks : LacksField remarks name ↔
        ¬ TypeBody.IsLink body ∧ descriptionsOf remarks name = [] := by
      constructor
      · rintro (hnone | ⟨hmem, hlink, hnone⟩)
        · cases htypes.symm.trans hnone
        · rw [htypes, List.mem_singleton] at hmem
          exact ⟨hmem ▸ hlink, hnone⟩
      · rintro ⟨hlink, hnone⟩
        exact .description (htypes ▸ List.mem_singleton_self body) hlink hnone
    rw [hlacks, hmeans.isLink_iff, hdescriptions]
    cases typed with
    | resolved type default =>
      have hparam := h.hasParam
      cases hdescription : descriptionOf? remarks name with
      | none => simp [hparam, hdescription]
      | some text => simp [hparam, hdescription]
    | link target arg => simp

theorem mention_of_unmatchedName? {slot : Slot} {name : String}
    (h : Fields.unmatchedName? slot = some name) : ∃ draft, slot = .arg name draft := by
  unfold Fields.unmatchedName? at h
  split at h
  · cases h
  · split at h
    · cases h
      exact ⟨_, rfl⟩
    · split at h <;> cases h
      exact ⟨_, rfl⟩
    · cases h

variable {fs : Fields}

/-- **The names that lack a field are blamed.** -/
theorem mem_unmatched (h : Drafts s ctx reg remarks fs.slots) (hsingle : Single remarks)
    {name : String} :
    name ∈ fs.unmatched ↔ name ∈ mentionedNames remarks ∧ LacksField remarks name := by
  rw [Fields.unmatched, List.mem_filterMap, mem_mentionedNames, ← h.mentions_eq]
  constructor
  · rintro ⟨slot, hslot, hname⟩
    obtain ⟨draft, rfl⟩ := mention_of_unmatchedName? hname
    exact ⟨List.mem_map_of_mem hslot,
      ((h.records hslot).unmatchedName?_iff hsingle).mp hname⟩
  · rintro ⟨hmem, hlacks⟩
    obtain ⟨slot, hslot, hmention⟩ := List.mem_map.mp hmem
    cases slot with
    | arg n draft =>
      cases hmention
      exact ⟨_, hslot, ((h.records hslot).unmatchedName?_iff hsingle).mpr hlacks⟩
    | linkAll target => cases hmention

/-- They come in the order of their first mention. -/
theorem sublist_unmatched (h : Drafts s ctx reg remarks fs.slots) :
    fs.unmatched.Sublist (mentionedNames remarks) := by
  rw [Fields.unmatched, mentionedNames, ← h.mentions_eq]
  clear h
  induction fs.slots with
  | nil => exact .slnil
  | cons slot slots ih =>
    rw [List.map_cons]
    cases hname : Fields.unmatchedName? slot with
    | none =>
      rw [List.filterMap_cons_none hname]
      exact ih.trans ((List.sublist_cons_self _ _).filterMap _)
    | some name =>
      obtain ⟨draft, rfl⟩ := mention_of_unmatchedName? hname
      rw [List.filterMap_cons_some hname]
      exact ih.cons_cons name

end Pairing

/-! ## Documents -/

section Documents

variable (s : Settings) (ctx : Context) (mode : Mode) (parent : Option ArgMap) (doc : Document)

/-- The blocks of the document are accepted one by one, from one registry to another. -/
def Document.Accepted (depth : Nat) (reg reg' : Registry) : Prop :=
  ∃ fs, ((doc.blocks.foldlM (addBlock s ctx) .empty).run (needAt s depth)).runOn reg = (.ok fs, reg')

theorem collect_paired {reg : Registry} :
    (collect s ctx mode parent doc).Ensures (.held reg) fun _ =>
      ∀ name ∈ mentionedNames doc.remarks, Paired doc.remarks name := by
  refine (addBlocks_keep single_kept ⟨.empty, .empty⟩ doc).bind fun fs hfs => ?_
  change Ensures _ _ (if _ then fail _ else _)
  split
  · exact .fail trivial
  · next hmatched =>
    have hnil : fs.unmatched = [] := by simpa using hmatched
    have hpaired : ∀ name ∈ mentionedNames doc.remarks, Paired doc.remarks name :=
      fun name hname => hfs.2.paired fun hlacks => by
        have hmem := (mem_unmatched hfs.1 hfs.2).mpr ⟨hname, hlacks⟩
        rw [hnil] at hmem
        cases hmem
    have hnone : ∀ slot ∈ fs.slots, Fields.unmatchedName? slot = none :=
      List.filterMap_eq_nil_iff.mp hnil
    exact (addSlots_contribute hfs.1 hnone).bind fun _ _ => .done hpaired

/-- **The pairing of fields is enforced exactly.** If a document is collected, then each name that
it mentions has one type, at most one description, and exactly one unless its type is a link. If its
blocks are accepted one by one and some name lacks a field, then the names that do are blamed, each
once and in the order of first mention. -/
theorem collect_pairing (depth : Nat) (reg : Registry) :
    (∀ collected reg', ((collect s ctx mode parent doc).run (needAt s depth)).runOn reg =
        (.ok collected, reg') →
      ∀ name ∈ mentionedNames doc.remarks, Paired doc.remarks name) ∧
    ∀ reg', doc.Accepted s ctx depth reg reg' →
      (∃ name ∈ mentionedNames doc.remarks, LacksField doc.remarks name) →
      ∃ names, ((collect s ctx mode parent doc).run (needAt s depth)).runOn reg =
          (.error (.unmatched ctx.object names), reg') ∧
        (∀ name, name ∈ names ↔
          name ∈ mentionedNames doc.remarks ∧ LacksField doc.remarks name) ∧
        names.Nodup ∧ names.Sublist (mentionedNames doc.remarks) := by
  constructor
  · intro collected reg' h
    exact (gives_of_run_needAt h).ensured (collect_paired s ctx mode parent doc)
      fun _ _ hheld => hheld
  · rintro reg' ⟨fs, hfirst⟩ ⟨name, hname, hlacks⟩
    obtain ⟨hdrafts, hsingle⟩ := (gives_of_run_needAt hfirst).ensured
      (addBlocks_keep single_kept ⟨.empty, .empty⟩ doc) fun _ _ hheld => hheld
    have hblamed : fs.unmatched ≠ [] := List.ne_nil_of_mem
      ((mem_unmatched hdrafts hsingle).mpr ⟨hname, hlacks⟩)
    refine ⟨fs.unmatched, ?_, fun _ => mem_unmatched hdrafts hsingle,
      (sublist_unmatched hdrafts).nodup (nodup_mentionedNames _), sublist_unmatched hdrafts⟩
    rw [collect, runOn_run_bind, hfirst]
    change ParseM.runOn (Inquiry.run _ (if (!fs.unmatched.isEmpty) = true then fail _ else _)) _ = _
    rw [if_pos (by simpa using hblamed)]
    rfl

end Documents

namespace Sample

/-- A document without a type for `a` and without a description of `b`. The link stands for both. -/
def unpaired : Document where
  blocks := [
    .field "type b" "int", .field "type d" "see self.k", .attr "c" "str" "The c.",
    .field "param a" "The a.", .paragraph "That is all."]

/-- The fields of the one document pair up, those of the other one do not. -/
theorem collect_pairing_of_interleaved :
    (∃ collected reg', ((collect expanding ⟨"m", "m.C.run"⟩ .function (some around)
        interleaved).run (needAt expanding 0)).runOn .empty = (.ok collected, reg') ∧
      mentionedNames interleaved.remarks = ["b", "a", "c"] ∧
      ∀ name ∈ mentionedNames interleaved.remarks, Paired interleaved.remarks name) ∧
    ∃ reg', unpaired.Accepted expanding ⟨"m", "m.C.run"⟩ 0 .empty reg' ∧
      (∃ name ∈ mentionedNames unpaired.remarks, LacksField unpaired.remarks name) ∧
      ∃ names, ((collect expanding ⟨"m", "m.C.run"⟩ .function (some around) unpaired).run
          (needAt expanding 0)).runOn .empty = (.error (.unmatched "m.C.run" names), reg') ∧
        (∀ name, name ∈ names ↔
          name ∈ mentionedNames unpaired.remarks ∧ LacksField unpaired.remarks name) ∧
        names.Nodup ∧ names.Sublist (mentionedNames unpaired.remarks) := by
  have hrun : (((collect expanding ⟨"m", "m.C.run"⟩ .function (some around) interleaved).run
      (needAt expanding 0)).runOn .empty).1.toOption.map (fun _ => ()) = some () := by
    decide +kernel
  have hblocks : (((unpaired.blocks.foldlM (addBlock expanding ⟨"m", "m.C.run"⟩) .empty).run
      (needAt expanding 0)).runOn .empty).1.toOption.map (fun _ => ()) = some () := by
    decide +kernel
  have hlacks : ∃ name ∈ mentionedNames unpaired.remarks, LacksField unpaired.remarks name :=
    ⟨"a", by decide +kernel, .type (by decide +kernel)⟩
  obtain ⟨collected, reg₁, hcollect, -⟩ := ParseM.ok_of_toOption_map hrun
  obtain ⟨fs, reg₂, hfirst, -⟩ := ParseM.ok_of_toOption_map hblocks
  have hpaired := collect_pairing expanding ⟨"m", "m.C.run"⟩ .function (some around) interleaved 0
    .empty
  have hblamed := collect_pairing expanding ⟨"m", "m.C.run"⟩ .function (some around) unpaired 0
    .empty
  exact ⟨⟨collected, reg₁, hcollect, by decide +kernel, hpaired.1 collected reg₁ hcollect⟩,
    reg₂, ⟨fs, hfirst⟩, hlacks, hblamed.2 reg₂ ⟨fs, hfirst⟩ hlacks⟩

end Sample

end DocTree
