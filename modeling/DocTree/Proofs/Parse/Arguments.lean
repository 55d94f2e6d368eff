import DocTree.Proofs.Parse.Contributions

/-!
# The arguments of a document

The two phases of collecting do not walk the same things: the first one fills drafts from the blocks
in any order, the second one goes through the slots. The slots stand for the mentions of the
document all the time, and each draft for what has been said of its name so far.

* `KeptByRemarks`, `addBlocks_keep`: **the rule for invariants of the first phase**;
* `Drafts`: the invariant above, with one lemma for each kind of remark;
* `slotArgs_contributes`: one slot of the second phase;
* **`collect_args`**: the arguments are what the mentions contribute, in their order.
-/

namespace DocTree

open Inquiry Registry

/-- The answers are the finished tokens of a registry. -/
def Inquiry.Terms.held (reg : Registry) : Terms := { Terms.any with answers := Holds reg }

section Arguments

variable {s : Settings} {ctx : Context} {reg : Registry}

/-! ## Type fields -/

/-- An object on the whitelist is expanded, anything else stays as it is. -/
theorem expand_standsFor {text : String} {e : Entity} (he : s.resolver.resolve ctx text = .ok e) :
    (expand s e).Ensures (.held reg) (StandsFor s ctx reg text) := by
  have hobject : ∀ {o : Object} {name : String}, e = .ofObject o → o.entryName? = some name →
      (if s.isWhitelisted name then Entity.expanded <$> tokenOf o else pure e).Ensures (.held reg)
        (StandsFor s ctx reg text) := by
    rintro o name rfl hname
    split
    · next hw =>
      refine .ask trivial fun token ⟨name', hname', htoken⟩ => .done ?_
      obtain rfl : name = name' := Option.some.inj (hname.symm.trans hname')
      exact .expanded he hname hw htoken
    · next hw =>
      refine .done (.plain he fun name' hname' => ?_)
      rw [Entity.qualifiedName?_ofObject, hname] at hname'
      simpa [Option.some.inj hname'] using hw
  have hplain : e.qualifiedName? = none → StandsFor s ctx reg text e := fun hnone =>
    .plain he fun name hname => nomatch hnone.symm.trans hname
  rcases Resolver.resolve_cases he with ⟨o, rfl, -⟩ | ⟨b, rfl⟩ | ⟨v, _, rfl, -⟩
  · cases o with
    | «class» c => exact hobject (o := .class c) rfl rfl
    | function f => exact hobject (o := .function f) rfl rfl
    | «module» path => exact .done (hplain rfl)
    | value v => exact .done (hplain rfl)
  · exact .done (hplain rfl)
  · exact .done (hplain rfl)

theorem typeOf_standsFor (alts : List Alternative) :
    (typeOf s ctx alts).Ensures (.held reg) fun type =>
      ∃ types, List.Forall₂ (fun alt => StandsFor s ctx reg alt.type) alts types ∧
        type = .ofAlternatives types := by
  have halt : ∀ alt ∈ alts, (alternativeType s ctx alt).Ensures (.held reg)
      (StandsFor s ctx reg alt.type) := fun alt _ =>
    (ensures_ofExcept (fun _ he => he) fun _ _ => trivial).bind fun _ he => expand_standsFor he
  exact (ensures_mapM_forall₂ halt).bind fun types htypes => .done ⟨types, htypes, rfl⟩

theorem typedOf_means (body : String) :
    (typedOf s ctx body).Ensures (.held reg) (Means s ctx reg body) := by
  refine (ensures_markup (fun _ _ => trivial) (TypeBody.read body)).bind fun read hread => ?_
  split
  · exact .done (.link hread)
  · exact .done (.link hread)
  · exact .fail trivial
  · next alts =>
    have hdefault : (ofExcept
        ((TypeBody.alternatives alts).default?.mapM (s.resolver.resolve ctx))).Ensures (.held reg)
          (Option.Rel (fun text e => s.resolver.resolve ctx text = .ok e)
            (TypeBody.alternatives alts).default?) := by
      refine ensures_ofExcept (fun default hok => ?_) fun _ _ => trivial
      cases hsource : (TypeBody.alternatives alts).default? with
      | none =>
        rw [hsource] at hok
        cases hok
        exact .none
      | some text =>
        rw [hsource] at hok
        obtain ⟨e, he, rfl⟩ := ok_of_map hok
        exact .some he
    refine hdefault.bind fun default hdefault => (typeOf_standsFor alts).bind ?_
    rintro _ ⟨types, htypes, rfl⟩
    exact .done (.resolved hread htypes hdefault)

/-! ## The first phase -/

/-- What a slot is there for. -/
def Slot.mention : Slot → Mention
  | .arg name _ => .name name
  | .linkAll target => .marker target

variable (s ctx reg) in
/-- A draft has the description and the type that are given for its name, and nothing else. -/
structure Draft.Records (description type : Option String) (draft : Draft) : Prop where
  hasParam : draft.hasParam = description.isSome
  description : draft.description = description.bind Text.nonBlank?
  typed : Option.Rel (Means s ctx reg) type draft.typed

namespace Draft

variable {description type : Option String} {draft : Draft}

theorem records_empty : Draft.empty.Records s ctx reg none none := ⟨rfl, rfl, .none⟩

theorem Records.description_eq_none (h : draft.Records s ctx reg description type)
    (hfree : ¬draft.hasParam) : description = none := by
  rw [h.hasParam] at hfree
  simpa using hfree

theorem Records.type_eq_none (h : draft.Records s ctx reg description type)
    (hfree : ¬draft.typed.isSome) : type = none := by
  have htyped := h.typed
  generalize draft.typed = typed at hfree htyped
  cases htyped with
  | none => rfl
  | some _ => exact absurd rfl hfree

/-- Where a draft has a type, the remarks have a text that means it. -/
theorem Records.exists_means (h : draft.Records s ctx reg description type) {typed : Typed}
    (htyped : draft.typed = some typed) :
    ∃ body, type = some body ∧ Means s ctx reg body typed := by
  have hrel := h.typed
  rw [htyped] at hrel
  cases hrel with
  | some hmeans => exact ⟨_, rfl, hmeans⟩

end Draft

variable (s ctx reg) in
/-- **The slots are the mentions of the remarks**, and each draft has what the remarks say of its
name. -/
structure Drafts (remarks : List Remark) (slots : List Slot) : Prop where
  mentions_eq : slots.map Slot.mention = mentions remarks
  records {name : String} {draft : Draft} (h : .arg name draft ∈ slots) :
    draft.Records s ctx reg (descriptionOf? remarks name) (typeBodyOf? remarks name)

namespace Drafts

variable {remarks : List Remark} {slots slots' : List Slot}

theorem empty : Drafts s ctx reg [] [] := ⟨rfl, fun h => nomatch h⟩

theorem not_mem_mentions (h : Drafts s ctx reg remarks slots) {name : String}
    (hnew : ∀ draft, .arg name draft ∉ slots) : .name name ∉ mentions remarks := by
  rw [← h.mentions_eq]
  rintro hmem
  obtain ⟨slot, hslot, hmention⟩ := List.mem_map.mp hmem
  cases slot with
  | arg n draft => exact hnew draft (Mention.name.inj hmention ▸ hslot)
  | linkAll target => cases hmention

/-- A remark on another name changes nothing for a draft. -/
theorem records_concat (h : Drafts s ctx reg remarks slots) {r : Remark} {name : String}
    {draft : Draft} (hmem : .arg name draft ∈ slots) (hr : r.mention ≠ .name name) :
    draft.Records s ctx reg (descriptionOf? (remarks ++ [r]) name)
      (typeBodyOf? (remarks ++ [r]) name) := by
  rw [descriptionOf?_concat, typeBodyOf?_concat, Remark.descriptionOf?_eq_none hr,
    Remark.typeBodyOf?_eq_none hr, Option.or_none, Option.or_none]
  exact h.records hmem

/-- A first remark on a name opens a draft at the end. -/
theorem concat (h : Drafts s ctx reg remarks slots) {r : Remark} {name : String} {draft : Draft}
    (hr : r.mention = .name name) (hnew : .name name ∉ mentions remarks)
    (hdraft : draft.Records s ctx reg (descriptionOf? (remarks ++ [r]) name)
      (typeBodyOf? (remarks ++ [r]) name)) :
    Drafts s ctx reg (remarks ++ [r]) (slots ++ [.arg name draft]) := by
  refine ⟨?_, fun {n d} hmem => ?_⟩
  · rw [List.map_append, h.mentions_eq, mentions_concat, hr, addMention, if_neg hnew]
    rfl
  · rcases List.mem_append.mp hmem with hmem | hmem
    · refine h.records_concat hmem fun heq => hnew ?_
      rw [← hr, heq, ← h.mentions_eq]
      exact List.mem_map_of_mem hmem
    · cases List.mem_singleton.mp hmem
      exact hdraft

/-- A further remark on a name changes its draft, which is the only one of that name. -/
theorem replace {before after : List Slot} {name : String} {old draft : Draft}
    (h : Drafts s ctx reg remarks (before ++ .arg name old :: after)) {r : Remark}
    (hr : r.mention = .name name)
    (hdraft : draft.Records s ctx reg (descriptionOf? (remarks ++ [r]) name)
      (typeBodyOf? (remarks ++ [r]) name)) :
    Drafts s ctx reg (remarks ++ [r]) (before ++ .arg name draft :: after) := by
  have hmentions : mentions remarks =
      before.map Slot.mention ++ .name name :: after.map Slot.mention := by
    rw [← h.mentions_eq, List.map_append, List.map_cons, Slot.mention]
  obtain ⟨hbefore, hafter⟩ := not_mem_of_mentions_eq hmentions
  have hother : ∀ {l : List Slot} {n : String} {d : Draft}, .name name ∉ l.map Slot.mention →
      .arg n d ∈ l → r.mention ≠ .name n := fun hl hmem heq =>
    hl (hr ▸ heq ▸ List.mem_map_of_mem hmem)
  refine ⟨?_, fun {n d} hmem => ?_⟩
  · have hlisted : .name name ∈ mentions remarks := by simp [hmentions]
    rw [mentions_concat, hr, addMention, if_pos hlisted, hmentions, List.map_append, List.map_cons,
      Slot.mention]
  · rcases List.mem_append.mp hmem with hmem | hmem
    · exact h.records_concat (List.mem_append.mpr (.inl hmem)) (hother hbefore hmem)
    · rcases List.mem_cons.mp hmem with heq | hmem
      · cases heq
        exact hdraft
      · exact h.records_concat (List.mem_append.mpr (.inr (List.mem_cons_of_mem _ hmem)))
          (hother hafter hmem)

/-- **A remark on a name goes into its draft.** -/
theorem update (h : Drafts s ctx reg remarks slots) {r : Remark} {name : String}
    {f : Draft → Except Error Draft} (hr : r.mention = .name name)
    (hf : ∀ old draft, f old = .ok draft →
      old.Records s ctx reg (descriptionOf? remarks name) (typeBodyOf? remarks name) →
      draft.Records s ctx reg (descriptionOf? (remarks ++ [r]) name)
        (typeBodyOf? (remarks ++ [r]) name))
    (hok : updateDraft name f slots = .ok slots') : Drafts s ctx reg (remarks ++ [r]) slots' := by
  obtain ⟨old, draft, hdraft, ⟨rfl, hnew, rfl⟩ | ⟨before, after, rfl, rfl⟩⟩ :=
    updateDraft_cases hok
  · have hunlisted := h.not_mem_mentions hnew
    refine h.concat hr hunlisted (hf .empty draft hdraft ?_)
    rw [descriptionOf?_of_not_mem hunlisted, typeBodyOf?_of_not_mem hunlisted]
    exact Draft.records_empty
  · exact h.replace hr (hf old draft hdraft (h.records (by simp)))

variable {fs fs' : Fields} {object name body : String}

theorem addParam (h : Drafts s ctx reg remarks fs.slots)
    (hok : fs.addParam object name body = .ok fs') :
    Drafts s ctx reg (remarks ++ [.description name body]) fs'.slots := by
  obtain ⟨slots, hslots, hfs⟩ := ok_of_bind hok
  cases hfs
  refine h.update rfl (fun old draft hdraft hold => ?_) hslots
  split at hdraft
  · cases hdraft
  · next hfree =>
    cases hdraft
    rw [descriptionOf?_concat, typeBodyOf?_concat, hold.description_eq_none hfree]
    simp only [Remark.descriptionOf?_description, Remark.typeBodyOf?_description, Option.none_or,
      Option.or_none]
    refine ⟨rfl, ?_, hold.typed⟩
    rw [Option.bind_some]

theorem addType (h : Drafts s ctx reg remarks fs.slots) {typed : Typed}
    (htyped : Means s ctx reg body typed) (hok : fs.addType object name typed = .ok fs') :
    Drafts s ctx reg (remarks ++ [.type name body]) fs'.slots := by
  obtain ⟨slots, hslots, hfs⟩ := ok_of_bind hok
  cases hfs
  refine h.update rfl (fun old draft hdraft hold => ?_) hslots
  split at hdraft
  · cases hdraft
  · next hfree =>
    cases hdraft
    rw [descriptionOf?_concat, typeBodyOf?_concat, hold.type_eq_none hfree]
    simp only [Remark.descriptionOf?_type, Remark.typeBodyOf?_type, Option.none_or, Option.or_none]
    exact ⟨hold.hasParam, hold.description, .some htyped⟩

theorem addLinkAll (h : Drafts s ctx reg remarks fs.slots) (target : String) :
    Drafts s ctx reg (remarks ++ [.marker target]) (fs.addLinkAll target).slots := by
  refine ⟨?_, fun {n d} hmem => ?_⟩
  · rw [mentions_concat, ← h.mentions_eq, Fields.addLinkAll, List.map_append]
    rfl
  · rcases List.mem_append.mp hmem with hmem | hmem
    · refine h.records_concat hmem ?_
      rintro ⟨⟩
    · cases List.mem_singleton.mp hmem

end Drafts

variable (s ctx reg) in
/-- What holds of the remarks and the slots is kept by a remark of each kind. -/
structure KeptByRemarks (I : List Remark → List Slot → Prop) : Prop where
  description {remarks : List Remark} {fs fs' : Fields} {name body : String}
    (h : I remarks fs.slots) (hok : fs.addParam ctx.object name body = .ok fs') :
    I (remarks ++ [.description name body]) fs'.slots
  type {remarks : List Remark} {fs fs' : Fields} {name body : String} {typed : Typed}
    (h : I remarks fs.slots) (htyped : Means s ctx reg body typed)
    (hok : fs.addType ctx.object name typed = .ok fs') :
    I (remarks ++ [.type name body]) fs'.slots
  marker {remarks : List Remark} {fs : Fields} (h : I remarks fs.slots) (target : String) :
    I (remarks ++ [.marker target]) (fs.addLinkAll target).slots

theorem Drafts.kept : KeptByRemarks s ctx reg (Drafts s ctx reg) where
  description h hok := h.addParam hok
  type h htyped hok := h.addType htyped hok
  marker h target := h.addLinkAll target

section Blocks

variable {I : List Remark → List Slot → Prop} (hI : KeptByRemarks s ctx reg I)
  {remarks : List Remark} {fs : Fields} (h : I remarks fs.slots)

include hI h

/-- A field makes the remarks of its name. -/
theorem addField_keeps (name : FieldName) (body : String) :
    (addField s ctx fs name body).Ensures (.held reg) fun fs' =>
      I (remarks ++ name.remarks body) fs'.slots := by
  cases name with
  | param name => exact ensures_ofExcept (fun _ hok => hI.description h hok) fun _ _ => trivial
  | linkAll target => exact .done (hI.marker h target)
  | type name =>
    exact (typedOf_means body).bind fun typed htyped =>
      ensures_ofExcept (fun _ hok => hI.type h htyped hok) fun _ _ => trivial
  | returns =>
    rw [FieldName.remarks, List.append_nil]
    refine ensures_ofExcept (fun fs' hok => ?_) fun _ _ => trivial
    rwa [slots_addReturns hok]
  | returnType =>
    rw [FieldName.remarks, List.append_nil, addField]
    split
    · exact .fail trivial
    · exact (returnTypeOf_ensures (fun _ _ => trivial) fun _ _ => trivial).bind
        fun type _ => .done h
  | other name =>
    rw [FieldName.remarks, List.append_nil]
    exact .done h

/-- **A block makes its remarks.** -/
theorem addBlock_keeps (b : Block) :
    (addBlock s ctx fs b).Ensures (.held reg) fun fs' => I (remarks ++ b.remarks) fs'.slots := by
  cases b with
  | paragraph text =>
    rw [Block.remarks, List.append_nil]
    exact .done h
  | field name body =>
    refine (ensures_markup (fun _ _ => trivial) (FieldName.classify name)).bind fun n hname => ?_
    rw [Block.remarks, hname]
    exact addField_keeps hI h n body
  | attr name typeBody body =>
    have hparam : (Inquiry.ofExcept (fs.addParam ctx.object name body)).Ensures (.held reg)
        fun fs' => I (remarks ++ [.description name body]) fs'.slots :=
      ensures_ofExcept (fun _ hok => hI.description h hok) fun _ _ => trivial
    refine hparam.bind fun fs₁ h₁ => (typedOf_means typeBody).bind fun typed htyped =>
      ensures_ofExcept (fun _ hok => ?_) fun _ _ => trivial
    have h₂ := hI.type h₁ htyped hok
    rwa [List.append_assoc] at h₂
  | see target =>
    match target with
    | [target] => exact .done (hI.marker h target)
    | [] | _ :: _ :: _ => exact .fail trivial
  | directive kind title body =>
    rw [Block.remarks, List.append_nil]
    exact .done h

end Blocks

/-- **What each remark keeps holds after the first phase.** -/
theorem addBlocks_keep {I : List Remark → List Slot → Prop} (hI : KeptByRemarks s ctx reg I)
    (hempty : I [] []) (doc : Document) :
    (doc.blocks.foldlM (addBlock s ctx) .empty).Ensures (.held reg) fun fs =>
      I doc.remarks fs.slots := by
  refine ensures_foldlM (I := fun seen (fs : Fields) => I (seen.flatMap Block.remarks) fs.slots)
    hempty fun seen b fs _ h => ?_
  rw [List.flatMap_append, List.flatMap_singleton]
  exact addBlock_keeps hI h b

/-! ## The second phase -/

variable {mode : Mode} {parent : Option ArgMap} {remarks : List Remark}

theorem linkAll_contributes (target : String) :
    (linkAll s ctx mode parent target).Ensures (.held reg)
      (Contributes s ctx reg mode parent remarks (.marker target)) := by
  unfold linkAll
  split
  · next hself =>
    subst hself
    split
    · exact .done (.self rfl)
    · exact .fail trivial
  · next hself =>
    have htarget : ∀ (o : Object) {token : Token},
        s.resolver.resolve ctx target = .ok (.ofObject o) → Holds reg o token →
        Contributes s ctx reg mode parent remarks (.marker target) (token.argsFor mode).toList :=
      fun _ _ hresolve htoken => .target hself hresolve htoken (offers_iff.mpr rfl)
    refine (ensures_ofExcept (fun _ he => he) fun _ _ => trivial).bind fun e he => ?_
    cases e with
    | «class» c => exact .ask trivial fun token htoken => .done (htarget (.class c) he htoken)
    | function f => exact .ask trivial fun token htoken => .done (htarget (.function f) he htoken)
    | builtin _ | value _ | «module» _ | union _ | expanded _ => exact .fail trivial

/-- **A slot gives what its mention contributes**, if there is a type for its name. -/
theorem slotArgs_contributes {slots : List Slot} (h : Drafts s ctx reg remarks slots) {slot : Slot}
    (hslot : slot ∈ slots) (hmatched : Fields.unmatchedName? slot = none) :
    (slotArgs s ctx mode parent slot).Ensures (.held reg)
      (Contributes s ctx reg mode parent remarks slot.mention) := by
  cases slot with
  | linkAll target => exact linkAll_contributes target
  | arg name draft =>
    have hrecords := h.records hslot
    rw [slotArgs]
    split
    · next type default htyped =>
      obtain ⟨body, hbody, hmeans⟩ := hrecords.exists_means htyped
      refine (ensures_ofExcept (fun _ hmake => hmake) fun _ _ => trivial).bind
        fun made hmake => .done ?_
      rw [eq_of_make hmake, hrecords.description]
      exact .resolved hbody hmeans
    · next target arg htyped =>
      obtain ⟨body, hbody, hmeans⟩ := hrecords.exists_means htyped
      refine (ensures_ofExcept (fun _ hlink => hlink) fun _ _ => trivial).bind
        fun _ hlink => .done ?_
      obtain ⟨sourceName, attributes, source, made, hself, hparent, hsource, hmake, rfl⟩ :=
        linkOne_cases hlink
      rw [eq_of_make hmake, hrecords.description]
      exact .linked hbody hmeans (selfLink_iff.mpr hself) hparent hsource
    · next hnone =>
      rw [Fields.unmatchedName?, hnone] at hmatched
      cases hmatched

/-- **After the second phase** the arguments are what the mentions contribute. -/
theorem addSlots_contribute {slots : List Slot} (h : Drafts s ctx reg remarks slots)
    (hmatched : ∀ slot ∈ slots, Fields.unmatchedName? slot = none) :
    (slots.foldlM (addSlot s ctx mode parent) .empty).Ensures (.held reg) fun args =>
      ∃ parts, List.Forall₂ (Contributes s ctx reg mode parent remarks) (mentions remarks) parts ∧
        args.toList = parts.flatten := by
  rw [← h.mentions_eq]
  refine ensures_foldlM (I := fun seen (args : ArgMap) => ∃ parts, List.Forall₂
      (Contributes s ctx reg mode parent remarks) (seen.map Slot.mention) parts ∧
        args.toList = parts.flatten) ⟨[], .nil, rfl⟩ ?_
  rintro seen slot args hslot ⟨parts, hparts, hargs⟩
  refine (slotArgs_contributes h hslot (hmatched slot hslot)).bind fun new hnew =>
    ensures_ofExcept (fun args' hok => ⟨parts ++ [new], ?_, ?_⟩) fun _ _ => trivial
  · rw [List.map_append]
    exact List.rel_append hparts (.cons hnew .nil)
  · rw [toList_appendArgs hok, hargs, List.flatten_concat]

theorem collect_contributes (doc : Document) :
    (collect s ctx mode parent doc).Ensures (.held reg) fun collected =>
      ∃ parts, List.Forall₂ (Contributes s ctx reg mode parent doc.remarks) (mentions doc.remarks)
        parts ∧ collected.args.toList = parts.flatten := by
  refine (addBlocks_keep Drafts.kept .empty doc).bind fun fs hfs => ?_
  change Ensures _ _ (if _ then fail _ else _)
  split
  · exact .fail trivial
  · next hmatched =>
    have hnone : ∀ slot ∈ fs.slots, Fields.unmatchedName? slot = none := by
      simpa [Fields.unmatched, List.filterMap_eq_nil_iff] using hmatched
    exact (addSlots_contribute hfs hnone).bind fun args hargs => .done hargs

end Arguments

/-- **The order and the content of the collected arguments.** Whatever has been parsed before, each
mention of a document contributes one list of arguments, and the collected arguments are these lists
in the order of the mentions. -/
theorem collect_args {s : Settings} {ctx : Context} {mode : Mode} {parent : Option ArgMap}
    {doc : Document} {depth : Nat} {reg reg' : Registry} {collected : Collected}
    (h : ((collect s ctx mode parent doc).run (needAt s depth)).runOn reg = (.ok collected, reg')) :
    ∃ parts, (∀ parts', List.Forall₂ (Contributes s ctx reg' mode parent doc.remarks)
        (mentions doc.remarks) parts' ↔ parts' = parts) ∧
      collected.args.toList = parts.flatten := by
  obtain ⟨parts, hparts, hargs⟩ :=
    (gives_of_run_needAt h).ensured (collect_contributes doc) fun _ _ hheld => hheld
  refine ⟨parts, fun parts' => ⟨fun hparts' => ?_, fun heq => heq ▸ hparts⟩, hargs⟩
  exact List.right_unique_forall₂' (fun _ _ _ h h' => h.unique h') hparts' hparts

namespace Sample

/-- A document that has the two fields of `b` and of `a` around links and attributes. -/
def interleaved : Document where
  blocks := [
    .paragraph "Mixed.", .field "type b" "int | C = 1", .field "param see C" "",
    .field "param a" " ", .attr "c" "str" "The c.", .field "returns" "Nothing.",
    .field "arg b" " The b. ", .field "type a" "see self.k", .see ["self"]]

/-- The attributes of the class around it. -/
def around : ArgMap := ⟨[⟨"k", .builtin .str, some "The k.", none⟩]⟩

def expanding : Settings := { settings with whitelist := ["m.C", "m.p"] }

/-- The names come out in the order of their first mention, with `x` of the class `C` behind `b`. -/
theorem collect_args_of_interleaved :
    ∃ collected reg', ((collect expanding ⟨"m", "m.C.run"⟩ .function (some around)
        interleaved).run (needAt expanding 0)).runOn .empty = (.ok collected, reg') ∧
      mentions interleaved.remarks =
        [.name "b", .marker "C", .name "a", .name "c", .marker "self"] ∧
      collected.args.toList.map (fun arg => (arg.name, arg.type.display, arg.description)) =
        [("b", "int | m.C", some "The b."), ("x", "int", none), ("a", "str", some "The k."),
          ("c", "str", some "The c."), ("k", "str", some "The k.")] ∧
      ∃ parts, (∀ parts', List.Forall₂ (Contributes expanding ⟨"m", "m.C.run"⟩ reg' .function
          (some around) interleaved.remarks) (mentions interleaved.remarks) parts' ↔
            parts' = parts) ∧
        collected.args.toList = parts.flatten := by
  have hrun : (((collect expanding ⟨"m", "m.C.run"⟩ .function (some around) interleaved).run
      (needAt expanding 0)).runOn .empty).1.toOption.map (fun collected =>
        collected.args.toList.map fun arg => (arg.name, arg.type.display, arg.description)) =
      some [("b", "int | m.C", some "The b."), ("x", "int", none), ("a", "str", some "The k."),
        ("c", "str", some "The c."), ("k", "str", some "The k.")] := by decide +kernel
  obtain ⟨collected, reg', hcollect, hargs⟩ := ParseM.ok_of_toOption_map hrun
  exact ⟨collected, reg', hcollect, by decide +kernel, hargs, collect_args hcollect⟩

end Sample

end DocTree
