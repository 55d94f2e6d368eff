import DocTree.Proofs.Markup.Param
import DocTree.Proofs.Parse.Cycle

/-!
# Signatures are read as they were written

A function whose docstring describes parameters, two lines for each, has exactly these arguments.

* `typedOf_typeBody`: the type field of a parameter gives its type and its default;
* `Param.slot`, `foldlM_fields`: the two fields of each parameter fill one place;
* `foldlM_slots`: each place gives one argument;
* `collect_signature`, **`parse_signature`**: the whole docstring.
-/

namespace DocTree

open Text Literal

theorem Inquiry.done_bind {α β : Type} (a : α) (f : α → Inquiry β) : (done a >>= f) = f a := rfl

/-! ## Types -/

theorem eq_of_same_plain {a b : Entity} (ha : a.IsPlain) (h : a.same b = true) : a = b := by
  cases a with
  | builtin x =>
    cases b with
    | builtin y => exact congrArg Entity.builtin (eq_of_beq h)
    | _ => cases h
  | value v =>
    cases b with
    | value w => exact congrArg Entity.value (Value.eq_of_same ha.floatFree h)
    | _ => cases h
  | _ => exact ha.elim

/-- Plain entities that differ are not the same either. -/
theorem distinct_of_nodup {l : List Entity} (hplain : ∀ e ∈ l, e.IsPlain) (h : l.Nodup) :
    Distinct l := by
  refine h.imp_of_mem fun {a b} _ hb hne => ?_
  rw [Bool.eq_false_iff]
  intro hsame
  exact hne (eq_of_same_plain (hplain b hb) hsame).symm

section Types

variable (s : Settings) (ctx : Context)

theorem expand_plain {e : Entity} (he : e.IsPlain) : expand s e = .done e := by
  cases e with
  | builtin b => rfl
  | value v => rfl
  | _ => exact he.elim

/-- The types of the alternatives are what was written. -/
theorem mapM_alternativeType {alts : List Alternative} {entities : List Entity}
    (h : alts.map Alternative.type = entities.map Entity.display)
    (hplain : ∀ e ∈ entities, e.IsPlain) :
    alts.mapM (alternativeType s ctx) = .done entities := by
  induction entities generalizing alts with
  | nil =>
    obtain rfl := List.map_eq_nil_iff.mp h
    rfl
  | cons e entities ih =>
    obtain ⟨alt, alts, rfl, halt, halts⟩ := List.map_eq_cons_iff.mp h
    obtain ⟨he, hrest⟩ := List.forall_mem_cons.mp hplain
    have hfirst : alternativeType s ctx alt = .done e := by
      rw [alternativeType, halt, s.resolver.resolve_display ctx he]
      exact expand_plain s he
    rw [List.mapM_cons, hfirst, ih halts hrest]
    rfl

variable {p : Param}

theorem Param.IsWritable.ofAlternatives (hp : p.IsWritable) :
    Entity.ofAlternatives p.alternatives = p.type := by
  rw [Entity.ofAlternatives, Entity.unionMembers,
    dedup_eq_self (distinct_of_nodup hp.plain hp.distinct)]
  unfold Param.type
  rcases p.alternatives with _ | ⟨first, _ | ⟨second, rest⟩⟩ <;> rfl

/-- **The type field of a parameter gives its type and its default.** -/
theorem typedOf_typeBody (hp : p.IsWritable) :
    typedOf s ctx p.typeBody = .done (.resolved p.type (p.default.map .value)) := by
  obtain ⟨-, alts, hread, htypes, hdefault⟩ := hp.read_typeBody
  have hvalue : p.valueText.mapM (s.resolver.resolve ctx) = .ok (p.default.map .value) := by
    rw [Param.valueText]
    cases hd : p.default with
    | none => rfl
    | some v =>
      have hresolve := s.resolver.resolve_display ctx (e := .value v) (hp.default v hd)
      change (do let e ← s.resolver.resolve ctx (Entity.value v).display; pure (some e)) = _
      rw [hresolve]
      rfl
  have hbody : readTypeBody p.typeBody = .done (.alternatives alts) := by
    rw [readTypeBody, hread]
    rfl
  have htype : typeOf s ctx alts = .done p.type := by
    rw [typeOf, mapM_alternativeType s ctx htypes hp.plain]
    exact congrArg Inquiry.done hp.ofAlternatives
  rw [typedOf, hbody]
  change (Inquiry.ofExcept ((TypeBody.alternatives alts).default?.mapM (s.resolver.resolve ctx)) >>=
    fun default => typeOf s ctx alts >>= fun type => pure (Typed.resolved type default)) = _
  rw [hdefault, hvalue, htype]
  rfl

end Types

/-! ## Fields -/

namespace Param

/-- The place of the parameter among those of its docstring. -/
def slot (p : Param) : Slot :=
  .arg p.name ⟨true, some p.description, some (.resolved p.type (p.default.map .value))⟩

end Param

/-- No place is the one of the given name. -/
def Untouched (name : String) (slots : List Slot) : Prop :=
  ∀ slot ∈ slots, ∀ n draft, slot = .arg n draft → n ≠ name

/-- Places of other names stay as they are. -/
theorem updateDraft_append {name : String} {slots : List Slot} (h : Untouched name slots)
    (f : Draft → Except Error Draft) (rest : List Slot) :
    updateDraft name f (slots ++ rest) = (updateDraft name f rest).map (slots ++ ·) := by
  induction slots with
  | nil => cases hrest : updateDraft name f rest <;> simp [hrest, Except.map]
  | cons slot slots ih =>
    obtain ⟨hslot, hslots⟩ := List.forall_mem_cons.mp h
    cases slot with
    | arg n draft =>
      rw [List.cons_append, updateDraft, if_neg (hslot n draft rfl), ih hslots]
      cases updateDraft name f rest <;> rfl
    | linkAll target =>
      rw [List.cons_append, updateDraft, ih hslots]
      cases updateDraft name f rest <;> rfl

theorem nonBlank?_of_plain {line : String} (h : PlainLine line) : nonBlank? line = some line := by
  have hne : line.isEmpty = false := by simpa using h.tight.ne_nil
  rw [nonBlank?, trim_of_tight h.tight, hne]
  rfl

section Fields

variable (s : Settings) (ctx : Context) {p : Param} {fs : Fields}

/-- The description field opens a place for the parameter. -/
theorem addParam_new (hp : p.IsWritable) (hnew : Untouched p.name fs.slots) :
    fs.addParam ctx.object p.name p.description =
      .ok { fs with slots := fs.slots ++ [.arg p.name ⟨true, some p.description, none⟩] } := by
  have hupdate := updateDraft_append hnew (fun draft =>
    if draft.hasParam then .error (.duplicateParam ctx.object p.name)
    else .ok { draft with hasParam := true, description := nonBlank? p.description }) []
  rw [List.append_nil, nonBlank?_of_plain hp.description] at hupdate
  rw [Fields.addParam, nonBlank?_of_plain hp.description, hupdate]
  rfl

/-- The type field completes it. -/
theorem addType_open (hnew : Untouched p.name fs.slots) (typed : Typed) :
    Fields.addType ctx.object p.name typed
        { fs with slots := fs.slots ++ [.arg p.name ⟨true, some p.description, none⟩] } =
      .ok { fs with
        slots := fs.slots ++ [.arg p.name ⟨true, some p.description, some typed⟩] } := by
  rw [Fields.addType, updateDraft_append hnew, updateDraft, if_pos rfl]
  rfl

theorem addBlock_field {name body : String} {field : FieldName}
    (h : FieldName.classify name = .ok field) :
    addBlock s ctx fs (.field name body) = addField s ctx fs field body := by
  rw [addBlock, h]
  rfl

/-- **The two fields of a parameter fill one place.** -/
theorem foldlM_fields_one (hp : p.IsWritable) (hnew : Untouched p.name fs.slots) :
    (p.fields.map FieldText.block).foldlM (addBlock s ctx) fs =
      .done { fs with slots := fs.slots ++ [p.slot] } := by
  have hparam : addBlock s ctx fs (.field ("param" ++ " " ++ p.name) p.description) =
      .done { fs with slots := fs.slots ++ [.arg p.name ⟨true, some p.description, none⟩] } := by
    rw [addBlock_field s ctx (classify_param hp.isIdentifier hp.notSee), addField,
      addParam_new ctx hp hnew]
    rfl
  have htype : addBlock s ctx
      { fs with slots := fs.slots ++ [.arg p.name ⟨true, some p.description, none⟩] }
      (.field ("type" ++ " " ++ p.name) p.typeBody) =
        .done { fs with slots := fs.slots ++ [p.slot] } := by
    rw [addBlock_field s ctx (classify_type hp.isIdentifier), addField, typedOf_typeBody s ctx hp]
    exact congrArg Inquiry.ofExcept (addType_open ctx hnew _)
  rw [Param.fields, List.map_cons, List.map_singleton, List.foldlM_cons, FieldText.block, hparam,
    Inquiry.done_bind, List.foldlM_cons, FieldText.block, htype]
  rfl

/-- The fields of several parameters of different names. -/
theorem foldlM_fields {params : List Param} (hparams : ∀ p ∈ params, p.IsWritable)
    (hnames : (params.map Param.name).Nodup) (hnew : ∀ p ∈ params, Untouched p.name fs.slots) :
    ((params.flatMap Param.fields).map FieldText.block).foldlM (addBlock s ctx) fs =
      .done { fs with slots := fs.slots ++ params.map Param.slot } := by
  induction params generalizing fs with
  | nil =>
    rw [List.flatMap_nil, List.map_nil, List.map_nil, List.append_nil]
    rfl
  | cons p params ih =>
    obtain ⟨hp, hparams⟩ := List.forall_mem_cons.mp hparams
    obtain ⟨hpnew, hnew⟩ := List.forall_mem_cons.mp hnew
    obtain ⟨hname, hnames⟩ := List.nodup_cons.mp hnames
    have hmore : ∀ q ∈ params, Untouched q.name (fs.slots ++ [p.slot]) := by
      intro q hq slot hslot n draft hn
      rcases List.mem_append.mp hslot with hslot | hslot
      · exact hnew q hq slot hslot n draft hn
      · rw [List.mem_singleton.mp hslot] at hn
        cases hn
        exact fun heq => hname (heq ▸ List.mem_map_of_mem hq)
    rw [List.flatMap_cons, List.map_append, List.foldlM_append, foldlM_fields_one s ctx hp hpnew]
    rw [Inquiry.done_bind, ih hparams hnames hmore, List.append_assoc]
    rfl

end Fields

/-! ## Places -/

section Slots

variable (s : Settings) (ctx : Context) (mode : Mode) (parent : Option ArgMap)

theorem addSlot_param {p : Param} (hp : p.IsWritable) {args : ArgMap}
    (hnew : args.contains p.name = false) :
    addSlot s ctx mode parent args p.slot = .done ⟨args.toList ++ [p.toArg]⟩ := by
  have hmake : Arg.make p.name p.type = .ok ⟨p.name, p.type, none, none⟩ := by
    rw [Arg.make, if_pos hp.isIdentifier]
  have hslot : slotArgs s ctx mode parent p.slot = .done [p.toArg] := by
    change (Inquiry.ofExcept (Arg.make p.name p.type) >>= fun made => pure
      [{ made with description := some p.description, default := p.default.map .value }]) = _
    rw [hmake]
    rfl
  have hinsert : args.insert? p.toArg = some ⟨args.toList ++ [p.toArg]⟩ := by
    rw [ArgMap.insert?]
    exact if_neg (by change ¬ args.contains p.name = true; rw [hnew]; exact Bool.false_ne_true)
  rw [addSlot, hslot]
  change Inquiry.ofExcept (appendArgs ctx.object args [p.toArg]) = _
  rw [appendArgs, hinsert]
  rfl

/-- **Each place gives one argument.** -/
theorem foldlM_slots {params : List Param} (hparams : ∀ p ∈ params, p.IsWritable)
    (hnames : (params.map Param.name).Nodup) {args : ArgMap}
    (hnew : ∀ p ∈ params, args.contains p.name = false) :
    (params.map Param.slot).foldlM (addSlot s ctx mode parent) args =
      .done ⟨args.toList ++ params.map Param.toArg⟩ := by
  induction params generalizing args with
  | nil =>
    obtain ⟨list⟩ := args
    exact congrArg (fun l => Inquiry.done (ArgMap.mk l)) (List.append_nil list).symm
  | cons p params ih =>
    obtain ⟨hp, hparams⟩ := List.forall_mem_cons.mp hparams
    obtain ⟨hpnew, hnew⟩ := List.forall_mem_cons.mp hnew
    obtain ⟨hname, hnames⟩ := List.nodup_cons.mp hnames
    have hmore : ∀ q ∈ params, ArgMap.contains ⟨args.toList ++ [p.toArg]⟩ q.name = false := by
      intro q hq
      have hother : p.toArg.name ≠ q.name := fun heq =>
        hname (List.mem_map.mpr ⟨q, hq, heq.symm⟩)
      have hold := hnew q hq
      rw [ArgMap.contains, ArgMap.get?] at hold ⊢
      rw [List.find?_append, Option.isSome_or, hold]
      simpa using hother
    rw [List.map_cons, List.foldlM_cons, addSlot_param s ctx mode parent hp hpnew,
      Inquiry.done_bind, ih hparams hnames hmore, List.append_assoc]
    rfl

/-- Nothing is missing. -/
theorem unmatched_slots (params : List Param) :
    (params.map Param.slot).filterMap Fields.unmatchedName? = [] := by
  rw [List.filterMap_map]
  exact List.filterMap_eq_nil_iff.mpr fun _ _ => rfl

end Slots

/-! ## The whole docstring -/

section Signature

variable {s : Settings} {params : List Param}

/-- **The arguments of a signature are its parameters.** -/
theorem collect_signature (ctx : Context) (parent : Option ArgMap)
    (hparams : ∀ p ∈ params, p.IsWritable) (hnames : (params.map Param.name).Nodup) :
    collect s ctx .function parent ⟨(params.flatMap Param.fields).map FieldText.block⟩ =
      .done ⟨⟨params.map Param.toArg⟩, none, []⟩ := by
  have hfields :
      ((params.flatMap Param.fields).map FieldText.block).foldlM (addBlock s ctx) .empty =
        .done { Fields.empty with slots := params.map Param.slot } :=
    foldlM_fields s ctx hparams hnames fun _ _ _ hslot => nomatch hslot
  have hslots : (params.map Param.slot).foldlM (addSlot s ctx .function parent) .empty =
      .done ⟨params.map Param.toArg⟩ :=
    foldlM_slots s ctx .function parent hparams hnames fun _ _ => rfl
  rw [collect, hfields]
  rw [Inquiry.done_bind, Fields.unmatched]
  change (if !((params.map Param.slot).filterMap Fields.unmatchedName?).isEmpty then _ else _) = _
  rw [unmatched_slots]
  change ((params.map Param.slot).foldlM (addSlot s ctx .function parent) ArgMap.empty >>= _) = _
  rw [hslots]
  rfl

theorem readDoc_signature (hne : params ≠ []) (hparams : ∀ p ∈ params, p.IsWritable)
    (object : String) (mayLackFields : Bool) :
    readDoc .rst object (some (signature params)) mayLackFields =
      .ok ⟨(params.flatMap Param.fields).map FieldText.block⟩ := by
  obtain ⟨p, rest, rfl⟩ := List.exists_cons_of_ne_nil hne
  rw [readDoc, normalize_signature hparams]
  rfl

theorem parseFunction_signature (hstyle : s.style = .rst) (hne : params ≠ [])
    (hparams : ∀ p ∈ params, p.IsWritable) (hnames : (params.map Param.name).Nodup) {f : Function}
    (hdoc : f.doc = some (signature params)) (parent : Option ArgMap) :
    parseFunction s f parent = .done ⟨f, none, ⟨params.map Param.toArg⟩, none, []⟩ := by
  have hdescription :
      Document.description ⟨(params.flatMap Param.fields).map FieldText.block⟩ = none := by
    obtain ⟨p, rest, rfl⟩ := List.exists_cons_of_ne_nil hne
    rfl
  have hread := readDoc_signature hne hparams f.fullName f.takesNothing
  rw [parseFunction, hdoc, hstyle, hread]
  change (collect s ⟨f.module, f.fullName⟩ .function parent _ >>= _) = _
  rw [collect_signature _ _ hparams hnames, Inquiry.done_bind, hdescription]
  rfl

/-- **A function whose docstring is a signature has exactly the parameters of that signature**, in
their order, whatever the host and the names outside its modules are. -/
theorem parse_signature (s : Settings) (hstyle : s.style = .rst) (params : List Param)
    (hne : params ≠ []) (hparams : ∀ p ∈ params, p.IsWritable)
    (hnames : (params.map Param.name).Nodup) (f : Function)
    (hdoc : f.doc = some (signature params)) :
    ((Parser.new s).parse (.function f)).1 =
      .ok (.function ⟨f, none, ⟨params.map Param.toArg⟩, none, []⟩) := by
  have hinquiry : inquire s (.function f) [] =
      .done (.function ⟨f, none, ⟨params.map Param.toArg⟩, none, []⟩) := by
    rw [inquire, parseFunction_signature hstyle hne hparams hnames hdoc]
    rfl
  change ((parseObject s 0 (.function f) []).runOn .empty).1 = _
  rw [runOn_parseObject, if_neg (Nat.not_lt_zero _), parseWith_nil s _ rfl, hinquiry,
    runOn_tracked]
  rfl

end Signature

namespace Sample

/-- A parameter whose values hold the characters that a signature is written with. -/
def separated : Param where
  name := "sep"
  description := "What stands between: `|` or `=`."
  alternatives := [.builtin .str, .value .none, .value (.str "a | b = 'c'")]
  default := some (.tuple [.str "|="])

/-- A parameter without a default. -/
def limit : Param := ⟨"type", "Its type.", [.builtin .type], none⟩

/-- A function with these two parameters. -/
def joiner : Function where
  «module» := "m"
  qualname := "join"
  doc := some (":param sep: What stands between: `|` or `=`.\n" ++
    ":type sep: str | None | \"a | b = 'c'\" = ('|=',)\n:param type: Its type.\n:type type: type")
  params := none

theorem str_isLiteral (s : String) : (Value.str s).IsLiteral :=
  Value.isLiteral_of_leaf rfl trivial nofun

theorem separated_isWritable : separated.IsWritable where
  isIdentifier := by decide +kernel
  notSee := by decide
  description := ⟨by decide, by decide, by decide⟩
  alternatives := List.cons_ne_nil _ _
  plain := by
    have hnone : Value.none.IsLiteral := Value.isLiteral_of_leaf rfl trivial nofun
    exact List.forall_mem_cons.mpr ⟨trivial, List.forall_mem_cons.mpr
      ⟨hnone, List.forall_mem_singleton.mpr (str_isLiteral _)⟩⟩
  distinct := by simp [separated]
  default := by
    rintro _ ⟨⟩
    exact Value.isLiteral_of_children trivial nofun
      (List.forall_mem_singleton.mpr (str_isLiteral _))

theorem limit_isWritable : limit.IsWritable where
  isIdentifier := by decide +kernel
  notSee := by decide
  description := ⟨by decide, by decide, by decide⟩
  alternatives := List.cons_ne_nil _ _
  plain := List.forall_mem_singleton.mpr trivial
  distinct := List.nodup_singleton _
  default := fun _ h => nomatch h

/-- The signature is read as it was written. -/
theorem parse_signature_of_joiner :
    ((Parser.new settings).parse (.function joiner)).1 =
      .ok (.function ⟨joiner, none, ⟨[
        ⟨"sep", .union [.builtin .str, .value .none, .value (.str "a | b = 'c'")],
          some "What stands between: `|` or `=`.", some (.value (.tuple [.str "|="]))⟩,
        ⟨"type", .builtin .type, some "Its type.", none⟩]⟩, none, []⟩) := by
  have hparams : ∀ p ∈ [separated, limit], p.IsWritable :=
    List.forall_mem_cons.mpr ⟨separated_isWritable, List.forall_mem_singleton.mpr limit_isWritable⟩
  exact parse_signature settings rfl [separated, limit] (List.cons_ne_nil _ _) hparams (by decide)
    joiner (by decide +kernel)

end Sample

end DocTree
