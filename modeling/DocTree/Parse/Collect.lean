import DocTree.Markup.Document
import DocTree.Markup.FieldName
import DocTree.Markup.TypeBody
import DocTree.Parse.Fields
import DocTree.Parse.Inquiry
import DocTree.Parse.Link
import DocTree.Parse.Registry

/-!
# Collecting arguments

The arguments that a docstring documents. A first phase walks its blocks and resolves the types; a
second one checks that descriptions and types pair up and puts the arguments in order, with the
arguments of linked objects where their markers stand.

Other objects are reached by links and by types on the whitelist. Collecting is an inquiry that asks
for their tokens, so that it does not recur itself.

* `typeOf`: a type, with the objects on the whitelist expanded;
* `addBlock`: the first phase, block by block;
* `linkAll`, `slotArgs`: the second phase, slot by slot;
* `collect`: **the arguments of a document**.
-/

namespace DocTree

/-- What a docstring documents: the arguments of a function or the attributes of a class. -/
inductive Mode where
  | function
  | attributes
  deriving DecidableEq, Repr

/-- What the blocks of a document give. -/
structure Collected where
  args : ArgMap
  returns : Option Returns
  otherSections : List OtherSection

section Collecting

variable (s : Settings)

/-! ## Types -/

/-- A class or a function on the whitelist is expanded, anything else stays as it is. -/
def expand (e : Entity) : Inquiry Entity :=
  match e with
  | .class c =>
    if s.isWhitelisted c.fullName then do return .expanded (← .tokenOf (.class c)) else return e
  | .function f =>
    if s.isWhitelisted f.fullName then do return .expanded (← .tokenOf (.function f)) else return e
  | _ => return e

/-- The type that one alternative names. -/
def alternativeType (ctx : Context) (alt : Alternative) : Inquiry Entity := do
  expand s (← .ofExcept (s.resolver.resolve ctx alt.type))

/-- The type that alternatives stand for. -/
def typeOf (ctx : Context) (alts : List Alternative) : Inquiry Entity := do
  return Entity.ofAlternatives (← alts.mapM (alternativeType s ctx))

/-- Read the body of a type field. -/
def readTypeBody (body : String) : Inquiry TypeBody :=
  .ofExcept ((TypeBody.read body).mapError .markup)

/-- What a type field says. The default is resolved before the types. -/
def typedOf (ctx : Context) (body : String) : Inquiry Typed := do
  match ← readTypeBody body with
  | .link [target] => return .link target none
  | .link [target, arg] => return .link target (some arg)
  | .link words => .fail (.malformedLink ctx.object (" ".intercalate words))
  | .alternatives alts =>
    let default ← .ofExcept
      ((TypeBody.alternatives alts).default?.mapM (s.resolver.resolve ctx))
    return .resolved (← typeOf s ctx alts) default

/-- The type of a result, which cannot be a link. -/
def returnTypeOf (ctx : Context) (body : String) : Inquiry Entity := do
  match ← readTypeBody body with
  | .link words => .fail (.malformedLink ctx.object (" ".intercalate words))
  | .alternatives alts => typeOf s ctx alts

/-! ## The first phase -/

/-- One field of the given name. -/
def addField (ctx : Context) (fs : Fields) (name : FieldName) (body : String) : Inquiry Fields :=
  match name with
  | .param name => .ofExcept (fs.addParam ctx.object name body)
  | .linkAll target => return fs.addLinkAll target
  | .type name => do
    let typed ← typedOf s ctx body
    .ofExcept (fs.addType ctx.object name typed)
  | .returns => .ofExcept (fs.addReturns ctx.object body)
  | .returnType =>
    if fs.hasReturnType then .fail (.duplicateField ctx.object "rtype")
    else do return fs.addReturnType (← returnTypeOf s ctx body)
  | .other name => return fs.addSection name body

/-- One block. -/
def addBlock (ctx : Context) (fs : Fields) (block : Block) : Inquiry Fields :=
  match block with
  | .paragraph _ => return fs
  | .field name body => do
    let name ← .ofExcept ((FieldName.classify name).mapError .markup)
    addField s ctx fs name body
  | .attr name typeBody body => do
    let fs ← .ofExcept (fs.addParam ctx.object name body)
    let typed ← typedOf s ctx typeBody
    .ofExcept (fs.addType ctx.object name typed)
  | .see [target] => return fs.addLinkAll target
  | .see target => .fail (.malformedLink ctx.object (" ".intercalate target))
  | .directive kind title body => return fs.addSection (if title.isEmpty then kind else title) body

/-! ## The second phase -/

/-- The arguments that a token offers to a docstring of the given mode. -/
def Token.argsFor (mode : Mode) : Token → ArgMap
  | .function doc => doc.args
  | .class doc =>
    match mode with
    | .attributes => doc.attributes
    | .function => doc.constructorArgs

/-- All arguments of the target of a link. -/
def linkAll (ctx : Context) (mode : Mode) (parent : Option ArgMap) (target : String) :
    Inquiry (List Arg) :=
  if target = selfName then
    match parent with
    | some parent => return parent.toList
    | none => .fail (.noParent ctx.object)
  else do
    match ← .ofExcept (s.resolver.resolve ctx target) with
    | .class c => return ((← .tokenOf (.class c)).argsFor mode).toList
    | .function f => return ((← .tokenOf (.function f)).argsFor mode).toList
    | _ => .fail (.invalidLinkTarget ctx.object target)

/-- The arguments of a slot. -/
def slotArgs (ctx : Context) (mode : Mode) (parent : Option ArgMap) : Slot → Inquiry (List Arg)
  | .linkAll target => linkAll s ctx mode parent target
  | .arg name draft =>
    match draft.typed with
    | some (.resolved type default) => do
      let made ← .ofExcept (Arg.make name type)
      return [{ made with description := draft.description, default := default }]
    | some (.link target arg) => do
      return [← .ofExcept (linkOne ctx.object name target arg draft.description parent)]
    | none => return []

/-- Append arguments, whose names must be free. -/
def appendArgs (object : String) (args : ArgMap) : List Arg → Except Error ArgMap
  | [] => .ok args
  | arg :: rest =>
    match args.insert? arg with
    | some args => appendArgs object args rest
    | none => .error (.duplicateViaLink object arg.name)

/-- One slot: its arguments follow those collected so far. -/
def addSlot (ctx : Context) (mode : Mode) (parent : Option ArgMap) (args : ArgMap)
    (slot : Slot) : Inquiry ArgMap := do
  let spliced ← slotArgs s ctx mode parent slot
  .ofExcept (appendArgs ctx.object args spliced)

/-- **The arguments of a document**, within the class whose attributes are `parent`. -/
def collect (ctx : Context) (mode : Mode) (parent : Option ArgMap) (doc : Document) :
    Inquiry Collected := do
  let fs ← doc.blocks.foldlM (addBlock s ctx) .empty
  let unmatched := fs.unmatched
  if !unmatched.isEmpty then .fail (.unmatched ctx.object unmatched)
  else
    let args ← fs.slots.foldlM (addSlot s ctx mode parent) .empty
    let returns := match mode with
      | .function => fs.returns
      | .attributes => none
    return ⟨args, returns, fs.otherSections⟩

end Collecting

end DocTree
