import DocTree.Markup.Normalize
import DocTree.Parse.Collect

/-!
# Parsing objects

From a class or a function of a host to its token.

* `parseFunction`, `parseClass`, `parseMethods`: the inquiry into one object;
* `parseWith`: answering it and keeping the token, given how other objects are parsed;
* `addMethods`: methods that are asked for when the class is finished already;
* `parseWithin`: an object, with links nested within bounds. **All recursion is here**: each link
  and each expansion spends one level;
* `parseObject`: the same, in terms of the depth reached and the recursion limit.
-/

namespace DocTree

/-- The parameters that must be documented and are not; those with an asterisk need not be. -/
def undocumented (params : List String) (args : ArgMap) : List String :=
  params.filter fun p => p.toList.head? != some '*' && !args.contains p

/-- Refuse undocumented parameters of a constructor. -/
def requireDocumented (object : String) (params : List String) (args : ArgMap) :
    Except Error Unit :=
  match undocumented params args with
  | [] => .ok ()
  | names => .error (.missingConstructorArgs object names)

/-- Whether a function is known to take nothing. -/
def Function.takesNothing (f : Function) : Bool := f.params.any (·.isEmpty)

/-- The document of a docstring, which needs fields unless `mayLackFields`. -/
def readDoc (style : Style) (object : String) (doc : Option String) (mayLackFields : Bool) :
    Except Error Document :=
  match doc with
  | none => .error (.missingDocstring object)
  | some raw =>
    match normalize style raw with
    | .error e => .error (.markup e)
    | .ok document =>
      if document.hasFields || mayLackFields then .ok document else .error (.noFields object)

section Objects

variable (s : Settings)

/-! ## Inquiries -/

/-- The documentation of a function, within the class whose attributes are `parent`. -/
def parseFunction (f : Function) (parent : Option ArgMap) : Inquiry FunctionDoc := do
  let name := f.fullName
  let doc ← .ofExcept (readDoc s.style name f.doc f.takesNothing)
  let collected ← collect s ⟨f.module, name⟩ .function parent doc
  return {
    subject := f
    description := doc.description
    args := collected.args
    returns := collected.returns
    otherSections := collected.otherSections }

/-- The documentation of one method. -/
def parseMethod (c : Class) (attributes : ArgMap) (method : String) : Inquiry FunctionDoc :=
  match c.member? method with
  | some (.function f) => parseFunction s f (some attributes)
  | some _ => .fail (.notCallable c.fullName method)
  | none => .fail (.missingMethod c.fullName method)

/-- Add the documentation of the given methods to `into`. -/
def parseMethods (c : Class) (attributes : ArgMap) (methods : List String)
    (into : NameMap FunctionDoc) : Inquiry (NameMap FunctionDoc) :=
  methods.foldlM (fun docs method => do
    return docs.insert method (← parseMethod s c attributes method)) into

/-- The documentation of a constructor. A record has a generated one, which takes the fields; they
are documented as attributes. -/
def parseInit (c : Class) (attributes : ArgMap) : Inquiry (Option FunctionDoc) :=
  if c.isRecord then do
    .ofExcept (requireDocumented c.fullName (c.fields.getD []) attributes)
    return none
  else match c.init with
    | none => return none
    | some init => do
      let doc ← parseFunction s init (some attributes)
      .ofExcept (requireDocumented c.fullName (init.params.getD []) doc.args)
      return some doc

/-- The documentation of a class and of the given methods. -/
def parseClass (c : Class) (methods : List String) : Inquiry ClassDoc := do
  let name := c.fullName
  let doc ← .ofExcept (readDoc s.style name c.doc (c.init.all (·.takesNothing)))
  let collected ← collect s ⟨c.module, name⟩ .attributes none doc
  let init ← parseInit s c collected.args
  let methods ←
    if methods.isEmpty then pure none
    else some <$> parseMethods s c collected.args methods .empty
  return {
    subject := c
    description := doc.description
    attributes := collected.args
    init := init
    methods := methods
    otherSections := collected.otherSections }

/-- The inquiry into an object and the given methods. -/
def inquire (o : Object) (methods : List String) : Inquiry Token :=
  match o with
  | .class c => .class <$> parseClass s c methods
  | .function f => .function <$> parseFunction s f none
  | .module path => .fail (.notParsable path o.kind)
  | .value v => .fail (.notParsable v.display o.kind)

/-! ## Answers -/

-- How an object that is needed on the way is parsed.
variable (need : Object → ParseM Token)

/-- The methods of the list that the documentation of a class lacks. -/
def ClassDoc.missingMethods (doc : ClassDoc) (methods : List String) : List String :=
  methods.filter fun method => !doc.methods.any (·.contains method)

/-- A finished class may have been parsed before all its methods were asked for: parse the missing
ones against its attributes, and record the token with them. -/
def addMethods (c : Class) (methods : List String) (token : Token) : ParseM Token :=
  match token with
  | .function _ => return token
  | .class doc =>
    let missing := doc.missingMethods methods
    if missing.isEmpty then return token
    else do
      let docs ← (parseMethods s c doc.attributes missing (doc.methods.getD .empty)).run need
      let token := Token.class { doc with methods := some docs }
      record c.fullName token
      return token

/-- The token of an object and of the given methods. -/
def parseWith (o : Object) (methods : List String) : ParseM Token :=
  match o with
  | .class c => do
    let token ← tracked c.fullName ((inquire s o methods).run need)
    addMethods s need c methods token
  | .function f => tracked f.fullName ((inquire s o methods).run need)
  | _ => (inquire s o methods).run need

end Objects

/-! ## Levels -/

/-- The token of an object, with links nested within the given number of levels. -/
def parseWithin (s : Settings) : Nat → Object → List String → ParseM Token
  | 0, _, _ => throw (.recursionLimit (s.recursionLimit + 1) s.recursionLimit)
  | levels + 1, o, methods => parseWith s (fun o => parseWithin s levels o []) o methods

/-- How an object is parsed that is needed at the given depth. -/
def needAt (s : Settings) (depth : Nat) (o : Object) : ParseM Token :=
  parseWithin s (s.recursionLimit - depth) o []

/-- Refuse a depth above the limit. -/
def checkDepth (s : Settings) (depth : Nat) : Except Error Unit :=
  if s.recursionLimit < depth then .error (.recursionLimit depth s.recursionLimit) else .ok ()

/-- **The token of an object that is reached at the given depth.** -/
def parseObject (s : Settings) (depth : Nat) (o : Object) (methods : List String) :
    ParseM Token := do
  ParseM.ofExcept (checkDepth s depth)
  parseWith s (needAt s depth) o methods

end DocTree
