import DocTree.Markup.Error
import DocTree.Text.Scan

/-!
# Type bodies

The body of a type field: alternatives between bars, the last of them with an optional default, as
in `int | float = 3`; or a link, `see` and the words that name its target.
-/

namespace DocTree

open Text

/-- One alternative of a type. -/
structure Alternative where
  type : String
  /-- Only the last alternative of a type body has one. -/
  default : Option String
  deriving DecidableEq, Repr

/-- What the body of a type field says. -/
inductive TypeBody where
  | alternatives (alts : List Alternative)
  | link (target : List String)
  deriving DecidableEq, Repr

namespace TypeBody

/-- The default of the last alternative. -/
def default? : TypeBody → Option String
  | alternatives alts => alts.getLast?.bind (·.default)
  | link _ => none

/-- Read one alternative of `body`. -/
def readAlternative (body : String) (isLast : Bool) (part : List Char) :
    Except MarkupError Alternative :=
  match cutAssignment part with
  | none => .error (.unbalanced body)
  | some cut =>
    let type := trim (.ofList (cut.elim part (·.1)))
    let default := cut.map fun (_, value) => trim (.ofList value)
    if type.isEmpty then .error (.emptyType body)
    else if default.isSome && !isLast then .error (.misplacedDefault body)
    else if default.any (·.isEmpty) then .error (.emptyDefault body)
    else .ok ⟨type, default⟩

/-- Read the alternatives of `body` one by one; the first fault counts. -/
def readAlternatives (body : String) : List (List Char) → Except MarkupError (List Alternative)
  | [] => .ok []
  | part :: parts => do
    let alt ← readAlternative body parts.isEmpty part
    return alt :: (← readAlternatives body parts)

/-- **Reading a type body.** -/
def read (text : String) : Except MarkupError TypeBody :=
  let body := trim text
  match words body with
  | ["see"] => .error (.missingLinkTarget body)
  | "see" :: target => .ok (.link target)
  | _ =>
    match splitTop '|' body.toList with
    | none => .error (.unbalanced body)
    | some parts => (readAlternatives body parts).map .alternatives

end TypeBody

end DocTree
