import DocTree.Error
import DocTree.Text.Basic
import DocTree.Token.Basic

/-!
# Drafts of arguments

The first phase of collecting the arguments of a docstring: its fields fill drafts, one for each
name, in the order in which the names first occur.

* `Typed`, `Draft`, `Slot`: what is known of an argument, and the places of linked sets;
* `Fields.addParam`, `Fields.addType`: one more field;
* `Fields.unmatched`: the names whose fields do not pair up.
-/

namespace DocTree

/-- What a type field says. -/
inductive Typed where
  | resolved (type : Entity) (default : Option Entity)
  /-- The field `see target` or `see target arg`. -/
  | link (target : String) (arg : Option String)

/-- What is known of an argument. -/
structure Draft where
  hasParam : Bool
  description : Option String
  typed : Option Typed

def Draft.empty : Draft := ⟨false, none, none⟩

/-- A place in the list of arguments. -/
inductive Slot where
  | arg (name : String) (draft : Draft)
  /-- All arguments of the target stand here. -/
  | linkAll (target : String)

/-- Change the draft of a name, a new one at the end if there is none yet. -/
def updateDraft (name : String) (f : Draft → Except Error Draft) :
    List Slot → Except Error (List Slot)
  | [] => (f .empty).map fun draft => [.arg name draft]
  | .arg n draft :: rest =>
    if n = name then (f draft).map fun draft => .arg n draft :: rest
    else (updateDraft name f rest).map (.arg n draft :: ·)
  | .linkAll target :: rest => (updateDraft name f rest).map (.linkAll target :: ·)

/-- What the fields of a docstring say. -/
structure Fields where
  slots : List Slot
  returns : Option Returns
  hasReturns : Bool
  hasReturnType : Bool
  otherSections : List OtherSection

namespace Fields

def empty : Fields := ⟨[], none, false, false, []⟩

/-- The documented result, empty if nothing is known of it yet. -/
def returnsSoFar (fs : Fields) : Returns := fs.returns.getD ⟨none, none, none⟩

/-- A description field. A name has at most one. -/
def addParam (object name body : String) (fs : Fields) : Except Error Fields := do
  let slots ← updateDraft name (fun draft =>
    if draft.hasParam then .error (.duplicateParam object name)
    else .ok { draft with hasParam := true, description := Text.nonBlank? body }) fs.slots
  return { fs with slots := slots }

/-- A type field. A name has at most one. -/
def addType (object name : String) (typed : Typed) (fs : Fields) : Except Error Fields := do
  let slots ← updateDraft name (fun draft =>
    if draft.typed.isSome then .error (.duplicateType object name)
    else .ok { draft with typed := some typed }) fs.slots
  return { fs with slots := slots }

/-- A place for all arguments of a target. -/
def addLinkAll (target : String) (fs : Fields) : Fields :=
  { fs with slots := fs.slots ++ [.linkAll target] }

/-- The description of the result. There is at most one. -/
def addReturns (object body : String) (fs : Fields) : Except Error Fields :=
  if fs.hasReturns then .error (.duplicateField object "returns")
  else .ok { fs with
    hasReturns := true
    returns := some { fs.returnsSoFar with
      name := some "returns", description := Text.nonBlank? body } }

/-- The type of the result. -/
def addReturnType (type : Entity) (fs : Fields) : Fields :=
  { fs with hasReturnType := true, returns := some { fs.returnsSoFar with type := some type } }

def addSection (name body : String) (fs : Fields) : Fields :=
  { fs with otherSections := fs.otherSections ++ [⟨name, body⟩] }

/-- The name of a slot that lacks one of its two fields. A link stands for both. -/
def unmatchedName? : Slot → Option String
  | .linkAll _ => none
  | .arg name draft =>
    match draft.typed with
    | none => some name
    | some (.resolved _ _) => if draft.hasParam then none else some name
    | some (.link _ _) => none

/-- The names whose fields do not pair up, in order. -/
def unmatched (fs : Fields) : List String := fs.slots.filterMap unmatchedName?

end Fields

end DocTree
