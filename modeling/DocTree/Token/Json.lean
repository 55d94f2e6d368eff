import DocTree.Token.Basic
import DocTree.Value.Json

/-!
# Token trees in JSON

The JSON form of documentation. What is absent is left out, and an entity is an object with one
key that says what kind of entity it is.
-/

namespace DocTree

/-- A member, if there is a value. -/
def Json.member? (key : String) (value : Option Json) : List (String × Json) :=
  (value.map (key, ·)).toList

/-- The sections that are kept as they stand, unless there are none. -/
def OtherSection.members (sections : List OtherSection) : List (String × Json) :=
  if sections.isEmpty then []
  else [("other_sections",
    .arr (sections.map fun s => .obj [("name", .str s.name), ("body", .str s.body)]))]

mutual

def Entity.toJson : Entity → Json
  | .builtin b => .obj [("builtin", .str b.name)]
  | .value v => .obj [("value", v.toJson)]
  | .function f => .obj [("function", .str f.fullName)]
  | .class c => .obj [("class", .str c.fullName)]
  | .module path => .obj [("module", .str path)]
  | .union members => .obj [("multi", .arr (Entity.allToJson members))]
  | .expanded token => .obj [("parsed", token.toJson)]

def Entity.allToJson : List Entity → List Json
  | [] => []
  | e :: es => e.toJson :: Entity.allToJson es

def Entity.optionToJson : Option Entity → Option Json
  | none => none
  | some e => some e.toJson

def Arg.toJson : Arg → Json
  | ⟨name, type, description, default⟩ =>
    .obj ([("name", .str name), ("type", type.toJson)] ++
      Json.member? "description" (description.map .str) ++
      Json.member? "default" (Entity.optionToJson default))

def Arg.allToJson : List Arg → List (String × Json)
  | [] => []
  | arg :: args => (arg.name, arg.toJson) :: Arg.allToJson args

def ArgMap.toJson : ArgMap → Json
  | ⟨args⟩ => .obj (Arg.allToJson args)

def Returns.toJson : Returns → Json
  | ⟨name, type, description⟩ =>
    .obj (Json.member? "name" (name.map .str) ++
      Json.member? "type" (Entity.optionToJson type) ++
      Json.member? "description" (description.map .str))

def Returns.optionToJson : Option Returns → Option Json
  | none => none
  | some r => some r.toJson

def FunctionDoc.members : FunctionDoc → List (String × Json)
  | ⟨subject, description, args, returns, sections⟩ =>
    ("type", .str subject.fullName) :: Json.member? "description" (description.map .str) ++
      [("args", args.toJson)] ++ Json.member? "returns" (Returns.optionToJson returns) ++
      OtherSection.members sections

def FunctionDoc.optionToJson : Option FunctionDoc → Option Json
  | none => none
  | some doc => some (.obj doc.members)

def FunctionDoc.allToJson : List (String × FunctionDoc) → List (String × Json)
  | [] => []
  | (name, doc) :: docs => (name, .obj doc.members) :: FunctionDoc.allToJson docs

def FunctionDoc.mapToJson : NameMap FunctionDoc → Json
  | ⟨entries⟩ => .obj (FunctionDoc.allToJson entries)

def FunctionDoc.mapOptionToJson : Option (NameMap FunctionDoc) → Option Json
  | none => none
  | some docs => some (FunctionDoc.mapToJson docs)

def ClassDoc.members : ClassDoc → List (String × Json)
  | ⟨subject, description, attributes, init, methods, sections⟩ =>
    ("type", .str subject.fullName) :: Json.member? "description" (description.map .str) ++
      [("attributes", attributes.toJson)] ++
      Json.member? "init" (FunctionDoc.optionToJson init) ++
      Json.member? "methods" (FunctionDoc.mapOptionToJson methods) ++
      OtherSection.members sections

/-- **The JSON form of a token tree.** -/
def Token.toJson : Token → Json
  | .function doc => .obj (("kind", .str "function") :: doc.members)
  | .class doc => .obj (("kind", .str "class") :: doc.members)

end

end DocTree
