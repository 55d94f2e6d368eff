import DocTree.Datum.Decode
import DocTree.Parse.Parser

/-!
# Configurations

What to parse of a host, and how.

* `Config`: the settings, each with a default (`Config.standard`);
* `Config.ofDatum`: decoding. A key that a configuration does not have is refused, and where a text
  is wanted any scalar gives one;
* `Config.parse`: **the token of the entry object of a configuration**.
-/

namespace DocTree

/-- What to parse, and how. -/
structure Config where
  style : Style
  /-- The path of the entry object. -/
  main : Option String
  /-- The full names of the classes and functions to expand. -/
  whitelist : List String
  /-- The methods of the entry object to parse with it. -/
  methods : List String
  recursionLimit : Nat
  /-- The paths of the objects that aliases stand for. -/
  imports : NameMap String

namespace Config

/-- The settings that count where a configuration says nothing. -/
def standard : Config := ⟨.rst, none, [], [], defaultRecursionLimit, .empty⟩

/-- The keys of a configuration. -/
def keys : List String := ["style", "main", "whitelist", "methods", "recursion_limit", "imports"]

/-! ## Decoding -/

section Decoding

open Datum

/-- Decode the name of a style. -/
def styleOfDatum (d : Datum) : Except DataFault Style := do
  match Style.ofName (← d.asText) with
  | .ok style => .ok style
  | .error e => .error (.invalid e.message)

/-- Decode a configuration. -/
def ofDatum (d : Datum) : Except DataFault Config := do
  let entries ← d.asEntries
  onlyKeys entries keys
  return {
    style := ← orElse entries "style" standard.style styleOfDatum
    main := ← optional entries "main" asText
    whitelist := ← orElse entries "whitelist" standard.whitelist (asListOf asText)
    methods := ← orElse entries "methods" standard.methods (asListOf asText)
    recursionLimit := ← orElse entries "recursion_limit" standard.recursionLimit asUInt64
    imports := .ofList (← orElse entries "imports" [] (asMapTo asText)) }

end Decoding

/-! ## Parsing -/

/-- The parser that a configuration describes. It fails at an import that leads nowhere. -/
def parser (config : Config) (host : Host) : Except Error Parser := do
  let scope ← Scope.ofImports host config.imports
  return ((((Parser.ofHost host).withStyle config.style).withWhitelist config.whitelist)
    |>.withRecursionLimit config.recursionLimit).withScope scope

/-- The entry object of a configuration. -/
def entry (config : Config) (host : Host) : Except Error Object :=
  match config.main with
  | none => .error (.config .noMain)
  | some main =>
    match host.lookup? main with
    | some object => .ok object
    | none => .error (.unknownObject main)

/-- **The token of the entry object.** That there is one is checked before the imports are. -/
def parse (config : Config) (host : Host) : Except Error Token := do
  let object ← config.entry host
  let parser ← config.parser host
  (parser.parseWithMethods object config.methods).1

end Config

end DocTree
