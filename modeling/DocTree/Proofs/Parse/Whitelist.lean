import DocTree.Proofs.Parse.Law

/-!
# Expansion follows the whitelist

A class or a function that stands as a type is expanded if and only if its name is on the whitelist.
Types come to a token by its own fields, by links and with the tokens of other objects, so this is
said of whole trees.

* `Settings.Expands`, `Token.Obeys`: a type that follows the whitelist, and a token that does so
  everywhere;
* `Settings.expansionLaw`: the law of which `serve_follows` is put to use;
* **`expansion_follows_whitelist`**: the token of any request follows the whitelist, and **no
  default is expanded**.
-/

namespace DocTree

/-- Whether the entity is the documentation of an object in full. -/
def Entity.isExpanded : Entity → Bool
  | .expanded _ => true
  | _ => false

/-- A class or a function is expanded if and only if its name is on the whitelist. -/
def Settings.Expands (s : Settings) (e : Entity) : Prop :=
  ∀ name, e.qualifiedName? = some name → e.isExpanded = s.isWhitelisted name

/-- No default of the token is expanded. -/
def Token.HasPlainDefaults (token : Token) : Prop := ∀ d ∈ token.defaults, d.isExpanded = false

/-- All types in the tree follow the whitelist, and no default in it is expanded. -/
def Token.Obeys (s : Settings) (token : Token) : Prop :=
  token.Everywhere s.Expands Token.HasPlainDefaults

/-! ## The law -/

/-- A class or a function is expanded if and only if its name is on the whitelist, and no default
is expanded. -/
def Settings.expansionLaw (s : Settings) : Law where
  type := s.Expands
  default d := d.isExpanded = false

theorem Entity.isExpanded_of_isSimple {e : Entity} (h : e.isSimple = true) :
    e.isExpanded = false := by
  cases e with
  | expanded _ => cases h
  | _ => rfl

theorem Settings.expansionLaw_holds (s : Settings) : s.expansionLaw.Holds s where
  resolved he hw name hname :=
    (Entity.isExpanded_of_isSimple (resolve_isSimple he)).trans (hw name hname).symm
  expanded {token} hw name hname := by
    obtain rfl : token.qualifiedName = name := Option.some.inj hname
    exact hw.symm
  union _ _ _ := fun _ h => nomatch h
  default he := Entity.isExpanded_of_isSimple (resolve_isSimple he)

/-- The attributes of the enclosing class follow the whitelist. -/
def ParentObeys (s : Settings) (parent : Option ArgMap) : Prop :=
  ParentFollows s.expansionLaw parent

theorem parentObeys_none {s : Settings} : ParentObeys s none := parentFollows_none

/-! ## Requests -/

/-- The answer to any request follows the whitelist, if the attributes that it gives do. -/
theorem serve_obeys (s : Settings) (requests : List Request) (r : Request) {token : Token}
    (hparent : ParentObeys s r.parent?)
    (h : (((Parser.new s).afterRequests requests).serve r).1 = .ok token) : token.Obeys s :=
  (serve_follows s.expansionLaw_holds requests r hparent h).mono (fun _ h => h)
    fun _ hsound => hsound.defaults

/-- **Expansion follows the whitelist exactly.** Whatever a parser was asked before, at every type
position in the tree of a token that it returns, a class or a function is expanded if and only if
its name is on the whitelist, and no default in the tree is expanded. -/
theorem expansion_follows_whitelist (s : Settings) (requests : List Request) (c : Call)
    (token : Token) (h : (((Parser.new s).afterRequests requests).call c).1 = .ok token) :
    (∀ e name, token.TypeAt e → e.qualifiedName? = some name →
      e.isExpanded = s.isWhitelisted name) ∧
    ∀ d, token.DefaultAt d → d.isExpanded = false := by
  have htoken : token.Obeys s := serve_obeys s requests (.object c) parentObeys_none h
  refine ⟨fun e name he => htoken.of_typeAt he name, fun d hd => ?_⟩
  rcases hd with hd | ⟨u, hu, hd⟩
  · exact htoken.1 d hd
  · exact htoken.of_embedded hu d hd

namespace Sample

def whitelisting : Settings := { settings with whitelist := ["m.C"] }

/-- A function whose argument is of one of two types. -/
def chooser : Function := ⟨"m", "t", some ":param a: One.\n:type a: C | p = 1", some ["a"]⟩

/-- The class on the whitelist is expanded and the function is not. -/
theorem expansion_follows_whitelist_of_union :
    ∃ token, (((Parser.new whitelisting).afterRequests
        [.class cls ["run"] 0, .object ⟨.function user, [], 0⟩]).call
          ⟨.function chooser, [], 0⟩).1 = .ok token ∧
      token.types.map Entity.display = ["m.C | m.p"] ∧
      (∀ e name, token.TypeAt e → e.qualifiedName? = some name →
        e.isExpanded = whitelisting.isWhitelisted name) ∧
      ∀ d, token.DefaultAt d → d.isExpanded = false := by
  have hparse : ((((Parser.new whitelisting).afterRequests
      [.class cls ["run"] 0, .object ⟨.function user, [], 0⟩]).call
        ⟨.function chooser, [], 0⟩).1.toOption.map fun token =>
          token.types.map Entity.display) = some ["m.C | m.p"] := by decide +kernel
  cases hcall : (((Parser.new whitelisting).afterRequests
      [.class cls ["run"] 0, .object ⟨.function user, [], 0⟩]).call
        ⟨.function chooser, [], 0⟩).1 with
  | error e =>
    rw [hcall] at hparse
    cases hparse
  | ok token =>
    rw [hcall] at hparse
    exact ⟨token, rfl, Option.some.inj hparse, expansion_follows_whitelist whitelisting
      [.class cls ["run"] 0, .object ⟨.function user, [], 0⟩] ⟨.function chooser, [], 0⟩ token
      hcall⟩

end Sample

end DocTree
