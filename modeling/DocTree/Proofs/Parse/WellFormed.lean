import DocTree.Proofs.Parse.Law
import DocTree.Proofs.Token.Unions

/-!
# Every token is well formed

Arguments come from fields, from attribute blocks, by links that rename them and by links that copy
all of another object's, and methods may be added to a finished class. Whatever the way, the token
that a request gives is well formed throughout.

* `Token.HasToken`: the token itself, and those that stand as types in its tree;
* `Token.WellFormed`: names, constructors, unions and defaults are as they should be **in the whole
  tree**;
* **`tokens_wellFormed`**: the answer to any request is of this kind.
-/

namespace DocTree

/-- The second token is the first, or stands as a type somewhere in its tree. -/
def Token.HasToken (token u : Token) : Prop := u = token ∨ token.TypeAt (.expanded u)

/-- What the whole tree of a token is like. -/
structure Token.WellFormed (token : Token) : Prop where
  /-- The names of arguments and attributes are identifiers and all different. -/
  named : ∀ u, token.HasToken u → ∀ m ∈ u.argMaps, m.IsNamed
  /-- The parameters of a constructor are among the arguments that build an instance. -/
  covers : ∀ doc, token.HasToken (.class doc) → doc.CoversConstructor
  /-- A union has two or more members, no two the same, and none of them a union. -/
  unions : ∀ members, token.TypeAt (.union members) → Entity.AreMembers members
  /-- Neither a union nor a token is a default. -/
  defaults : ∀ d, token.DefaultAt d → d.isSimple = true

/-! ## The law -/

/-- Unions have members as they should, and defaults are simple. -/
def formLaw : Law where
  type e := ∀ members, e = .union members → Entity.AreMembers members
  default d := d.isSimple = true

theorem formLaw_holds (s : Settings) : formLaw.Holds s where
  resolved he _ members h := absurd h (Entity.ne_union_of_isSimple (resolve_isSimple he) members)
  expanded _ := fun _ h => nomatch h
  union hne hflat hmany members h := by
    obtain rfl := Entity.union.inj h
    exact Entity.areMembers_unionMembers hne hflat hmany
  default he := resolve_isSimple he

theorem Token.Follows.isSound {L : Law} {token u : Token} (h : token.Follows L)
    (hu : token.HasToken u) : u.IsSound L := by
  rcases hu with rfl | hu
  · exact h.1
  · exact h.of_embedded hu

theorem Token.Follows.wellFormed {token : Token} (h : token.Follows formLaw) :
    token.WellFormed where
  named _ hu := (h.isSound hu).named
  covers _ hdoc := (h.isSound hdoc).covers
  unions members hat := h.of_typeAt hat members rfl
  defaults d hd := by
    rcases hd with hd | ⟨u, hu, hd⟩
    · exact h.1.defaults d hd
    · exact (h.of_embedded hu).defaults d hd

/-! ## Requests -/

/-- **Every token is well formed.** Whatever a parser was asked before, the answer to a request is
well formed throughout. Only the request for a function can come with attributes of an enclosing
class, and then what is given has to follow the same law. -/
theorem tokens_wellFormed (s : Settings) (requests : List Request) (r : Request) (token : Token)
    (hparent : ParentFollows formLaw r.parent?)
    (h : (((Parser.new s).afterRequests requests).serve r).1 = .ok token) : token.WellFormed :=
  (serve_follows (formLaw_holds s) requests r hparent h).wellFormed

namespace Sample

def shift : Function :=
  ⟨"m", "Point.shift", some ":param see self:\n:param by: How far.\n:type by: C", some ["x", "by"]⟩

/-- A class whose constructor takes its attribute and any number of values besides. -/
def point : Class :=
  ⟨"m", "Point", some "A point.\n\n.. attribute:: x\n    :type: int | str | int = 0",
    some ⟨"m", "Point.__init__", some ":param see self:", some ["x", "*rest"]⟩,
    NameMap.empty.insert "shift" (.function shift), [], none⟩

/-- A parser that expands one class and has finished another one. -/
def pointParser : Parser :=
  (Parser.new { settings with whitelist := ["m.C"] }).afterRequests
    [.object ⟨.class point, [], 0⟩]

/-- A method is asked for when its class is finished already. -/
theorem tokens_wellFormed_of_point :
    ∃ token, (pointParser.serve (.object ⟨.class point, ["shift"], 0⟩)).1 = .ok token ∧
      token.argMaps.map ArgMap.names = [["x"], ["x"], ["x", "by"]] ∧
      token.types.map Entity.display = ["int | str", "int | str", "int | str", "m.C"] ∧
      token.WellFormed := by
  have hserve : (pointParser.serve (.object ⟨.class point, ["shift"], 0⟩)).1.toOption.map
      (fun token => (token.argMaps.map ArgMap.names, token.types.map Entity.display)) =
        some ([["x"], ["x"], ["x", "by"]],
          ["int | str", "int | str", "int | str", "m.C"]) := by decide +kernel
  cases hanswer : (pointParser.serve (.object ⟨.class point, ["shift"], 0⟩)).1 with
  | error e =>
    rw [hanswer] at hserve
    cases hserve
  | ok token =>
    rw [hanswer] at hserve
    obtain ⟨hnames, htypes⟩ := Prod.mk.inj (Option.some.inj hserve)
    exact ⟨token, rfl, hnames, htypes,
      tokens_wellFormed _ _ _ token parentFollows_none hanswer⟩

end Sample

end DocTree
