import DocTree.Error
import DocTree.Token.Basic

/-!
# Inquiries

What a docstring says depends on other objects: on those it links to, and on those it names as
types that are expanded. An inquiry is the reading of a docstring with these questions left open.

* `Inquiry`: a result, an error, or a question for the token of an object and how to go on;
* `Inquiry.run`: **putting the questions to `need`**, in any monad that knows the errors.
-/

namespace DocTree

/-- A computation that may fail and that asks for the tokens of objects on the way. -/
inductive Inquiry (α : Type) where
  | done (a : α)
  | fail (e : Error)
  /-- Ask for the token of an object and go on with it. -/
  | ask (o : Object) (next : Token → Inquiry α)

namespace Inquiry

variable {α β : Type}

protected def bind : Inquiry α → (α → Inquiry β) → Inquiry β
  | done a, f => f a
  | fail e, _ => fail e
  | ask o next, f => ask o fun token => (next token).bind f

instance : Monad Inquiry where
  pure := done
  bind := Inquiry.bind

theorem bind_done (p : Inquiry α) : p.bind done = p := by
  induction p with
  | done a => rfl
  | fail e => rfl
  | ask o next ih => exact congrArg (ask o) (funext ih)

theorem bind_bind {γ : Type} (p : Inquiry α) (f : α → Inquiry β) (g : β → Inquiry γ) :
    (p.bind f).bind g = p.bind fun a => (f a).bind g := by
  induction p with
  | done a => rfl
  | fail e => rfl
  | ask o next ih => exact congrArg (ask o) (funext ih)

instance : LawfulMonad Inquiry := .mk' Inquiry bind_done (fun _ _ => rfl) bind_bind

/-- A computation that asks for nothing. -/
def ofExcept : Except Error α → Inquiry α
  | .ok a => done a
  | .error e => fail e

/-- The token of an object. -/
def tokenOf (o : Object) : Inquiry Token := ask o done

/-- Put the questions to `need`. -/
def run {m : Type → Type} [Monad m] [MonadExceptOf Error m] (need : Object → m Token) :
    Inquiry α → m α
  | done a => pure a
  | fail e => throw e
  | ask o next => do run need (next (← need o))

end Inquiry

end DocTree
