import DocTree.Markup.Error
import DocTree.Text.Basic

/-!
# Styles

The three dialects in which docstrings are written, and their names.
-/

namespace DocTree

/-- The dialect of a docstring. The two prose dialects are turned into field lists before the
docstring is read. -/
inductive Style where
  | rst
  | numpy
  | google
  deriving DecidableEq, Repr, Inhabited

namespace Style

def name : Style → String
  | rst => "rst"
  | numpy => "numpy"
  | google => "google"

/-- The style with the given name; the case of letters and white space around it do not matter. -/
def ofName (s : String) : Except MarkupError Style :=
  match Text.toLowerAscii (Text.trim s) with
  | "rst" | "rest" | "restructuredtext" => .ok rst
  | "numpy" => .ok numpy
  | "google" => .ok google
  | _ => .error (.unsupportedStyle s)

theorem ofName_name (st : Style) : ofName st.name = .ok st := by cases st <;> rfl

end Style

end DocTree
