import DocTree.Markup.Document
import DocTree.Markup.Google
import DocTree.Markup.Numpy
import DocTree.Markup.Style

/-!
# From docstring to document

The whole way from a raw docstring in any style to its document: `normalize`.
-/

namespace DocTree

/-- The lines in field markup. Only section headers mean anything to a prose dialect; all other
lines stay as they are. -/
def Style.toFields : Style → List String → List String
  | rst, ls => ls
  | numpy, ls => Numpy.toFields ls
  | google, ls => Google.toFields ls

/-- **The document of a raw docstring.** -/
def normalize (style : Style) (raw : String) : Except MarkupError Document :=
  Document.ofLines (style.toFields (Text.prepare raw))

end DocTree
