import DocTree.Config
import DocTree.Datum.Reader

/-!
# Hosts and configurations from text

Manifests and configurations are written in flow notation.
-/

namespace DocTree

/-- The host of a manifest. That the manifest is well formed is checked before what it says. -/
def Host.ofDatum (d : Datum) : Except Error Host := do
  let manifest ← (Manifest.ofDatum d).mapError Error.data
  manifest.toHost.mapError Error.manifest

/-- The host of a manifest in written form. -/
def Host.ofText (text : String) : Except Error Host := do
  Host.ofDatum (← (Datum.read text).mapError Error.data)

/-- The configuration of a text. -/
def Config.ofText (text : String) : Except Error Config := do
  (Config.ofDatum (← (Datum.read text).mapError Error.data)).mapError Error.data

end DocTree
