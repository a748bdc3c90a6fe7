import RenderPlan.Library
import RenderPlan.Schema.Documents

/-!
# Loading documents

A document is loaded from the contents of a file. It fails to load when the file cannot be read,
when its text is no document, or when the document does not resolve.

## Main definitions

* `LoadError`.
* `Document.ofFile`, `Document.Parts.ofFile`, `Document.Parts.library`.
-/

namespace RenderPlan

/-- Why a document does not load. -/
inductive LoadError where
  /-- The file cannot be read as text. -/
  | unreadableFile (path : String)
  /-- The text is no document. -/
  | malformed
  /-- The document does not resolve. -/
  | unresolved (fault : Document.Fault)
deriving DecidableEq

namespace LoadError

/-- The wording of the error. -/
def message : LoadError → String
  | .unreadableFile path => "failed to read catalog file `" ++ path ++ "`"
  | .malformed => "malformed catalog document"
  | .unresolved fault => fault.message

end LoadError

namespace Document

/-- The document of a text. -/
def ofText (text : String) : Except LoadError Document :=
  match read? text with
  | none => .error .malformed
  | some document => .ok document

/-- The document in a file, given the file's contents if it can be read as text. -/
def ofFile (path : String) (contents : Option String) : Except LoadError Document :=
  match contents with
  | none => .error (.unreadableFile path)
  | some text => ofText text

/-- The catalogs and scenes of a text. -/
def Parts.ofText (text : String) : Except LoadError Parts := do
  let document ← Document.ofText text
  document.resolve.mapError .unresolved

/-- The catalogs and scenes of the document in a file. -/
def Parts.ofFile (path : String) (contents : Option String) : Except LoadError Parts := do
  let document ← Document.ofFile path contents
  document.resolve.mapError .unresolved

/-- The library of catalogs and scenes, the catalogs being its first allocation. -/
def Parts.library (parts : Parts) : Library := .ofParts ⟨0, parts.catalogs⟩ parts.scenes

end Document

end RenderPlan
