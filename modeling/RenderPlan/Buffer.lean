import RenderPlan.Names.Table

/-!
# Attribute buffers

A model is a named collection of attribute buffers. Where a buffer's contents come from decides
what a renderer has to prepare: server buffers are fetched, index buffers call for an index look-up.

## Main definitions

* `Buffer.Origin`, `IndexLookup`, `Component`, `ElementLayout`, `Buffer`, `Model`.
* `Model.addAttribute`: adding an attribute keeps one already present.
-/

namespace RenderPlan

/-- An index look-up that a renderer prepares for picking: by vertex or by edge. -/
inductive IndexLookup where
  | vertex
  | edge
deriving DecidableEq

namespace IndexLookup

/-- The stable number of a look-up. -/
def number : IndexLookup → Nat
  | .vertex => 1
  | .edge => 2

instance : LT IndexLookup := ⟨fun a b => a.number < b.number⟩

/-- Look-ups are ordered by their numbers. -/
theorem lt_iff {a b : IndexLookup} : a < b ↔ a.number < b.number := Iff.rfl

end IndexLookup

/-- Where the contents of a buffer are produced. -/
inductive Buffer.Origin where
  /-- Built by the client and never refreshed. -/
  | localStatic
  /-- Produced by the server from host memory. -/
  | serverHost
  /-- Produced by the server on the device. -/
  | serverDevice
  /-- One index per vertex. -/
  | vertexIndex
  /-- One index per edge. -/
  | edgeIndex
deriving DecidableEq

namespace Buffer.Origin

/-- The buffer has to be fetched from the server. -/
def isServer : Origin → Bool
  | .serverHost | .serverDevice => true
  | _ => false

theorem isServer_iff {origin : Origin} :
    origin.isServer = true ↔ origin = .serverHost ∨ origin = .serverDevice := by
  cases origin <;> simp [isServer]

/-- The index look-up that the buffer calls for. -/
def indexLookup? : Origin → Option IndexLookup
  | .vertexIndex => some .vertex
  | .edgeIndex => some .edge
  | _ => none

end Buffer.Origin

/-- The scalar type of one component of an element. -/
inductive Component where
  | float
  | unsignedByte
  | unsignedShort
  | unsignedInt
deriving DecidableEq

namespace Component

/-- Size of one component in bytes. -/
def byteSize : Component → Nat
  | .unsignedByte => 1
  | .unsignedShort => 2
  | .float | .unsignedInt => 4

end Component

/-- The layout of one element of a buffer. -/
structure ElementLayout where
  component : Component
  count : UInt8
  normalized : Bool := false
deriving DecidableEq

namespace ElementLayout

/-- Size of one element in bytes. -/
def stride (l : ElementLayout) : Nat := l.component.byteSize * l.count.toNat

end ElementLayout

/-- An attribute buffer that can be bound for drawing. -/
structure Buffer where
  origin : Buffer.Origin
  layout : ElementLayout
deriving DecidableEq

/-- The attribute buffers of a model, by attribute name. -/
abbrev Model : Type := NameTable Buffer

namespace Model

/-- Adds an attribute unless it is present, and says whether it was added. -/
def addAttribute (m : Model) (name : String) (buffer : Buffer) : Bool × Model :=
  (!m.contains name, m.insertNew name buffer)

end Model

end RenderPlan
