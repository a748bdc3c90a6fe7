import RenderPlan.Number.Rounding
import RenderPlan.Uniform

/-!
# Uniform stores

A render loop owns a store of uniform values, one slot for each uniform of each item. The store
starts from the declared values and is written every frame; a write has to match the shape of the
slot.

## Main definitions

* `UniformStore`, `UniformStore.ofDefaults`.
* `UniformStore.set`, `setEverywhere`, `reset`: the writes.
* `UniformStore.values?`, `bytes?`: the current values, and the bytes to upload.
-/

namespace RenderPlan

/-- The value of one uniform of one item. -/
structure UniformStore.Slot where
  shape : Uniform.Shape
  defaults : List Binary32
  values : List Binary32
deriving DecidableEq, BEq

/-- The current uniform values, by item and uniform. -/
structure UniformStore where
  items : NameTable (NameTable UniformStore.Slot)
deriving DecidableEq, BEq

/-- Why a write is refused. -/
inductive UniformError where
  | unknownSlot (item uniform : String)
  | arity (uniform : String) (expected got : Nat)
deriving DecidableEq

namespace UniformError

/-- The wording of a refusal. -/
def message : UniformError → String
  | .unknownSlot item uniform => "item `" ++ item ++ "` has no uniform `" ++ uniform ++ "`"
  | .arity uniform expected got =>
    "uniform `" ++ uniform ++ "` expects " ++ toString expected ++ " values, got " ++ toString got

end UniformError

namespace UniformStore

/-- The four bytes of a 32-bit number, the least significant first. -/
def littleEndian (n : Nat) : List UInt8 :=
  [n, n / 2 ^ 8, n / 2 ^ 16, n / 2 ^ 24].map UInt8.ofNat

namespace Slot

/-- The slot of a declaration, holding the declared values. -/
def ofUniform (u : Uniform) : Slot := ⟨u.shape, u.defaults, u.defaults⟩

/-- The slot with its declared values again. -/
def reset (s : Slot) : Slot := { s with values := s.defaults }

/-- The slot with other values. -/
def write (s : Slot) (values : List Binary32) : Slot := { s with values }

/-- The value as a 32-bit integer: without its fraction, clamped to the range, NaN being zero. -/
def integerOf (x : Binary32) : Int := x.truncateWithin (-2 ^ 31) (2 ^ 31 - 1)

/-- The bytes of one value: of its integer in two's complement for integer shapes, else of its
word. -/
def valueBytes (shape : Uniform.Shape) (x : Binary32) : List UInt8 :=
  littleEndian (if shape.isInteger then (BitVec.ofInt 32 (integerOf x)).toNat else x.toBits)

/-- The bytes to upload. -/
def bytes (s : Slot) : List UInt8 := s.values.flatMap (valueBytes s.shape)

/-- Four bytes are uploaded for each value. -/
@[simp] theorem length_bytes (s : Slot) : s.bytes.length = 4 * s.values.length := by
  have hvalue (x : Binary32) : (valueBytes s.shape x).length = 4 := rfl
  simp only [bytes, List.length_flatMap, hvalue]
  rw [List.map_const', List.sum_replicate_nat, Nat.mul_comm]

/-- The number of values does not fit the shape of the slot. -/
def arityError? (uniform : String) (s : Slot) (values : List Binary32) : Option UniformError :=
  if values.length = s.shape.components then none
  else some (.arity uniform s.shape.components values.length)

end Slot

/-- The store that holds the declared values. -/
def ofDefaults (uniforms : NameTable UniformTable) : UniformStore :=
  ⟨uniforms.map fun table => table.map Slot.ofUniform⟩

/-- The slot of a uniform of an item. -/
def slot? (s : UniformStore) (item uniform : String) : Option Slot :=
  (s.items.get? item).bind fun slots => slots.get? uniform

/-- A new store has one slot for each uniform declared, with the declared values. -/
@[simp] theorem slot?_ofDefaults (uniforms : NameTable UniformTable) (item uniform : String) :
    (ofDefaults uniforms).slot? item uniform =
      ((uniforms.get? item).bind fun table => table.get? uniform).map Slot.ofUniform := by
  rw [slot?, ofDefaults, NameTable.get?_map]
  cases uniforms.get? item <;> simp

/-- The current values of a uniform of an item. -/
def values? (s : UniformStore) (item uniform : String) : Option (List Binary32) :=
  (s.slot? item uniform).map Slot.values

/-- The bytes to upload for a uniform of an item. -/
def bytes? (s : UniformStore) (item uniform : String) : Option (List UInt8) :=
  (s.slot? item uniform).map Slot.bytes

/-- The shape of a uniform of an item. -/
def shape? (s : UniformStore) (item uniform : String) : Option Uniform.Shape :=
  (s.slot? item uniform).map Slot.shape

/-- The uniforms of an item with their values, in the order of their names. -/
def uniformsOf (s : UniformStore) (item : String) : List (String × List Binary32) :=
  match s.items.get? item with
  | none => []
  | some slots => slots.entries.map fun entry => (entry.1, entry.2.values)

/-- What is uploaded for an item: the bytes of each uniform, in the order of the names. -/
def uploads (s : UniformStore) (item : String) : List (String × List UInt8) :=
  match s.items.get? item with
  | none => []
  | some slots => slots.entries.map fun entry => (entry.1, entry.2.bytes)

/-- Writes the values of a uniform of one item. -/
def set (s : UniformStore) (item uniform : String) (values : List Binary32) :
    Except UniformError UniformStore :=
  match s.slot? item uniform with
  | none => .error (.unknownSlot item uniform)
  | some slot =>
    match slot.arityError? uniform values with
    | some e => .error e
    | none =>
      .ok ⟨s.items.modify item fun slots => slots.modify uniform fun slot => slot.write values⟩

/-- The slots of a uniform, one for each item that declares it, in the order of the items. -/
def slotsOf (s : UniformStore) (uniform : String) : List Slot :=
  s.items.values.filterMap fun slots => slots.get? uniform

/-- Writes the values of a uniform of every item that declares it and says how many there are.
Nothing is written unless the values fit every one of them. -/
def setEverywhere (s : UniformStore) (uniform : String) (values : List Binary32) :
    Except UniformError (Nat × UniformStore) :=
  let slots := s.slotsOf uniform
  match slots.findSome? fun slot => slot.arityError? uniform values with
  | some e => .error e
  | none =>
    .ok (slots.length,
      ⟨s.items.map fun slots => slots.modify uniform fun slot => slot.write values⟩)

/-- The store with every slot at its declared values. -/
def reset (s : UniformStore) : UniformStore := ⟨s.items.map fun slots => slots.map Slot.reset⟩

end UniformStore

end RenderPlan
