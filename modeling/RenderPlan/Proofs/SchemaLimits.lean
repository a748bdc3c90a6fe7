import RenderPlan.Proofs.TreeText
import RenderPlan.Schema.Documents

/-!
# The limits of documents

No datum of the schema is encoded beyond the limits of reading: a document is nested six containers
deep at most, and its integers are small natural numbers.

## Main definitions

* `Json.EncodesWithin`: a type is encoded within a number of levels

## Main results

* `Document.encodesWithin`: a document is encoded within six levels
-/

namespace RenderPlan

namespace Json

/-- Every datum of the type is encoded within `levels` levels of containers. -/
def EncodesWithin (α : Type) [Codec α] (levels : Nat) : Prop :=
  ∀ a : α, (encode a).Within Number.IsWord64 levels

/-- The values of the members are within `levels` levels of containers. -/
def MembersWithin (levels : Nat) (members : List (String × Value)) : Prop :=
  ∀ member ∈ members, member.2.Within Number.IsWord64 levels

section Limits

variable {α : Type} [Codec α] {levels : Nat}

/-! ## Strings, words and numbers -/

theorem encodesWithin_string : EncodesWithin String levels := fun _ => Value.within_string

theorem encodesWithin_bool : EncodesWithin Bool levels := fun _ => Value.within_bool

theorem encodesWithin_keyword {κ : Type} [Keyword κ] : EncodesWithin κ levels :=
  fun _ => Value.within_string

theorem encodesWithin_single : EncodesWithin Binary32 levels :=
  fun _ => Value.within_number.mpr trivial

theorem encodesWithin_uint32 : EncodesWithin UInt32 levels := by
  intro n
  have hsize : n.toNat < 2 ^ 64 := Nat.lt_of_lt_of_le n.toNat_lt (by decide)
  exact Value.within_number.mpr ⟨n.toNat, rfl, hsize⟩

theorem encodesWithin_uint8 : EncodesWithin UInt8 levels := by
  intro n
  have hsize : n.toNat < 2 ^ 64 := Nat.lt_of_lt_of_le n.toNat_lt (by decide)
  exact Value.within_number.mpr ⟨n.toNat, rfl, hsize⟩

/-! ## Containers -/

theorem EncodesWithin.list (h : EncodesWithin α levels) : EncodesWithin (List α) (levels + 1) := by
  intro l
  refine Value.within_array.mpr fun v hv => ?_
  obtain ⟨a, -, rfl⟩ := List.mem_map.mp hv
  exact h a

theorem EncodesWithin.table (h : EncodesWithin α levels) :
    EncodesWithin (NameTable α) (levels + 1) := by
  intro t
  refine Value.within_object.mpr fun member hmember => ?_
  obtain ⟨entry, -, rfl⟩ := List.mem_map.mp hmember
  exact h entry.2

theorem encodesWithin_nameSet : EncodesWithin NameSet (levels + 1) :=
  fun s => encodesWithin_string.list s.toList

/-! ## Members -/

theorem MembersWithin.nil : MembersWithin levels [] := List.forall_mem_nil _

theorem MembersWithin.cons {name : String} {a : α} {members : List (String × Value)}
    (h : EncodesWithin α levels) (hmembers : MembersWithin levels members) :
    MembersWithin levels ((name, encode a) :: members) := by
  rw [MembersWithin, List.forall_mem_cons]
  exact ⟨h a, hmembers⟩

theorem MembersWithin.append {xs ys : List (String × Value)} (hxs : MembersWithin levels xs)
    (hys : MembersWithin levels ys) : MembersWithin levels (xs ++ ys) := by
  rw [MembersWithin, List.forall_mem_append]
  exact ⟨hxs, hys⟩

theorem MembersWithin.ifPresent {name : String} {o : Option α} (h : EncodesWithin α levels) :
    MembersWithin levels (memberIfPresent name o) := by
  cases o with
  | none => exact .nil
  | some a => exact .cons h .nil

theorem MembersWithin.unlessEmpty {name : String} {t : NameTable α}
    (h : EncodesWithin (NameTable α) levels) :
    MembersWithin levels (Document.memberUnlessEmpty name t) := by
  rw [Document.memberUnlessEmpty]
  split
  · exact .nil
  · exact .cons h .nil

end Limits

end Json

open Json

variable {levels : Nat}

/-! ## Programs, buffers and textures -/

theorem Program.encodesWithin : EncodesWithin Program (levels + 2) :=
  fun _ => Value.within_object.mpr
    (MembersWithin.cons encodesWithin_string.list (.cons encodesWithin_string.list .nil))

theorem ElementLayout.encodesWithin : EncodesWithin ElementLayout (levels + 1) :=
  fun _ => Value.within_object.mpr
    (MembersWithin.cons encodesWithin_keyword
      (.cons encodesWithin_uint8 (.cons encodesWithin_bool .nil)))

theorem Buffer.encodesWithin : EncodesWithin Buffer (levels + 2) :=
  fun _ => Value.within_object.mpr
    (MembersWithin.cons encodesWithin_keyword (.cons ElementLayout.encodesWithin .nil))

theorem Texture.encodesWithin : EncodesWithin Texture (levels + 1) :=
  fun _ => Value.within_object.mpr
    (MembersWithin.cons encodesWithin_keyword (.cons encodesWithin_single .nil))

/-! ## Items -/

theorem Uniform.encodesWithin : EncodesWithin Uniform (levels + 2) :=
  fun _ => Value.within_object.mpr
    (MembersWithin.cons encodesWithin_keyword (.cons encodesWithin_single.list .nil))

theorem GlState.Argument.encodesWithin : EncodesWithin GlState.Argument levels := by
  intro a
  cases a with
  | number x => exact Value.within_number.mpr trivial
  | symbol name => exact Value.within_string

theorem GlState.encodesWithin : EncodesWithin GlState (levels + 3) :=
  GlState.Argument.encodesWithin.list.list.table

theorem AttributeRef.encodesWithin : EncodesWithin AttributeRef (levels + 1) := by
  intro ref
  refine Value.within_array.mpr ?_
  rw [List.forall_mem_cons, List.forall_mem_singleton]
  exact ⟨Value.within_string, Value.within_string⟩

theorem RenderTarget.encodesWithin : EncodesWithin RenderTarget levels :=
  fun _ => Value.within_string

theorem Item.membersWithin (i : Item) : MembersWithin (levels + 3) i.members := by
  refine .append (.append ?_ (.ifPresent RenderTarget.encodesWithin))
    (.cons encodesWithin_bool .nil)
  exact .cons encodesWithin_string (.cons encodesWithin_nameSet
    (.cons AttributeRef.encodesWithin.table (.cons AttributeRef.encodesWithin.table
    (.cons Uniform.encodesWithin.table (.cons encodesWithin_string.table
    (.cons encodesWithin_keyword (.cons GlState.encodesWithin .nil)))))))

/-! ## Scenes -/

theorem Camera.Bounds.encodesWithin : EncodesWithin Camera.Bounds (levels + 1) :=
  fun _ => Value.within_object.mpr
    (MembersWithin.cons encodesWithin_single (.cons encodesWithin_single
      (.cons encodesWithin_single (.cons encodesWithin_single .nil))))

theorem Camera.encodesWithin : EncodesWithin Camera (levels + 2) :=
  fun _ => Value.within_object.mpr
    (MembersWithin.cons encodesWithin_keyword (.cons Bounds.encodesWithin
      (.cons encodesWithin_single (.cons encodesWithin_single .nil))))

theorem EdgeParameters.membersWithin (p : EdgeParameters) : MembersWithin levels p.members :=
  .append (.append (.ifPresent encodesWithin_uint32) (.cons encodesWithin_bool .nil))
    (.ifPresent encodesWithin_single)

theorem Scene.membersWithin (s : Scene) : MembersWithin (levels + 3) s.members := by
  refine .append (.append ?_ s.parameters.membersWithin) (.cons encodesWithin_string.list .nil)
  exact .cons encodesWithin_string (.cons Camera.encodesWithin (.cons GlState.encodesWithin .nil))

/-! ## Documents -/

namespace Document

theorem ItemEntry.encodesWithin : EncodesWithin ItemEntry (levels + 4) := by
  intro entry
  refine Value.within_object.mpr (MembersWithin.append ?_ entry.item.membersWithin)
  exact .append (.ifPresent encodesWithin_string) (.ifPresent encodesWithin_string)

theorem SceneEntry.encodesWithin : EncodesWithin SceneEntry (levels + 4) :=
  fun entry => Value.within_object.mpr
    (MembersWithin.append (.ifPresent encodesWithin_string) entry.scene.membersWithin)

/-- **A document is encoded** within six levels. -/
theorem encodesWithin : EncodesWithin Document (levels + 6) := by
  intro d
  have huniforms : EncodesWithin (NameTable UniformTable) (levels + 5) :=
    Uniform.encodesWithin.table.table
  have hgl : EncodesWithin (NameTable GlState) (levels + 5) := GlState.encodesWithin.table
  refine Value.within_object.mpr
    (MembersWithin.append (.append (.append ?_ (.unlessEmpty huniforms)) (.unlessEmpty hgl)) ?_)
  · exact .cons Program.encodesWithin.table (.cons Buffer.encodesWithin.table.table
      (.cons Texture.encodesWithin.table .nil))
  · exact .cons ItemEntry.encodesWithin.table (.cons SceneEntry.encodesWithin.list .nil)

end Document

end RenderPlan
