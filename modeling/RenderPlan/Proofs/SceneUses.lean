import Mathlib.Data.List.Sort
import RenderPlan.Proofs.PlanContents

/-!
# What a scene uses

The items of a scene refer to attributes, sample textures and draw into textures. These uses are
described here by the scene and the catalogs alone, next to the uses that are noted when the items
are resolved. A list of a plan is described by what it lists, since it is in strictly ascending
order.

## Main definitions

* `Item.RefersTo`, `Item.Samples`, `Item.DrawsInto`, `Item.UsesTexture`: the uses of an item
* `Scene.RefersTo`, `Scene.UsesTexture`, `Scene.DrawsInto`, `Scene.ReadsBack`: the uses of the
  items that a scene draws
* `Lists`: a list in strictly ascending order of everything that has a property

## Main results

* `Lists.unique`: there is only one such list
* `Scene.exists_item_iff`: what holds of a resolved item holds of an item that the scene draws
* `ResolvedItem.FoundIn.mem_buffers_iff`, `ResolvedItem.FoundIn.mem_textureUses_iff`,
  `ResolvedItem.FoundIn.mem_target_iff`: what an item was resolved to is what it uses
-/

namespace RenderPlan

/-! ## Lists in ascending order -/

/-- The list holds what has the property and nothing else, in strictly ascending order. -/
structure Lists {α : Type} [LT α] (xs : List α) (P : α → Prop) : Prop where
  ascending : xs.Pairwise (· < ·)
  mem_iff : ∀ x, x ∈ xs ↔ P x

namespace Lists

/-- **One list** in ascending order has the members that it has. -/
theorem unique {xs ys : List String} {P : String → Prop} (hxs : Lists xs P) (hys : Lists ys P) :
    xs = ys :=
  hxs.ascending.eq_of_mem_iff hys.ascending fun x => (hxs.mem_iff x).trans (hys.mem_iff x).symm

end Lists

theorem NameSet.lists {s : NameSet} {P : String → Prop} (h : ∀ name, name ∈ s ↔ P name) :
    Lists s.toList P :=
  ⟨s.pairwise_toList, fun name => mem_toList.trans (h name)⟩

theorem NameTable.lists_keys {α : Type} {t : NameTable α} {P : String → Prop}
    (h : ∀ name, (∃ value, t.get? name = some value) ↔ P name) : Lists t.keys P :=
  ⟨t.pairwise_keys, fun name => mem_keys_iff.trans (h name)⟩

/-! ## Uses of an item -/

namespace Item

/-- The item refers to the attribute, which is drawn or kept. -/
def RefersTo (i : Item) (ref : AttributeRef) : Prop :=
  (∃ slot, i.bindings.get? slot = some ref) ∨ ∃ slot, i.otherBuffers.get? slot = some ref

/-- The texture is bound to a sampler that the item's program declares. -/
def Samples (i : Item) (c : Catalogs) (texture : String) : Prop :=
  ∃ program, c.programs.get? i.program = some program ∧
    ∃ sampler ∈ program.samplers, i.textureBindings.get? sampler = some texture

/-- The item draws into the texture and not into the canvas. -/
def DrawsInto (i : Item) (texture : String) : Prop := i.target = some (.texture texture)

/-- The item samples the texture or draws into it. -/
def UsesTexture (i : Item) (c : Catalogs) (texture : String) : Prop :=
  i.Samples c texture ∨ i.DrawsInto texture

end Item

namespace ResolvedItem.FoundIn

variable {r : ResolvedItem} {c : Catalogs}

section Uses

variable {κ α : Type} {lookup : κ → Option α} {uses : List (κ × α)} {key : κ}
  (huses : ∀ use ∈ uses, lookup use.1 = some use.2)
include huses

/-- A use is noted when its key is and leads to its value. -/
theorem mem_uses_iff {value : α} :
    (key, value) ∈ uses ↔ key ∈ uses.map Prod.fst ∧ lookup key = some value := by
  constructor
  · exact fun h => ⟨List.mem_map_of_mem h, huses _ h⟩
  · rintro ⟨hkey, hvalue⟩
    obtain ⟨use, huse, rfl⟩ := List.mem_map.mp hkey
    obtain rfl : use.2 = value := Option.some.inj ((huses use huse).symm.trans hvalue)
    exact huse

theorem exists_value (hkey : key ∈ uses.map Prod.fst) : ∃ value, lookup key = some value := by
  obtain ⟨use, huse, rfl⟩ := List.mem_map.mp hkey
  exact ⟨use.2, huses use huse⟩

end Uses

variable (h : r.FoundIn c)
include h

theorem mem_map_buffers_iff {ref : AttributeRef} :
    ref ∈ r.buffers.map Prod.fst ↔ r.item.RefersTo ref := by
  rw [h.bufferRefs, Catalogs.attributeRefs_eq, List.mem_append, NameTable.mem_values_iff,
    NameTable.mem_values_iff, Item.RefersTo]

theorem mem_map_target_iff {name : String} :
    name ∈ r.target.toList.map Prod.fst ↔ r.item.DrawsInto name := by
  rw [← Option.toList_map, h.targetName, Option.mem_toList, Catalogs.targetTexture?_eq_some_iff,
    Item.DrawsInto]

theorem mem_map_samples_iff {name : String} :
    name ∈ r.samples.map Prod.fst ↔ r.item.Samples c name := by
  simp only [h.sampleNames, Item.sampledTextures, NameTable.mem_values_iff, NameTable.get?_filter,
    Option.filter_eq_some_iff, Program.hasSampler, List.contains_iff_mem, Item.Samples, h.program,
    Option.some.injEq, exists_eq_left']
  exact exists_congr fun sampler => and_comm

theorem mem_map_textureUses_iff {name : String} :
    name ∈ r.textureUses.map Prod.fst ↔ r.item.UsesTexture c name := by
  rw [ResolvedItem.textureUses, List.map_append, List.mem_append, h.mem_map_samples_iff,
    h.mem_map_target_iff, Item.UsesTexture]

/-- **The buffers** of an item are those that it refers to. -/
theorem mem_buffers_iff {ref : AttributeRef} {buffer : Buffer} :
    (ref, buffer) ∈ r.buffers ↔ r.item.RefersTo ref ∧ c.buffer? ref = some buffer := by
  rw [mem_uses_iff h.buffers, h.mem_map_buffers_iff]

/-- **The textures** of an item are those that it samples and the one that it draws into. -/
theorem mem_textureUses_iff {name : String} {texture : Texture} :
    (name, texture) ∈ r.textureUses ↔
      r.item.UsesTexture c name ∧ c.textures.get? name = some texture := by
  rw [mem_uses_iff h.textureUses, h.mem_map_textureUses_iff]

/-- **The target** of an item is the texture that it draws into. -/
theorem mem_target_iff {name : String} {texture : Texture} :
    (name, texture) ∈ r.target.toList ↔
      r.item.DrawsInto name ∧ c.textures.get? name = some texture := by
  rw [mem_uses_iff fun use huse => h.target use (Option.mem_toList.mp huse), h.mem_map_target_iff]

end ResolvedItem.FoundIn

/-! ## Uses of a scene -/

namespace Scene

/-- The scene draws the item, which is declared under a name of the render list. -/
def Draws (s : Scene) (c : Catalogs) (item : Item) : Prop :=
  ∃ name ∈ s.render, c.items.get? name = some item

/-- An item of the scene refers to the attribute. -/
def RefersTo (s : Scene) (c : Catalogs) (ref : AttributeRef) : Prop :=
  ∃ item, s.Draws c item ∧ item.RefersTo ref

/-- An item of the scene samples the texture or draws into it. -/
def UsesTexture (s : Scene) (c : Catalogs) (texture : String) : Prop :=
  ∃ item, s.Draws c item ∧ item.UsesTexture c texture

/-- An item of the scene draws into the texture. -/
def DrawsInto (s : Scene) (c : Catalogs) (texture : String) : Prop :=
  ∃ item, s.Draws c item ∧ item.DrawsInto texture

/-- An item of the scene draws into the texture and has it read back. -/
def ReadsBack (s : Scene) (c : Catalogs) (texture : String) : Prop :=
  ∃ item, s.Draws c item ∧ item.DrawsInto texture ∧ item.readsTarget = true

variable {s : Scene} {c : Catalogs} {rs : List ResolvedItem}
  (hrender : rs.map ResolvedItem.name = s.render) (hrs : ∀ r ∈ rs, r.FoundIn c)
include hrender hrs

theorem draws_item {r : ResolvedItem} (hr : r ∈ rs) : s.Draws c r.item := by
  refine ⟨r.name, ?_, (hrs r hr).item⟩
  rw [← hrender]
  exact List.mem_map_of_mem hr

/-- **What holds of a resolved item** holds of an item that the scene draws. -/
theorem exists_item_iff {Q : ResolvedItem → Prop} {P : Item → Prop}
    (hQP : ∀ r, r.FoundIn c → (Q r ↔ P r.item)) :
    (∃ r ∈ rs, Q r) ↔ ∃ item, s.Draws c item ∧ P item := by
  constructor
  · rintro ⟨r, hr, hQ⟩
    exact ⟨r.item, draws_item hrender hrs hr, (hQP r (hrs r hr)).mp hQ⟩
  · rintro ⟨item, ⟨name, hname, hitem⟩, hP⟩
    rw [← hrender] at hname
    obtain ⟨r, hr, rfl⟩ := List.mem_map.mp hname
    obtain rfl : r.item = item := Option.some.inj ((hrs r hr).item.symm.trans hitem)
    exact ⟨r, hr, (hQP r (hrs r hr)).mpr hP⟩

/-- **The buffers** of a scene's items are those that it refers to. -/
theorem exists_mem_buffers_iff {ref : AttributeRef} {buffer : Buffer} :
    (∃ r ∈ rs, (ref, buffer) ∈ r.buffers) ↔
      s.RefersTo c ref ∧ c.buffer? ref = some buffer := by
  rw [exists_item_iff (P := fun item => item.RefersTo ref ∧ c.buffer? ref = some buffer) hrender
    hrs fun r hr => hr.mem_buffers_iff]
  simp only [RefersTo, ← and_assoc, exists_and_right]

/-- **The textures** of a scene's items are those that it uses. -/
theorem exists_mem_textureUses_iff {name : String} {texture : Texture} :
    (∃ r ∈ rs, (name, texture) ∈ r.textureUses) ↔
      s.UsesTexture c name ∧ c.textures.get? name = some texture := by
  rw [exists_item_iff (P := fun item => item.UsesTexture c name ∧
    c.textures.get? name = some texture) hrender hrs fun r hr => hr.mem_textureUses_iff]
  simp only [UsesTexture, ← and_assoc, exists_and_right]

/-- **The targets** of a scene's items are those that it draws into. -/
theorem exists_mem_target_iff {name : String} {texture : Texture} :
    (∃ r ∈ rs, (name, texture) ∈ r.target.toList) ↔
      s.DrawsInto c name ∧ c.textures.get? name = some texture := by
  rw [exists_item_iff (P := fun item => item.DrawsInto name ∧
    c.textures.get? name = some texture) hrender hrs fun r hr => hr.mem_target_iff]
  simp only [DrawsInto, ← and_assoc, exists_and_right]

omit hrender hrs in
/-- A use with some property is noted when there is one among the uses of the scene. -/
theorem exists_use_iff {κ α : Type} {uses : ResolvedItem → List (κ × α)} {Used : κ → α → Prop}
    (hused : ∀ {key value}, (∃ r ∈ rs, (key, value) ∈ uses r) ↔ Used key value)
    {P : κ → α → Prop} :
    (∃ r ∈ rs, ∃ use ∈ uses r, P use.1 use.2) ↔ ∃ key value, Used key value ∧ P key value := by
  constructor
  · rintro ⟨r, hr, use, huse, hP⟩
    exact ⟨use.1, use.2, hused.mp ⟨r, hr, huse⟩, hP⟩
  · rintro ⟨key, value, hkey, hP⟩
    obtain ⟨r, hr, huse⟩ := hused.mpr hkey
    exact ⟨r, hr, _, huse, hP⟩

/-- What the scene refers to is declared. -/
theorem exists_buffer_of_refersTo {ref : AttributeRef} (h : s.RefersTo c ref) :
    ∃ buffer, c.buffer? ref = some buffer := by
  obtain ⟨r, hr, hkey⟩ := (exists_item_iff hrender hrs fun r hr => hr.mem_map_buffers_iff).mpr h
  exact ResolvedItem.FoundIn.exists_value (hrs r hr).buffers hkey

/-- What the scene samples or draws into is declared. -/
theorem exists_texture_of_usesTexture {name : String} (h : s.UsesTexture c name) :
    ∃ texture, c.textures.get? name = some texture := by
  obtain ⟨r, hr, hkey⟩ :=
    (exists_item_iff hrender hrs fun r hr => hr.mem_map_textureUses_iff).mpr h
  exact ResolvedItem.FoundIn.exists_value (hrs r hr).textureUses hkey

end Scene

end RenderPlan
