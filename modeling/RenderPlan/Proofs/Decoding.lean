import RenderPlan.Proofs.ReadNumbers
import RenderPlan.Proofs.SchemaLaws
import RenderPlan.Schema.Documents

/-!
# What can be read

Not every datum is read from some text. A text has no numeral for what is not finite, so the
numbers of GL state, which are 64-bit words, are finite in all that is read. And no target that is
read is a texture of the name reserved for the canvas. Nothing of the kind holds of 32-bit words,
which a numeral beyond their range makes infinite.

## Main definitions

* `Json.Reads α P`: whatever is read of a type satisfies `P`
* `Document.IsRead`: what is known of a document that was read

## Main results

* `Json.Reads.list`, `Json.Reads.table`: containers hold only what is read
* `Json.readsNumerals_of_record?`, `Json.readsNumerals_of_sharedRecord?`: the members of a record
  are parts of its tree
* `Document.isRead_of_read?`: the documents that texts spell
-/

namespace RenderPlan

namespace NameTable

variable {α : Type} {name : String} {value : α}

theorem mem_of_lastWrite : ∀ {writes : List (String × α)},
    lastWrite name writes = some value → (name, value) ∈ writes
  | [], h => by cases h
  | write :: rest, h => by
    rw [lastWrite, Option.or_eq_some_iff] at h
    rcases h with h | ⟨-, h⟩
    · exact List.mem_cons_of_mem _ (mem_of_lastWrite h)
    · obtain ⟨rfl, rfl⟩ := Option.ite_some_none_eq_some.mp h
      exact List.mem_cons_self ..

/-- The table of a list of entries holds no other values. -/
theorem exists_of_mem_values_ofList {entries : List (String × α)}
    (h : value ∈ (ofList entries).values) : ∃ name, (name, value) ∈ entries := by
  obtain ⟨name, hname⟩ := mem_values_iff.mp h
  rw [ofList, get?_insertAll, get?_empty, Option.or_none] at hname
  exact ⟨name, mem_of_lastWrite hname⟩

end NameTable

namespace Json

open Value

/-- **Whatever is read** of a type, from a tree of which the numbers are those of numerals,
satisfies `P`. -/
def Reads (α : Type) [Codec α] (P : α → Prop) : Prop :=
  ∀ (source : Source) (v : Value) (a : α), v.AllNumbers Number.IsOfNumeral →
    decode source v = some a → P a

section Laws

variable {α : Type} [Codec α] {P Q : α → Prop} {source : Source} {v : Value}

theorem Reads.imp (h : Reads α P) (himp : ∀ a, P a → Q a) : Reads α Q :=
  fun source v a hv ha => himp a (h source v a hv ha)

/-- **Lists** hold only what is read. -/
theorem Reads.list (h : Reads α P) : Reads (List α) fun l => ∀ a ∈ l, P a := by
  intro source v l hv hl
  cases v with
  | array elements =>
    refine forall_of_mapM_eq_some (fun element helement a ha => ?_) hl
    exact h source element a (allNumbers_array.mp hv element helement) ha
  | _ => cases hl

/-- **Tables** hold only what is read. -/
theorem Reads.table (h : Reads α P) : Reads (NameTable α) fun t => ∀ a ∈ t.values, P a := by
  intro source v t hv ht a ha
  cases v with
  | object members =>
    obtain ⟨entries, hentries, rfl⟩ := Option.map_eq_some_iff.mp ht
    obtain ⟨name, hname⟩ := NameTable.exists_of_mem_values_ofList ha
    refine forall_of_mapM_eq_some (Q := fun entry => P entry.2) ?_ hentries (name, a) hname
    rintro member hmember _ hread
    obtain ⟨a, ha, rfl⟩ := Option.map_eq_some_iff.mp hread
    exact h source member.2 a (allNumbers_object.mp hv member hmember) ha
  | _ => cases ht

/-! ## Records -/

/-- The numbers of the members found for the fields of a record are those of numerals. -/
def Record.ReadsNumerals (r : Record) : Prop :=
  ∀ member ∈ r.members, member.2.AllNumbers Number.IsOfNumeral

variable {fields : List Field} {r : Record}

omit [Codec α] in
theorem readsNumerals_of_recordOf? {members : List (String × Value)}
    (hmembers : ∀ member ∈ members, member.2.AllNumbers Number.IsOfNumeral)
    (h : recordOf? source fields members = some r) : r.ReadsNumerals := by
  rw [recordOf?] at h
  split at h
  · cases h
    intro known hknown
    obtain ⟨member, hmember, hfield⟩ := List.mem_filterMap.mp hknown
    obtain ⟨field, -, rfl⟩ := Option.map_eq_some_iff.mp hfield
    exact hmembers member hmember
  · cases h

/-- **The members of a closed record** are parts of its tree. -/
theorem readsNumerals_of_record? (hv : v.AllNumbers Number.IsOfNumeral)
    (h : v.record? source fields = some r) : r.ReadsNumerals := by
  cases v with
  | object members => exact readsNumerals_of_recordOf? (allNumbers_object.mp hv) h
  | array elements =>
    rw [record?] at h
    split at h
    · cases h
      intro member hmember
      exact allNumbers_array.mp hv _ (List.of_mem_zip hmember).2
    · cases h
  | _ => cases h

/-- **The members of a record that shares its object** and all others are parts of its tree. -/
theorem readsNumerals_of_sharedRecord? {others : Value} (hv : v.AllNumbers Number.IsOfNumeral)
    (h : v.sharedRecord? source fields = some (r, others)) :
    r.ReadsNumerals ∧ others.AllNumbers Number.IsOfNumeral := by
  cases v with
  | object members =>
    have hmembers := allNumbers_object.mp hv
    simp only [sharedRecord?] at h
    split at h
    · obtain ⟨known, hknown, hpair⟩ := Option.map_eq_some_iff.mp h
      cases hpair
      refine ⟨readsNumerals_of_recordOf? hmembers hknown, allNumbers_object.mpr ?_⟩
      exact fun member hmember => hmembers member (List.mem_of_mem_filter hmember)
    · cases h
  | _ => cases h

theorem Record.ReadsNumerals.field? (hr : r.ReadsNumerals) {name : String} {v : Value}
    (h : r.field? name = some v) : v.AllNumbers Number.IsOfNumeral := by
  obtain ⟨member, hmember, rfl⟩ := Option.map_eq_some_iff.mp h
  exact hr member (List.mem_of_find?_eq_some hmember)

theorem Reads.required (hlaw : Reads α P) (hr : r.ReadsNumerals) {name : String} {a : α}
    (h : r.required name = some a) : P a := by
  obtain ⟨v, hfield, ha⟩ := Option.bind_eq_some_iff.mp h
  exact hlaw r.source v a (hr.field? hfield) ha

theorem Reads.withDefault (hlaw : Reads α P) (hr : r.ReadsNumerals) {name : String}
    {default a : α} (hdefault : P default) (h : r.withDefault name default = some a) : P a := by
  rw [Record.withDefault] at h
  split at h
  · cases h
    exact hdefault
  · next v hfield => exact hlaw r.source v a (hr.field? hfield) h

theorem Reads.optional (hlaw : Reads α P) (hr : r.ReadsNumerals) {name : String}
    {o : Option α} (h : r.optional name = some o) : ∀ a ∈ o, P a := by
  intro a ha
  rw [Record.optional] at h
  split at h
  · cases h
    cases ha
  · next v hfield =>
    cases v with
    | null =>
      cases h
      cases ha
    | _ =>
      obtain ⟨b, hb, rfl⟩ := Option.map_eq_some_iff.mp h
      cases ha
      exact hlaw r.source _ _ (hr.field? hfield) hb

end Laws

end Json

open Json

/-! ## GL state and targets -/

/-- No numeral is infinite or NaN as a 64-bit word. -/
theorem GlState.Argument.reads : Reads GlState.Argument fun a => a.isFinite = true := by
  intro source v a hv ha
  cases v with
  | number n =>
    cases ha
    exact (Value.allNumbers_number.mp hv).isFinite_toDouble
  | string name =>
    cases ha
    rfl
  | _ => cases ha

theorem GlState.reads : Reads GlState fun g => g.isFinite = true :=
  Argument.reads.list.list.table.imp fun g hg => by
    simpa only [GlState.isFinite, List.all_eq_true] using hg

/-- The reserved word is read as the canvas. -/
theorem RenderTarget.reads : Reads RenderTarget fun target => target.settled = target := by
  intro source v target hv h
  obtain ⟨name, -, rfl⟩ := Option.map_eq_some_iff.mp h
  rw [ofName]
  split
  · rfl
  · next hname => exact if_neg hname

/-! ## Items and scenes -/

/-- **An item that was read** has finite GL state and a target that comes back as it is. -/
theorem Item.reads :
    Reads Item fun i =>
      i.glState.isFinite = true ∧ i.target.map RenderTarget.settled = i.target := by
  intro source v i hv h
  obtain ⟨r, hrecord, h⟩ := Option.bind_eq_some_iff.mp h
  have hr : r.ReadsNumerals := readsNumerals_of_record? hv hrecord
  simp only [ofRecord?, Option.bind_eq_bind, Option.bind_eq_some_iff] at h
  obtain ⟨_, -, _, -, _, -, _, -, _, -, _, -, _, -, glState, hglState, target, htarget, _, -, h⟩ :=
    h
  cases h
  have hsettled : ∀ t ∈ target, t.settled = t := RenderTarget.reads.optional hr htarget
  refine ⟨GlState.reads.withDefault hr rfl hglState, ?_⟩
  cases target with
  | none => rfl
  | some t => rw [Option.map_some, hsettled t rfl]

/-- **A scene that was read** has finite GL state. -/
theorem Scene.reads : Reads Scene fun s => s.glState.isFinite = true := by
  intro source v s hv h
  simp only [decode, Option.bind_eq_bind, Option.bind_eq_some_iff] at h
  obtain ⟨⟨r, others⟩, hrecord, parameters, -, h⟩ := h
  obtain ⟨hr, -⟩ := readsNumerals_of_sharedRecord? hv hrecord
  simp only [ofRecord?, Option.bind_eq_bind, Option.bind_eq_some_iff] at h
  obtain ⟨_, -, _, -, glState, hglState, _, -, h⟩ := h
  cases h
  exact GlState.reads.withDefault hr rfl hglState

namespace Document

theorem ItemEntry.reads :
    Reads ItemEntry fun entry =>
      entry.item.glState.isFinite = true ∧
        entry.item.target.map RenderTarget.settled = entry.item.target := by
  intro source v entry hv h
  obtain ⟨⟨r, others⟩, hrecord, h⟩ := Option.bind_eq_some_iff.mp h
  obtain ⟨uniformPreset, -, h⟩ := Option.bind_eq_some_iff.mp h
  obtain ⟨glPreset, -, h⟩ := Option.bind_eq_some_iff.mp h
  obtain ⟨item, hitem, h⟩ := Option.bind_eq_some_iff.mp h
  obtain ⟨-, hothers⟩ := readsNumerals_of_sharedRecord? hv hrecord
  cases h
  exact Item.reads .gathered others item hothers hitem

theorem SceneEntry.reads : Reads SceneEntry fun entry => entry.scene.glState.isFinite = true := by
  intro source v entry hv h
  obtain ⟨⟨r, others⟩, hrecord, h⟩ := Option.bind_eq_some_iff.mp h
  obtain ⟨preset, -, h⟩ := Option.bind_eq_some_iff.mp h
  obtain ⟨scene, hscene, h⟩ := Option.bind_eq_some_iff.mp h
  obtain ⟨-, hothers⟩ := readsNumerals_of_sharedRecord? hv hrecord
  cases h
  exact Scene.reads source others scene hothers hscene

/-- **What is known of a document** that was read. -/
structure IsRead (d : Document) : Prop where
  glPresets : ∀ preset ∈ d.glPresets.values, preset.isFinite = true
  items : ∀ entry ∈ d.items.values,
    entry.item.glState.isFinite = true ∧
      entry.item.target.map RenderTarget.settled = entry.item.target
  scenes : ∀ entry ∈ d.scenes, entry.scene.glState.isFinite = true

/-- **The documents that texts spell** are such. -/
theorem isRead_of_read? {text : String} {d : Document} (h : read? text = some d) : d.IsRead := by
  obtain ⟨v, hv, h⟩ := Option.bind_eq_some_iff.mp h
  simp only [decode, Option.bind_eq_bind, Option.bind_eq_some_iff] at h
  obtain ⟨r, hrecord, _, -, _, -, _, -, _, -, glPresets, hgl, items, hitems, scenes, hscenes, h⟩ :=
    h
  have hr : r.ReadsNumerals := readsNumerals_of_record? (allNumbers_of_read? hv) hrecord
  cases h
  exact {
    glPresets := GlState.reads.table.withDefault hr (List.forall_mem_nil _) hgl
    items := ItemEntry.reads.table.withDefault hr (List.forall_mem_nil _) hitems
    scenes := SceneEntry.reads.list.withDefault hr (List.forall_mem_nil _) hscenes }

end Document

end RenderPlan
