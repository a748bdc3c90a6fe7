/-!
# Name tables

A name table records one value for each of finitely many names and lists its names in ascending
order of their code points. The order is part of the type, so two tables that answer every look-up
alike are equal (`NameTable.ext_get?`).

## Main definitions

* `NameTable`: the tables, with `get?`, `insert`, `erase`, `update`, `ofList`, `map`, `filter`.

## Main results

* `NameTable.get?_insert`, `NameTable.get?_erase`, `NameTable.get?_map`: the operations, seen
  through look-up.
* `NameTable.ext_get?`: tables with the same look-ups are equal.
* `NameTable.mem_keys_iff`: the names listed are those that have a value.
-/

namespace RenderPlan

variable {α β : Type}

/-- Entries in strictly ascending order of their names. -/
abbrev AscendingNames (entries : List (String × α)) : Prop :=
  entries.Pairwise (fun a b => a.1 < b.1)

/-- A table of values under names, in ascending order of the names. -/
@[ext] structure NameTable (α : Type) where
  entries : List (String × α)
  ascending : AscendingNames entries

namespace NameTable

/-- The entry list with the value of `name` set, keeping the order. -/
def insertEntry (name : String) (value : α) : List (String × α) → List (String × α)
  | [] => [(name, value)]
  | entry :: rest =>
    if name < entry.1 then (name, value) :: entry :: rest
    else if name = entry.1 then (name, value) :: rest
    else entry :: insertEntry name value rest

/-- The value that an entry list records for `name`. -/
def findEntry (name : String) : List (String × α) → Option α
  | [] => none
  | entry :: rest => if name = entry.1 then some entry.2 else findEntry name rest

theorem insertEntry_cons (name : String) (value : α) (entry : String × α)
    (rest : List (String × α)) :
    insertEntry name value (entry :: rest) =
      if name < entry.1 then (name, value) :: entry :: rest
      else if name = entry.1 then (name, value) :: rest
      else entry :: insertEntry name value rest := rfl

theorem findEntry_nil (name : String) : findEntry name ([] : List (String × α)) = none := rfl

theorem findEntry_cons (name : String) (entry : String × α) (rest : List (String × α)) :
    findEntry name (entry :: rest) = if name = entry.1 then some entry.2 else findEntry name rest :=
  rfl

theorem lt_of_not_lt_of_ne {a b : String} (h : ¬a < b) (hne : a ≠ b) : b < a := by
  rcases String.le_total a b with hab | hba
  · exact absurd (String.le_antisymm hab (String.not_lt.mp h)) hne
  · exact Decidable.byContradiction fun hlt =>
      hne (String.le_antisymm (String.not_lt.mp hlt) hba)

theorem mem_insertEntry {name : String} {value : α} {entry : String × α} :
    ∀ {entries : List (String × α)},
      entry ∈ insertEntry name value entries → entry = (name, value) ∨ entry ∈ entries
  | [], h => .inl (List.mem_singleton.mp h)
  | head :: rest, h => by
    rw [insertEntry_cons] at h
    split at h
    · rcases List.mem_cons.mp h with h | h
      · exact .inl h
      · exact .inr h
    · split at h
      · rcases List.mem_cons.mp h with h | h
        · exact .inl h
        · exact .inr (List.mem_cons_of_mem _ h)
      · rcases List.mem_cons.mp h with h | h
        · exact .inr (h ▸ List.mem_cons_self ..)
        · exact (mem_insertEntry h).imp_right (List.mem_cons_of_mem _)

theorem ascending_insertEntry (name : String) (value : α) :
    ∀ {entries : List (String × α)}, AscendingNames entries →
      AscendingNames (insertEntry name value entries)
  | [], _ => List.pairwise_singleton _ _
  | head :: rest, h => by
    obtain ⟨hhead, hrest⟩ := List.pairwise_cons.mp h
    rw [insertEntry_cons]
    split
    · next hlt =>
      refine List.pairwise_cons.mpr ⟨fun entry hentry => ?_, h⟩
      rcases List.mem_cons.mp hentry with rfl | hentry
      · exact hlt
      · exact String.lt_trans hlt (hhead entry hentry)
    · next hlt =>
      split
      · next heq =>
        refine List.pairwise_cons.mpr ⟨fun entry hentry => ?_, hrest⟩
        simpa [heq] using hhead entry hentry
      · next hne =>
        refine List.pairwise_cons.mpr
          ⟨fun entry hentry => ?_, ascending_insertEntry name value hrest⟩
        rcases mem_insertEntry hentry with rfl | hentry
        · exact lt_of_not_lt_of_ne hlt hne
        · exact hhead entry hentry

theorem findEntry_insertEntry (name other : String) (value : α) :
    ∀ entries : List (String × α),
      findEntry other (insertEntry name value entries) =
        if other = name then some value else findEntry other entries
  | [] => rfl
  | head :: rest => by
    rw [insertEntry_cons]
    split
    · by_cases h : other = name <;> simp [findEntry_cons, h]
    · split
      · next heq => by_cases h : other = name <;> simp [findEntry_cons, h, ← heq]
      · next hne =>
        rw [findEntry_cons, findEntry_insertEntry name other value rest]
        by_cases h : other = name
        · simp [h, hne]
        · simp [h, findEntry_cons]

theorem findEntry_eq_some_iff {name : String} {value : α} :
    ∀ {entries : List (String × α)}, AscendingNames entries →
      (findEntry name entries = some value ↔ (name, value) ∈ entries)
  | [], _ => by simp [findEntry_nil]
  | head :: rest, h => by
    obtain ⟨hhead, hrest⟩ := List.pairwise_cons.mp h
    rw [findEntry_cons]
    split
    · next heq =>
      subst heq
      constructor
      · intro hv
        cases hv
        exact List.mem_cons_self ..
      · intro hmem
        rcases List.mem_cons.mp hmem with hmem | hmem
        · rw [← hmem]
        · -- no later entry has the name of the first
          exact absurd (hhead _ hmem) (String.lt_irrefl _)
    · next hne =>
      rw [findEntry_eq_some_iff hrest, List.mem_cons]
      constructor
      · exact .inr
      · rintro (hmem | hmem)
        · exact absurd (congrArg Prod.fst hmem) hne
        · exact hmem

/-- A name that is before all names listed is not found. -/
theorem findEntry_eq_none_of_forall_lt {name : String} :
    ∀ {entries : List (String × α)}, (∀ entry ∈ entries, name < entry.1) →
      findEntry name entries = none
  | [], _ => rfl
  | head :: rest, h => by
    obtain ⟨hhead, hrest⟩ := List.forall_mem_cons.mp h
    have hne : name ≠ head.1 := fun heq => String.lt_irrefl _ (heq ▸ hhead)
    rw [findEntry_cons, if_neg hne, findEntry_eq_none_of_forall_lt hrest]

theorem eq_of_findEntry_eq :
    ∀ {entries others : List (String × α)}, AscendingNames entries →
      AscendingNames others →
      (∀ name, findEntry name entries = findEntry name others) → entries = others
  | [], [], _, _, _ => rfl
  | [], head :: _, _, _, h => by simpa [findEntry_nil, findEntry_cons] using h head.1
  | head :: _, [], _, _, h => by simpa [findEntry_nil, findEntry_cons] using h head.1
  | a :: as, b :: bs, ha, hb, h => by
    obtain ⟨haHead, haRest⟩ := List.pairwise_cons.mp ha
    obtain ⟨hbHead, hbRest⟩ := List.pairwise_cons.mp hb
    have ha' : a ∈ b :: bs := (findEntry_eq_some_iff hb).mp
      (by rw [← h]; exact (findEntry_eq_some_iff ha).mpr (List.mem_cons_self ..))
    have hb' : b ∈ a :: as := (findEntry_eq_some_iff ha).mp
      (by rw [h]; exact (findEntry_eq_some_iff hb).mpr (List.mem_cons_self ..))
    -- each first entry is listed on the other side, where it cannot come later as well
    have hab : a = b := by
      rcases List.mem_cons.mp ha' with hab | hmem
      · exact hab
      · rcases List.mem_cons.mp hb' with hab | hmem'
        · exact hab.symm
        · exact absurd (hbHead a hmem) (String.lt_asymm (haHead b hmem'))
    subst hab
    congr 1
    refine eq_of_findEntry_eq haRest hbRest fun name => ?_
    by_cases hname : name = a.1
    · rw [hname, findEntry_eq_none_of_forall_lt haHead, findEntry_eq_none_of_forall_lt hbHead]
    · have := h name
      rwa [findEntry_cons, findEntry_cons, if_neg hname, if_neg hname] at this

/-- The table without entries. -/
def empty : NameTable α := ⟨[], List.Pairwise.nil⟩

instance : Inhabited (NameTable α) := ⟨empty⟩

instance : EmptyCollection (NameTable α) := ⟨empty⟩

instance [DecidableEq α] : DecidableEq (NameTable α) := fun s t =>
  decidable_of_iff (s.entries = t.entries) NameTable.ext_iff.symm

instance [BEq α] : BEq (NameTable α) := ⟨fun s t => s.entries == t.entries⟩

/-- The value recorded for `name`. -/
def get? (t : NameTable α) (name : String) : Option α := findEntry name t.entries

/-- Records `value` for `name`, in place of any value recorded before. -/
def insert (t : NameTable α) (name : String) (value : α) : NameTable α :=
  ⟨insertEntry name value t.entries, ascending_insertEntry name value t.ascending⟩

/-- The table has a value for `name`. -/
def contains (t : NameTable α) (name : String) : Bool := (t.get? name).isSome

/-- Records `value` for `name` unless the table has a value for it. -/
def insertNew (t : NameTable α) (name : String) (value : α) : NameTable α :=
  if t.contains name then t else t.insert name value

/-- The names, in ascending order. -/
def keys (t : NameTable α) : List String := t.entries.map Prod.fst

/-- The values, in ascending order of their names. -/
def values (t : NameTable α) : List α := t.entries.map Prod.snd

/-- Number of names. -/
def size (t : NameTable α) : Nat := t.entries.length

/-- No name has a value. -/
def isEmpty (t : NameTable α) : Bool := t.entries.isEmpty

/-- The entries whose name and value pass the test. -/
def filter (t : NameTable α) (keep : String → α → Bool) : NameTable α :=
  ⟨t.entries.filter fun entry => keep entry.1 entry.2, t.ascending.filter _⟩

/-- The table without `name`. -/
def erase (t : NameTable α) (name : String) : NameTable α :=
  t.filter fun other _ => other != name

/-- Every value replaced, with its name at hand. -/
def mapWithName (t : NameTable α) (f : String → α → β) : NameTable β :=
  ⟨t.entries.map fun entry => (entry.1, f entry.1 entry.2),
    List.pairwise_map.mpr t.ascending⟩

/-- Every value replaced. -/
def map (t : NameTable α) (f : α → β) : NameTable β := t.mapWithName fun _ => f

/-- The value of `name` replaced, if there is one. -/
def modify (t : NameTable α) (name : String) (f : α → α) : NameTable α :=
  t.mapWithName fun other value => if other = name then f value else value

/-- The value of `name` computed anew from the one recorded, if any. -/
def update (t : NameTable α) (name : String) (f : Option α → α) : NameTable α :=
  t.insert name (f (t.get? name))

/-- Every entry of the list recorded in turn, so that of equal names the last one counts. -/
def insertAll (t : NameTable α) (entries : List (String × α)) : NameTable α :=
  entries.foldl (fun table entry => table.insert entry.1 entry.2) t

/-- The table of the entries of a list; of equal names the last one counts. -/
def ofList (entries : List (String × α)) : NameTable α := empty.insertAll entries

/-! ## Look-up after an operation -/

@[simp] theorem get?_empty (name : String) : (empty : NameTable α).get? name = none := rfl

@[simp] theorem get?_insert (t : NameTable α) (name other : String) (value : α) :
    (t.insert name value).get? other = if other = name then some value else t.get? other :=
  findEntry_insertEntry name other value t.entries

theorem get?_eq_some_iff {t : NameTable α} {name : String} {value : α} :
    t.get? name = some value ↔ (name, value) ∈ t.entries :=
  findEntry_eq_some_iff t.ascending

/-- Tables with the same look-ups are equal. -/
theorem ext_get? {s t : NameTable α} (h : ∀ name, s.get? name = t.get? name) : s = t :=
  NameTable.ext (eq_of_findEntry_eq s.ascending t.ascending h)

theorem get?_filter (t : NameTable α) (keep : String → α → Bool) (name : String) :
    (t.filter keep).get? name = (t.get? name).filter (keep name) := by
  apply Option.ext
  intro value
  rw [Option.filter_eq_some_iff, get?_eq_some_iff, get?_eq_some_iff]
  simp [filter]

@[simp] theorem get?_erase (t : NameTable α) (name other : String) :
    (t.erase name).get? other = if other = name then none else t.get? other := by
  rw [erase, get?_filter]
  cases t.get? other <;> by_cases h : other = name <;> simp [h]

/-- Values of different names are recorded in either order. -/
theorem insert_comm (t : NameTable α) {name other : String} (h : name ≠ other) (value value' : α) :
    (t.insert name value).insert other value' = (t.insert other value').insert name value := by
  apply ext_get?
  intro queried
  simp only [get?_insert]
  by_cases hother : queried = other
  · subst hother
    rw [if_pos rfl, if_neg h.symm, if_pos rfl]
  · rw [if_neg hother, if_neg hother]

/-- There is nothing to erase of a name without a value. -/
theorem erase_of_get?_eq_none {t : NameTable α} {name : String} (h : t.get? name = none) :
    t.erase name = t := by
  apply ext_get?
  intro other
  rw [get?_erase]
  split
  · next hother => rw [hother, h]
  · rfl

/-- A value stays when another name is erased. -/
theorem erase_insert (t : NameTable α) {name other : String} (h : name ≠ other) (value : α) :
    (t.insert name value).erase other = (t.erase other).insert name value := by
  apply ext_get?
  intro queried
  simp only [get?_insert, get?_erase]
  by_cases hother : queried = other
  · subst hother
    rw [if_pos rfl, if_neg h.symm, if_pos rfl]
  · rw [if_neg hother, if_neg hother]

@[simp] theorem get?_mapWithName (t : NameTable α) (f : String → α → β) (name : String) :
    (t.mapWithName f).get? name = (t.get? name).map (f name) := by
  obtain ⟨entries, ascending⟩ := t
  simp only [mapWithName, get?]
  clear ascending
  induction entries with
  | nil => rfl
  | cons entry rest ih =>
    by_cases h : name = entry.1
    · simp [findEntry_cons, h]
    · simp [findEntry_cons, h, ih]

@[simp] theorem mapWithName_mapWithName {γ : Type} (t : NameTable α) (f : String → α → β)
    (g : String → β → γ) :
    (t.mapWithName f).mapWithName g = t.mapWithName fun name value => g name (f name value) :=
  NameTable.ext List.map_map

@[simp] theorem get?_map (t : NameTable α) (f : α → β) (name : String) :
    (t.map f).get? name = (t.get? name).map f := get?_mapWithName t _ name

@[simp] theorem get?_modify (t : NameTable α) (name other : String) (f : α → α) :
    (t.modify name f).get? other =
      if other = name then (t.get? other).map f else t.get? other := by
  rw [modify, get?_mapWithName]
  by_cases h : other = name <;> cases t.get? other <;> simp [h]

@[simp] theorem get?_update (t : NameTable α) (name other : String) (f : Option α → α) :
    (t.update name f).get? other =
      if other = name then some (f (t.get? name)) else t.get? other := by
  rw [update, get?_insert]

@[simp] theorem get?_insertNew (t : NameTable α) (name other : String) (value : α) :
    (t.insertNew name value).get? other =
      if other = name then some ((t.get? name).getD value) else t.get? other := by
  unfold insertNew contains
  by_cases h : other = name
  · subst h
    cases hget : t.get? other <;> simp [hget]
  · cases hget : t.get? name <;> simp [h]

@[simp] theorem mem_keys_iff {t : NameTable α} {name : String} :
    name ∈ t.keys ↔ ∃ value, t.get? name = some value := by
  simp [keys, get?_eq_some_iff]

theorem mem_values_iff {t : NameTable α} {value : α} :
    value ∈ t.values ↔ ∃ name, t.get? name = some value := by
  simp [values, get?_eq_some_iff]

@[simp] theorem contains_iff {t : NameTable α} {name : String} :
    t.contains name = true ↔ name ∈ t.keys := by
  rw [mem_keys_iff, contains, Option.isSome_iff_exists]

/-- The names are listed in strictly ascending order. -/
theorem pairwise_keys (t : NameTable α) : t.keys.Pairwise (· < ·) := by
  rw [keys, List.pairwise_map]
  exact t.ascending

theorem nodup_keys (t : NameTable α) : t.keys.Nodup := t.pairwise_keys.imp String.ne_of_lt

theorem keys_erase (t : NameTable α) (name : String) : (t.erase name).keys = t.keys.erase name := by
  rw [t.nodup_keys.erase_eq_filter, keys, keys, List.filter_map]
  rfl

/-- Erasing a name takes one entry away, if there is one. -/
theorem size_erase (t : NameTable α) (name : String) :
    (t.erase name).size + (t.contains name).toNat = t.size := by
  have hsize (t : NameTable α) : t.size = t.keys.length := by simp [size, keys]
  rw [hsize, hsize, keys_erase, List.length_erase]
  by_cases hname : name ∈ t.keys
  · rw [if_pos hname, contains_iff.mpr hname]
    exact Nat.sub_add_cancel (List.length_pos_of_mem hname)
  · rw [if_neg hname, Bool.eq_false_iff.mpr fun h => hname (contains_iff.mp h)]
    rfl

/-- Recording a value adds one entry, unless it takes the place of one. -/
theorem size_insert (t : NameTable α) (name : String) (value : α) :
    (t.insert name value).size + (t.contains name).toNat = t.size + 1 := by
  have herase : (t.insert name value).erase name = t.erase name := by
    apply ext_get?
    intro other
    by_cases hother : other = name <;> simp [hother]
  have hcontains : (t.insert name value).contains name = true := by simp [contains]
  have hinsert := size_erase (t.insert name value) name
  rw [herase, hcontains, Bool.toNat_true] at hinsert
  have hsize := size_erase t name
  omega

@[simp] theorem values_map (t : NameTable α) (f : α → β) :
    (t.map f).values = t.values.map f := by
  simp [values, map, mapWithName]

@[simp] theorem keys_mapWithName (t : NameTable α) (f : String → α → β) :
    (t.mapWithName f).keys = t.keys := by
  simp [keys, mapWithName]

end NameTable

end RenderPlan
