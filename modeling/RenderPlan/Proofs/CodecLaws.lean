import Mathlib.Data.List.Basic
import RenderPlan.Json.Record
import RenderPlan.Layers
import RenderPlan.Proofs.Rereading

/-!
# Laws of codecs

A codec obeys its law when a datum that is encoded, written, read and decoded comes back as it was,
up to what the text cannot hold. What that is differs from type to type: numbers that are not
finite make most data unreadable, and some data are settled to another form with the same meaning.
Laws of lists, tables and records follow from those of their parts.

## Main definitions

* `Json.ReadsBack`: the law of a codec
* `Json.memberOf?`: the tree written under a field's name

## Main results

* `Json.ReadsBack.list`, `Json.ReadsBack.table`: the laws of containers
* `Json.record?_of_rereads`, `Json.sharedRecord?_of_rereads`: a record is read from the members it
  was written as
* `Json.required_of_rereads`, `Json.withDefault_of_rereads`, `Json.optional_of_rereads`: so are its
  fields
-/

namespace RenderPlan.Json

open Value

/-- **The law of a codec**: whichever way the tree of a datum comes back, it is decoded exactly when
the datum's numbers are finite, and then to the settled datum. -/
def ReadsBack (α : Type) [Codec α] (finite : α → Bool) (settled : α → α) : Prop :=
  ∀ (a : α) (v : Value) (source : Source), (encode a).Rereads v →
    decode source v = if finite a then some (settled a) else none

/-- Every datum comes back as it was. -/
abbrev ReadsBackWhole (α : Type) [Codec α] : Prop := ReadsBack α (fun _ => true) id

section Laws

variable {α : Type} [Codec α] {finite finite' : α → Bool} {settled settled' : α → α}

theorem ReadsBack.congr (h : ReadsBack α finite settled) (hfinite : ∀ a, finite a = finite' a)
    (hsettled : ∀ a, settled a = settled' a) : ReadsBack α finite' settled' := by
  intro a v source hv
  rw [h a v source hv, hfinite, hsettled]

/-! ## Strings, words and numbers -/

theorem readsBack_string : ReadsBackWhole String := by
  intro s v source h
  cases h
  rfl

theorem readsBack_bool : ReadsBackWhole Bool := by
  intro b v source h
  cases h
  rfl

theorem readsBack_keyword {κ : Type} [Keyword κ] (h : ∀ a : κ, ofWord? (Keyword.word a) = some a) :
    ReadsBackWhole κ := by
  intro a v source hv
  cases hv
  exact h a

theorem readsBack_single : ReadsBack Binary32 Binary.isFinite id := by
  intro x v source h
  cases h with
  | number h =>
    rw [Number.Rereads] at h
    split at h
    · next hfinite =>
      obtain ⟨n, rfl, rfl⟩ := h
      rw [if_pos hfinite]
      rfl
    · next hfinite =>
      rw [h, if_neg hfinite]
      rfl

/-- A number that is not finite leaves `null`. -/
theorem rereads_null_of_not_isFinite (x : Binary32) (v : Value) (hx : x.isFinite = false)
    (h : (encode x).Rereads v) : v = .null := by
  cases h with
  | number h =>
    rw [Number.Rereads, if_neg (by simp [hx])] at h
    exact h

theorem natBelow?_natCast {limit n : Nat} (h : n < limit) :
    natBelow? limit (.number (.integer n)) = some n := by
  rw [natBelow?, if_pos ⟨Int.natCast_nonneg n, Int.ofNat_lt.mpr h⟩, Int.toNat_natCast]

theorem readsBack_uint32 : ReadsBackWhole UInt32 := by
  intro n v source h
  cases h with
  | number h =>
    obtain rfl := h
    show (natBelow? UInt32.size _).map UInt32.ofNat = some n
    rw [natBelow?_natCast n.toNat_lt, Option.map_some, UInt32.ofNat_toNat]

theorem readsBack_uint8 : ReadsBackWhole UInt8 := by
  intro n v source h
  cases h with
  | number h =>
    obtain rfl := h
    show (natBelow? UInt8.size _).map UInt8.ofNat = some n
    rw [natBelow?_natCast n.toNat_lt, Option.map_some, UInt8.ofNat_toNat]

/-! ## Containers -/

theorem mapM_of_rereadsAll (h : ReadsBack α finite settled) (source : Source) :
    ∀ {l : List α} {elements : List Value}, RereadsAll (l.map encode) elements →
      elements.mapM (decode source) = if l.all finite then some (l.map settled) else none
  | [], _, .nil => rfl
  | a :: l, _, .cons hv hrest => by
    rw [List.mapM_cons, h a _ source hv, mapM_of_rereadsAll h source hrest, List.all_cons]
    cases finite a <;> cases l.all finite <;> rfl

/-- **The law of lists.** -/
theorem ReadsBack.list (h : ReadsBack α finite settled) :
    ReadsBack (List α) (List.all · finite) (List.map settled) := by
  intro l v source hv
  cases hv with
  | array hv => exact mapM_of_rereadsAll h source hv

theorem ReadsBack.list_id (h : ReadsBack α finite id) :
    ReadsBack (List α) (List.all · finite) id :=
  ReadsBack.congr h.list (fun _ => rfl) fun l => by simp

theorem ReadsBackWhole.list (h : ReadsBackWhole α) : ReadsBackWhole (List α) :=
  ReadsBack.congr (ReadsBack.list_id h) (fun l => by simp) fun _ => rfl

theorem mapM_of_rereadsMembers (h : ReadsBack α finite settled) (source : Source) :
    ∀ {entries : List (String × α)} {members : List (String × Value)},
      RereadsMembers (entries.map fun entry => (entry.1, encode entry.2)) members →
      (members.mapM fun member => (decode source member.2).map fun a => (member.1, a)) =
        if entries.all fun entry => finite entry.2 then
          some (entries.map fun entry => (entry.1, settled entry.2))
        else none
  | [], _, .nil => rfl
  | (name, a) :: entries, _, .cons hv hrest => by
    rw [List.mapM_cons, h a _ source hv, mapM_of_rereadsMembers h source hrest, List.all_cons]
    cases finite a <;> cases entries.all fun entry => finite entry.2 <;> rfl

omit [Codec α] in
theorem ofList_mapEntries (t : NameTable α) (f : α → α) :
    NameTable.ofList (t.entries.map fun entry => (entry.1, f entry.2)) = t.map f :=
  NameTable.ext (NameTable.entries_ofList (t.map f).ascending)

/-- **The law of tables.** -/
theorem ReadsBack.table (h : ReadsBack α finite settled) :
    ReadsBack (NameTable α) (fun t => t.values.all finite) (fun t => t.map settled) := by
  intro t v source hv
  have hvalues : t.values.all finite = t.entries.all fun entry => finite entry.2 := by
    rw [NameTable.values, List.all_map]
    rfl
  cases hv with
  | @object _ members hv =>
    show (members.mapM fun member => (decode source member.2).map fun a => (member.1, a)).map
      NameTable.ofList = if t.values.all finite then some (t.map settled) else none
    rw [mapM_of_rereadsMembers h source hv, ← hvalues]
    cases t.values.all finite with
    | true => exact congrArg some (ofList_mapEntries t settled)
    | false => rfl

theorem ReadsBack.table_id (h : ReadsBack α finite id) :
    ReadsBack (NameTable α) (fun t => t.values.all finite) id :=
  ReadsBack.congr h.table (fun _ => rfl) fun t => NameTable.ext_get? fun name => by simp

theorem ReadsBackWhole.table (h : ReadsBackWhole α) : ReadsBackWhole (NameTable α) :=
  ReadsBack.congr (ReadsBack.table_id h) (fun t => by simp) fun _ => rfl

theorem readsBack_nameSet : ReadsBackWhole NameSet := by
  intro s v source hv
  have hlist : listOf? string? v = some s.toList :=
    ReadsBackWhole.list readsBack_string s.toList v source hv
  show (listOf? string? v).map NameSet.ofList = some s
  rw [hlist]
  -- a set is determined by its names, and the list that it is written as has no others
  refine congrArg some (NameSet.ext_mem fun name => ?_)
  rw [NameSet.mem_ofList, NameSet.mem_toList]

end Laws

/-! ## Records -/

/-- The tree written under a field's name. -/
def memberOf? (name : String) (members : List (String × Value)) : Option Value :=
  (members.find? fun member => member.1 == name).map Prod.snd

/-- The fields have different names, and every one is read under its own. -/
def WellNamed (fields : List Field) : Prop :=
  (fields.map Field.name).Nodup ∧ ∀ field ∈ fields, fieldNamed? fields field.name = some field

instance (fields : List Field) : Decidable (WellNamed fields) :=
  inferInstanceAs (Decidable (_ ∧ _))

/-- The members are those of some fields, in the order of the fields. -/
def AreOf (fields : List Field) (members : List (String × Value)) : Prop :=
  (members.map Prod.fst).Sublist (fields.map Field.name)

/-- No member belongs to a field. -/
def AreApartFrom (fields : List Field) (members : List (String × Value)) : Prop :=
  ∀ name ∈ members.map Prod.fst, fieldNamed? fields name = none

theorem AreOf.nil {fields : List Field} : AreOf fields [] := List.nil_sublist _

theorem AreOf.cons {field : Field} {fields : List Field} {v : Value}
    {members : List (String × Value)} (h : AreOf fields members) :
    AreOf (field :: fields) ((field.name, v) :: members) :=
  List.Sublist.cons_cons _ h

theorem AreOf.skip {field : Field} {fields : List Field} {members : List (String × Value)}
    (h : AreOf fields members) : AreOf (field :: fields) members :=
  List.Sublist.cons _ h

/-- A field that is written only when it is present comes before the later fields, if at all. -/
theorem AreOf.ifPresent {α : Type} [Codec α] {field : Field} {fields : List Field} {o : Option α}
    {members : List (String × Value)} (h : AreOf fields members) :
    AreOf (field :: fields) (memberIfPresent field.name o ++ members) := by
  cases o with
  | none => exact h.skip
  | some a => exact h.cons

theorem AreOf.areApartFrom {fields fields' : List Field} {members : List (String × Value)}
    (h : AreOf fields members) (hapart : ∀ field ∈ fields, fieldNamed? fields' field.name = none) :
    AreApartFrom fields' members := by
  intro name hname
  obtain ⟨field, hfield, rfl⟩ := List.mem_map.mp (h.subset hname)
  exact hapart field hfield

theorem AreApartFrom.append {fields : List Field} {xs ys : List (String × Value)}
    (hxs : AreApartFrom fields xs) (hys : AreApartFrom fields ys) :
    AreApartFrom fields (xs ++ ys) := by
  intro name hname
  rw [List.map_append, List.mem_append] at hname
  exact hname.elim (hxs name) (hys name)

section Records

variable {fields : List Field} {members members' xs ys zs : List (String × Value)}

theorem knownMembers_append : knownMembers fields (xs ++ ys) =
    knownMembers fields xs ++ knownMembers fields ys :=
  List.filterMap_append

theorem otherMembers_append : otherMembers fields (xs ++ ys) =
    otherMembers fields xs ++ otherMembers fields ys :=
  List.filter_append ..

theorem fieldNamed?_of_areOf (hfields : WellNamed fields) (h : AreOf fields members)
    {member : String × Value} (hmember : member ∈ members) :
    ∃ field, fieldNamed? fields member.1 = some field ∧ field.name = member.1 := by
  obtain ⟨field, hfield, hname⟩ := List.mem_map.mp (h.subset (List.mem_map_of_mem hmember))
  exact ⟨field, hname ▸ hfields.2 field hfield, hname⟩

theorem knownMembers_of_areOf (hfields : WellNamed fields) (h : AreOf fields members) :
    knownMembers fields members = members := by
  -- the field of a member bears the member's name, so nothing is renamed
  have hstep : ∀ member ∈ members, ((fieldNamed? fields member.1).map fun field =>
      (field.name, member.2)) = some member := by
    intro member hmember
    obtain ⟨field, hfield, hname⟩ := fieldNamed?_of_areOf hfields h hmember
    rw [hfield, Option.map_some, hname]
  rw [knownMembers, List.filterMap_congr hstep, List.filterMap_some]

theorem knownMembers_of_areApartFrom (h : AreApartFrom fields members) :
    knownMembers fields members = [] := by
  rw [knownMembers, List.filterMap_eq_nil_iff]
  intro member hmember
  rw [h member.1 (List.mem_map_of_mem hmember)]
  rfl

theorem otherMembers_of_areOf (hfields : WellNamed fields) (h : AreOf fields members) :
    otherMembers fields members = [] := by
  rw [otherMembers, List.filter_eq_nil_iff]
  intro member hmember
  obtain ⟨field, hfield, -⟩ := fieldNamed?_of_areOf hfields h hmember
  rw [hfield]
  exact Bool.false_ne_true

theorem otherMembers_of_areApartFrom (h : AreApartFrom fields members) :
    otherMembers fields members = members := by
  rw [otherMembers, List.filter_eq_self]
  intro member hmember
  rw [h member.1 (List.mem_map_of_mem hmember)]
  rfl

/-- **A closed record** is read from the members it was written as. -/
theorem record?_of_rereads (hfields : WellNamed fields) {v : Value} (source : Source)
    (h : (Value.object members).Rereads v) (hmembers : AreOf fields members) :
    ∃ members', v.record? source fields = some ⟨source, members'⟩ ∧
      RereadsMembers members members' := by
  cases h with
  | @object _ members' h =>
    refine ⟨members', ?_, h⟩
    have hmembers' : AreOf fields members' := by rwa [AreOf, h.names_eq]
    rw [record?, recordOf?, knownMembers_of_areOf hfields hmembers']
    exact if_pos (hmembers'.nodup hfields.1)

/-- **A record that shares its object** is read from its own members, wherever they stand, and hands
all others on. -/
theorem sharedRecord?_of_rereads (hfields : WellNamed fields) {v : Value} (source : Source)
    (h : (Value.object (xs ++ ys ++ zs)).Rereads v) (hown : AreOf fields (xs ++ zs))
    (hothers : AreApartFrom fields ys) :
    ∃ members' others, v.sharedRecord? source fields = some (⟨source, members'⟩, others) ∧
      RereadsMembers (xs ++ zs) members' ∧ (Value.object ys).Rereads others := by
  cases h with
  | object h =>
    -- what was read back falls into the same three parts
    obtain ⟨_, zs', rfl, hxys, hzs⟩ := rereadsMembers_append_iff.mp h
    obtain ⟨xs', ys', rfl, hxs, hys⟩ := rereadsMembers_append_iff.mp hxys
    have hxzs : RereadsMembers (xs ++ zs) (xs' ++ zs') :=
      rereadsMembers_append_iff.mpr ⟨xs', zs', rfl, hxs, hzs⟩
    have hown' : AreOf fields (xs' ++ zs') := by rwa [AreOf, hxzs.names_eq]
    have hothers' : AreApartFrom fields ys' := by rwa [AreApartFrom, hys.names_eq]
    have hknown : knownMembers fields (xs' ++ ys' ++ zs') = xs' ++ zs' := by
      rw [knownMembers_append, knownMembers_append, knownMembers_of_areApartFrom hothers',
        List.append_nil, ← knownMembers_append, knownMembers_of_areOf hfields hown']
    have hrest : otherMembers fields (xs' ++ ys' ++ zs') = ys' := by
      have hnone := otherMembers_of_areOf hfields hown'
      rw [otherMembers_append, List.append_eq_nil_iff] at hnone
      rw [otherMembers_append, otherMembers_append, hnone.1, hnone.2,
        otherMembers_of_areApartFrom hothers', List.nil_append, List.append_nil]
    refine ⟨xs' ++ zs', .object ys', ?_, hxzs, .object hys⟩
    rw [sharedRecord?, hrest, ← allMembersReadable_eq_all, hys.allMembersReadable, recordOf?,
      hknown]
    have hnodup : ((xs' ++ zs').map Prod.fst).Nodup := hown'.nodup hfields.1
    simp only [if_true, if_pos hnodup, Option.map_some]

/-! ## Fields -/

theorem memberOf?_of_rereads {name : String} (h : RereadsMembers members members') :
    (memberOf? name members = none ∧ memberOf? name members' = none) ∨
      ∃ v v', memberOf? name members = some v ∧ memberOf? name members' = some v' ∧
        v.Rereads v' := by
  induction members generalizing members' with
  | nil =>
    cases h
    exact .inl ⟨rfl, rfl⟩
  | cons member members ih =>
    cases h with
    | @cons other v v' _ _ h hrest =>
      rw [memberOf?, memberOf?, List.find?_cons, List.find?_cons]
      cases other == name with
      | true => exact .inr ⟨v, v', rfl, rfl, h⟩
      | false => exact ih hrest

variable {α : Type} [Codec α] {finite : α → Bool} {settled : α → α} {source : Source}
  {a : α} {o : Option α}

theorem field?_of_rereads (source : Source) (h : RereadsMembers members members') {name : String}
    {w : Value} (hname : memberOf? name members = some w) :
    ∃ v, Record.field? ⟨source, members'⟩ name = some v ∧ w.Rereads v := by
  rcases memberOf?_of_rereads h with ⟨hnone, -⟩ | ⟨w', v, hw, hv, hrereads⟩
  · rw [hnone] at hname
    cases hname
  · obtain rfl : w' = w := Option.some.inj (hw.symm.trans hname)
    exact ⟨v, hv, hrereads⟩

/-- **A field that has to be given** is read from the tree it was written as. -/
theorem required_of_rereads (hlaw : ReadsBack α finite settled)
    (h : RereadsMembers members members') (name : String)
    (hname : memberOf? name members = some (encode a)) :
    Record.required ⟨source, members'⟩ name = if finite a then some (settled a) else none := by
  obtain ⟨v, hfield, hv⟩ := field?_of_rereads source h hname
  rw [Record.required, hfield]
  exact hlaw a v source hv

/-- **A field with a default** is read from its tree, too, when it was written. -/
theorem withDefault_of_rereads (hlaw : ReadsBack α finite settled)
    (h : RereadsMembers members members') (name : String)
    (hname : memberOf? name members = some (encode a)) (default : α) :
    Record.withDefault ⟨source, members'⟩ name default =
      if finite a then some (settled a) else none := by
  obtain ⟨v, hfield, hv⟩ := field?_of_rereads source h hname
  rw [Record.withDefault, hfield]
  exact hlaw a v source hv

/-- **A table that is left out when empty** is read as empty then. -/
theorem withDefault_of_rereads_unlessEmpty {finite : NameTable α → Bool}
    {settled : NameTable α → NameTable α} (hlaw : ReadsBack (NameTable α) finite settled)
    (hfinite : finite .empty = true) (hsettled : settled .empty = .empty) {t : NameTable α}
    (h : RereadsMembers members members') (name : String)
    (hname : memberOf? name members = if t.isEmpty then none else some (encode t)) :
    Record.withDefault ⟨source, members'⟩ name .empty =
      if finite t then some (settled t) else none := by
  cases hempty : t.isEmpty with
  | false =>
    rw [hempty, if_neg Bool.false_ne_true] at hname
    exact withDefault_of_rereads hlaw h name hname .empty
  | true =>
    -- nothing was written, and what is read by default is empty as well
    obtain rfl : t = .empty := NameTable.ext (List.isEmpty_iff.mp hempty)
    rw [hempty, if_pos rfl] at hname
    rcases memberOf?_of_rereads h with ⟨-, hnone⟩ | ⟨w, v, hw, -, -⟩
    · rw [Record.withDefault, Record.field?, ← memberOf?, hnone, hfinite, hsettled]
      rfl
    · rw [hname] at hw
      cases hw

/-- **A field that may be absent** is present when it was written and its numbers are finite, if
numbers that are not finite leave nothing but `null`. -/
theorem optional_of_rereads (hlaw : ReadsBack α finite settled)
    (hnull : decode source .null = (none : Option α))
    (hlost : ∀ a v, finite a = false → (encode (α := α) a).Rereads v → v = .null)
    (h : RereadsMembers members members') (name : String)
    (hname : memberOf? name members = o.map encode) :
    Record.optional ⟨source, members'⟩ name = some ((o.filter finite).map settled) := by
  rw [Record.optional]
  cases o with
  | none =>
    rcases memberOf?_of_rereads h with ⟨-, hnone⟩ | ⟨w, v, hw, -, -⟩
    · rw [Record.field?, ← memberOf?, hnone]
      rfl
    · rw [hname] at hw
      cases hw
  | some a =>
    obtain ⟨v, hfield, hv⟩ := field?_of_rereads source h hname
    rw [hfield]
    have hdecode := hlaw a v source hv
    cases hfinite : finite a with
    | false =>
      rw [hlost a v hfinite hv, Option.filter_some_neg (by simp [hfinite])]
      rfl
    | true =>
      rw [hfinite, if_pos rfl] at hdecode
      rw [Option.filter_some_pos hfinite]
      -- any tree but `null` is decoded, and `null` cannot be the tree of a finite datum
      cases v with
      | null =>
        rw [hnull] at hdecode
        cases hdecode
      | _ => exact congrArg (Option.map some) hdecode

/-- An optional field of a type that always comes back is present when it was written. -/
theorem optional_of_rereads_whole (hlaw : ReadsBack α (fun _ => true) settled)
    (hnull : decode source .null = (none : Option α)) (h : RereadsMembers members members')
    (name : String) (hname : memberOf? name members = o.map encode) :
    Record.optional ⟨source, members'⟩ name = some (o.map settled) := by
  rw [optional_of_rereads hlaw hnull (fun _ _ hlost => (nomatch hlost)) h name hname]
  cases o <;> rfl

end Records

end RenderPlan.Json
