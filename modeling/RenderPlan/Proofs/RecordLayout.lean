import RenderPlan.Proofs.LayoutLaws

/-!
# The layout of records

A change of layout in an object that is read as a record shows in one of two places. Among the
members found for the fields it permutes them, changes one or drops one that spells out a default,
and each field is read as before. Or it shows among the members handed on to an embedded record,
and then it is a change of layout of what that record is read from.

## Main definitions

* `Json.KnownStep`: a change of layout, seen on the members found for a record's fields
* `Json.Relaid`: a tree is as it was or has changed its layout
* `Json.FieldStep`, `Json.SameFields`: a field, or every field, is read alike

## Main results

* `Json.Step.knownMembers_and_otherMembers`: where a change shows
* `Json.bind_record?_eq`, `Json.bind_sharedRecord?_eq`: the laws of records
* `Json.SameFields.required`, `Json.SameFields.withDefault`, `Json.SameFields.optional`: fields that
  are read alike
-/

namespace RenderPlan.Json

open Value

/-- A field that has to be given. -/
def FieldReading.required (α : Type) [HasReading α] (source : Source) (field : Field) :
    FieldReading Reading :=
  ⟨field, fun _ => False, HasReading.reading α source⟩

/-- A field that may be left out. -/
def FieldReading.withDefault (α : Type) [Codec α] [HasReading α] (source : Source) (field : Field)
    (default : α) : FieldReading Reading :=
  ⟨field, fun v => decode source v = some default, HasReading.reading α source⟩

/-- A field that may be left out or be `null`. -/
def FieldReading.optional (α : Type) [HasReading α] (source : Source) (field : Field) :
    FieldReading Reading :=
  ⟨field, fun v => v = .null, HasReading.reading α source⟩

section Members

variable {fields own rest : List (FieldReading Reading)} {f g : FieldReading Reading}
  {name : String} {v : Value} {before after members members' : List (String × Value)}

/-! ## Fields by name -/

/-- The fields have different names. -/
abbrev NamesDiffer (fields : List (FieldReading Reading)) : Prop :=
  (fields.map fun f => f.field.name).Nodup

theorem fieldNamed?_map_field :
    fieldNamed? (fields.map FieldReading.field) name =
      (readingNamed? fields name).map FieldReading.field :=
  List.find?_map

theorem readingNamed?_append :
    readingNamed? (own ++ rest) name = (readingNamed? own name).or (readingNamed? rest name) :=
  List.find?_append

theorem mem_of_readingNamed? (h : readingNamed? fields name = some f) : f ∈ fields :=
  List.mem_of_find?_eq_some h

theorem NamesDiffer.eq_of_name_eq (h : NamesDiffer fields) (hf : f ∈ fields) (hg : g ∈ fields)
    (heq : f.field.name = g.field.name) : f = g :=
  List.inj_on_of_nodup_map h hf hg heq

theorem NamesDiffer.of_append_left (h : NamesDiffer (own ++ rest)) : NamesDiffer own := by
  rw [NamesDiffer, List.map_append] at h
  exact List.Nodup.of_append_left h

/-- A member of one of the record's own fields is found for it. -/
theorem readingNamed?_of_mem_own (hnames : NamesDiffer (own ++ rest)) (hf : f ∈ own)
    (h : readingNamed? (own ++ rest) name = some f) : readingNamed? own name = some f := by
  rw [readingNamed?_append, Option.or_eq_some_iff] at h
  rcases h with h | ⟨-, h⟩
  · exact h
  · -- no field stands on both sides
    rw [NamesDiffer, List.map_append, List.nodup_append] at hnames
    exact absurd rfl (hnames.2.2 _ (List.mem_map_of_mem hf) _
      (List.mem_map_of_mem (mem_of_readingNamed? h)))

/-- A member of another field is handed on. -/
theorem readingNamed?_of_not_mem_own (hf : f ∉ own)
    (h : readingNamed? (own ++ rest) name = some f) :
    readingNamed? own name = none ∧ readingNamed? rest name = some f := by
  rw [readingNamed?_append, Option.or_eq_some_iff] at h
  exact h.resolve_left fun h => hf (mem_of_readingNamed? h)

/-! ## Members of fields and others -/

theorem knownMembers_append_cons_of_eq_some (h : readingNamed? own name = some f) :
    knownMembers (own.map FieldReading.field) (before ++ (name, v) :: after) =
      knownMembers (own.map FieldReading.field) before ++
        (f.field.name, v) :: knownMembers (own.map FieldReading.field) after := by
  rw [knownMembers_append, knownMembers, knownMembers, List.filterMap_cons, fieldNamed?_map_field,
    h]
  rfl

theorem knownMembers_append_cons_of_eq_none (h : readingNamed? own name = none) :
    knownMembers (own.map FieldReading.field) (before ++ (name, v) :: after) =
      knownMembers (own.map FieldReading.field) (before ++ after) := by
  rw [knownMembers_append, knownMembers_append, knownMembers, knownMembers, List.filterMap_cons,
    fieldNamed?_map_field, h]
  rfl

theorem otherMembers_append_cons_of_eq_some (h : readingNamed? own name = some f) :
    otherMembers (own.map FieldReading.field) (before ++ (name, v) :: after) =
      otherMembers (own.map FieldReading.field) (before ++ after) := by
  rw [otherMembers_append, otherMembers_append, otherMembers, otherMembers, List.filter_cons,
    fieldNamed?_map_field, h]
  rfl

theorem otherMembers_append_cons_of_eq_none (h : readingNamed? own name = none) :
    otherMembers (own.map FieldReading.field) (before ++ (name, v) :: after) =
      otherMembers (own.map FieldReading.field) before ++
        (name, v) :: otherMembers (own.map FieldReading.field) after := by
  rw [otherMembers_append, otherMembers, otherMembers, List.filter_cons, fieldNamed?_map_field, h]
  rfl

theorem mem_otherMembers_iff {member : String × Value} :
    member ∈ otherMembers (own.map FieldReading.field) members ↔
      member ∈ members ∧ readingNamed? own member.1 = none := by
  rw [otherMembers, List.mem_filter, fieldNamed?_map_field]
  simp

/-- A member that is no field of the record itself is read as the embedded record reads it. -/
theorem member_record_append (h : readingNamed? own name = none) :
    (Reading.record (own ++ rest)).member name = (Reading.record rest).member name := by
  rw [Reading.member, Reading.member, readingNamed?_append, h, Option.none_or]

/-- A member of one of the record's own fields is read as that field. -/
theorem member_record_append_of_own (h : readingNamed? own name = some f) :
    (Reading.record (own ++ rest)).member name = f.reading := by
  rw [Reading.member, readingNamed?_append, h]
  rfl

/-- What is handed on fits the embedded record. -/
theorem Fits.otherMembers (h : Fits (.record (own ++ rest)) (.object members)) :
    Fits (.record rest) (.object (otherMembers (own.map FieldReading.field) members)) := by
  obtain ⟨-, h⟩ := fits_object_iff.mp h
  refine .object _ nodup_names_of_record fun member hmember => ?_
  obtain ⟨hmember, hnone⟩ := mem_otherMembers_iff.mp hmember
  rw [← member_record_append hnone]
  exact h member hmember

/-! ## Where a change shows -/

/-- **A change of layout**, seen on the members found for the fields of a record. -/
inductive KnownStep (fields : List (FieldReading Reading)) :
    List (String × Value) → List (String × Value) → Prop where
  | permute {known known' : List (String × Value)} (h : known.Perm known') :
      KnownStep fields known known'
  | value (before after : List (String × Value)) {f : FieldReading Reading} {v w : Value}
      (hf : f ∈ fields) (hfits : Fits f.reading v) (h : Step true f.reading v w) :
      KnownStep fields (before ++ (f.field.name, v) :: after)
        (before ++ (f.field.name, w) :: after)
  | drop (before after : List (String × Value)) {f : FieldReading Reading} {v : Value}
      (hf : f ∈ fields) (hdefault : f.isDefault v)
      (halone : f.field.name ∉ (before ++ after).map Prod.fst) :
      KnownStep fields (before ++ (f.field.name, v) :: after) (before ++ after)

theorem KnownStep.of_eq {known known' : List (String × Value)} (h : known' = known) :
    KnownStep own known known' :=
  .permute (h ▸ .refl _)

/-- A tree that is as it was, or has changed its layout. -/
inductive Relaid (r : Reading) (v : Value) : Value → Prop where
  | same : Relaid r v v
  | step {w : Value} (hfits : Fits r v) (h : Step true r v w) : Relaid r v w

theorem Relaid.of_eq {r : Reading} {w : Value} (h : w = v) : Relaid r v w := h ▸ .same

/-- The only member of a field is the only one found for it. -/
theorem not_mem_names_knownMembers (hnames : NamesDiffer own) (hf : f ∈ own)
    (halone : ∀ other ∈ before ++ after, readingNamed? own other.1 ≠ some f) :
    f.field.name ∉ (knownMembers (own.map FieldReading.field) before ++
      knownMembers (own.map FieldReading.field) after).map Prod.fst := by
  rw [← knownMembers_append]
  intro hmem
  obtain ⟨known, hknown, hname⟩ := List.mem_map.mp hmem
  obtain ⟨other, hother, h⟩ := List.mem_filterMap.mp hknown
  rw [fieldNamed?_map_field, Option.map_map] at h
  obtain ⟨g, hg, rfl⟩ := Option.map_eq_some_iff.mp h
  have hgf : g = f := hnames.eq_of_name_eq (mem_of_readingNamed? hg) hf hname
  exact halone other hother (hgf ▸ hg)

/-- A default dropped from one of the record's own fields is dropped among the members found. -/
theorem KnownStep.drop_of_alone (hnames : NamesDiffer (own ++ rest)) (hf : f ∈ own)
    (hname : readingNamed? (own ++ rest) name = some f) (hdefault : f.isDefault v)
    (halone : ∀ other ∈ before ++ after, readingNamed? (own ++ rest) other.1 ≠ some f) :
    KnownStep own (knownMembers (own.map FieldReading.field) (before ++ (name, v) :: after))
      (knownMembers (own.map FieldReading.field) (before ++ after)) := by
  have haloneOwn : ∀ other ∈ before ++ after, readingNamed? own other.1 ≠ some f := by
    intro other hother hown
    exact halone other hother (by rw [readingNamed?_append, hown, Option.some_or])
  rw [knownMembers_append_cons_of_eq_some (readingNamed?_of_mem_own hnames hf hname),
    knownMembers_append]
  exact .drop _ _ hf hdefault (not_mem_names_knownMembers hnames.of_append_left hf haloneOwn)

/-- A default dropped from a field of the embedded record is dropped among what is handed on. -/
theorem Step.drop_otherMembers (hown : readingNamed? own name = none)
    (hrest : readingNamed? rest name = some f) (hdefault : f.isDefault v)
    (halone : ∀ other ∈ before ++ after, readingNamed? (own ++ rest) other.1 ≠ some f) :
    Step true (.record rest)
      (.object (otherMembers (own.map FieldReading.field) (before ++ (name, v) :: after)))
      (.object (otherMembers (own.map FieldReading.field) (before ++ after))) := by
  rw [otherMembers_append_cons_of_eq_none hown, otherMembers_append]
  refine .drop _ _ _ name v hrest hdefault fun _ other hother hother' => ?_
  rw [← otherMembers_append] at hother
  obtain ⟨hother, hnone⟩ := mem_otherMembers_iff.mp hother
  exact halone other hother (by rw [readingNamed?_append, hnone, Option.none_or, hother'])

/-- **A change in a record's object** shows among the members of the record's own fields or among
those that are handed on. -/
theorem Step.knownMembers_and_otherMembers (hnames : NamesDiffer (own ++ rest))
    (hfits : Fits (.record (own ++ rest)) (.object members))
    (h : Step true (.record (own ++ rest)) (.object members) (.object members')) :
    KnownStep own (knownMembers (own.map FieldReading.field) members)
        (knownMembers (own.map FieldReading.field) members') ∧
      Relaid (.record rest) (.object (otherMembers (own.map FieldReading.field) members))
        (.object (otherMembers (own.map FieldReading.field) members')) := by
  have hothers := hfits.otherMembers
  -- each change but a permutation is at one member, and shows where that member goes: it is found
  -- for a field of the record's own, or it is handed on
  cases h with
  | permute _ hperm =>
    exact ⟨.permute (hperm.filterMap _), .step hothers (.permute _ (hperm.filter _))⟩
  | add _ before after name v hname hv =>
    rw [readingNamed?_append, Option.or_eq_none_iff] at hname
    obtain ⟨hown, hrest⟩ := hname
    refine ⟨.of_eq (knownMembers_append_cons_of_eq_none hown), .step hothers ?_⟩
    rw [otherMembers_append_cons_of_eq_none hown, otherMembers_append]
    exact .add _ _ _ name v hrest hv
  | @respell _ before after name name' v f hname hname' =>
    by_cases hf : f ∈ own
    · -- both names are found as the field's own name, so nothing shows
      have hown := readingNamed?_of_mem_own hnames hf hname
      have hown' := readingNamed?_of_mem_own hnames hf hname'
      refine ⟨.of_eq ?_, .of_eq ?_⟩
      · rw [knownMembers_append_cons_of_eq_some hown, knownMembers_append_cons_of_eq_some hown']
      · rw [otherMembers_append_cons_of_eq_some hown, otherMembers_append_cons_of_eq_some hown']
    · obtain ⟨hown, hrest⟩ := readingNamed?_of_not_mem_own hf hname
      obtain ⟨hown', hrest'⟩ := readingNamed?_of_not_mem_own hf hname'
      refine ⟨.of_eq ?_, .step hothers ?_⟩
      · rw [knownMembers_append_cons_of_eq_none hown, knownMembers_append_cons_of_eq_none hown']
      · rw [otherMembers_append_cons_of_eq_none hown, otherMembers_append_cons_of_eq_none hown']
        exact .respell _ _ _ name name' v hrest hrest'
  | @drop _ before after name v f hname hdefault halone =>
    by_cases hf : f ∈ own
    · have hown := readingNamed?_of_mem_own hnames hf hname
      exact ⟨.drop_of_alone hnames hf hname hdefault (halone rfl),
        .of_eq (congrArg _ (otherMembers_append_cons_of_eq_some hown).symm)⟩
    · obtain ⟨hown, hrest⟩ := readingNamed?_of_not_mem_own hf hname
      exact ⟨.of_eq (knownMembers_append_cons_of_eq_none hown).symm,
        .step hothers (.drop_otherMembers hown hrest hdefault (halone rfl))⟩
  | @member _ before after name v w h =>
    cases hown : readingNamed? own name with
    | some f =>
      have hreading : (Reading.record (own ++ rest)).member name = f.reading :=
        member_record_append_of_own hown
      have hv : Fits f.reading v := hreading ▸ (fits_object_append_cons_iff.mp hfits).2.1
      refine ⟨?_, .of_eq ?_⟩
      · rw [knownMembers_append_cons_of_eq_some hown, knownMembers_append_cons_of_eq_some hown]
        exact .value _ _ (mem_of_readingNamed? hown) hv (hreading ▸ h)
      · rw [otherMembers_append_cons_of_eq_some hown, otherMembers_append_cons_of_eq_some hown]
    | none =>
      refine ⟨.of_eq ?_, .step hothers ?_⟩
      · rw [knownMembers_append_cons_of_eq_none hown, knownMembers_append_cons_of_eq_none hown]
      · rw [otherMembers_append_cons_of_eq_none hown, otherMembers_append_cons_of_eq_none hown]
        exact .member _ _ _ name (member_record_append hown ▸ h)

/-! ## The member of a field -/

theorem memberOf?_eq_none (h : name ∉ members.map Prod.fst) : memberOf? name members = none := by
  rw [memberOf?, Option.map_eq_none_iff, List.find?_eq_none]
  intro member hmember heq
  exact h (List.mem_map.mpr ⟨member, hmember, beq_iff_eq.mp heq⟩)

theorem memberOf?_append_cons_self (h : name ∉ before.map Prod.fst) :
    memberOf? name (before ++ (name, v) :: after) = some v := by
  have hnone := memberOf?_eq_none h
  rw [memberOf?, Option.map_eq_none_iff] at hnone
  rw [memberOf?, List.find?_append, hnone, Option.none_or,
    List.find?_cons_of_pos (by exact beq_self_eq_true name), Option.map_some]

theorem memberOf?_append_cons_of_ne {other : String} (h : other ≠ name) :
    memberOf? name (before ++ (other, v) :: after) = memberOf? name (before ++ after) := by
  rw [memberOf?, memberOf?, List.find?_append, List.find?_append, List.find?_cons_of_neg]
  simpa using h

theorem memberOf?_perm (h : members.Perm members') (hnames : (members.map Prod.fst).Nodup) :
    memberOf? name members = memberOf? name members' := by
  refine congrArg (Option.map Prod.snd) (List.find?_eq_find?_of_perm h ?_)
  rintro a ⟨ha, hname⟩ b ⟨hb, hname'⟩
  exact List.inj_on_of_nodup_map hnames ha hb
    ((beq_iff_eq.mp hname).trans (beq_iff_eq.mp hname').symm)

/-- **What a change of layout does to the member of a field**: nothing, or its tree is laid out
otherwise, or it spelled out the default and is gone. -/
inductive FieldStep (f : FieldReading Reading) : Option Value → Option Value → Prop where
  | same (o : Option Value) : FieldStep f o o
  | step {v w : Value} (hfits : Fits f.reading v) (h : Step true f.reading v w) :
      FieldStep f (some v) (some w)
  | drop {v : Value} (hdefault : f.isDefault v) : FieldStep f (some v) none

theorem FieldStep.of_eq {o o' : Option Value} (h : o' = o) : FieldStep f o o' := h ▸ .same o'

namespace KnownStep

variable {known known' : List (String × Value)}

/-- A field that is given twice stays so. -/
theorem nodup_iff (h : KnownStep fields known known') :
    (known.map Prod.fst).Nodup ↔ (known'.map Prod.fst).Nodup := by
  cases h with
  | permute h => exact (h.map Prod.fst).nodup_iff
  | value => simp only [List.map_append, List.map_cons]
  | drop before after hf hdefault halone =>
    rw [(List.perm_middle.map Prod.fst).nodup_iff, List.map_cons, List.nodup_cons]
    exact and_iff_right halone

theorem fieldStep (h : KnownStep fields known known') (hnames : NamesDiffer fields)
    (hknown : (known.map Prod.fst).Nodup) (hf : f ∈ fields) :
    FieldStep f (memberOf? f.field.name known) (memberOf? f.field.name known') := by
  cases h with
  | permute h => exact .of_eq (memberOf?_perm h hknown).symm
  | @value before after g v w hg hfits h =>
    by_cases hgf : g = f
    · subst hgf
      rw [List.map_append, List.map_cons] at hknown
      have hbefore : g.field.name ∉ before.map Prod.fst := fun hmem =>
        (List.nodup_append.mp hknown).2.2 _ hmem _ (List.mem_cons_self ..) rfl
      rw [memberOf?_append_cons_self hbefore, memberOf?_append_cons_self hbefore]
      exact .step hfits h
    · have hne : g.field.name ≠ f.field.name := fun heq => hgf (hnames.eq_of_name_eq hg hf heq)
      rw [memberOf?_append_cons_of_ne hne, memberOf?_append_cons_of_ne hne]
      exact .same _
  | @drop before after g v hg hdefault halone =>
    by_cases hgf : g = f
    · subst hgf
      have hbefore : g.field.name ∉ before.map Prod.fst := fun hmem =>
        halone (by rw [List.map_append]; exact List.mem_append_left _ hmem)
      rw [memberOf?_append_cons_self hbefore, memberOf?_eq_none halone]
      exact .drop hdefault
    · have hne : g.field.name ≠ f.field.name := fun heq => hgf (hnames.eq_of_name_eq hg hf heq)
      exact .of_eq (memberOf?_append_cons_of_ne hne).symm

end KnownStep

end Members

/-! ## Records that are read alike -/

/-- **The fields of two records are read alike.** -/
structure SameFields (source : Source) (fields : List (FieldReading Reading)) (r r' : Record) :
    Prop where
  source_eq : r.source = source
  source_eq' : r'.source = source
  fieldStep : ∀ f ∈ fields, FieldStep f (r.field? f.field.name) (r'.field? f.field.name)

section Records

variable {source : Source} {fields own rest : List (FieldReading Reading)}

theorem KnownStep.sameFields {known known' : List (String × Value)}
    (h : KnownStep fields known known') (hnames : NamesDiffer fields)
    (hknown : (known.map Prod.fst).Nodup) :
    SameFields source fields ⟨source, known⟩ ⟨source, known'⟩ :=
  ⟨rfl, rfl, fun _ hf => h.fieldStep hnames hknown hf⟩

theorem recordOf?_of_knownStep {members members' : List (String × Value)}
    (h : KnownStep fields (knownMembers (fields.map FieldReading.field) members)
      (knownMembers (fields.map FieldReading.field) members')) (hnames : NamesDiffer fields) :
    Option.Rel (SameFields source fields)
      (recordOf? source (fields.map FieldReading.field) members)
      (recordOf? source (fields.map FieldReading.field) members') := by
  rw [recordOf?, recordOf?]
  by_cases hknown : ((knownMembers (fields.map FieldReading.field) members).map Prod.fst).Nodup
  · rw [if_pos hknown, if_pos (h.nodup_iff.mp hknown)]
    exact .some (h.sameFields hnames hknown)
  · rw [if_neg hknown, if_neg fun hknown' => hknown (h.nodup_iff.mpr hknown')]
    exact .none

/-- A change in the array that a record is read from changes one field. -/
theorem knownStep_zip (hnames : NamesDiffer fields) {before after : List Value} {v w : Value}
    (hlength : (before ++ v :: after).length ≤ fields.length)
    (hfits : Fits ((Reading.record fields).element before.length) v)
    (h : Step true ((Reading.record fields).element before.length) v w) :
    KnownStep fields ((fields.map fun f => f.field.name).zip (before ++ v :: after))
      ((fields.map fun f => f.field.name).zip (before ++ w :: after)) := by
  have hlt : before.length < fields.length := by
    rw [List.length_append, List.length_cons] at hlength
    omega
  obtain ⟨first, f, last, rfl, hfirst⟩ : ∃ first f last,
      fields = first ++ f :: last ∧ first.length = before.length :=
    ⟨fields.take before.length, fields[before.length], fields.drop (before.length + 1),
      by simp, by simp [Nat.le_of_lt hlt]⟩
  have hreading : (Reading.record (first ++ f :: last)).element before.length = f.reading := by
    rw [Reading.element, ← hfirst]
    simp
  rw [hreading] at hfits h
  -- whatever stands at the place is matched with the same field, and the others as before
  have hzip (u : Value) :
      ((first ++ f :: last).map fun f => f.field.name).zip (before ++ u :: after) =
        (first.map fun f => f.field.name).zip before ++
          (f.field.name, u) :: (last.map fun f => f.field.name).zip after := by
    rw [List.map_append, List.map_cons, List.zip_append (by rw [List.length_map, hfirst]),
      List.zip_cons_cons]
  rw [hzip, hzip]
  exact .value _ _ (by simp) hfits h

theorem map_fst_zip_sublist {α β : Type} : ∀ (xs : List α) (ys : List β),
    ((xs.zip ys).map Prod.fst).Sublist xs
  | [], _ => List.Sublist.refl []
  | _ :: _, [] => List.nil_sublist _
  | x :: xs, _ :: ys => (map_fst_zip_sublist xs ys).cons_cons x

/-- **A closed record**: a change of layout in its tree leaves its fields alike, and a tree that is
none of its own stays so. -/
theorem record?_step (hnames : NamesDiffer fields) {v w : Value} (hfits : Fits (.record fields) v)
    (h : Step true (.record fields) v w) :
    Option.Rel (SameFields source fields) (v.record? source (fields.map FieldReading.field))
      (w.record? source (fields.map FieldReading.field)) := by
  rcases h.eq_array_or_eq_object with
    ⟨elements, elements', rfl, rfl⟩ | ⟨members, members', rfl, rfl⟩
  · cases h with
    | @element _ before after v w h =>
      have hv : Fits ((Reading.record fields).element before.length) v :=
        fits_array_iff.mp hfits before.length v (by simp)
      have hsame : (before ++ w :: after).length = (before ++ v :: after).length := by simp
      rw [record?, record?, hsame, List.length_map]
      by_cases hlength : (before ++ v :: after).length ≤ fields.length
      · rw [if_pos hlength, if_pos hlength, List.map_map]
        exact .some ((knownStep_zip hnames hlength hv h).sameFields hnames
          (hnames.sublist (map_fst_zip_sublist _ _)))
      · rw [if_neg hlength, if_neg hlength]
        exact .none
  · rw [← List.append_nil fields] at hnames hfits h
    have hknown := (Step.knownMembers_and_otherMembers hnames hfits h).1
    exact recordOf?_of_knownStep hknown hnames.of_append_left

/-- **A record that shares its object**: its own fields are left alike, and what it hands on is as
it was or has changed its layout. -/
theorem sharedRecord?_step (hnames : NamesDiffer (own ++ rest)) {v w : Value}
    (hfits : Fits (.record (own ++ rest)) v) (h : Step true (.record (own ++ rest)) v w) :
    Option.Rel (fun a b => SameFields source own a.1 b.1 ∧ Relaid (.record rest) a.2 b.2)
      (v.sharedRecord? source (own.map FieldReading.field))
      (w.sharedRecord? source (own.map FieldReading.field)) := by
  rcases h.eq_array_or_eq_object with
    ⟨elements, elements', rfl, rfl⟩ | ⟨members, members', rfl, rfl⟩
  · exact .none
  · have hreadable {members : List (String × Value)}
        (hfits : Fits (.record (own ++ rest)) (.object members)) :
        (otherMembers (own.map FieldReading.field) members).all
          (fun member => member.2.isReadable) = true := by
      rw [← allMembersReadable_eq_all]
      exact hfits.otherMembers.isReadable
    obtain ⟨hknown, hothers⟩ := Step.knownMembers_and_otherMembers hnames hfits h
    have hrecord : Option.Rel (SameFields source own) _ _ :=
      recordOf?_of_knownStep hknown hnames.of_append_left
    rw [sharedRecord?, sharedRecord?, if_pos (hreadable hfits), if_pos (hreadable (h.fits hfits))]
    generalize recordOf? source (own.map FieldReading.field) members = o,
      recordOf? source (own.map FieldReading.field) members' = o' at hrecord
    cases hrecord with
    | none => exact .none
    | some hsame => exact .some ⟨hsame, hothers⟩

/-- **The law of closed records** whose fields are read alike. -/
theorem bind_record?_eq {α : Type} (fields : List (FieldReading Reading))
    {ofRecord? : Record → Option α} (hnames : NamesDiffer fields)
    (hfields : ∀ r r', SameFields source fields r r' → ofRecord? r' = ofRecord? r) {v w : Value}
    (hfits : Fits (.record fields) v) (h : Step true (.record fields) v w) :
    (w.record? source (fields.map FieldReading.field)).bind ofRecord? =
      (v.record? source (fields.map FieldReading.field)).bind ofRecord? :=
  (bind_eq_bind_of_rel (record?_step hnames hfits h) fun r r' _ hsame =>
    (hfields r r' hsame).symm).symm

/-- **The law of records that share their object** with one that obeys its law. -/
theorem bind_sharedRecord?_eq {α : Type} (own rest : List (FieldReading Reading))
    {ofRecord? : Record × Value → Option α} (hnames : NamesDiffer (own ++ rest))
    (hfields : ∀ r r' others others', SameFields source own r r' →
      Relaid (.record rest) others others' → ofRecord? (r', others') = ofRecord? (r, others))
    {v w : Value} (hfits : Fits (.record (own ++ rest)) v)
    (h : Step true (.record (own ++ rest)) v w) :
    (w.sharedRecord? source (own.map FieldReading.field)).bind ofRecord? =
      (v.sharedRecord? source (own.map FieldReading.field)).bind ofRecord? :=
  (bind_eq_bind_of_rel (sharedRecord?_step hnames hfits h) fun a b _ hsame =>
    (hfields a.1 b.1 a.2 b.2 hsame.1 hsame.2).symm).symm

/-! ## Fields that are read alike -/

namespace SameFields

variable {α : Type} [Codec α] [HasReading α] [LaidOut α] {r r' : Record} {field : Field}

/-- The field written under a name. -/
theorem fieldStep_of_find? (h : SameFields source fields r r') {name : String}
    {f : FieldReading Reading}
    (hf : fields.find? (fun f => f.field.name == name) = some f) :
    FieldStep f (r.field? name) (r'.field? name) := by
  have hname : f.field.name = name := by simpa using List.find?_some hf
  exact hname ▸ h.fieldStep f (List.mem_of_find?_eq_some hf)

/-- **A field that has to be given.** -/
theorem required (h : SameFields source fields r r') (name : String)
    (hf : fields.find? (fun f => f.field.name == name) = some (.required α source field)) :
    r'.required name = (r.required name : Option α) := by
  rw [Record.required, Record.required, h.source_eq, h.source_eq']
  have hstep := h.fieldStep_of_find? hf
  generalize r.field? name = o, r'.field? name = o' at hstep
  cases hstep with
  | same => rfl
  | step hfits hstep => exact LaidOut.decode_eq hfits hstep
  | drop hdefault => exact hdefault.elim

/-- **A field that may be left out.** -/
theorem withDefault (h : SameFields source fields r r') (name : String) {default : α}
    (hf : fields.find? (fun f => f.field.name == name) =
      some (.withDefault α source field default)) :
    r'.withDefault name default = r.withDefault name default := by
  rw [Record.withDefault, Record.withDefault, h.source_eq, h.source_eq']
  have hstep := h.fieldStep_of_find? hf
  generalize r.field? name = o, r'.field? name = o' at hstep
  cases hstep with
  | same => rfl
  | step hfits hstep => exact LaidOut.decode_eq hfits hstep
  | drop hdefault => exact hdefault.symm

omit [Codec α] [HasReading α] [LaidOut α] in
theorem optionOf?_of_ne_null {read : Value → Option α} {v : Value} (h : v ≠ .null) :
    v.optionOf? read = (read v).map some := by
  cases v with
  | null => exact absurd rfl h
  | _ => rfl

/-- **A field that may be left out or be `null`.** -/
theorem optional (h : SameFields source fields r r') (name : String)
    (hf : fields.find? (fun f => f.field.name == name) = some (.optional α source field)) :
    r'.optional name = (r.optional name : Option (Option α)) := by
  rw [Record.optional, Record.optional, h.source_eq, h.source_eq']
  have hstep := h.fieldStep_of_find? hf
  generalize r.field? name = o, r'.field? name = o' at hstep
  cases hstep with
  | same => rfl
  | step hfits hstep =>
    -- a container is not `null`, and stays a container
    obtain ⟨hv, hw⟩ := hstep.ne_null
    exact (optionOf?_of_ne_null hw).trans
      ((congrArg (Option.map some) (LaidOut.decode_eq hfits hstep)).trans
        (optionOf?_of_ne_null hv).symm)
  | drop hdefault =>
    cases hdefault
    rfl

end SameFields

/-- **What is read of the members handed on** is the same. -/
theorem Relaid.decode_eq {α : Type} [Codec α] [HasReading α] [LaidOut α] {v w : Value}
    (h : Relaid (HasReading.reading α source) v w) :
    decode source w = (decode source v : Option α) := by
  cases h with
  | same => rfl
  | step hfits h => exact LaidOut.decode_eq hfits h

end Records

end RenderPlan.Json
