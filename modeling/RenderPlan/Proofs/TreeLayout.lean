import Mathlib.Data.List.Nodup
import RenderPlan.Json.Record

/-!
# The layout of trees

A tree says the same when it is laid out otherwise: when the members of an object stand in another
order, when a member is given under another spelling of its field, when a member is added that is no
field of the record read there, and when a member that spells out its field's default is dropped.
Which of these apply where depends on what a part of the tree is read as.

## Main definitions

* `Json.Reading`: what a tree is read as, as far as its layout goes
* `Json.Step`: one change of layout, anywhere in a tree
* `Json.Value.distinctNames`: no object of the tree gives a name twice
* `Json.Fits`: a tree is readable and its tables give no name twice

## Main results

* `Json.fits_of_distinctNames`: a readable tree with distinct names fits every reading
* `Json.Step.fits`: a tree that fits still does after a change of layout
-/

namespace RenderPlan.Json

/-! ## Readings -/

/-- How a field of a record is read: its spellings, the trees that spell out its default, and what
its tree is read as. -/
structure FieldReading (R : Type) where
  field : Field
  isDefault : Value → Prop
  reading : R

/-- **What a tree is read as**, as far as its layout goes. Records embedded in another one count
their fields among its own. -/
inductive Reading where
  /-- The tree is not taken apart, or not read at all. -/
  | plain
  | list (element : Reading)
  | table (value : Reading)
  | record (fields : List (FieldReading Reading))

/-- The field read under a member's name. -/
def readingNamed? (fields : List (FieldReading Reading)) (name : String) :
    Option (FieldReading Reading) :=
  fields.find? fun f => f.field.name == name || f.field.aliases.contains name

namespace Reading

/-- What the element at a position is read as. The elements of a record are its fields in their
declared order. -/
def element : Reading → Nat → Reading
  | .list element, _ => element
  | .record fields, i => (fields[i]?.map FieldReading.reading).getD .plain
  | _, _ => .plain

/-- What the member of a name is read as. -/
def member : Reading → String → Reading
  | .table value, _ => value
  | .record fields, name => ((readingNamed? fields name).map FieldReading.reading).getD .plain
  | _, _ => .plain

end Reading

/-! ## Changes of layout -/

/-- **One change of layout**, at the root of a tree or anywhere below it. A `careful` change drops
no member whose field is given once more. -/
inductive Step (careful : Bool) : Reading → Value → Value → Prop where
  | permute (r : Reading) {members members' : List (String × Value)} (h : members.Perm members') :
      Step careful r (.object members) (.object members')
  | add (fields : List (FieldReading Reading)) (before after : List (String × Value))
      (name : String) (v : Value) (hname : readingNamed? fields name = none)
      (hv : v.isReadable = true) :
      Step careful (.record fields) (.object (before ++ after))
        (.object (before ++ (name, v) :: after))
  | respell (fields : List (FieldReading Reading)) (before after : List (String × Value))
      (name name' : String) (v : Value) {f : FieldReading Reading}
      (hname : readingNamed? fields name = some f) (hname' : readingNamed? fields name' = some f) :
      Step careful (.record fields) (.object (before ++ (name, v) :: after))
        (.object (before ++ (name', v) :: after))
  | drop (fields : List (FieldReading Reading)) (before after : List (String × Value))
      (name : String) (v : Value) {f : FieldReading Reading}
      (hname : readingNamed? fields name = some f) (hdefault : f.isDefault v)
      (halone : careful = true →
        ∀ other ∈ before ++ after, readingNamed? fields other.1 ≠ some f) :
      Step careful (.record fields) (.object (before ++ (name, v) :: after))
        (.object (before ++ after))
  | element (r : Reading) (before after : List Value) {v w : Value}
      (h : Step careful (r.element before.length) v w) :
      Step careful r (.array (before ++ v :: after)) (.array (before ++ w :: after))
  | member (r : Reading) (before after : List (String × Value)) (name : String) {v w : Value}
      (h : Step careful (r.member name) v w) :
      Step careful r (.object (before ++ (name, v) :: after))
        (.object (before ++ (name, w) :: after))

/-- Only containers have a layout. -/
theorem Step.eq_array_or_eq_object {careful : Bool} {r : Reading} {v w : Value}
    (h : Step careful r v w) :
    (∃ elements elements', v = .array elements ∧ w = .array elements') ∨
      ∃ members members', v = .object members ∧ w = .object members' := by
  cases h with
  | element => exact .inl ⟨_, _, rfl, rfl⟩
  | permute | add | respell | drop | member => exact .inr ⟨_, _, rfl, rfl⟩

/-! ## Distinct names -/

namespace Value

mutual

/-- No object of the tree gives a name twice. -/
def distinctNames : Value → Bool
  | .array elements => allDistinctNames elements
  | .object members => decide (members.map Prod.fst).Nodup && allMembersDistinctNames members
  | _ => true

/-- No object in a list of trees gives a name twice. -/
def allDistinctNames : List Value → Bool
  | [] => true
  | v :: rest => v.distinctNames && allDistinctNames rest

/-- No object among the members' values gives a name twice. -/
def allMembersDistinctNames : List (String × Value) → Bool
  | [] => true
  | (_, v) :: rest => v.distinctNames && allMembersDistinctNames rest

end

end Value

/-- **The tree fits a reading**: no part of it is unreadable, and no object that is read as a table
gives a name twice. -/
inductive Fits : Reading → Value → Prop where
  | null (r : Reading) : Fits r .null
  | bool (r : Reading) (b : Bool) : Fits r (.bool b)
  | number (r : Reading) (n : Number) : Fits r (.number n)
  | string (r : Reading) (s : String) : Fits r (.string s)
  | array (r : Reading) {elements : List Value}
      (h : ∀ i v, elements[i]? = some v → Fits (r.element i) v) : Fits r (.array elements)
  | object (r : Reading) {members : List (String × Value)}
      (hnames : ∀ value, r = .table value → (members.map Prod.fst).Nodup)
      (h : ∀ member ∈ members, Fits (r.member member.1) member.2) : Fits r (.object members)

theorem fits_array_iff {r : Reading} {elements : List Value} :
    Fits r (.array elements) ↔ ∀ i v, elements[i]? = some v → Fits (r.element i) v := by
  constructor
  · rintro ⟨⟩
    assumption
  · exact .array r

theorem fits_object_iff {r : Reading} {members : List (String × Value)} :
    Fits r (.object members) ↔
      (∀ value, r = .table value → (members.map Prod.fst).Nodup) ∧
        ∀ member ∈ members, Fits (r.member member.1) member.2 := by
  constructor
  · rintro ⟨⟩
    exact ⟨‹_›, ‹_›⟩
  · exact fun h => .object r h.1 h.2

/-- Nothing that fits is unreadable. -/
theorem Fits.isReadable {r : Reading} {v : Value} (h : Fits r v) : v.isReadable = true := by
  induction h with
  | null | bool | number | string => rfl
  | array r h ih =>
    rw [Value.isReadable, Value.allReadable_eq_all, List.all_eq_true]
    intro v hv
    obtain ⟨i, hi⟩ := List.mem_iff_getElem?.mp hv
    exact ih i v hi
  | object r hnames h ih =>
    rw [Value.isReadable, Value.allMembersReadable_eq_all, List.all_eq_true]
    exact ih

mutual

/-- **A readable tree** fits what is not taken apart, and if its names are distinct, it fits every
reading. -/
theorem fits_of_isReadable : ∀ (v : Value) (r : Reading), v.isReadable = true →
    (r = .plain ∨ v.distinctNames = true) → Fits r v
  | .null, r, _, _ => .null r
  | .bool b, r, _, _ => .bool r b
  | .number n, r, _, _ => .number r n
  | .string s, r, _, _ => .string r s
  | .unreadable, _, hv, _ => nomatch hv
  | .array elements, r, hv, hr => by
    rw [Value.isReadable] at hv
    refine .array r fun i v hi => fits_of_allReadable elements hv v (List.mem_of_getElem? hi) _ ?_
    exact hr.imp (fun hr => by rw [hr]; rfl) fun hnames => by rwa [Value.distinctNames] at hnames
  | .object members, r, hv, hr => by
    rw [Value.isReadable] at hv
    rw [Value.distinctNames, Bool.and_eq_true, decide_eq_true_eq] at hr
    refine .object r ?_ fun member hmember =>
      fits_of_allMembersReadable members hv member hmember _ ?_
    · rintro value rfl
      exact hr.elim (fun hr => nomatch hr) And.left
    · exact hr.imp (fun hr => by rw [hr]; rfl) And.right

theorem fits_of_allReadable : ∀ (elements : List Value), Value.allReadable elements = true →
    ∀ v ∈ elements, ∀ r : Reading,
      (r = .plain ∨ Value.allDistinctNames elements = true) → Fits r v
  | [], _, _, hv, _, _ => nomatch hv
  | head :: rest, h, v, hv, r, hr => by
    rw [Value.allReadable, Bool.and_eq_true] at h
    rw [Value.allDistinctNames, Bool.and_eq_true] at hr
    rcases List.mem_cons.mp hv with hv | hv
    · exact hv ▸ fits_of_isReadable head r h.1 (hr.imp_right And.left)
    · exact fits_of_allReadable rest h.2 v hv r (hr.imp_right And.right)

theorem fits_of_allMembersReadable : ∀ (members : List (String × Value)),
    Value.allMembersReadable members = true → ∀ member ∈ members, ∀ r : Reading,
      (r = .plain ∨ Value.allMembersDistinctNames members = true) → Fits r member.2
  | [], _, _, hmember, _, _ => nomatch hmember
  | (name, v) :: rest, h, member, hmember, r, hr => by
    rw [Value.allMembersReadable, Bool.and_eq_true] at h
    rw [Value.allMembersDistinctNames, Bool.and_eq_true] at hr
    rcases List.mem_cons.mp hmember with hmember | hmember
    · exact hmember ▸ fits_of_isReadable v r h.1 (hr.imp_right And.left)
    · exact fits_of_allMembersReadable rest h.2 member hmember r (hr.imp_right And.right)

end

theorem fits_of_distinctNames {v : Value} (r : Reading) (hv : v.isReadable = true)
    (hnames : v.distinctNames = true) : Fits r v :=
  fits_of_isReadable v r hv (.inr hnames)

theorem getElem?_append_cons_of_ne {α : Type} {a b : α} {before after : List α} {i : Nat}
    (h : i ≠ before.length) : (before ++ a :: after)[i]? = (before ++ b :: after)[i]? := by
  rcases Nat.lt_or_gt_of_ne h with h | h
  · rw [List.getElem?_append_left h, List.getElem?_append_left h]
  · have hpos : i - before.length ≠ 0 := Nat.sub_ne_zero_of_lt h
    rw [List.getElem?_append_right (Nat.le_of_lt h), List.getElem?_append_right (Nat.le_of_lt h),
      List.getElem?_cons, List.getElem?_cons, if_neg hpos, if_neg hpos]

/-- **What it takes to fit** can be asked of one member and of the others. -/
theorem fits_object_append_cons_iff {r : Reading} {before after : List (String × Value)}
    {name : String} {v : Value} :
    Fits r (.object (before ++ (name, v) :: after)) ↔
      (∀ value, r = .table value → ((before ++ (name, v) :: after).map Prod.fst).Nodup) ∧
        Fits (r.member name) v ∧ ∀ member ∈ before ++ after, Fits (r.member member.1) member.2 := by
  simp only [fits_object_iff, List.perm_middle.mem_iff, List.forall_mem_cons]

/-- Only where a table is expected must the names of an object differ. -/
theorem nodup_names_of_record {fields : List (FieldReading Reading)}
    {members : List (String × Value)} (value : Reading) (h : Reading.record fields = .table value) :
    (members.map Prod.fst).Nodup :=
  nomatch h

/-- **A tree that fits** still does after a change of layout. -/
theorem Step.fits {careful : Bool} {r : Reading} {v w : Value} (h : Step careful r v w) :
    Fits r v → Fits r w := by
  -- the induction follows the change down to the object or array that it is made in
  induction h with
  | permute r hperm =>
    intro hfits
    obtain ⟨hnames, h⟩ := fits_object_iff.mp hfits
    exact .object r (fun value hr => (hperm.map Prod.fst).nodup_iff.mp (hnames value hr))
      fun member hmember => h member (hperm.mem_iff.mpr hmember)
  | add fields before after name v hname hv =>
    intro hfits
    obtain ⟨-, hothers⟩ := fits_object_iff.mp hfits
    -- a member that is no field is not read, only skipped
    have hskipped : Fits ((Reading.record fields).member name) v := by
      rw [Reading.member, hname]
      exact fits_of_isReadable v .plain hv (.inl rfl)
    exact fits_object_append_cons_iff.mpr ⟨nodup_names_of_record, hskipped, hothers⟩
  | respell fields before after name name' v hname hname' =>
    intro hfits
    obtain ⟨-, hv, hothers⟩ := fits_object_append_cons_iff.mp hfits
    -- both names are read as the same field
    rw [Reading.member, hname] at hv
    refine fits_object_append_cons_iff.mpr ⟨nodup_names_of_record, ?_, hothers⟩
    rwa [Reading.member, hname']
  | drop fields before after name v hname hdefault halone =>
    intro hfits
    obtain ⟨-, -, hothers⟩ := fits_object_append_cons_iff.mp hfits
    exact .object _ nodup_names_of_record hothers
  | element r before after _ ih =>
    intro hfits
    have h := fits_array_iff.mp hfits
    refine .array r fun i u hi => ?_
    by_cases hlength : i = before.length
    · subst hlength
      rw [List.getElem?_append_right (Nat.le_refl _), Nat.sub_self] at hi
      cases hi
      exact ih (h before.length _ (by simp))
    · exact h i u (by rw [← hi, getElem?_append_cons_of_ne hlength])
  | member r before after name _ ih =>
    intro hfits
    obtain ⟨hnames, hv, hothers⟩ := fits_object_append_cons_iff.mp hfits
    -- the change is inside the member, so the names stay as they are
    refine fits_object_append_cons_iff.mpr ⟨fun value hr => ?_, ih hv, hothers⟩
    simpa using hnames value hr

end RenderPlan.Json
