import Mathlib.Data.List.Find
import Mathlib.Logic.Relation
import RenderPlan.Proofs.CodecLaws
import RenderPlan.Proofs.TreeLayout

/-!
# Laws of layout

What is read of a tree does not depend on its layout. The law of a type says so of one careful
change, and then it holds of any number of them. Data that are not taken apart have hardly any
layout, and the laws of lists and tables follow from those of their parts.

## Main definitions

* `Json.HasReading`: what the trees of a type are read as
* `Json.LaidOut`: the law of a type

## Main results

* `Json.decode_eq_of_steps`: the law for any number of changes
* the instances of `Json.LaidOut` for strings, words, numbers, lists and tables
-/

namespace RenderPlan.Json

open Value

/-- Data whose trees are read in a known way. -/
class HasReading (α : Type) where
  reading : Source → Reading := fun _ => .plain

export HasReading (reading)

/-- **The law of layout**: a careful change of layout leaves what is read as it is. -/
class LaidOut (α : Type) [Codec α] [HasReading α] : Prop where
  decode_eq : ∀ {source : Source} {v w : Value}, Fits (reading α source) v →
    Step true (reading α source) v w → decode source w = (decode source v : Option α)

/-- What holds of one change of layout holds of any number of them. -/
theorem decode_eq_of_steps {α : Type} [Codec α] [HasReading α] [LaidOut α] {source : Source}
    {v w : Value} (hfits : Fits (reading α source) v)
    (h : Relation.ReflTransGen (Step true (reading α source)) v w) :
    decode source w = (decode source v : Option α) := by
  -- a tree that fits still does on the way
  have hsteps : Fits (reading α source) w ∧ decode source w = (decode source v : Option α) := by
    induction h with
    | refl => exact ⟨hfits, rfl⟩
    | tail _ h ih => exact ⟨h.fits ih.1, (LaidOut.decode_eq ih.1 h).trans ih.2⟩
  exact hsteps.2

/-! ## Strings, words and numbers -/

instance : HasReading String where
instance : HasReading Bool where
instance : HasReading Binary32 where
instance : HasReading UInt32 where
instance : HasReading UInt8 where
instance {κ : Type} [Keyword κ] : HasReading κ where

/-- A type read from neither arrays nor objects has nothing to lay out. -/
theorem LaidOut.of_leaves {α : Type} [Codec α] [HasReading α]
    (harray : ∀ source elements, decode source (.array elements) = (none : Option α))
    (hobject : ∀ source members, decode source (.object members) = (none : Option α)) :
    LaidOut α where
  decode_eq {source v w} _ h := by
    rcases h.eq_array_or_eq_object with
      ⟨elements, elements', rfl, rfl⟩ | ⟨members, members', rfl, rfl⟩
    · rw [harray, harray]
    · rw [hobject, hobject]

instance : LaidOut String := .of_leaves (fun _ _ => rfl) fun _ _ => rfl
instance : LaidOut Bool := .of_leaves (fun _ _ => rfl) fun _ _ => rfl
instance : LaidOut Binary32 := .of_leaves (fun _ _ => rfl) fun _ _ => rfl
instance : LaidOut UInt32 := .of_leaves (fun _ _ => rfl) fun _ _ => rfl
instance : LaidOut UInt8 := .of_leaves (fun _ _ => rfl) fun _ _ => rfl

section Keywords

variable {κ : Type} [Keyword κ]

/-- A word is read from no object with several members or none. -/
theorem keyword?_object_of_length_ne {source : Source} {members : List (String × Value)}
    (h : members.length ≠ 1) : (Value.object members).keyword? source = (none : Option κ) := by
  unfold keyword?
  split
  · next heq => cases heq
  · next heq =>
    cases heq
    exact absurd rfl h
  · next heq =>
    cases heq
    exact absurd rfl h
  · rfl

/-- Nor from one whose member holds anything but `null` or the empty object. -/
theorem keyword?_object_of_ne {source : Source} {name : String} {v : Value} (hnull : v ≠ .null)
    (hempty : v ≠ .object []) :
    (Value.object [(name, v)]).keyword? source = (none : Option κ) := by
  unfold keyword?
  split
  · next heq => cases heq
  · next heq =>
    cases heq
    exact absurd rfl hnull
  · next heq =>
    cases heq
    exact absurd rfl hempty
  · rfl

/-- Where nothing is taken apart, the empty object stays what it is. -/
theorem Step.plain_empty_iff {careful : Bool} {v w : Value} (h : Step careful .plain v w) :
    v = .object [] ↔ w = .object [] := by
  cases h with
  | permute _ hperm =>
    rw [Value.object.injEq, Value.object.injEq]
    exact ⟨fun h => (h ▸ hperm).nil_eq.symm, fun h => (h ▸ hperm).eq_nil⟩
  | element => exact ⟨nofun, nofun⟩
  | member => simp

theorem Step.ne_null {careful : Bool} {r : Reading} {v w : Value} (h : Step careful r v w) :
    v ≠ .null ∧ w ≠ .null := by
  rcases h.eq_array_or_eq_object with ⟨_, _, rfl, rfl⟩ | ⟨_, _, rfl, rfl⟩ <;> exact ⟨nofun, nofun⟩

instance : LaidOut κ where
  decode_eq {source v w} _ h := by
    show w.keyword? source = v.keyword? source
    cases h with
    | element => rfl
    | @permute _ members members' hperm =>
      by_cases hlength : members.length = 1
      · obtain ⟨member, rfl⟩ := List.length_eq_one_iff.mp hlength
        rw [List.singleton_perm.mp hperm]
      · rw [keyword?_object_of_length_ne hlength,
          keyword?_object_of_length_ne (hperm.length_eq ▸ hlength)]
    | @member _ before after name v w h =>
      by_cases hlength : (before ++ (name, v) :: after).length = 1
      · obtain ⟨rfl, rfl⟩ : before = [] ∧ after = [] := by
          rw [List.length_append, List.length_cons] at hlength
          exact ⟨List.eq_nil_of_length_eq_zero (by omega),
            List.eq_nil_of_length_eq_zero (by omega)⟩
        rw [List.nil_append, List.nil_append]
        -- the only member holds a container, of which just the empty object can be read
        by_cases hempty : v = .object []
        · rw [hempty, (Step.plain_empty_iff h).mp hempty]
        · rw [keyword?_object_of_ne h.ne_null.1 hempty, keyword?_object_of_ne h.ne_null.2
            fun hw => hempty ((Step.plain_empty_iff h).mpr hw)]
      · rw [keyword?_object_of_length_ne hlength, keyword?_object_of_length_ne (by
          simpa using hlength)]

end Keywords

/-! ## Lists of results -/

section Results

variable {α β γ : Type}

/-- What follows related results is the same if it does not tell them apart. -/
theorem bind_eq_bind_of_rel {R : α → β → Prop} {o : Option α} {o' : Option β} {f : α → Option γ}
    {g : β → Option γ} (h : Option.Rel R o o') (hfg : ∀ a b, o = some a → R a b → f a = g b) :
    o.bind f = o'.bind g := by
  cases h with
  | none => rfl
  | some h => exact hfg _ _ rfl h

/-- One of the arguments may be replaced by another with the same result. -/
theorem mapM_append_cons {f : α → Option β} {a b : α} (h : f a = f b) (before after : List α) :
    (before ++ a :: after).mapM f = (before ++ b :: after).mapM f := by
  rw [List.mapM_append, List.mapM_append, List.mapM_cons, List.mapM_cons, h]

/-- Permuted arguments give permuted results. -/
theorem mapM_perm {f : α → Option β} {xs ys : List α} (h : xs.Perm ys) :
    Option.Rel List.Perm (xs.mapM f) (ys.mapM f) := by
  induction h with
  | nil => exact .some (.refl _)
  | @cons x xs ys _ ih =>
    rw [List.mapM_cons, List.mapM_cons]
    cases f x with
    | none => exact .none
    | some z =>
      generalize xs.mapM f = o, ys.mapM f = o' at ih
      cases ih with
      | none => exact .none
      | some h => exact .some (h.cons z)
  | swap x y zs =>
    simp only [List.mapM_cons]
    cases f x <;> cases f y <;> cases zs.mapM f
    all_goals first | exact .none | exact .some (.swap ..)
  | @trans xs ys zs _ _ ih ih' =>
    -- the three results are all there or all absent
    generalize xs.mapM f = o, ys.mapM f = o', zs.mapM f = o'' at ih ih'
    cases ih with
    | none => exact ih'
    | some h =>
      cases ih' with
      | some h' => exact .some (h.trans h')

/-- The entries read from the members of an object bear the members' names. -/
theorem names_of_mapM {read : Value → Option α} : ∀ {members : List (String × Value)}
    {entries : List (String × α)},
    (members.mapM fun member => (read member.2).map fun a => (member.1, a)) = some entries →
      entries.map Prod.fst = members.map Prod.fst
  | [], _, h => by
    cases h
    rfl
  | member :: members, _, h => by
    rw [List.mapM_cons] at h
    obtain ⟨entry, hentry, h⟩ := Option.bind_eq_some_iff.mp h
    obtain ⟨entries, hentries, h⟩ := Option.bind_eq_some_iff.mp h
    obtain ⟨a, -, rfl⟩ := Option.map_eq_some_iff.mp hentry
    cases h
    rw [List.map_cons, List.map_cons, names_of_mapM hentries]

theorem lastWrite_perm {name : String} {writes writes' : List (String × α)}
    (h : writes.Perm writes') : (writes.map Prod.fst).Nodup →
      NameTable.lastWrite name writes = NameTable.lastWrite name writes' := by
  induction h with
  | nil => exact fun _ => rfl
  | cons write _ ih =>
    intro hnames
    rw [NameTable.lastWrite, NameTable.lastWrite, ih (List.nodup_cons.mp hnames).2]
  | swap x y zs =>
    intro hnames
    have hne : y.1 ≠ x.1 := fun heq => (List.nodup_cons.mp hnames).1 (by simp [heq])
    simp only [NameTable.lastWrite]
    -- only one of the two can be a write to the name
    by_cases hx : name = x.1
    · rw [if_neg fun hy : name = y.1 => hne (hy.symm.trans hx), Option.or_none, Option.or_none]
    · rw [if_neg hx, Option.or_none, Option.or_none]
  | trans h _ ih ih' =>
    exact fun hnames => (ih hnames).trans (ih' ((h.map Prod.fst).nodup_iff.mp hnames))

/-- The table of entries with distinct names does not depend on their order. -/
theorem ofList_perm {entries entries' : List (String × α)} (h : entries.Perm entries')
    (hnames : (entries.map Prod.fst).Nodup) :
    NameTable.ofList entries = NameTable.ofList entries' := by
  refine NameTable.ext_get? fun name => ?_
  rw [NameTable.ofList, NameTable.ofList, NameTable.get?_insertAll, NameTable.get?_insertAll,
    lastWrite_perm h hnames]

/-- Nor does the table read from members with distinct names. -/
theorem tableOf?_perm {read : Value → Option α} {members members' : List (String × Value)}
    (h : members.Perm members') (hnames : (members.map Prod.fst).Nodup) :
    (Value.object members).tableOf? read = (Value.object members').tableOf? read := by
  rw [tableOf?, tableOf?, Option.map_eq_bind, Option.map_eq_bind]
  refine bind_eq_bind_of_rel (mapM_perm h) fun entries entries' hread hperm => ?_
  have hentries : (entries.map Prod.fst).Nodup := by rwa [names_of_mapM hread]
  exact congrArg some (ofList_perm hperm hentries)

end Results

/-! ## Lists and tables -/

section Containers

variable {α : Type} [Codec α] [HasReading α]

instance : HasReading (List α) where
  reading source := .list (reading α source)

instance : HasReading (NameTable α) where
  reading source := .table (reading α source)

instance : HasReading NameSet where
  reading := reading (List String)

instance [LaidOut α] : LaidOut (List α) where
  decode_eq {source _ _} hfits h := by
    cases h with
    | permute | member => rfl
    | @element _ before after v w h =>
      have hv : Fits (reading α source) v :=
        fits_array_iff.mp hfits before.length v (by simp)
      exact mapM_append_cons (LaidOut.decode_eq hv h) before after

instance : LaidOut NameSet where
  decode_eq {source v w} hfits h := by
    have hlist : decode source w = (decode source v : Option (List String)) :=
      LaidOut.decode_eq hfits h
    exact congrArg (Option.map NameSet.ofList) hlist

instance [LaidOut α] : LaidOut (NameTable α) where
  decode_eq {source _ _} hfits h := by
    cases h with
    | element => rfl
    | permute _ hperm =>
      exact (tableOf?_perm hperm ((fits_object_iff.mp hfits).1 _ rfl)).symm
    | @member _ before after name v w h =>
      have hv : Fits (reading α source) v :=
        (fits_object_iff.mp hfits).2 (name, v) (List.mem_append_right _ (List.mem_cons_self ..))
      refine congrArg (Option.map NameTable.ofList) (mapM_append_cons ?_ before after)
      exact congrArg (Option.map _) (LaidOut.decode_eq hv h)

end Containers

end RenderPlan.Json
