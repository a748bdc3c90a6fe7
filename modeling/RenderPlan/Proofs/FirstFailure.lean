import Mathlib.Data.List.Forall2
import RenderPlan.Names.Table

/-!
# The first failure of a list of steps

A list is worked through in order and the first step that fails ends the work. What comes out is
described from both ends: success step by step, and failure by the place it was met at. A table is
worked through in the order of its names, so there the place is the least name with a failure.

## Main definitions

* `NameTable.Forall P`: every value recorded satisfies `P`
* `NameTable.FirstViolation P`: the value under the least name that does not satisfy `P`

## Main results

* `forall_place_concat_iff`: what holds at every place of a list, when one more is added
* `bind_eq_ok_iff`, `bind_eq_error_iff`: success and failure of two steps
* `mapM_eq_ok_iff`: a list succeeds when every step does
* `mapM_eq_error_iff`: a list fails with the failure of one step, all steps before it succeeding
* `NameTable.exists_mapM_eq_ok_iff`, `NameTable.mapM_eq_error_iff`: the same of the values of a
  table
-/

namespace RenderPlan

variable {α β ε ε' : Type}

/-- A place in a list to which one more is added is the last one or was there before. -/
theorem concat_eq_append_cons_iff {xs before after : List α} {last x : α} :
    xs ++ [last] = before ++ x :: after ↔
      (xs = before ∧ last = x ∧ after = []) ∨
        ∃ rest, xs = before ++ x :: rest ∧ after = rest ++ [last] := by
  rcases List.eq_nil_or_concat after with rfl | ⟨rest, other, rfl⟩
  · constructor
    · intro h
      obtain ⟨hbefore, hlast⟩ := List.append_inj' h rfl
      exact .inl ⟨hbefore, List.singleton_inj.mp hlast, rfl⟩
    · rintro (⟨rfl, rfl, -⟩ | ⟨rest, -, h⟩)
      · rfl
      · exact absurd h.symm (by simp)
  · rw [List.concat_eq_append, ← List.cons_append, ← List.append_assoc]
    constructor
    · intro h
      obtain ⟨hrest, hlast⟩ := List.append_inj' h rfl
      exact .inr ⟨rest, hrest, by rw [hlast]⟩
    · rintro (⟨-, -, h⟩ | ⟨rest', rfl, h⟩)
      · exact absurd h (by simp)
      · obtain ⟨rfl, hlast⟩ := List.append_inj' h rfl
        rw [hlast]

/-- **What holds at every place** of such a list holds at the places before and at the last one. -/
theorem forall_place_concat_iff {P : List α → α → Prop} {xs : List α} {last : α} :
    (∀ before x after, xs ++ [last] = before ++ x :: after → P before x) ↔
      (∀ before x after, xs = before ++ x :: after → P before x) ∧ P xs last := by
  constructor
  · intro h
    refine ⟨fun before x after hxs => ?_, h xs last [] rfl⟩
    exact h before x (after ++ [last]) (concat_eq_append_cons_iff.mpr (.inr ⟨after, hxs, rfl⟩))
  · rintro ⟨hxs, hlast⟩ before x after h
    rcases concat_eq_append_cons_iff.mp h with ⟨rfl, rfl, -⟩ | ⟨rest, hrest, -⟩
    · exact hlast
    · exact hxs before x rest hrest

theorem bind_eq_ok_iff {x : Except ε α} {f : α → Except ε β} {b : β} :
    x >>= f = .ok b ↔ ∃ a, x = .ok a ∧ f a = .ok b := by
  cases x with
  | error e =>
    constructor
    · intro h
      cases h
    · rintro ⟨_, h, _⟩
      cases h
  | ok a =>
    refine ⟨fun h => ⟨a, rfl, h⟩, ?_⟩
    rintro ⟨_, h, hf⟩
    cases h
    exact hf

theorem bind_eq_error_iff {x : Except ε α} {f : α → Except ε β} {e : ε} :
    x >>= f = .error e ↔ x = .error e ∨ ∃ a, x = .ok a ∧ f a = .error e := by
  cases x with
  | error e' =>
    refine ⟨fun h => .inl (by cases h; rfl), ?_⟩
    rintro (h | ⟨_, h, _⟩)
    · cases h
      rfl
    · cases h
  | ok a =>
    refine ⟨fun h => .inr ⟨a, rfl, h⟩, ?_⟩
    rintro (h | ⟨_, h, hf⟩)
    · cases h
    · cases h
      exact hf

theorem map_eq_ok_iff {x : Except ε α} {f : α → β} {b : β} :
    x.map f = .ok b ↔ ∃ a, x = .ok a ∧ f a = b := by
  cases x <;> simp [Except.map]

theorem map_eq_error_iff {x : Except ε α} {f : α → β} {e : ε} :
    x.map f = .error e ↔ x = .error e := by
  cases x <;> simp [Except.map]

theorem mapError_eq_ok_iff {x : Except ε α} {f : ε → ε'} {a : α} :
    x.mapError f = .ok a ↔ x = .ok a := by
  cases x <;> simp [Except.mapError]

theorem mapError_eq_error_iff {x : Except ε α} {f : ε → ε'} {e : ε'} :
    x.mapError f = .error e ↔ ∃ e₀, x = .error e₀ ∧ f e₀ = e := by
  cases x <;> simp [Except.mapError]

variable {f : α → Except ε β}

theorem mapM_cons_eq_ok_iff {x : α} {xs : List α} {zs : List β} :
    (x :: xs).mapM f = .ok zs ↔ ∃ y ys, f x = .ok y ∧ xs.mapM f = .ok ys ∧ zs = y :: ys := by
  rw [List.mapM_cons, bind_eq_ok_iff]
  constructor
  · rintro ⟨y, hy, h⟩
    obtain ⟨ys, hys, h⟩ := bind_eq_ok_iff.mp h
    cases h
    exact ⟨y, ys, hy, hys, rfl⟩
  · rintro ⟨y, ys, hy, hys, rfl⟩
    exact ⟨y, hy, bind_eq_ok_iff.mpr ⟨ys, hys, rfl⟩⟩

theorem mapM_cons_eq_error_iff {x : α} {xs : List α} {e : ε} :
    (x :: xs).mapM f = .error e ↔
      f x = .error e ∨ ∃ y, f x = .ok y ∧ xs.mapM f = .error e := by
  rw [List.mapM_cons, bind_eq_error_iff]
  refine or_congr_right (exists_congr fun y => and_congr_right fun _ => ?_)
  rw [bind_eq_error_iff]
  constructor
  · rintro (h | ⟨_, _, h⟩)
    · exact h
    · cases h
  · exact .inl

/-- **A list succeeds** when every step does. -/
theorem mapM_eq_ok_iff {xs : List α} {ys : List β} :
    xs.mapM f = .ok ys ↔ List.Forall₂ (fun x y => f x = .ok y) xs ys := by
  induction xs generalizing ys with
  | nil =>
    rw [List.forall₂_nil_left_iff, List.mapM_nil]
    exact ⟨fun h => by cases h; rfl, fun h => by rw [h]; rfl⟩
  | cons x xs ih =>
    rw [mapM_cons_eq_ok_iff, List.forall₂_cons_left_iff]
    simp only [ih]

/-- A list of look-ups succeeds with what was found under each key, in the order of the keys. -/
theorem mapM_eq_ok_iff_of_keyed {key : β → α} {P : β → Prop}
    (hf : ∀ x y, f x = .ok y ↔ key y = x ∧ P y) {xs : List α} {ys : List β} :
    xs.mapM f = .ok ys ↔ ys.map key = xs ∧ ∀ y ∈ ys, P y := by
  rw [mapM_eq_ok_iff]
  simp only [hf]
  constructor
  · intro h
    induction h with
    | nil => exact ⟨rfl, by simp⟩
    | cons hy _ ih =>
      exact ⟨List.map_cons .. ▸ congrArg₂ List.cons hy.1 ih.1,
        List.forall_mem_cons.mpr ⟨hy.2, ih.2⟩⟩
  · rintro ⟨rfl, h⟩
    induction ys with
    | nil => exact .nil
    | cons y ys ih =>
      rw [List.forall_mem_cons] at h
      exact .cons ⟨rfl, h.1⟩ (ih h.2)

/-- **A list of guarded steps succeeds** when every guard holds, with what the steps compute. -/
theorem mapM_eq_ok_iff_of_guarded {f : α → Except ε β} {P : α → Prop} {g : α → β}
    (hf : ∀ x y, f x = .ok y ↔ P x ∧ y = g x) {xs : List α} {ys : List β} :
    xs.mapM f = .ok ys ↔ (∀ x ∈ xs, P x) ∧ ys = xs.map g := by
  rw [mapM_eq_ok_iff]
  simp only [hf]
  constructor
  · intro h
    induction h with
    | nil => simp
    | cons hy _ ih =>
      obtain ⟨hP, rfl⟩ := hy
      obtain ⟨hrest, rfl⟩ := ih
      exact ⟨List.forall_mem_cons.mpr ⟨hP, hrest⟩, rfl⟩
  · rintro ⟨hP, rfl⟩
    rw [List.forall₂_map_right_iff, List.forall₂_same]
    exact fun x hx => ⟨hP x hx, rfl⟩

/-- **A list fails** with the failure of one step, every step before it succeeding. -/
theorem mapM_eq_error_iff {xs : List α} {e : ε} :
    xs.mapM f = .error e ↔
      ∃ before x after, xs = before ++ x :: after ∧ (∀ y ∈ before, ∃ b, f y = .ok b) ∧
        f x = .error e := by
  induction xs with
  | nil =>
    constructor
    · intro h
      cases h
    · rintro ⟨before, x, after, h, -⟩
      simp at h
  | cons x xs ih =>
    rw [mapM_cons_eq_error_iff, ih]
    -- the head fails, or it succeeds and stands before the step that fails
    constructor
    · rintro (h | ⟨y, hy, before, x', after, rfl, hbefore, hx'⟩)
      · exact ⟨[], x, xs, rfl, by simp, h⟩
      · refine ⟨x :: before, x', after, rfl, ?_, hx'⟩
        intro z hz
        rcases List.mem_cons.mp hz with rfl | hz
        · exact ⟨y, hy⟩
        · exact hbefore z hz
    · rintro ⟨before, x', after, h, hbefore, hx'⟩
      cases before with
      | nil =>
        obtain ⟨rfl, rfl⟩ := List.cons.inj h
        exact .inl hx'
      | cons z before =>
        obtain ⟨rfl, rfl⟩ := List.cons.inj h
        obtain ⟨y, hy⟩ := hbefore _ (List.mem_cons_self ..)
        exact .inr ⟨y, hy, before, x', after, rfl,
          fun w hw => hbefore w (List.mem_cons_of_mem _ hw), hx'⟩

theorem exists_mapM_eq_ok_iff {xs : List α} :
    (∃ ys, xs.mapM f = .ok ys) ↔ ∀ x ∈ xs, ∃ y, f x = .ok y := by
  induction xs with
  | nil => exact ⟨fun _ => by simp, fun _ => ⟨[], rfl⟩⟩
  | cons x xs ih =>
    simp only [mapM_cons_eq_ok_iff, List.forall_mem_cons, ← ih]
    constructor
    · rintro ⟨_, y, ys, hy, hys, -⟩
      exact ⟨⟨y, hy⟩, ys, hys⟩
    · rintro ⟨⟨y, hy⟩, ys, hys⟩
      exact ⟨y :: ys, y, ys, hy, hys, rfl⟩

theorem mapM_append_eq_error_iff {xs ys : List α} {e : ε} :
    (xs ++ ys).mapM f = .error e ↔
      xs.mapM f = .error e ∨ (∃ zs, xs.mapM f = .ok zs) ∧ ys.mapM f = .error e := by
  rw [List.mapM_append, bind_eq_error_iff]
  refine or_congr_right ?_
  rw [← exists_and_right]
  refine exists_congr fun zs => and_congr_right fun _ => ?_
  rw [bind_eq_error_iff]
  constructor
  · rintro (h | ⟨_, _, h⟩)
    · exact h
    · cases h
  · exact .inl

namespace NameTable

/-- Every value recorded in the table, with its name, satisfies `P`. -/
def Forall (t : NameTable α) (P : String → α → Prop) : Prop :=
  ∀ name value, t.get? name = some value → P name value

/-- The value recorded for `name` does not satisfy `P`, and those of all lesser names do. -/
def FirstViolation (t : NameTable α) (P : String → α → Prop) (name : String) (value : α) : Prop :=
  t.get? name = some value ∧ ¬P name value ∧
    ∀ other, other < name → ∀ value, t.get? other = some value → P other value

variable {t : NameTable α} {P : String → α → Prop} {name : String} {value : α}

theorem forall_iff : t.Forall P ↔ ∀ entry ∈ t.entries, P entry.1 entry.2 := by
  simp only [Forall, get?_eq_some_iff]
  exact ⟨fun h entry hentry => h _ _ hentry, fun h name value hentry => h _ hentry⟩

instance [∀ name value, Decidable (P name value)] : Decidable (t.Forall P) :=
  decidable_of_iff _ forall_iff.symm

theorem forall_values_iff {P : α → Prop} :
    (∀ value ∈ t.values, P value) ↔ t.Forall fun _ value => P value := by
  rw [forall_iff, values, List.forall_mem_map]

theorem firstViolation_iff :
    t.FirstViolation P name value ↔
      ∃ before after, t.entries = before ++ (name, value) :: after ∧
        (∀ entry ∈ before, P entry.1 entry.2) ∧ ¬P name value := by
  constructor
  · rintro ⟨hget, hviolates, hlesser⟩
    obtain ⟨before, after, hsplit⟩ := List.append_of_mem (get?_eq_some_iff.mp hget)
    refine ⟨before, after, hsplit, fun entry hentry => ?_, hviolates⟩
    -- an entry that stands before another has the lesser name
    have hascending := t.ascending
    rw [hsplit] at hascending
    have hlt : entry.1 < name :=
      (List.pairwise_append.mp hascending).2.2 _ hentry _ (List.mem_cons_self ..)
    refine hlesser _ hlt _ ?_
    rw [get?_eq_some_iff, hsplit]
    exact List.mem_append_left _ hentry
  · rintro ⟨before, after, hsplit, hbefore, hviolates⟩
    have hascending := t.ascending
    rw [hsplit] at hascending
    obtain ⟨-, hafter, hacross⟩ := List.pairwise_append.mp hascending
    refine ⟨get?_eq_some_iff.mpr (by simp [hsplit]), hviolates, fun other hlt value' hget => ?_⟩
    rw [get?_eq_some_iff, hsplit, List.mem_append, List.mem_cons] at hget
    -- so an entry of a lesser name can stand only before
    rcases hget with hmem | heq | hmem
    · exact hbefore _ hmem
    · cases heq
      exact absurd hlt (String.lt_irrefl _)
    · exact absurd hlt (String.lt_asymm ((List.pairwise_cons.mp hafter).1 _ hmem))

/-- Where not every value of a table is as it should be, there is a first one that is not. -/
theorem forall_or_exists_firstViolation (t : NameTable α) (P : String → α → Prop) :
    t.Forall P ∨ ∃ name value, t.FirstViolation P name value := by
  classical
  cases hfound : t.entries.find? fun entry => ¬P entry.1 entry.2 with
  | none =>
    refine .inl (forall_iff.mpr fun entry hentry => ?_)
    simpa using List.find?_eq_none.mp hfound entry hentry
  | some entry =>
    obtain ⟨hentry, before, after, hsplit, hbefore⟩ := List.find?_eq_some_iff_append.mp hfound
    exact .inr ⟨entry.1, entry.2, firstViolation_iff.mpr
      ⟨before, after, hsplit, by simpa using hbefore, by simpa using hentry⟩⟩

theorem firstViolation_filter {keep : String → α → Bool} :
    (t.filter keep).FirstViolation P name value ↔
      t.FirstViolation (fun name value => keep name value = true → P name value) name value := by
  simp only [FirstViolation, get?_filter, Option.filter_eq_some_iff, Classical.not_imp]
  constructor
  · rintro ⟨⟨hget, hkeep⟩, hviolates, hlesser⟩
    exact ⟨hget, ⟨hkeep, hviolates⟩, fun other hlt v hv hk => hlesser other hlt v ⟨hv, hk⟩⟩
  · rintro ⟨hget, ⟨hkeep, hviolates⟩, hlesser⟩
    exact ⟨⟨hget, hkeep⟩, hviolates, fun other hlt v hv => hlesser other hlt v hv.1 hv.2⟩

theorem forall_filter {keep : String → α → Bool} :
    (t.filter keep).Forall P ↔
      t.Forall fun name value => keep name value = true → P name value := by
  simp only [Forall, get?_filter, Option.filter_eq_some_iff, and_imp]

/-- Where the values of a table are split, its entries are. -/
theorem values_eq_append_cons_iff {before after : List α} :
    t.values = before ++ value :: after ↔
      ∃ entries₁ name entries₂, t.entries = entries₁ ++ (name, value) :: entries₂ ∧
        entries₁.map Prod.snd = before ∧ entries₂.map Prod.snd = after := by
  constructor
  · intro hsplit
    obtain ⟨entries₁, rest, hentries, hbefore, hrest⟩ := List.map_eq_append_iff.mp hsplit
    obtain ⟨⟨name, _⟩, entries₂, rfl, rfl, hafter⟩ := List.map_eq_cons_iff.mp hrest
    exact ⟨entries₁, name, entries₂, hentries, hbefore, hafter⟩
  · rintro ⟨entries₁, name, entries₂, hentries, rfl, rfl⟩
    simp [values, hentries]

/-- **The first value found** in a table is the one under the least name that there is something to
be found of. -/
theorem findSome?_values_eq_some_iff {g : α → Option β} {b : β} :
    t.values.findSome? g = some b ↔
      ∃ name value, t.FirstViolation (fun _ value => g value = none) name value ∧
        g value = some b := by
  simp only [List.findSome?_eq_some_iff, values_eq_append_cons_iff, firstViolation_iff]
  constructor
  · rintro ⟨_, value, _, ⟨entries₁, name, entries₂, hentries, rfl, rfl⟩, hvalue, hbefore⟩
    refine ⟨name, value, ⟨entries₁, entries₂, hentries, ?_, by simp [hvalue]⟩, hvalue⟩
    exact fun entry hentry => hbefore _ (List.mem_map_of_mem hentry)
  · rintro ⟨name, value, ⟨entries₁, entries₂, hentries, hbefore, -⟩, hvalue⟩
    exact ⟨_, value, _, ⟨entries₁, name, entries₂, hentries, rfl, rfl⟩, hvalue,
      List.forall_mem_map.mpr hbefore⟩

/-- **The values of a table succeed** when every one does. -/
theorem exists_mapM_eq_ok_iff :
    (∃ ys, t.values.mapM f = .ok ys) ↔ t.Forall fun _ value => ∃ y, f value = .ok y := by
  rw [RenderPlan.exists_mapM_eq_ok_iff, forall_values_iff]

/-- **The values of a table fail** with the failure of the one under the least name. -/
theorem mapM_eq_error_iff {e : ε} :
    t.values.mapM f = .error e ↔
      ∃ name value, t.FirstViolation (fun _ value => ∃ y, f value = .ok y) name value ∧
        f value = .error e := by
  simp only [RenderPlan.mapM_eq_error_iff, firstViolation_iff, values_eq_append_cons_iff]
  constructor
  · rintro ⟨_, value, _, ⟨entries₁, name, entries₂, hentries, rfl, rfl⟩, hbefore, hvalue⟩
    refine ⟨name, value, ⟨entries₁, entries₂, hentries, ?_, ?_⟩, hvalue⟩
    · exact fun entry hentry => hbefore _ (List.mem_map_of_mem hentry)
    · rintro ⟨y, hy⟩
      rw [hvalue] at hy
      cases hy
  · rintro ⟨name, value, ⟨entries₁, entries₂, hentries, hbefore, -⟩, hvalue⟩
    exact ⟨_, value, _, ⟨entries₁, name, entries₂, hentries, rfl, rfl⟩,
      List.forall_mem_map.mpr hbefore, hvalue⟩

end NameTable

end RenderPlan
