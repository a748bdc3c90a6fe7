import RenderPlan.Json.Value

/-!
# Trees as they read back

A tree that was written as text and read again has the same shape and the same strings. What may
change is how a number is held: the text does not tell a 32-bit word from a 64-bit one, and has no
numeral for what is not finite.

## Main definitions

* `Json.Number.Rereads`: what a number reads back as
* `Json.Value.Rereads`: what a tree reads back as

## Main results

* `Json.Value.Rereads.isReadable`: nothing unreadable is read back
* `Json.Value.rereadsMembers_append_iff`: members read back part by part
-/

namespace RenderPlan.Json

/-- **A number reads back** as a number with the same word, or as `null` if it is not finite. -/
def Number.Rereads : Number → Value → Prop
  | .integer n, v => v = .number (.integer n)
  | .single x, v => if x.isFinite then ∃ n, v = .number n ∧ n.toSingle = x else v = .null
  | .double x, v => if x.isFinite then ∃ n, v = .number n ∧ n.toDouble = x else v = .null

theorem Number.Rereads.eq_null_or {n : Number} {v : Value} (h : n.Rereads v) :
    v = .null ∨ ∃ m, v = .number m := by
  cases n with
  | integer n => exact .inr ⟨_, h⟩
  | single x | double x =>
    rw [Rereads] at h
    split at h
    · obtain ⟨m, rfl, -⟩ := h
      exact .inr ⟨m, rfl⟩
    · exact .inl h

namespace Value

mutual

/-- **A tree reads back** as a tree of the same shape with the same strings. -/
inductive Rereads : Value → Value → Prop where
  | null : Rereads .null .null
  | bool (b : Bool) : Rereads (.bool b) (.bool b)
  | number {n : Number} {v : Value} (h : n.Rereads v) : Rereads (.number n) v
  | string (s : String) : Rereads (.string s) (.string s)
  | array {elements elements' : List Value} (h : RereadsAll elements elements') :
      Rereads (.array elements) (.array elements')
  | object {members members' : List (String × Value)} (h : RereadsMembers members members') :
      Rereads (.object members) (.object members')

/-- The elements of an array read back one by one. -/
inductive RereadsAll : List Value → List Value → Prop where
  | nil : RereadsAll [] []
  | cons {v v' : Value} {rest rest' : List Value} (h : v.Rereads v')
      (hrest : RereadsAll rest rest') : RereadsAll (v :: rest) (v' :: rest')

/-- The members of an object read back one by one under their names. -/
inductive RereadsMembers : List (String × Value) → List (String × Value) → Prop where
  | nil : RereadsMembers [] []
  | cons {name : String} {v v' : Value} {rest rest' : List (String × Value)} (h : v.Rereads v')
      (hrest : RereadsMembers rest rest') :
      RereadsMembers ((name, v) :: rest) ((name, v') :: rest')

end

mutual

/-- **Nothing unreadable** is read back. -/
theorem Rereads.isReadable : ∀ {v v' : Value}, v.Rereads v' → v'.isReadable = true
  | _, _, .null => rfl
  | _, _, .bool _ => rfl
  | _, _, .number h => by
    rcases h.eq_null_or with rfl | ⟨m, rfl⟩
    · rfl
    · rfl
  | _, _, .string _ => rfl
  | _, _, .array h => h.allReadable
  | _, _, .object h => h.allMembersReadable

theorem RereadsAll.allReadable : ∀ {elements elements' : List Value},
    RereadsAll elements elements' → allReadable elements' = true
  | _, _, .nil => rfl
  | _, _, .cons h hrest => by
    rw [Value.allReadable, h.isReadable, hrest.allReadable]
    rfl

theorem RereadsMembers.allMembersReadable : ∀ {members members' : List (String × Value)},
    RereadsMembers members members' → allMembersReadable members' = true
  | _, _, .nil => rfl
  | _, _, .cons h hrest => by
    rw [Value.allMembersReadable, h.isReadable, hrest.allMembersReadable]
    rfl

end

theorem rereadsMembers_append_iff {xs ys members' : List (String × Value)} :
    RereadsMembers (xs ++ ys) members' ↔
      ∃ xs' ys', members' = xs' ++ ys' ∧ RereadsMembers xs xs' ∧ RereadsMembers ys ys' := by
  induction xs generalizing members' with
  | nil =>
    constructor
    · exact fun h => ⟨[], members', rfl, .nil, h⟩
    · rintro ⟨_, ys', rfl, hxs, hys⟩
      cases hxs
      exact hys
  | cons x xs ih =>
    constructor
    · intro h
      cases h with
      | cons h hrest =>
        obtain ⟨xs', ys', rfl, hxs, hys⟩ := ih.mp hrest
        exact ⟨_ :: xs', ys', rfl, .cons h hxs, hys⟩
    · rintro ⟨_, ys', rfl, hxs, hys⟩
      cases hxs with
      | cons h hxs => exact .cons h (ih.mpr ⟨_, ys', rfl, hxs, hys⟩)

/-- Members read back under their own names. -/
theorem RereadsMembers.names_eq {members members' : List (String × Value)}
    (h : RereadsMembers members members') : members'.map Prod.fst = members.map Prod.fst := by
  induction members generalizing members' with
  | nil =>
    cases h
    rfl
  | cons member rest ih =>
    cases h with
    | cons _ hrest => rw [List.map_cons, List.map_cons, ih hrest]

end Value

end RenderPlan.Json
