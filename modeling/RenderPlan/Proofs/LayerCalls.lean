import Mathlib.Data.List.Basic
import Mathlib.Data.List.Induction
import RenderPlan.Layers

/-!
# Calls on a layered table

A layered table is built from its base by single writes and whole layers, in any number and order.
Queueing them makes no difference: the table built is the base with each call applied in turn. So a
name has the value of the last call that writes it, and only without such a call that of the base.
Two layers in a row are one, the second laid over the first, since laying tables over each other is
associative.

## Main definitions

* `Layers.Call`, `Layers.run`: the calls on a layered table, and the layered table after them
* `Layers.Call.value?`: the value that a call writes to a name
* `Layers.lastValue?`: the value that the last of some calls to write a name writes to it

## Main results

* `Layers.build_run`: calls queued and built are calls applied in turn
* `Layers.get?_build_run`: a name of the table built, by the calls
* `Layers.build_run_layers`: two layers in a row are one
* `Layers.last_call_counts`: the table built from a base by any calls
-/

namespace RenderPlan

variable {α : Type}

namespace Layers

/-! ## Calls -/

/-- One call on a layered table. -/
inductive Call (α : Type) where
  | set (name : String) (value : α)
  | layer (t : NameTable α)

/-- The layered table after one more call. -/
def perform (l : Layers α) : Call α → Layers α
  | .set name value => l.set name value
  | .layer t => l.layer t

/-- The layered table after some calls. -/
def run (l : Layers α) (calls : List (Call α)) : Layers α := calls.foldl perform l

/-- The value that a call writes to a name, if it writes the name. A layer writes the value of its
own entry. -/
def Call.value? : Call α → String → Option α
  | .set name value, other => if other = name then some value else none
  | .layer t, other => t.get? other

/-- The table with the writes of a call applied to it. -/
def Call.applyTo : Call α → NameTable α → NameTable α
  | .set name value, t => t.insert name value
  | .layer overrides, t => t.overriddenBy overrides

theorem Call.get?_applyTo (call : Call α) (t : NameTable α) (name : String) :
    (call.applyTo t).get? name = (call.value? name).or (t.get? name) := by
  cases call with
  | set written value =>
    rw [applyTo, NameTable.get?_insert, value?]
    by_cases hname : name = written <;> simp [hname]
  | layer overrides => exact NameTable.get?_overriddenBy ..

/-- **One call** queued and built is the call applied to the table built before. -/
theorem build_perform (l : Layers α) (call : Call α) :
    (l.perform call).build = call.applyTo l.build := by
  cases call with
  | set name value => exact build_set ..
  | layer t => exact build_layer ..

/-- **Calls in turn** may be queued and built, or applied one after the other. -/
theorem build_run (l : Layers α) (calls : List (Call α)) :
    (l.run calls).build = calls.foldl (fun t call => call.applyTo t) l.build :=
  (List.foldl_hom build fun l call => (build_perform l call).symm).symm

/-! ## The last call to write a name -/

/-- The value that the last of some calls to write a name writes to it. -/
def lastValue? (calls : List (Call α)) (name : String) : Option α :=
  calls.reverse.findSome? fun call => call.value? name

theorem lastValue?_concat (calls : List (Call α)) (call : Call α) (name : String) :
    lastValue? (calls ++ [call]) name = (call.value? name).or (lastValue? calls name) := by
  rw [lastValue?, List.reverse_concat, List.findSome?_cons]
  cases call.value? name <;> rfl

theorem lastValue?_eq_none_iff {calls : List (Call α)} {name : String} :
    lastValue? calls name = none ↔ ∀ call ∈ calls, call.value? name = none := by
  simp [lastValue?]

theorem lastValue?_eq_some_iff {calls : List (Call α)} {name : String} {value : α} :
    lastValue? calls name = some value ↔
      ∃ before call after, calls = before ++ call :: after ∧ call.value? name = some value ∧
        ∀ later ∈ after, later.value? name = none := by
  -- the calls are searched from the latest on, so either part of the split is reversed
  rw [lastValue?, List.findSome?_eq_some_iff]
  constructor
  · rintro ⟨after, call, before, hcalls, hvalue, hafter⟩
    refine ⟨before.reverse, call, after.reverse, ?_, hvalue, fun later hlater => ?_⟩
    · simpa using List.reverse_eq_iff.mp hcalls
    · exact hafter later (List.mem_reverse.mp hlater)
  · rintro ⟨before, call, after, rfl, hvalue, hafter⟩
    refine ⟨after.reverse, call, before.reverse, by simp, hvalue, fun later hlater => ?_⟩
    exact hafter later (List.mem_reverse.mp hlater)

/-- **A name of the table built** has the value of the last call to write it, and without such a call
the value that it had before. -/
theorem get?_build_run (l : Layers α) (calls : List (Call α)) (name : String) :
    (l.run calls).build.get? name = (lastValue? calls name).or (l.build.get? name) := by
  rw [build_run]
  -- the latest call comes last, so the induction is from the end of the list
  induction calls using List.reverseRecOn with
  | nil => rfl
  | append_singleton calls call ih =>
    rw [List.foldl_concat, Call.get?_applyTo, ih, lastValue?_concat, Option.or_assoc]

/-- **The names of the table built** are those that some call writes and those it had before. -/
theorem mem_keys_build_run {l : Layers α} {calls : List (Call α)} {name : String} :
    name ∈ (l.run calls).build.keys ↔
      (∃ call ∈ calls, ∃ value, call.value? name = some value) ∨ name ∈ l.build.keys := by
  have hkeys (t : NameTable α) : name ∈ t.keys ↔ t.get? name ≠ none := by
    rw [NameTable.mem_keys_iff, Option.ne_none_iff_exists']
  rw [hkeys, hkeys, get?_build_run, Ne, Option.or_eq_none_iff, lastValue?_eq_none_iff]
  simp only [not_and_or, not_forall, ← Option.ne_none_iff_exists', exists_prop, Ne]

/-- **Two layers in a row** are one, the second laid over the first. -/
theorem build_run_layers (l : Layers α) (before after : List (Call α)) (a b : NameTable α) :
    (l.run (before ++ .layer a :: .layer b :: after)).build =
      (l.run (before ++ .layer (a.overriddenBy b) :: after)).build := by
  -- applied in turn, the two layers are the only calls in which the sides differ
  simp only [build_run, List.foldl_append, List.foldl_cons, Call.applyTo,
    NameTable.overriddenBy_assoc]

/-- **The last call counts.** A name of the table that is built from a base by any calls has the
value of the last call that writes it, which for a layer is that of its own entry, or else, when no
call writes it, the value of the base. It has no other names. So tables are laid over each other
associatively, an empty table laid over or under another changes nothing, nor does a table laid over
itself, and a layer right after another may be laid over it before both are queued. -/
theorem last_call_counts (base : NameTable α) (calls : List (Call α)) :
    let built := ((on base).run calls).build
    (∀ name value, built.get? name = some value ↔
      (∃ before call after, calls = before ++ call :: after ∧ call.value? name = some value ∧
        ∀ later ∈ after, later.value? name = none) ∨
      (∀ call ∈ calls, call.value? name = none) ∧ base.get? name = some value) ∧
    (∀ name, name ∈ built.keys ↔
      (∃ call ∈ calls, ∃ value, call.value? name = some value) ∨ name ∈ base.keys) ∧
    (∀ a b c : NameTable α,
      (a.overriddenBy b).overriddenBy c = a.overriddenBy (b.overriddenBy c)) ∧
    (∀ t : NameTable α,
      t.overriddenBy .empty = t ∧ NameTable.empty.overriddenBy t = t ∧ t.overriddenBy t = t) ∧
    ∀ a b after, ((on base).run (calls ++ .layer a :: .layer b :: after)).build =
      ((on base).run (calls ++ .layer (a.overriddenBy b) :: after)).build := by
  intro built
  have hbuilt (name : String) : built.get? name = (lastValue? calls name).or (base.get? name) :=
    get?_build_run (on base) calls name
  refine ⟨fun name value => ?_, fun name => mem_keys_build_run, NameTable.overriddenBy_assoc,
    fun t => ⟨t.overriddenBy_empty, t.empty_overriddenBy, t.overriddenBy_self⟩,
    fun a b after => build_run_layers (on base) calls after a b⟩
  rw [hbuilt, Option.or_eq_some_iff, lastValue?_eq_some_iff, lastValue?_eq_none_iff]

/-- A layer overrides the write before it and is overridden by the one after it. -/
example :
    ((on (.ofList [("fog", 1), ("stroke", 2)])).run [.set "fog" 3, .set "stroke" 4,
      .layer (.ofList [("extra", 5), ("fog", 6), ("stroke", 7)]), .set "stroke" 8]).build.entries =
      [("extra", 5), ("fog", 6), ("stroke", 8)] := by
  decide

end Layers

end RenderPlan
