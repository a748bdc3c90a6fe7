import RenderPlan.Proofs.NumberText

/-!
# Reading indented trees

The indented text of a tree is cut into the tokens of what the tree reads back as, whatever level
the tree stands on, and these tokens build it again.

## Main definitions

* `Json.Value.numbers`: the numbers of a tree

## Main results

* `Json.Value.exists_spells_prettyAt`: the text of a tree spells what it reads back as
* `Json.Value.exists_read?_pretty`: so the text of a tree is read
-/

namespace RenderPlan.Json

namespace Lexer

/-! ## Layout -/

theorem completes_openArray : Completes ['['] [.openArray] := fun _ => rfl

theorem completes_closeArray : Completes [']'] [.closeArray] := fun _ => rfl

theorem completes_openObject : Completes ['\x7b'] [.openObject] := fun _ => rfl

theorem completes_closeObject : Completes ['\x7d'] [.closeObject] := fun _ => rfl

theorem completes_comma : Completes [','] [.comma] := fun _ => rfl

theorem completes_colon : Completes [':', ' '] [.colon] := fun _ => rfl

variable {xs ys : List Char} {added added' : List Token}

theorem Completes.append_newline (h : Completes xs added) (level : Nat) :
    Completes (xs ++ (newline level).toList) added := by
  have happend := h.append (completes_newline level)
  rwa [List.append_nil] at happend

/-- A line break ends the last token of a line. -/
theorem Spells.newline_append (hxs : Spells xs added) (level : Nat) (hys : Completes ys added') :
    Completes (xs ++ ((newline level).toList ++ ys)) (added ++ added') := by
  have hline := (completes_newline level).append hys
  rw [newline, String.toList_ofList, List.cons_append] at hline ⊢
  exact hxs.append_completes rfl hline

/-- A comma ends the last token before it, and the next line follows. -/
theorem Spells.comma_append (hxs : Spells xs added) (level : Nat) (hys : Spells ys added') :
    Spells (xs ++ (',' :: ((newline level).toList ++ ys))) (added ++ .comma :: added') := by
  have hcomma := (hxs.append_completes rfl completes_comma).append_newline level
  have happend := hcomma.append_spells hys
  simp only [List.append_assoc, List.cons_append, List.nil_append] at happend
  exact happend

end Lexer

namespace Value

open Lexer

/-! ## Numbers -/

mutual

/-- The numbers of a tree. -/
def numbers : Value → List Number
  | .number n => [n]
  | .array elements => elementNumbers elements
  | .object members => memberNumbers members
  | _ => []

/-- The numbers of the elements of an array. -/
def elementNumbers : List Value → List Number
  | [] => []
  | v :: rest => v.numbers ++ elementNumbers rest

/-- The numbers of the members of an object. -/
def memberNumbers : List (String × Value) → List Number
  | [] => []
  | (_, v) :: rest => v.numbers ++ memberNumbers rest

end

end Value

theorem Number.Rereads.within {n : Number} {v : Value} (h : n.Rereads v) (depth : Nat) :
    v.Within (fun _ => True) depth := by
  rcases h.eq_null_or with rfl | ⟨m, rfl⟩
  · exact Value.within_null
  · exact Value.within_number.mpr trivial

namespace Value

open Lexer

/-! ## Reading back -/

/-- Only a container that holds something is spread over lines. -/
theorem prettyAt_eq_compact (level : Nat) {v : Value} (harray : ∀ w rest, v ≠ .array (w :: rest))
    (hobject : ∀ member rest, v ≠ .object (member :: rest)) : v.prettyAt level = v.compact := by
  rw [prettyAt]
  · exact harray
  · exact hobject

theorem prettyAt_null (level : Nat) : Value.null.prettyAt level = "null" :=
  prettyAt_eq_compact level nofun nofun

theorem prettyAt_bool (level : Nat) (b : Bool) :
    (Value.bool b).prettyAt level = if b then "true" else "false" :=
  prettyAt_eq_compact level nofun nofun

theorem prettyAt_number (level : Nat) (n : Number) : (Value.number n).prettyAt level = n.text :=
  prettyAt_eq_compact level nofun nofun

theorem prettyAt_string (level : Nat) (s : String) : (Value.string s).prettyAt level = quote s :=
  prettyAt_eq_compact level nofun nofun

theorem prettyAt_array_nil (level : Nat) :
    ((Value.array []).prettyAt level).toList = ['[', ']'] := by
  have htext : (Value.array []).prettyAt level = (Value.array []).compact :=
    prettyAt_eq_compact level nofun nofun
  rw [htext]
  rfl

theorem prettyAt_object_nil (level : Nat) :
    ((Value.object []).prettyAt level).toList = ['\x7b', '\x7d'] := by
  have htext : (Value.object []).prettyAt level = (Value.object []).compact :=
    prettyAt_eq_compact level nofun nofun
  rw [htext]
  rfl

theorem prettyAt_array (level : Nat) (v : Value) (rest : List Value) :
    ((Value.array (v :: rest)).prettyAt level).toList =
      ['['] ++ (newline (level + 1)).toList ++ ((prettyElements (level + 1) (v :: rest)).toList ++
        ((newline level).toList ++ [']'])) := by
  rw [prettyAt]
  simp only [String.toList_append, List.append_assoc]
  rfl

theorem prettyAt_object (level : Nat) (member : String × Value) (rest : List (String × Value)) :
    ((Value.object (member :: rest)).prettyAt level).toList =
      ['\x7b'] ++ (newline (level + 1)).toList ++
        ((prettyMembers (level + 1) (member :: rest)).toList ++
          ((newline level).toList ++ ['\x7d'])) := by
  rw [prettyAt]
  simp only [String.toList_append, List.append_assoc]
  rfl

theorem prettyElements_cons_cons (level : Nat) (v w : Value) (rest : List Value) :
    (prettyElements level (v :: w :: rest)).toList =
      (v.prettyAt level).toList ++
        (',' :: ((newline level).toList ++ (prettyElements level (w :: rest)).toList)) := by
  rw [prettyElements.eq_3 level v (w :: rest) (List.cons_ne_nil w rest)]
  simp only [String.toList_append, List.append_assoc]
  rfl

theorem prettyMembers_singleton (level : Nat) (name : String) (v : Value) :
    (prettyMembers level [(name, v)]).toList =
      (quote name).toList ++ [':', ' '] ++ (v.prettyAt level).toList := by
  rw [prettyMembers]
  simp only [String.toList_append]
  rfl

theorem prettyMembers_cons_cons (level : Nat) (name : String) (v : Value) (member : String × Value)
    (rest : List (String × Value)) :
    (prettyMembers level ((name, v) :: member :: rest)).toList =
      (quote name).toList ++ [':', ' '] ++ (v.prettyAt level).toList ++
        (',' :: ((newline level).toList ++ (prettyMembers level (member :: rest)).toList)) := by
  rw [prettyMembers.eq_3 level name v (member :: rest) (List.cons_ne_nil member rest)]
  simp only [String.toList_append, List.append_assoc]
  rfl

mutual

/-- **The indented text of a tree** spells what the tree reads back as. -/
theorem exists_spells_prettyAt :
    ∀ (v : Value) {depth : Nat} (level : Nat), v.Within Number.IsWord64 depth →
      (∀ n ∈ v.numbers, n.KeepsWord) →
      ∃ v', v.Rereads v' ∧ v'.Within (fun _ => True) depth ∧
        Spells (v.prettyAt level).toList v'.tokens
  | .null, depth, level, _, _ => by
    rw [prettyAt_null]
    exact ⟨.null, .null, within_null, spells_null⟩
  | .bool b, depth, level, _, _ => by
    rw [prettyAt_bool]
    exact ⟨.bool b, .bool b, within_bool, spells_bool b⟩
  | .number n, depth, level, h, hwords => by
    obtain ⟨v, hv, hspells⟩ := Number.exists_spells_text (within_number.mp h)
      (hwords n (List.mem_singleton_self n))
    rw [prettyAt_number]
    exact ⟨v, .number hv, hv.within depth, hspells⟩
  | .string s, depth, level, _, _ => by
    rw [prettyAt_string]
    exact ⟨.string s, .string s, within_string, (completes_quote s).spells⟩
  | .unreadable, _, _, h, _ => absurd h not_within_unreadable
  | .array _, 0, _, h, _ => absurd h not_within_array_zero
  | .array [], depth + 1, level, _, _ => by
    refine ⟨.array [], .array .nil, ?_, ?_⟩
    · rw [within_array]
      exact fun v hv => (nomatch hv)
    · rw [prettyAt_array_nil]
      exact (completes_openArray.append completes_closeArray).spells
  | .array (v :: rest), depth + 1, level, h, hwords => by
    rw [within_array] at h
    obtain ⟨elements', hrereads, hnests, hspells⟩ :=
      exists_spells_prettyElements (v :: rest) (level + 1) (List.cons_ne_nil _ _) h hwords
    refine ⟨.array elements', .array hrereads, within_array.mpr hnests, ?_⟩
    -- the last element ends at the line break before the bracket, not before
    have hclose := hspells.newline_append level completes_closeArray
    rw [prettyAt_array]
    exact ((completes_openArray.append_newline (level + 1)).append hclose).spells
  | .object _, 0, _, h, _ => absurd h not_within_object_zero
  | .object [], depth + 1, level, _, _ => by
    refine ⟨.object [], .object .nil, ?_, ?_⟩
    · rw [within_object]
      exact fun v hv => (nomatch hv)
    · rw [prettyAt_object_nil]
      exact (completes_openObject.append completes_closeObject).spells
  | .object (member :: rest), depth + 1, level, h, hwords => by
    rw [within_object] at h
    obtain ⟨members', hrereads, hnests, hspells⟩ :=
      exists_spells_prettyMembers (member :: rest) (level + 1) (List.cons_ne_nil _ _) h hwords
    refine ⟨.object members', .object hrereads, within_object.mpr hnests, ?_⟩
    have hclose := hspells.newline_append level completes_closeObject
    rw [prettyAt_object]
    exact ((completes_openObject.append_newline (level + 1)).append hclose).spells

/-- The lines of the elements of an array spell what the elements read back as. -/
theorem exists_spells_prettyElements :
    ∀ (elements : List Value) {depth : Nat} (level : Nat), elements ≠ [] →
      (∀ v ∈ elements, v.Within Number.IsWord64 depth) →
      (∀ n ∈ elementNumbers elements, n.KeepsWord) →
      ∃ elements', RereadsAll elements elements' ∧
        (∀ v ∈ elements', v.Within (fun _ => True) depth) ∧
        Spells (prettyElements level elements).toList (elementTokens elements')
  | [], _, _, hne, _, _ => absurd rfl hne
  | [v], depth, level, _, h, hwords => by
    rw [elementNumbers, List.forall_mem_append] at hwords
    rw [List.forall_mem_singleton] at h
    obtain ⟨v', hv, hnests, hspells⟩ := exists_spells_prettyAt v level h hwords.1
    refine ⟨[v'], .cons hv .nil, ?_, ?_⟩
    · rwa [List.forall_mem_singleton]
    · rw [prettyElements]
      exact hspells
  | v :: w :: rest, depth, level, _, h, hwords => by
    rw [elementNumbers, List.forall_mem_append] at hwords
    rw [List.forall_mem_cons] at h
    obtain ⟨v', hv, hnests, hspells⟩ := exists_spells_prettyAt v level h.1 hwords.1
    obtain ⟨rest', hrest, hnestsRest, hspellsRest⟩ :=
      exists_spells_prettyElements (w :: rest) level (List.cons_ne_nil _ _) h.2 hwords.2
    refine ⟨v' :: rest', .cons hv hrest, ?_, ?_⟩
    · rw [List.forall_mem_cons]
      exact ⟨hnests, hnestsRest⟩
    -- what more than one element reads back as is more than one element, so a comma parts them
    · cases hrest with
      | cons _ _ =>
        rw [prettyElements_cons_cons, elementTokens_cons_cons]
        exact hspells.comma_append level hspellsRest

/-- The lines of the members of an object spell what the members read back as. -/
theorem exists_spells_prettyMembers :
    ∀ (members : List (String × Value)) {depth : Nat} (level : Nat), members ≠ [] →
      (∀ member ∈ members, member.2.Within Number.IsWord64 depth) →
      (∀ n ∈ memberNumbers members, n.KeepsWord) →
      ∃ members', RereadsMembers members members' ∧
        (∀ member ∈ members', member.2.Within (fun _ => True) depth) ∧
        Spells (prettyMembers level members).toList (memberTokens members')
  | [], _, _, hne, _, _ => absurd rfl hne
  | [(name, v)], depth, level, _, h, hwords => by
    rw [memberNumbers, List.forall_mem_append] at hwords
    rw [List.forall_mem_singleton] at h
    obtain ⟨v', hv, hnests, hspells⟩ := exists_spells_prettyAt v level h hwords.1
    refine ⟨[(name, v')], .cons hv .nil, ?_, ?_⟩
    · rwa [List.forall_mem_singleton]
    · rw [prettyMembers_singleton]
      exact ((completes_quote name).append completes_colon).append_spells hspells
  | (name, v) :: member :: rest, depth, level, _, h, hwords => by
    rw [memberNumbers, List.forall_mem_append] at hwords
    rw [List.forall_mem_cons] at h
    obtain ⟨v', hv, hnests, hspells⟩ := exists_spells_prettyAt v level h.1 hwords.1
    obtain ⟨rest', hrest, hnestsRest, hspellsRest⟩ :=
      exists_spells_prettyMembers (member :: rest) level (List.cons_ne_nil _ _) h.2 hwords.2
    refine ⟨(name, v') :: rest', .cons hv hrest, ?_, ?_⟩
    · rw [List.forall_mem_cons]
      exact ⟨hnests, hnestsRest⟩
    · have hmember := ((completes_quote name).append completes_colon).append_spells hspells
      cases hrest with
      | cons _ _ =>
        rw [prettyMembers_cons_cons, memberTokens_cons_cons]
        exact hmember.comma_append level hspellsRest

end

/-- **The text of a tree is read**, if the tree is within the limits of reading and keeps its words,
as what the tree reads back as. -/
theorem exists_read?_pretty {v : Value} (h : v.Within Number.IsWord64 Builder.deepestReadable)
    (hwords : ∀ n ∈ v.numbers, n.KeepsWord) : ∃ v', read? v.pretty = some v' ∧ v.Rereads v' := by
  obtain ⟨v', hrereads, hnests, hspells⟩ := exists_spells_prettyAt v 0 h hwords
  exact ⟨v', read?_of_tokens? (tokens?_of_spells hspells) hnests, hrereads⟩

end Value

end RenderPlan.Json
