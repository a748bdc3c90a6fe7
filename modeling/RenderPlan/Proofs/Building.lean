import RenderPlan.Json.Reader

/-!
# Building a tree from its tokens

Read where a value may begin, the tokens of a tree put the tree there, whatever stands around the
place. The containers around it count towards the depth beyond which nothing can be read.

## Main definitions

* `Json.Value.tokens`: the tokens of a tree
* `Json.Value.Within`: a tree that is readable and nested no deeper than given

## Main results

* `Json.Builder.foldlM_tokens`: the tokens of a tree put it where a value may begin
* `Json.read?_of_tokens?`: a text that is cut into the tokens of a tree is read as the tree
-/

namespace RenderPlan.Json

namespace Value

/-! ## Tokens -/

mutual

/-- The tokens of a tree. -/
def tokens : Value → List Token
  | .null => [.null]
  | .bool b => [.bool b]
  | .number n => [.number (some n)]
  | .string s => [.string (some s)]
  | .array elements => .openArray :: (elementTokens elements ++ [.closeArray])
  | .object members => .openObject :: (memberTokens members ++ [.closeObject])
  | .unreadable => [.number none]

/-- The tokens of the elements of an array, parted by commas. -/
def elementTokens : List Value → List Token
  | [] => []
  | [v] => v.tokens
  | v :: rest => v.tokens ++ .comma :: elementTokens rest

/-- The tokens of the members of an object, parted by commas. -/
def memberTokens : List (String × Value) → List Token
  | [] => []
  | [(name, v)] => .string (some name) :: .colon :: v.tokens
  | (name, v) :: rest => .string (some name) :: .colon :: (v.tokens ++ .comma :: memberTokens rest)

end

theorem elementTokens_cons_cons (v w : Value) (rest : List Value) :
    elementTokens (v :: w :: rest) = v.tokens ++ .comma :: elementTokens (w :: rest) :=
  rfl

theorem memberTokens_cons_cons (name : String) (v : Value) (member : String × Value)
    (rest : List (String × Value)) :
    memberTokens ((name, v) :: member :: rest) =
      [.string (some name), .colon] ++ (v.tokens ++ .comma :: memberTokens (member :: rest)) :=
  rfl

/-! ## Depth -/

/-- The tree is readable, its numbers satisfy `P`, and its containers are nested no deeper than
`depth`. -/
def Within (P : Number → Prop) : Nat → Value → Prop
  | 0, .array _ | 0, .object _ => False
  | depth + 1, .array elements => ∀ v ∈ elements, Within P depth v
  | depth + 1, .object members => ∀ member ∈ members, Within P depth member.2
  | _, .number n => P n
  | _, .unreadable => False
  | _, .null | _, .bool _ | _, .string _ => True

section Within

variable {P : Number → Prop} {depth : Nat}

theorem within_null : Value.null.Within P depth := by
  cases depth <;> exact trivial

theorem within_bool {b : Bool} : (Value.bool b).Within P depth := by
  cases depth <;> exact trivial

theorem within_string {s : String} : (Value.string s).Within P depth := by
  cases depth <;> exact trivial

theorem within_number {n : Number} : (Value.number n).Within P depth ↔ P n := by
  cases depth <;> exact Iff.rfl

theorem not_within_unreadable : ¬Value.unreadable.Within P depth := by
  cases depth <;> exact id

theorem within_array {elements : List Value} :
    (Value.array elements).Within P (depth + 1) ↔ ∀ v ∈ elements, v.Within P depth :=
  Iff.rfl

theorem within_object {members : List (String × Value)} :
    (Value.object members).Within P (depth + 1) ↔
      ∀ member ∈ members, member.2.Within P depth :=
  Iff.rfl

theorem not_within_array_zero {elements : List Value} : ¬(Value.array elements).Within P 0 :=
  id

theorem not_within_object_zero {members : List (String × Value)} :
    ¬(Value.object members).Within P 0 :=
  id

end Within

end Value

namespace Builder

/-! ## Steps -/

variable {around : List (Container × Option (Option String))} {outer : Option (Option String)}
  {phase : Phase}

theorem step_openArray (h : expectsValue phase = true) :
    step ⟨around, phase⟩ .openArray =
      some ⟨(.array [], pendingName ⟨around, phase⟩) :: around, .firstElement⟩ := by
  cases phase <;> first | rfl | cases h

theorem step_openObject (h : expectsValue phase = true) :
    step ⟨around, phase⟩ .openObject =
      some ⟨(.object [], pendingName ⟨around, phase⟩) :: around, .firstMemberName⟩ := by
  cases phase <;> first | rfl | cases h

/-- A container that ends where it is not too deep is the tree of what it holds. -/
theorem close_of_length_lt (h : around.length < deepestReadable) (container : Container) :
    close around container =
      match container with
      | .array elements => .array elements.reverse
      | .object members => objectOf members := by
  have hdeep : isTooDeep around = false := by
    rw [isTooDeep, List.drop_eq_nil_of_le (Nat.le_sub_one_of_lt h)]
    rfl
  unfold close
  rw [hdeep]
  rfl

theorem objectOf_named (members : List (String × Value)) :
    objectOf (members.map fun member => (some member.1, member.2)).reverse = .object members := by
  -- every member has a name, so collecting the named ones loses none
  have hmapM : (members.map fun member => (some member.1, member.2)).mapM
      (fun member => member.1.map fun name => (name, member.2)) = some members := by
    induction members with
    | nil => rfl
    | cons member members ih =>
      rw [List.map_cons, List.mapM_cons, ih]
      rfl
  rw [objectOf, List.reverse_reverse, hmapM]

/-- The end of an array that has just begun or whose last element has been read. -/
theorem step_closeArray (hphase : phase = .firstElement ∨ ∃ last, phase = .done last)
    (hdepth : around.length < deepestReadable) (elements : List Value) :
    step ⟨(.array elements.reverse, outer) :: around, phase⟩ .closeArray =
      some (finish around outer (.array elements)) := by
  have hclose : close around (.array elements.reverse) = .array elements := by
    rw [close_of_length_lt hdepth]
    exact congrArg Value.array elements.reverse_reverse
  rw [← hclose]
  obtain rfl | ⟨last, rfl⟩ := hphase <;> rfl

/-- The end of an object that has just begun or whose last member has been read. -/
theorem step_closeObject (hphase : phase = .firstMemberName ∨ ∃ last, phase = .done last)
    (hdepth : around.length < deepestReadable) (members : List (String × Value)) :
    step ⟨(.object (members.map fun member => (some member.1, member.2)).reverse, outer) :: around,
        phase⟩ .closeObject =
      some (finish around outer (.object members)) := by
  have hclose : close around
      (.object (members.map fun member => (some member.1, member.2)).reverse) =
        .object members := by
    rw [close_of_length_lt hdepth]
    exact objectOf_named members
  rw [← hclose]
  obtain rfl | ⟨last, rfl⟩ := hphase <;> rfl

/-! ## Trees -/

variable {P : Number → Prop}

mutual

/-- **The tokens of a tree** put it where a value may begin. -/
theorem foldlM_tokens :
    ∀ (v : Value) {depth : Nat} (around : List (Container × Option (Option String)))
      (phase : Phase), v.Within P depth → around.length + depth ≤ deepestReadable →
      expectsValue phase = true →
      v.tokens.foldlM step ⟨around, phase⟩ =
        some (finish around (pendingName ⟨around, phase⟩) v)
  -- where no value may begin, the phase contradicts the hypothesis
  | .null, _, around, phase, _, _, hphase => by
    cases phase <;> first | rfl | cases hphase
  | .bool b, _, around, phase, _, _, hphase => by
    cases phase <;> first | rfl | cases hphase
  | .number n, _, around, phase, _, _, hphase => by
    cases phase <;> first | rfl | cases hphase
  | .string s, _, around, phase, _, _, hphase => by
    cases phase <;> first | rfl | cases hphase
  | .unreadable, _, _, _, h, _, _ => absurd h Value.not_within_unreadable
  | .array elements, 0, around, phase, h, _, _ => absurd h Value.not_within_array_zero
  | .array [], depth + 1, around, phase, h, hdepth, hphase => by
    have hlength : around.length < deepestReadable := by omega
    rw [Value.tokens, List.foldlM_cons, step_openArray hphase]
    exact step_closeArray (.inl rfl) hlength []
  | .array (v :: rest), depth + 1, around, phase, h, hdepth, hphase => by
    -- the array counts towards the depth at which its elements stand
    have hlength : around.length < deepestReadable := by omega
    rw [Value.within_array] at h
    obtain ⟨last, hlast⟩ := foldlM_elementTokens (v :: rest) around (pendingName ⟨around, phase⟩) []
      .firstElement (List.cons_ne_nil _ _) h hdepth rfl
    rw [Value.tokens, List.foldlM_cons, step_openArray hphase, Option.bind_eq_bind,
      Option.bind_some, List.foldlM_append, hlast, List.append_nil]
    exact step_closeArray (.inr ⟨last, rfl⟩) hlength (v :: rest)
  | .object members, 0, around, phase, h, _, _ => absurd h Value.not_within_object_zero
  | .object [], depth + 1, around, phase, h, hdepth, hphase => by
    have hlength : around.length < deepestReadable := by omega
    rw [Value.tokens, List.foldlM_cons, step_openObject hphase]
    exact step_closeObject (.inl rfl) hlength []
  | .object (member :: rest), depth + 1, around, phase, h, hdepth, hphase => by
    have hlength : around.length < deepestReadable := by omega
    rw [Value.within_object] at h
    obtain ⟨last, hlast⟩ := foldlM_memberTokens (member :: rest) around
      (pendingName ⟨around, phase⟩) [] .firstMemberName (List.cons_ne_nil _ _) h hdepth (.inr rfl)
    rw [Value.tokens, List.foldlM_cons, step_openObject hphase, Option.bind_eq_bind,
      Option.bind_some, List.foldlM_append, hlast, List.append_nil]
    exact step_closeObject (.inr ⟨last, rfl⟩) hlength (member :: rest)

/-- The tokens of elements add them to the array they stand in. -/
theorem foldlM_elementTokens :
    ∀ (elements : List Value) {depth : Nat} (around : List (Container × Option (Option String)))
      (outer : Option (Option String)) (before : List Value) (phase : Phase), elements ≠ [] →
      (∀ v ∈ elements, v.Within P depth) → around.length + (depth + 1) ≤ deepestReadable →
      expectsValue phase = true →
      ∃ last, (Value.elementTokens elements).foldlM step
          ⟨(.array before, outer) :: around, phase⟩ =
        some ⟨(.array (elements.reverse ++ before), outer) :: around, .done last⟩
  | [], _, _, _, _, _, hne, _, _, _ => absurd rfl hne
  | [v], depth, around, outer, before, phase, _, h, hdepth, hphase => by
    have hv := foldlM_tokens v ((.array before, outer) :: around) phase
      (h v (List.mem_singleton_self v)) (by rw [List.length_cons]; omega) hphase
    exact ⟨v, hv⟩
  | v :: w :: rest, depth, around, outer, before, phase, _, h, hdepth, hphase => by
    rw [List.forall_mem_cons] at h
    have hv := foldlM_tokens v ((.array before, outer) :: around) phase h.1
      (by rw [List.length_cons]; omega) hphase
    -- after the comma a value is expected again
    obtain ⟨last, hrest⟩ := foldlM_elementTokens (w :: rest) around outer (v :: before) .value
      (List.cons_ne_nil _ _) h.2 hdepth rfl
    refine ⟨last, ?_⟩
    rw [Value.elementTokens_cons_cons, List.foldlM_append, hv, List.reverse_cons, List.append_assoc]
    exact hrest

/-- The tokens of members add them to the object they stand in. -/
theorem foldlM_memberTokens :
    ∀ (members : List (String × Value)) {depth : Nat}
      (around : List (Container × Option (Option String))) (outer : Option (Option String))
      (before : List (Option String × Value)) (phase : Phase), members ≠ [] →
      (∀ member ∈ members, member.2.Within P depth) →
      around.length + (depth + 1) ≤ deepestReadable →
      phase = .memberName ∨ phase = .firstMemberName →
      ∃ last, (Value.memberTokens members).foldlM step
          ⟨(.object before, outer) :: around, phase⟩ =
        some ⟨(.object ((members.map fun member => (some member.1, member.2)).reverse ++ before),
          outer) :: around, .done last⟩
  | [], _, _, _, _, _, hne, _, _, _ => absurd rfl hne
  | [(name, v)], depth, around, outer, before, phase, _, h, hdepth, hphase => by
    have hv := foldlM_tokens v ((.object before, outer) :: around) (.memberValue name)
      (h _ (List.mem_singleton_self _)) (by rw [List.length_cons]; omega) rfl
    obtain rfl | rfl := hphase <;> exact ⟨v, hv⟩
  | (name, v) :: member :: rest, depth, around, outer, before, phase, _, h, hdepth, hphase => by
    rw [List.forall_mem_cons] at h
    have hv := foldlM_tokens v ((.object before, outer) :: around) (.memberValue name) h.1
      (by rw [List.length_cons]; omega) rfl
    obtain ⟨last, hrest⟩ := foldlM_memberTokens (member :: rest) around outer
      ((some name, v) :: before) .memberName (List.cons_ne_nil _ _) h.2 hdepth (.inl rfl)
    refine ⟨last, ?_⟩
    -- the name and the colon lead to where the member's value may begin
    have hcolon : ([.string (some name), .colon] : List Token).foldlM step
        ⟨(.object before, outer) :: around, phase⟩ =
          some ⟨(.object before, outer) :: around, .memberValue name⟩ := by
      obtain rfl | rfl := hphase <;> rfl
    rw [Value.memberTokens_cons_cons, List.foldlM_append, hcolon, Option.bind_eq_bind,
      Option.bind_some, List.foldlM_append, hv, List.map_cons, List.reverse_cons, List.append_assoc]
    exact hrest

end

end Builder

/-- **A text that is cut into the tokens of a tree** is read as the tree. -/
theorem read?_of_tokens? {text : String} {v : Value} (htokens : tokens? text.toList = some v.tokens)
    (h : v.Within P Builder.deepestReadable) : read? text = some v := by
  have hbuild := Builder.foldlM_tokens v [] .value h (Nat.le_of_eq (Nat.zero_add _)) rfl
  rw [read?, htokens, Option.bind_eq_bind, Option.bind_some, hbuild]
  rfl

end RenderPlan.Json
