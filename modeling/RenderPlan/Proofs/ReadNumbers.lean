import RenderPlan.Proofs.TreeText

/-!
# The numbers of a text

Every number of a tree that is read from a text was written there as a numeral, and what a numeral
stands for is within the 64-bit format. So no number of a tree read from text is infinite or NaN
when it is taken for a 64-bit word. As a 32-bit word it may be.

## Main definitions

* `Json.Number.IsOfNumeral`: some numeral stands for the number
* `Json.Value.AllNumbers P`: every number of the tree satisfies `P`

## Main results

* `Json.Number.IsOfNumeral.isFinite_toDouble`: what a numeral stands for is a finite 64-bit word
* `Json.allNumbers_of_read?`: the numbers of a tree that is read are those of numerals
-/

namespace RenderPlan

/-! ## Integers as words -/

theorem nearestEven_le_div_add_one (num den : Nat) : nearestEven num den ≤ num / den + 1 := by
  have hmod := Nat.mod_lt (num / den) Nat.two_pos
  unfold nearestEven
  dsimp only
  split
  · omega
  · split <;> omega

namespace Binary

variable {p : Precision}

/-- The exponent field of a word is that of its magnitude. -/
theorem exponentField_ofMagnitude {negative : Bool} {magnitude : Nat}
    (h : magnitude < 2 ^ (p.exponentBits + p.fractionBits)) :
    (ofMagnitude negative magnitude : Binary p).exponentField =
      magnitude / 2 ^ p.fractionBits := by
  have hfield : magnitude / 2 ^ p.fractionBits < 2 ^ p.exponentBits :=
    Nat.div_lt_of_lt_mul (by rwa [← Nat.pow_add, Nat.add_comm])
  have hwidth : 2 ^ p.width = 2 ^ (p.exponentBits + p.fractionBits) * 2 := by
    rw [Precision.width, ← Nat.pow_succ]
    congr 1
    omega
  cases negative with
  | false =>
    have hbits : (ofMagnitude false magnitude : Binary p).toBits = magnitude :=
      Nat.mod_eq_of_lt (show magnitude < 2 ^ p.width by omega)
    rw [exponentField, hbits, Nat.mod_eq_of_lt hfield]
  | true =>
    -- the sign stands above the exponent field
    have hbits : (ofMagnitude true magnitude : Binary p).toBits =
        2 ^ (p.exponentBits + p.fractionBits) + magnitude :=
      Nat.mod_eq_of_lt
        (show 2 ^ (p.exponentBits + p.fractionBits) + magnitude < 2 ^ p.width by omega)
    rw [exponentField, hbits, Nat.pow_add, Nat.mul_comm, Nat.mul_add_div (Nat.two_pow_pos _),
      Nat.add_mod_left, Nat.mod_eq_of_lt hfield]

/-- A word of which the magnitude stays below that of the infinities is finite. -/
theorem isFinite_ofMagnitude {negative : Bool} {magnitude : Nat}
    (h : magnitude < p.topField * 2 ^ p.fractionBits) :
    (ofMagnitude negative magnitude : Binary p).isFinite = true := by
  have htop : p.topField * 2 ^ p.fractionBits ≤ 2 ^ (p.exponentBits + p.fractionBits) := by
    rw [Nat.pow_add]
    exact Nat.mul_le_mul_right _ (Nat.sub_le ..)
  have hfield : magnitude / 2 ^ p.fractionBits < p.topField :=
    Nat.div_lt_of_lt_mul (by rwa [Nat.mul_comm])
  rw [isFinite, exponentField_ofMagnitude (h.trans_le htop), bne_iff_ne]
  exact hfield.ne

/-- An integer of which the leading digit is cut to stand 53 places above the point at most. -/
theorem scaled_lt {m : Nat} {place : Int} (h : (m.log2 : Int) - 53 ≤ place) :
    (scaleByPowerOfTwo m 1 place).1 < 2 ^ 54 * (scaleByPowerOfTwo m 1 place).2 := by
  rw [scaleByPowerOfTwo, Nat.one_mul, ← Nat.pow_add]
  calc m * 2 ^ (-place).toNat
      < 2 ^ (m.log2 + 1) * 2 ^ (-place).toNat :=
        Nat.mul_lt_mul_of_pos_right Nat.lt_log2_self (Nat.two_pow_pos _)
    _ = 2 ^ (m.log2 + 1 + (-place).toNat) := (Nat.pow_add ..).symm
    _ ≤ 2 ^ (54 + place.toNat) := Nat.pow_le_pow_right Nat.two_pos (by omega)

/-- An integer rounded to a place not far above its point stays below the infinities. -/
theorem magnitude_lt_of_place {m : Nat} {place : Int} (hlow : (m.log2 : Int) - 53 ≤ place)
    (hhigh : place ≤ 12) :
    (place - Precision.double.finestExponent).toNat * 2 ^ Precision.double.fractionBits +
        nearestEven (scaleByPowerOfTwo m 1 place).1 (scaleByPowerOfTwo m 1 place).2 <
      Precision.double.topField * 2 ^ Precision.double.fractionBits := by
  have hquotient := Nat.div_lt_of_lt_mul (Nat.mul_comm .. ▸ scaled_lt hlow)
  have hround := nearestEven_le_div_add_one (scaleByPowerOfTwo m 1 place).1
    (scaleByPowerOfTwo m 1 place).2
  rw [show Precision.double.finestExponent = -1074 from by decide,
    show Precision.double.fractionBits = 52 from rfl,
    show Precision.double.topField = 2047 from by decide]
  omega

/-- An integer of 64 bits, rounded to a 64-bit word, does not overflow. -/
theorem isFinite_ofInt {n : Int} (h : n.natAbs ≤ 2 ^ 64) :
    (ofInt n : Binary64).isFinite = true := by
  rw [ofInt, ofRatio]
  generalize n.natAbs = m at h
  split
  · exact isFinite_ofMagnitude (by decide)
  · next hm =>
    have hlog : m.log2 ≤ 64 := by
      by_contra hlog
      have hle := (Nat.le_log2 hm).mp (Nat.not_le.mp hlog)
      omega
    dsimp only
    have hone : Nat.log2 1 = 0 := by decide
    rw [hone]
    -- the last place is one of two, and far from either end of the format
    generalize hplace : max (if (scaleByPowerOfTwo m 1 _).1 < _ then _ else _)
      (Precision.finestExponent _) = place
    have hbounds : (m.log2 : Int) - 53 ≤ place ∧ place ≤ 12 := by
      rw [← hplace, show Precision.double.finestExponent = -1074 from by decide,
        show Precision.double.fractionBits = 52 from rfl]
      split <;> omega
    have hmagnitude := magnitude_lt_of_place hbounds.1 hbounds.2
    rw [if_pos hmagnitude]
    exact isFinite_ofMagnitude hmagnitude

end Binary

namespace Json

/-- Some numeral stands for the number. -/
def Number.IsOfNumeral (n : Number) : Prop := ∃ numeral : Numeral, numeral.number? = some n

/-- A numeral stands for an integer only as far as 64 bits reach. -/
theorem Numeral.natAbs_le_of_integer? {numeral : Numeral} {n : Int}
    (h : numeral.integer? = some n) : n.natAbs ≤ 2 ^ 64 := by
  simp only [integer?] at h
  split at h
  · cases h
  · split at h
    · split at h
      · cases h
      · next hrange =>
        obtain rfl : -(digitsToNat numeral.whole : Int) = n := Option.some.inj h
        simp only [Bool.or_eq_true, decide_eq_true_eq, not_or] at hrange
        omega
    · split at h
      · next hrange =>
        obtain rfl : (digitsToNat numeral.whole : Int) = n := Option.some.inj h
        omega
      · cases h

/-- **What a numeral stands for** is a finite 64-bit word. -/
theorem Number.IsOfNumeral.isFinite_toDouble {n : Number} (h : n.IsOfNumeral) :
    n.toDouble.isFinite = true := by
  obtain ⟨numeral, h⟩ := h
  rw [Numeral.number?] at h
  split at h
  · next integer hinteger =>
    cases h
    exact Binary.isFinite_ofInt (Numeral.natAbs_le_of_integer? hinteger)
  · split at h
    · next hfinite =>
      cases h
      exact hfinite
    · cases h

/-! ## Tokens -/

/-- The number of the token, if it has one, satisfies `P`. -/
def Token.NumberSatisfies (P : Number → Prop) : Token → Prop
  | .number (some n) => P n
  | _ => True

namespace Lexer

/-- The numbers of the tokens are those of numerals. -/
def ReadsNumerals (tokens : List Token) : Prop :=
  ∀ token ∈ tokens, token.NumberSatisfies Number.IsOfNumeral

theorem readsNumerals_cons {token : Token} {tokens : List Token} :
    ReadsNumerals (token :: tokens) ↔
      token.NumberSatisfies Number.IsOfNumeral ∧ ReadsNumerals tokens :=
  List.forall_mem_cons

theorem forall_some_ite {α : Type} {P : α → Prop} {c : Prop} [Decidable c] {a : α}
    {other : Option α} (ha : P a) (hother : ∀ b, other = some b → P b) :
    ∀ b, (if c then some a else other) = some b → P b := by
  intro b h
  by_cases hc : c
  · rw [if_pos hc] at h
    cases h
    exact ha
  · rw [if_neg hc] at h
    exact hother b h

theorem ReadsNumerals.start {tokens : List Token} {c : Char} (htokens : ReadsNumerals tokens) :
    ∀ l, start tokens c = some l → ReadsNumerals l.tokens := by
  -- a mark has no number
  have hmark (token : Token) (htoken : token.NumberSatisfies Number.IsOfNumeral) :
      ReadsNumerals (token :: tokens) := readsNumerals_cons.mpr ⟨htoken, htokens⟩
  unfold Lexer.start
  refine forall_some_ite htokens ?_
  iterate 6 refine forall_some_ite (hmark _ trivial) ?_
  iterate 3 refine forall_some_ite htokens ?_
  exact nofun

theorem ReadsNumerals.settle {l : Lexer} {tokens : List Token} (hl : ReadsNumerals l.tokens)
    (h : l.settle = some tokens) : ReadsNumerals tokens := by
  unfold Lexer.settle at h
  split at h
  · cases h
    exact hl
  · obtain ⟨token, htoken, rfl⟩ := Option.map_eq_some_iff.mp h
    refine readsNumerals_cons.mpr ⟨?_, hl⟩
    unfold word? at htoken
    repeat' split at htoken
    all_goals cases htoken
    all_goals trivial
  · obtain ⟨numeral, -, rfl⟩ := Option.map_eq_some_iff.mp h
    refine readsNumerals_cons.mpr ⟨?_, hl⟩
    cases hnumber : numeral.number? with
    | none => trivial
    | some n => exact ⟨numeral, hnumber⟩
  · cases h

theorem ReadsNumerals.step {l l' : Lexer} {c : Char} (hl : ReadsNumerals l.tokens)
    (h : l.step c = some l') : ReadsNumerals l'.tokens := by
  obtain ⟨tokens, mode⟩ := l
  -- a character that does not continue a word or number ends it, and is then read like any other
  cases mode with
  | blank => exact hl.start _ h
  | word letters =>
    rw [step_word] at h
    split at h
    · cases h
      exact hl
    · obtain ⟨settled, hsettled, h⟩ := Option.bind_eq_some_iff.mp h
      exact (hl.settle hsettled).start _ h
  | numeral chars =>
    rw [step_numeral] at h
    split at h
    · cases h
      exact hl
    · obtain ⟨settled, hsettled, h⟩ := Option.bind_eq_some_iff.mp h
      exact (hl.settle hsettled).start _ h
  | string parts =>
    rw [step_string] at h
    repeat' split at h
    all_goals cases h
    · exact readsNumerals_cons.mpr ⟨trivial, hl⟩
    · exact hl
    · exact hl
  | escape parts =>
    simp only [Lexer.step] at h
    split at h
    · cases h
      exact hl
    · obtain ⟨char, -, rfl⟩ := Option.map_eq_some_iff.mp h
      exact hl
  | unit parts digitsLeft value =>
    obtain ⟨digit, -, rfl⟩ := Option.map_eq_some_iff.mp h
    dsimp only
    split <;> exact hl

end Lexer

/-- What every step keeps, a run of steps keeps. -/
theorem foldlM_keeps {σ α : Type} {step : σ → α → Option σ} {P : σ → Prop} {Q : α → Prop}
    (hstep : ∀ s a s', P s → Q a → step s a = some s' → P s') :
    ∀ {as : List α} {s s' : σ}, P s → (∀ a ∈ as, Q a) → as.foldlM step s = some s' →
      P s'
  | [], s, s', hs, _, h => by
    cases h
    exact hs
  | a :: as, s, s', hs, has, h => by
    obtain ⟨ha, has⟩ := List.forall_mem_cons.mp has
    obtain ⟨next, hnext, h⟩ := Option.bind_eq_some_iff.mp h
    exact foldlM_keeps hstep (hstep s a next hs ha hnext) has h

/-- What every step gives, a list of steps gives. -/
theorem forall_of_mapM_eq_some {α β : Type} {f : α → Option β} {Q : β → Prop} :
    ∀ {xs : List α} {ys : List β}, (∀ x ∈ xs, ∀ y, f x = some y → Q y) →
      xs.mapM f = some ys → ∀ y ∈ ys, Q y
  | [], ys, _, h => by
    cases h
    simp
  | x :: xs, ys, hf, h => by
    obtain ⟨hx, hxs⟩ := List.forall_mem_cons.mp hf
    rw [List.mapM_cons] at h
    obtain ⟨y, hy, h⟩ := Option.bind_eq_some_iff.mp h
    obtain ⟨rest, hrest, h⟩ := Option.bind_eq_some_iff.mp h
    cases h
    exact List.forall_mem_cons.mpr ⟨hx y hy, forall_of_mapM_eq_some hxs hrest⟩

/-- **The number tokens** of a text are those of numerals. -/
theorem Lexer.readsNumerals_of_tokens? {text : List Char} {tokens : List Token}
    (h : tokens? text = some tokens) : ReadsNumerals tokens := by
  obtain ⟨last, hlast, h⟩ := Option.bind_eq_some_iff.mp h
  obtain ⟨settled, hsettled, h⟩ := Option.bind_eq_some_iff.mp h
  have hreads : ReadsNumerals last.tokens :=
    foldlM_keeps (P := fun l => ReadsNumerals l.tokens) (Q := fun _ => True)
      (fun _ _ _ hl _ hstep => hl.step hstep) (by simp [ReadsNumerals]) (by simp) hlast
  cases h
  intro token htoken
  exact hreads.settle hsettled token (List.mem_reverse.mp htoken)

/-! ## Trees -/

namespace Value

variable {P : Number → Prop}

/-- Every number of the tree satisfies `P`. -/
def AllNumbers (P : Number → Prop) (v : Value) : Prop := ∀ n ∈ v.numbers, P n

theorem allNumbers_number {n : Number} : (Value.number n).AllNumbers P ↔ P n :=
  List.forall_mem_singleton

theorem allNumbers_null : Value.null.AllNumbers P := List.forall_mem_nil P

theorem allNumbers_bool {b : Bool} : (Value.bool b).AllNumbers P := List.forall_mem_nil P

theorem allNumbers_string {text : String} : (Value.string text).AllNumbers P :=
  List.forall_mem_nil P

theorem allNumbers_unreadable : Value.unreadable.AllNumbers P := List.forall_mem_nil P

theorem allNumbers_array {elements : List Value} :
    (Value.array elements).AllNumbers P ↔ ∀ v ∈ elements, v.AllNumbers P := by
  induction elements with
  | nil => exact iff_of_true (List.forall_mem_nil P) (List.forall_mem_nil _)
  | cons v rest ih =>
    rw [List.forall_mem_cons, ← ih]
    exact List.forall_mem_append

theorem allNumbers_object {members : List (String × Value)} :
    (Value.object members).AllNumbers P ↔ ∀ member ∈ members, member.2.AllNumbers P := by
  induction members with
  | nil => exact iff_of_true (List.forall_mem_nil P) (List.forall_mem_nil _)
  | cons member rest ih =>
    rw [List.forall_mem_cons, ← ih]
    exact List.forall_mem_append

end Value

namespace Builder

variable {P : Number → Prop}

/-- Every number in the container satisfies `P`. -/
def Container.AllNumbers (P : Number → Prop) : Container → Prop
  | .array elements => ∀ v ∈ elements, v.AllNumbers P
  | .object members => ∀ member ∈ members, member.2.AllNumbers P

/-- Every number in the containers around a place satisfies `P`. -/
def AroundSatisfies (P : Number → Prop) (around : List (Container × Option (Option String))) :
    Prop :=
  ∀ entry ∈ around, entry.1.AllNumbers P

/-- Every number read so far satisfies `P`. -/
def AllNumbers (P : Number → Prop) (b : Builder) : Prop :=
  AroundSatisfies P b.around ∧ ∀ v, b.phase = .done v → v.AllNumbers P

variable {around : List (Container × Option (Option String))} {container : Container}
  {name : Option (Option String)} {v : Value}

theorem Container.AllNumbers.add (hcontainer : container.AllNumbers P) (hv : v.AllNumbers P) :
    (Builder.add container name v).AllNumbers P := by
  cases container with
  | array elements => exact List.forall_mem_cons.mpr ⟨hv, hcontainer⟩
  | object members => cases name <;> exact List.forall_mem_cons.mpr ⟨hv, hcontainer⟩

theorem Container.AllNumbers.close (hcontainer : container.AllNumbers P) :
    (Builder.close around container).AllNumbers P := by
  unfold Builder.close
  split
  · exact Value.allNumbers_unreadable
  · cases container with
    | array elements =>
      refine Value.allNumbers_array.mpr fun v hv => ?_
      exact hcontainer v (List.mem_reverse.mp hv)
    | object members =>
      simp only [objectOf]
      split
      · next named hnamed =>
        refine Value.allNumbers_object.mpr (forall_of_mapM_eq_some ?_ hnamed)
        rintro member hmember _ hname
        obtain ⟨name, -, rfl⟩ := Option.map_eq_some_iff.mp hname
        exact hcontainer member (List.mem_reverse.mp hmember)
      · exact Value.allNumbers_unreadable

theorem allNumbers_finish (haround : AroundSatisfies P around) (hv : v.AllNumbers P) :
    (finish around name v).AllNumbers P := by
  cases around with
  | nil =>
    refine ⟨haround, fun w hw => ?_⟩
    cases hw
    exact hv
  | cons entry rest =>
    obtain ⟨hentry, hrest⟩ := List.forall_mem_cons.mp haround
    refine ⟨List.forall_mem_cons.mpr ⟨hentry.add hv, hrest⟩, fun w hw => ?_⟩
    cases hw
    exact hv

theorem AllNumbers.closeInnermost {b b' : Builder} (hb : b.AllNumbers P)
    (h : b.closeInnermost = some b') : b'.AllNumbers P := by
  obtain ⟨around, phase⟩ := b
  cases around with
  | nil => cases h
  | cons entry rest =>
    cases h
    obtain ⟨hentry, hrest⟩ := List.forall_mem_cons.mp hb.1
    exact allNumbers_finish hrest hentry.close

/-- Where no value has just been read, the numbers are those of the containers around. -/
theorem allNumbers_of_around {phase : Phase} (haround : AroundSatisfies P around)
    (hphase : ∀ v, phase ≠ .done v) : AllNumbers P ⟨around, phase⟩ :=
  ⟨haround, fun v hv => absurd hv (hphase v)⟩

/-- A container that begins holds no number yet. -/
theorem aroundSatisfies_open (haround : AroundSatisfies P around)
    (hempty : container = .array [] ∨ container = .object []) :
    AroundSatisfies P ((container, name) :: around) := by
  refine List.forall_mem_cons.mpr ⟨?_, haround⟩
  rcases hempty with rfl | rfl
  · exact List.forall_mem_nil _
  · exact List.forall_mem_nil _

/-- **One token** adds no number but its own. -/
theorem AllNumbers.step {b b' : Builder} {token : Token} (hb : b.AllNumbers P)
    (htoken : token.NumberSatisfies P) (h : b.step token = some b') : b'.AllNumbers P := by
  obtain ⟨around, phase⟩ := b
  unfold Builder.step at h
  split at h
  -- containers that end
  · exact hb.closeInnermost h
  · exact hb.closeInnermost h
  · split at h
    · exact hb.closeInnermost h
    · cases h
  · split at h
    · exact hb.closeInnermost h
    · cases h
  -- marks and names
  · split at h
    · cases h
      exact allNumbers_of_around hb.1 nofun
    · cases h
      exact allNumbers_of_around hb.1 nofun
    · cases h
  · cases h
    exact allNumbers_of_around hb.1 nofun
  · cases h
    exact allNumbers_of_around hb.1 nofun
  · cases h
    exact allNumbers_of_around hb.1 nofun
  -- values, and containers that begin
  · split at h
    · cases h
    · split at h
      · cases h
        exact allNumbers_of_around (aroundSatisfies_open hb.1 (.inl rfl)) nofun
      · cases h
        exact allNumbers_of_around (aroundSatisfies_open hb.1 (.inr rfl)) nofun
      · cases h
        exact allNumbers_finish hb.1 Value.allNumbers_null
      · cases h
        exact allNumbers_finish hb.1 Value.allNumbers_bool
      · cases h
        exact allNumbers_finish hb.1 (Value.allNumbers_number.mpr htoken)
      · cases h
        exact allNumbers_finish hb.1 Value.allNumbers_string
      · cases h
        exact allNumbers_finish hb.1 Value.allNumbers_unreadable
      · cases h
        exact allNumbers_finish hb.1 Value.allNumbers_unreadable
      · cases h

end Builder

/-- **The numbers of a tree** that is read are those of numerals. -/
theorem allNumbers_of_read? {text : String} {v : Value} (h : read? text = some v) :
    v.AllNumbers Number.IsOfNumeral := by
  obtain ⟨tokens, htokens, h⟩ := Option.bind_eq_some_iff.mp h
  obtain ⟨last, hlast, h⟩ := Option.bind_eq_some_iff.mp h
  have hstart : Builder.AllNumbers Number.IsOfNumeral ⟨[], .value⟩ :=
    ⟨List.forall_mem_nil _, fun v hv => nomatch hv⟩
  have hnumbers : last.AllNumbers Number.IsOfNumeral :=
    foldlM_keeps (fun _ _ _ => Builder.AllNumbers.step) hstart
      (Lexer.readsNumerals_of_tokens? htokens) hlast
  obtain ⟨around, phase⟩ := last
  unfold Builder.result? at h
  split at h
  · next hphase =>
    cases h
    exact hnumbers.2 _ hphase
  · cases h

end Json

end RenderPlan
