import RenderPlan.Scene

/-!
# Numerical equality of scenes

Scenes are compared number by number, and a comparison of numbers does not see the sign of a zero.
Two scenes that compare as equal are therefore the same scene once every zero is taken to be
positive, and they agree in everything that is no number. NaN compares as equal to nothing, and so
does a scene that holds one.

## Main definitions

* `Binary.withoutZeroSign`, `Scene.withoutZeroSigns`: every zero taken to be positive
* `Scene.holdsNaN`: one of the numbers is NaN

## Main results

* `Scene.withoutZeroSigns_eq_of_beq`: scenes that compare as equal differ at most in the signs of
  zeros
* `Scene.name_eq_of_beq`, `Scene.render_eq_of_beq`: they have the same name and the same items
* `Scene.holdsNaN_eq_false_of_beq`: what a scene compares as equal to holds no NaN
-/

namespace RenderPlan

/-! ## Containers -/

section Containers

variable {α β : Type} [BEq α] {f : α → β}

theorem listMap_eq_of_beq (hf : ∀ x y, (x == y) = true → f x = f y) :
    ∀ {xs ys : List α}, (xs == ys) = true → xs.map f = ys.map f
  | [], [], _ => rfl
  | [], _ :: _, h => by cases h
  | _ :: _, [], h => by cases h
  | x :: xs, y :: ys, h => by
    rw [List.cons_beq_cons, Bool.and_eq_true] at h
    rw [List.map_cons, List.map_cons, hf x y h.1, listMap_eq_of_beq hf h.2]

theorem listAny_eq_false_of_beq {f : α → Bool} (hf : ∀ x y, (x == y) = true → f y = false) :
    ∀ {xs ys : List α}, (xs == ys) = true → ys.any f = false
  | _, [], _ => rfl
  | [], _ :: _, h => by cases h
  | x :: xs, y :: ys, h => by
    rw [List.cons_beq_cons, Bool.and_eq_true] at h
    rw [List.any_cons, hf x y h.1, listAny_eq_false_of_beq hf h.2, Bool.false_or]

theorem optionMap_eq_of_beq (hf : ∀ x y, (x == y) = true → f x = f y) :
    ∀ {a b : Option α}, (a == b) = true → a.map f = b.map f
  | none, none, _ => rfl
  | none, some _, h => by cases h
  | some _, none, h => by cases h
  | some x, some y, h => congrArg some (hf x y h)

theorem optionAny_eq_false_of_beq {f : α → Bool} (hf : ∀ x y, (x == y) = true → f y = false) :
    ∀ {a b : Option α}, (a == b) = true → b.any f = false
  | _, none, _ => rfl
  | none, some _, h => by cases h
  | some x, some y, h => hf x y h

/-- Tables compare entry by entry: names as data, values by their own comparison. -/
theorem NameTable.map_eq_of_beq (hf : ∀ x y, (x == y) = true → f x = f y) {s t : NameTable α}
    (h : (s == t) = true) : s.map f = t.map f := by
  apply NameTable.ext
  refine listMap_eq_of_beq (fun x y hxy => ?_) (show (s.entries == t.entries) = true from h)
  -- names are compared as data, so equal ones are the same
  obtain ⟨hname, hvalue⟩ := (Bool.and_eq_true _ _).mp hxy
  exact Prod.ext (of_decide_eq_true hname) (hf _ _ hvalue)

end Containers

/-! ## Zeros without their signs -/

/-- The word, with the positive zero in place of the negative one. -/
def Binary.withoutZeroSign {p : Precision} (x : Binary p) : Binary p :=
  if x.isZero then .zero else x

theorem Binary.withoutZeroSign_eq_of_beq {p : Precision} {x y : Binary p} (h : (x == y) = true) :
    x.withoutZeroSign = y.withoutZeroSign := by
  -- equal words are no NaNs, and either the same or both zeros
  obtain ⟨-, -, rfl | ⟨hx, hy⟩⟩ := (Binary.beq_eq_true_iff x y).mp h
  · rfl
  · rw [withoutZeroSign, withoutZeroSign, if_pos hx, if_pos hy]

/-- The argument, with a positive zero in place of a negative one. -/
def GlState.Argument.withoutZeroSign : GlState.Argument → GlState.Argument
  | .number x => .number x.withoutZeroSign
  | .symbol name => .symbol name

theorem GlState.Argument.withoutZeroSign_eq_of_beq :
    ∀ a b : GlState.Argument, (a == b) = true → a.withoutZeroSign = b.withoutZeroSign
  | .number _, .number _, h => congrArg Argument.number (Binary.withoutZeroSign_eq_of_beq h)
  | .symbol _, .symbol _, h => congrArg Argument.symbol (of_decide_eq_true h)
  | .number _, .symbol _, h => by cases h
  | .symbol _, .number _, h => by cases h

/-- The GL state, with positive zeros only. -/
def GlState.withoutZeroSigns (g : GlState) : GlState :=
  g.map (List.map (List.map Argument.withoutZeroSign))

theorem GlState.withoutZeroSigns_eq_of_beq {g h : GlState} (hgh : (g == h) = true) :
    g.withoutZeroSigns = h.withoutZeroSigns :=
  NameTable.map_eq_of_beq (fun _ _ => listMap_eq_of_beq fun _ _ =>
    listMap_eq_of_beq Argument.withoutZeroSign_eq_of_beq) hgh

/-- The region, with positive zeros only. -/
def Camera.Bounds.withoutZeroSigns (b : Camera.Bounds) : Camera.Bounds :=
  ⟨b.top.withoutZeroSign, b.left.withoutZeroSign, b.bottom.withoutZeroSign,
    b.right.withoutZeroSign⟩

theorem Camera.Bounds.withoutZeroSigns_eq_of_beq {b c : Camera.Bounds} (h : (b == c) = true) :
    b.withoutZeroSigns = c.withoutZeroSigns := by
  obtain ⟨htop, h⟩ := (Bool.and_eq_true _ _).mp h
  obtain ⟨hleft, h⟩ := (Bool.and_eq_true _ _).mp h
  obtain ⟨hbottom, hright⟩ := (Bool.and_eq_true _ _).mp h
  rw [withoutZeroSigns, withoutZeroSigns, Binary.withoutZeroSign_eq_of_beq htop,
    Binary.withoutZeroSign_eq_of_beq hleft, Binary.withoutZeroSign_eq_of_beq hbottom,
    Binary.withoutZeroSign_eq_of_beq hright]

/-- The camera, with positive zeros only. -/
def Camera.withoutZeroSigns (c : Camera) : Camera :=
  ⟨c.projection, c.bounds.withoutZeroSigns, c.nearPlane.withoutZeroSign,
    c.farPlane.withoutZeroSign⟩

theorem Camera.withoutZeroSigns_eq_of_beq {c d : Camera} (h : (c == d) = true) :
    c.withoutZeroSigns = d.withoutZeroSigns := by
  obtain ⟨hprojection, h⟩ := (Bool.and_eq_true _ _).mp h
  obtain ⟨hbounds, h⟩ := (Bool.and_eq_true _ _).mp h
  obtain ⟨hnear, hfar⟩ := (Bool.and_eq_true _ _).mp h
  rw [withoutZeroSigns, withoutZeroSigns, of_decide_eq_true hprojection,
    Bounds.withoutZeroSigns_eq_of_beq hbounds, Binary.withoutZeroSign_eq_of_beq hnear,
    Binary.withoutZeroSign_eq_of_beq hfar]

/-- The parameters, with a positive zero in place of a negative one. -/
def EdgeParameters.withoutZeroSigns (e : EdgeParameters) : EdgeParameters :=
  { e with arcHeight := e.arcHeight.map Binary.withoutZeroSign }

theorem EdgeParameters.withoutZeroSigns_eq_of_beq {e f : EdgeParameters} (h : (e == f) = true) :
    e.withoutZeroSigns = f.withoutZeroSigns := by
  obtain ⟨hsplits, h⟩ := (Bool.and_eq_true _ _).mp h
  obtain ⟨hclient, harc⟩ := (Bool.and_eq_true _ _).mp h
  rw [withoutZeroSigns, withoutZeroSigns, eq_of_beq hsplits, of_decide_eq_true hclient,
    optionMap_eq_of_beq (fun _ _ => Binary.withoutZeroSign_eq_of_beq) harc]

namespace Scene

/-- The scene, with positive zeros only. -/
def withoutZeroSigns (s : Scene) : Scene :=
  ⟨s.name, s.camera.withoutZeroSigns, s.glState.withoutZeroSigns, s.parameters.withoutZeroSigns,
    s.render⟩

/-- **Scenes that compare as equal** differ at most in the signs of zeros. -/
theorem withoutZeroSigns_eq_of_beq {s t : Scene} (h : (s == t) = true) :
    s.withoutZeroSigns = t.withoutZeroSigns := by
  obtain ⟨hname, h⟩ := (Bool.and_eq_true _ _).mp h
  obtain ⟨hcamera, h⟩ := (Bool.and_eq_true _ _).mp h
  obtain ⟨hglState, h⟩ := (Bool.and_eq_true _ _).mp h
  obtain ⟨hparameters, hrender⟩ := (Bool.and_eq_true _ _).mp h
  rw [withoutZeroSigns, withoutZeroSigns, of_decide_eq_true hname,
    Camera.withoutZeroSigns_eq_of_beq hcamera, GlState.withoutZeroSigns_eq_of_beq hglState,
    EdgeParameters.withoutZeroSigns_eq_of_beq hparameters, eq_of_beq hrender]

theorem name_eq_of_beq {s t : Scene} (h : (s == t) = true) : s.name = t.name := by
  show s.withoutZeroSigns.name = t.withoutZeroSigns.name
  rw [withoutZeroSigns_eq_of_beq h]

theorem render_eq_of_beq {s t : Scene} (h : (s == t) = true) : s.render = t.render := by
  show s.withoutZeroSigns.render = t.withoutZeroSigns.render
  rw [withoutZeroSigns_eq_of_beq h]

end Scene

/-! ## Scenes that hold NaN -/

theorem Binary.isNaN_eq_false_of_beq {p : Precision} {x y : Binary p} (h : (x == y) = true) :
    y.isNaN = false :=
  ((beq_eq_true_iff x y).mp h).2.1

/-- The argument is NaN. -/
def GlState.Argument.isNaN : GlState.Argument → Bool
  | .number x => x.isNaN
  | .symbol _ => false

theorem GlState.Argument.isNaN_eq_false_of_beq :
    ∀ a b : GlState.Argument, (a == b) = true → b.isNaN = false
  | .number _, .number _, h => Binary.isNaN_eq_false_of_beq h
  | _, .symbol _, _ => rfl
  | .symbol _, .number _, h => by cases h

/-- An argument of some call is NaN. -/
def GlState.holdsNaN (g : GlState) : Bool :=
  g.entries.any fun entry => entry.2.any fun call => call.any Argument.isNaN

theorem GlState.holdsNaN_eq_false_of_beq {g h : GlState} (hgh : (g == h) = true) :
    h.holdsNaN = false := by
  refine listAny_eq_false_of_beq (fun x y hxy => ?_) (show (g.entries == h.entries) = true from hgh)
  exact listAny_eq_false_of_beq (fun _ _ => listAny_eq_false_of_beq Argument.isNaN_eq_false_of_beq)
    ((Bool.and_eq_true _ _).mp hxy).2

/-- One side of the region is NaN. -/
def Camera.Bounds.holdsNaN (b : Camera.Bounds) : Bool :=
  b.top.isNaN || b.left.isNaN || b.bottom.isNaN || b.right.isNaN

theorem Camera.Bounds.holdsNaN_eq_false_of_beq {b c : Camera.Bounds} (h : (b == c) = true) :
    c.holdsNaN = false := by
  obtain ⟨htop, h⟩ := (Bool.and_eq_true _ _).mp h
  obtain ⟨hleft, h⟩ := (Bool.and_eq_true _ _).mp h
  obtain ⟨hbottom, hright⟩ := (Bool.and_eq_true _ _).mp h
  rw [holdsNaN, Binary.isNaN_eq_false_of_beq htop, Binary.isNaN_eq_false_of_beq hleft,
    Binary.isNaN_eq_false_of_beq hbottom, Binary.isNaN_eq_false_of_beq hright]
  rfl

/-- A side of the region or one of the planes is NaN. -/
def Camera.holdsNaN (c : Camera) : Bool :=
  c.bounds.holdsNaN || c.nearPlane.isNaN || c.farPlane.isNaN

theorem Camera.holdsNaN_eq_false_of_beq {c d : Camera} (h : (c == d) = true) :
    d.holdsNaN = false := by
  obtain ⟨-, h⟩ := (Bool.and_eq_true _ _).mp h
  obtain ⟨hbounds, h⟩ := (Bool.and_eq_true _ _).mp h
  obtain ⟨hnear, hfar⟩ := (Bool.and_eq_true _ _).mp h
  rw [holdsNaN, Bounds.holdsNaN_eq_false_of_beq hbounds, Binary.isNaN_eq_false_of_beq hnear,
    Binary.isNaN_eq_false_of_beq hfar]
  rfl

/-- The arc height is NaN. -/
def EdgeParameters.holdsNaN (e : EdgeParameters) : Bool := e.arcHeight.any Binary.isNaN

theorem EdgeParameters.holdsNaN_eq_false_of_beq {e f : EdgeParameters} (h : (e == f) = true) :
    f.holdsNaN = false := by
  obtain ⟨-, h⟩ := (Bool.and_eq_true _ _).mp h
  obtain ⟨-, harc⟩ := (Bool.and_eq_true _ _).mp h
  exact optionAny_eq_false_of_beq (fun _ _ => Binary.isNaN_eq_false_of_beq) harc

namespace Scene

/-- One of the numbers of the scene is NaN. -/
def holdsNaN (s : Scene) : Bool :=
  s.camera.holdsNaN || s.glState.holdsNaN || s.parameters.holdsNaN

/-- **A scene that holds NaN** is one that no scene compares as equal to. -/
theorem holdsNaN_eq_false_of_beq {s t : Scene} (h : (s == t) = true) : t.holdsNaN = false := by
  obtain ⟨-, h⟩ := (Bool.and_eq_true _ _).mp h
  obtain ⟨hcamera, h⟩ := (Bool.and_eq_true _ _).mp h
  obtain ⟨hglState, h⟩ := (Bool.and_eq_true _ _).mp h
  obtain ⟨hparameters, -⟩ := (Bool.and_eq_true _ _).mp h
  rw [holdsNaN, Camera.holdsNaN_eq_false_of_beq hcamera,
    GlState.holdsNaN_eq_false_of_beq hglState,
    EdgeParameters.holdsNaN_eq_false_of_beq hparameters]
  rfl

end Scene

end RenderPlan
