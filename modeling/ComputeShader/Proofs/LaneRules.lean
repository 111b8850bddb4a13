import Mathlib.Data.List.Forall2
import ComputeShader.Proofs.RegisterEquality

/-! # Rules that work lane by lane

Such a rule decides the type of its result by the types of its operands, and makes each component of it from
the components of the operands at the same place, a scalar serving every place. If its types go together
as they should, a result can be computed lane by lane, and a scalar can be replaced by the vector that
repeats it.
-/

namespace ComputeShader

/-! ## Components by place -/

namespace Value

variable {v : Value} {ty : ValueType} {lanes : List Scalar} {s : Scalar} {k : Nat}

/-- The scalar that a value has at a place, as a value of its own. -/
def laneAt (v : Value) (k : Nat) : Value := ofScalar (v.pick k)

@[simp] theorem kind_pick : (v.pick k).kind = v.kind := by
  unfold pick lane
  split <;> exact Scalar.kind_ofBits ..

theorem pick_eq_lane (inside : k < v.ty.components) : v.pick k = v.lane k := by
  unfold pick
  split
  · next single =>
    obtain rfl : k = 0 := Nat.lt_one_iff.1 (single ▸ inside)
    rfl
  · rfl

theorem getElem?_components (inside : k < v.ty.components) : v.components[k]? = some (v.pick k) := by
  have within : k < v.bits.length := v.length_bits ▸ inside
  rw [pick_eq_lane inside, lane_eq inside, components, List.getElem?_map, List.getElem?_eq_getElem within,
    List.getD_eq_getElem?_getD, List.getElem?_eq_getElem within]
  rfl

theorem components_eq_map_pick : v.components = (List.range v.ty.components).map v.pick := by
  refine List.ext_getElem? fun k => ?_
  by_cases inside : k < v.ty.components
  · rw [getElem?_components inside, List.getElem?_map, List.getElem?_range inside, Option.map_some]
  · rw [List.getElem?_eq_none, List.getElem?_eq_none] <;> simpa using inside

/-- A value made from scalars of its kind has them as its components. -/
theorem components_ofComponents (length : lanes.length = ty.components)
    (kinds : ∀ s ∈ lanes, s.kind = ty.kind) : (ofComponents ty lanes).components = lanes := by
  have back : ∀ s ∈ lanes, Scalar.ofBits ty.kind s.toBits = s := fun s member =>
    kinds s member ▸ s.ofBits_toBits
  have holds : ty.Holds (lanes.map Scalar.toBits) := by
    refine ⟨(List.length_map _).trans length, fun w member => ?_⟩
    obtain ⟨s, held, rfl⟩ := List.mem_map.1 member
    rw [back s held]
  have bits : (ofComponents ty lanes).bits = lanes.map Scalar.toBits := bits_ofBits holds
  rw [components, bits, List.map_map]
  exact (List.map_congr_left back).trans (List.map_id' _)

theorem pick_ofComponents (length : lanes.length = ty.components)
    (kinds : ∀ s ∈ lanes, s.kind = ty.kind) (inside : k < ty.components) :
    lanes[k]? = some ((ofComponents ty lanes).pick k) := by
  have held : (ofComponents ty lanes).components[k]? = _ := getElem?_components inside
  rwa [components_ofComponents length kinds] at held

@[simp] theorem pick_ofScalar : (ofScalar s).pick k = s := by
  have first := @pick_ofComponents (.scalar s.kind) [s] 0 rfl (by simp [ValueType.kind]) Nat.one_pos
  exact (Option.some.inj first).symm

end Value

/-! ## Rules -/

/-- Where every component has a result, so have all together: `List.mapM_pure` for `some`. -/
theorem mapM_some {α β : Type} (g : α → β) (as : List α) :
    as.mapM (fun a => some (g a)) = some (as.map g) :=
  List.mapM_pure

/-- What an operation that works lane by lane makes of its operands. -/
structure LaneRule where
  /-- The type of the result, if the types of the operands go together. -/
  shape? : List ValueType → Option ValueType
  /-- A component of the result, if there is one for components of these kinds. -/
  lane? : List Scalar → Option Scalar

namespace LaneRule

/-- The result of a rule. -/
def result? (rule : LaneRule) (args : List Value) : Option Value :=
  (rule.shape? (args.map Value.ty)).bind fun ty =>
    ((List.range ty.components).mapM fun k => rule.lane? (args.map (·.pick k))).map
      (Value.ofComponents ty)

/-- The rule of an operation on one operand. -/
def one (f : Scalar → Option Scalar) : LaneRule where
  shape?
    | [a] => some a
    | _ => none
  lane?
    | [x] => f x
    | _ => none

/-- The rule of an operation on two operands. -/
def two (join : ValueType → ValueType → Option ValueType) (f : Scalar → Scalar → Option Scalar) :
    LaneRule where
  shape?
    | [a, b] => join a b
    | _ => none
  lane?
    | [x, y] => f x y
    | _ => none

theorem result?_one (f : Scalar → Option Scalar) (v : Value) :
    (one f).result? [v] = (v.components.mapM f).map (Value.ofComponents v.ty) := by
  rw [Value.components_eq_map_pick, List.mapM_map]
  rfl

theorem result?_two (join : ValueType → ValueType → Option ValueType)
    (f : Scalar → Scalar → Option Scalar) (a b : Value) :
    (two join f).result? [a, b] = (join a.ty b.ty).bind fun ty =>
      ((List.range ty.components).mapM fun k => f (a.pick k) (b.pick k)).map (Value.ofComponents ty) :=
  rfl

/-! ### Laws of rules -/

/-- Whether types of two operands go together lane by lane: the result has the type of one of them, an operand
has as many components as the result or a single one, lanes go together where the operands do, and a
scalar beside a vector is as good as a vector of its kind. -/
structure Joins (join : ValueType → ValueType → Option ValueType) : Prop where
  operand {a b ty : ValueType} : join a b = some ty → ty = a ∨ ty = b
  size {a b ty : ValueType} : join a b = some ty →
    (a.components = 1 ∨ a.components = ty.components) ∧ (b.components = 1 ∨ b.components = ty.components)
  lanes {a b ty : ValueType} : join a b = some ty →
    join (.scalar a.kind) (.scalar b.kind) = some (.scalar ty.kind)
  left {b : ValueType} {kind kind' : ScalarKind} {size : VectorSize} :
    join (.scalar kind) b = some (.vector kind' size) → join (.vector kind size) b = some (.vector kind' size)
  right {a : ValueType} {kind kind' : ScalarKind} {size : VectorSize} :
    join a (.scalar kind) = some (.vector kind' size) → join a (.vector kind size) = some (.vector kind' size)

/-- What holds of the types that a rule accepts, and of the kinds of its components. -/
structure Lawful (rule : LaneRule) : Prop where
  operand {tys : List ValueType} {ty : ValueType} : rule.shape? tys = some ty → ty ∈ tys
  size {tys : List ValueType} {ty : ValueType} : rule.shape? tys = some ty →
    ∀ t ∈ tys, t.components = 1 ∨ t.components = ty.components
  lanes {tys : List ValueType} {ty : ValueType} : rule.shape? tys = some ty →
    rule.shape? (tys.map fun t => .scalar t.kind) = some (.scalar ty.kind)
  splat {tys : List ValueType} {i : Nat} {kind kind' : ScalarKind} {size : VectorSize} :
    rule.shape? tys = some (.vector kind' size) → tys[i]? = some (.scalar kind) →
      rule.shape? (tys.set i (.vector kind size)) = some (.vector kind' size)
  kind {tys : List ValueType} {ty : ValueType} {xs : List Scalar} {x : Scalar} :
    rule.shape? tys = some ty → xs.map Scalar.kind = tys.map ValueType.kind →
      rule.lane? xs = some x → x.kind = ty.kind

theorem lawful_one {f : Scalar → Option Scalar} (kinds : ∀ x y, f x = some y → y.kind = x.kind) :
    (one f).Lawful where
  operand {tys ty} shape := by
    match tys, shape with
    | [_], rfl => exact List.mem_singleton_self _
  size {tys ty} shape := by
    match tys, shape with
    | [_], rfl => simp
  lanes {tys ty} shape := by
    match tys, shape with
    | [_], rfl => rfl
  splat {tys i kind kind' size} shape scalar := by
    match tys, shape with
    | [_], rfl => cases i <;> simp at scalar
  kind {tys ty xs x} shape same result := by
    match tys, shape, xs with
    | [_], rfl, [y] => exact (kinds y x result).trans (List.cons.inj same).1

theorem lawful_two {join : ValueType → ValueType → Option ValueType}
    {f : Scalar → Scalar → Option Scalar} (joins : Joins join)
    (kinds : ∀ a b ty x y z, join a b = some ty → x.kind = a.kind → y.kind = b.kind → f x y = some z →
      z.kind = ty.kind) : (two join f).Lawful where
  operand {tys ty} shape := by
    match tys with
    | [a, b] =>
      rcases joins.operand shape with rfl | rfl <;> simp
  size {tys ty} shape := by
    match tys with
    | [a, b] => simpa using joins.size shape
  lanes {tys ty} shape := by
    match tys with
    | [a, b] => exact joins.lanes shape
  splat {tys i kind kind' size} shape scalar := by
    match tys, i with
    | [a, b], 0 =>
      obtain rfl : a = .scalar kind := by simpa using scalar
      exact joins.left shape
    | [a, b], 1 =>
      obtain rfl : b = .scalar kind := by simpa using scalar
      exact joins.right shape
    | [a, b], _ + 2 => simp at scalar
  kind {tys ty xs x} shape same result := by
    match tys, xs with
    | [a, b], [y, z] =>
      simp only [List.map_cons, List.map_nil, List.cons.injEq, and_true] at same
      exact kinds a b ty y z x shape same.1 same.2 result

/-! ### Results by lanes -/

variable {rule : LaneRule} {args : List Value} {r : Value}

theorem mapM_eq_some_iff_forall₂ {α β : Type} {f : α → Option β} {as : List α} {bs : List β} :
    as.mapM f = some bs ↔ List.Forall₂ (fun a b => f a = some b) as bs := by
  induction as generalizing bs with
  | nil => cases bs <;> simp
  | cons a rest ih =>
    rw [List.mapM_cons, List.forall₂_cons_left_iff]
    simp only [Option.bind_eq_bind, Option.bind_eq_some_iff, Option.pure_def, Option.some.injEq, ih]
    constructor
    · rintro ⟨b, first, later, all, rfl⟩
      exact ⟨b, later, first, all, rfl⟩
    · rintro ⟨b, later, first, all, rfl⟩
      exact ⟨b, first, later, all, rfl⟩

/-- The components of a result are what the rule makes of the components of the operands. -/
theorem result?_eq_some_iff : rule.result? args = some r ↔ ∃ ty lanes,
    rule.shape? (args.map Value.ty) = some ty ∧
      List.Forall₂ (fun k x => rule.lane? (args.map (·.pick k)) = some x) (List.range ty.components) lanes ∧
        Value.ofComponents ty lanes = r := by
  simp only [result?, Option.bind_eq_some_iff, Option.map_eq_some_iff, mapM_eq_some_iff_forall₂]
  constructor
  · rintro ⟨ty, shape, lanes, each, made⟩
    exact ⟨ty, lanes, shape, each, made⟩
  · rintro ⟨ty, lanes, shape, each, made⟩
    exact ⟨ty, shape, lanes, each, made⟩

/-- A component of a result. -/
theorem Lawful.pick_result (lawful : rule.Lawful) (ran : rule.result? args = some r) :
    rule.shape? (args.map Value.ty) = some r.ty ∧
      ∀ k < r.ty.components, rule.lane? (args.map (·.pick k)) = some (r.pick k) := by
  obtain ⟨ty, lanes, shape, each, rfl⟩ := result?_eq_some_iff.1 ran
  have length : lanes.length = ty.components := by rw [← each.length_eq, List.length_range]
  have lane (k : Nat) (inside : k < ty.components) (within : k < lanes.length) :
      rule.lane? (args.map (·.pick k)) = some lanes[k] := by
    have here := each.get (by simpa using inside) within
    simpa using here
  have kinds : ∀ x ∈ lanes, x.kind = ty.kind := by
    intro x member
    obtain ⟨k, within, rfl⟩ := List.mem_iff_getElem.1 member
    refine lawful.kind shape ?_ (lane k (length ▸ within) within)
    rw [List.map_map, List.map_map]
    exact List.map_congr_left fun a _ => Value.kind_pick
  refine ⟨shape, fun k inside => ?_⟩
  have inside : k < ty.components := inside
  have within : k < lanes.length := length ▸ inside
  have held := Value.pick_ofComponents length kinds inside
  rw [List.getElem?_eq_getElem within] at held
  rw [lane k inside within, held]

/-- The lanes of the operands at a place give the lane of the result there. -/
theorem Lawful.result?_laneAt (lawful : rule.Lawful) (ran : rule.result? args = some r) {k : Nat}
    (inside : k < r.ty.components) : rule.result? (args.map (·.laneAt k)) = some (r.laneAt k) := by
  obtain ⟨shape, lanes⟩ := lawful.pick_result ran
  have types : (args.map (·.laneAt k)).map Value.ty = (args.map Value.ty).map fun t => .scalar t.kind := by
    rw [List.map_map, List.map_map]
    exact List.map_congr_left fun a _ => congrArg ValueType.scalar Value.kind_pick
  have picks : (args.map (·.laneAt k)).map (·.pick 0) = args.map (·.pick k) := by
    rw [List.map_map]
    exact List.map_congr_left fun a _ => Value.pick_ofScalar
  refine result?_eq_some_iff.2 ⟨.scalar r.ty.kind, [r.pick k], ?_, ?_, ?_⟩
  · rw [types, lawful.lanes shape]
  · exact .cons (picks ▸ lanes k inside) .nil
  · rw [Value.laneAt, Value.ofScalar, Value.kind_pick]
    rfl

/-- A scalar beside a vector is as good as a vector with the scalar at every place. -/
theorem Lawful.result?_set (lawful : rule.Lawful) (ran : rule.result? args = some r) {i : Nat} {s t : Value}
    {kind kind' : ScalarKind} {size : VectorSize} (there : args[i]? = some s) (scalar : s.ty = .scalar kind)
    (result : r.ty = .vector kind' size) (vector : t.ty = .vector kind size)
    (repeats : ∀ k < size.toNat, t.pick k = s.pick k) : rule.result? (args.set i t) = some r := by
  obtain ⟨ty, lanes, shape, each, rfl⟩ := result?_eq_some_iff.1 ran
  obtain rfl : ty = .vector kind' size := result
  have unchanged {β : Type} {f : Value → β} (same : f t = f s) : (args.set i t).map f = args.map f := by
    have here : (args.map f)[i]? = some (f s) := by rw [List.getElem?_map, there, Option.map_some]
    obtain ⟨bound, held⟩ := List.getElem?_eq_some_iff.1 here
    rw [List.map_set, same, ← held, List.set_getElem_self]
  refine result?_eq_some_iff.2 ⟨_, lanes, ?_, ?_, rfl⟩
  · rw [List.map_set, vector]
    exact lawful.splat shape (by rw [List.getElem?_map, there, Option.map_some, scalar])
  · refine (List.forall₂_iff_get.2 ⟨each.length_eq, fun k bound bound' => ?_⟩)
    have inside : k < size.toNat := Nat.lt_of_lt_of_eq bound List.length_range
    have here := each.get bound bound'
    simp only [List.get_eq_getElem, List.getElem_range] at here ⊢
    rw [unchanged (repeats k inside)]
    exact here

end LaneRule

end ComputeShader
