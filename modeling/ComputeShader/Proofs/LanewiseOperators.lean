import ComputeShader.Proofs.LaneRules

/-! # Operators lane by lane

Arithmetic, shifts and the component-wise functions each follow a rule that works lane by lane, if no operand
is a matrix. They differ in which side may be a scalar and in which kinds go together; what follows from
working lane by lane is the same for all.
-/

namespace ComputeShader

/-! ## Rules of operations -/

/-- The type of a shift: that of the shifted value. -/
def shiftType? (a b : ValueType) : Option ValueType :=
  if a.kind.isInteger ∧ b.kind.isInteger ∧ (b.components = 1 ∨ b.components = a.components) then some a
  else none

/-- The type of a choice between two values: that of the first one. -/
def extremumType? (a b : ValueType) : Option ValueType :=
  if a ≠ .mat3 ∧ a.kind ≠ .bool ∧ (b = a ∨ b = .scalar a.kind) then some a else none

theorem of_extremumType? {a b ty : ValueType} (joined : extremumType? a b = some ty) :
    ty = a ∧ b.kind = a.kind := by
  unfold extremumType? at joined
  split at joined
  · next fits =>
    cases joined
    obtain ⟨-, -, rfl | rfl⟩ := fits <;> exact ⟨rfl, rfl⟩
  · cases joined

/-- A component that one of two scalars is chosen for is of their kind. -/
theorem Scalar.kind_min {x y : Scalar} (same : y.kind = x.kind) : (x.min y).kind = x.kind := by
  rw [Scalar.min]
  split
  · exact same
  · rfl

theorem Scalar.kind_max {x y : Scalar} (same : y.kind = x.kind) : (x.max y).kind = x.kind := by
  rw [Scalar.max]
  split
  · exact same
  · rfl

/-- Clamping chooses twice. -/
def LaneRule.clamp : LaneRule where
  shape?
    | [a, low, high] => (extremumType? a low).bind (extremumType? · high)
    | _ => none
  lane?
    | [x, low, high] => some ((x.max low).min high)
    | _ => none

/-- The operators and the functions of the language that take up to three operands. -/
inductive LaneOperation where
  | unary (op : UnaryOp)
  | binary (op : BinaryOp)
  | math (f : MathFn)
  deriving DecidableEq, Repr

namespace LaneOperation

/-- What an operation gives on operands; without the operands that it takes it is an error. -/
def apply : LaneOperation → List Value → Except TypeError Value
  | unary op, [v] => Value.unary op v
  | binary op, [a, b] => Value.binary op a b
  | math f, args => Value.math f args
  | unary _, args | binary _, args => .error ⟨"operands", toString args.length ++ " operands"⟩

/-- The operations that work lane by lane: `!` takes a single Boolean, and comparisons give one. -/
def Lanewise : LaneOperation → Prop
  | unary op => op ≠ .not
  | binary op => op ∉ [.eq, .ne, .lt, .le, .gt, .ge]
  | math _ => True

instance : DecidablePred Lanewise
  | unary _ => inferInstanceAs (Decidable (_ ≠ _))
  | binary _ => inferInstanceAs (Decidable (¬ _))
  | math _ => inferInstanceAs (Decidable True)

def rule : LaneOperation → LaneRule
  | unary .neg => .one Scalar.negate?
  | unary .bitNot => .one Scalar.complement?
  | unary .not => .one fun _ => none
  | binary .shl => .two shiftType? fun x y => some (x.shift true y.toBits)
  | binary .shr => .two shiftType? fun x y => some (x.shift false y.toBits)
  | binary op => .two Value.joinType? (Scalar.arith? op)
  | math .abs => .one Scalar.abs?
  | math .min => .two extremumType? fun x y => some (x.min y)
  | math .max => .two extremumType? fun x y => some (x.max y)
  | math .clamp => .clamp

/-! ### Operations follow their rules -/

variable {a b v r : Value}

theorem unary_eq_ok_iff {op : UnaryOp} (lanewise : op ≠ .not) :
    Value.unary op v = .ok r ↔ (rule (.unary op)).result? [v] = some r := by
  cases op with
  | not => exact (lanewise rfl).elim
  | neg =>
    rw [rule, LaneRule.result?_one]
    simp only [Value.unary]
    cases v.components.mapM Scalar.negate? <;> simp
  | bitNot =>
    rw [rule, LaneRule.result?_one]
    simp only [Value.unary]
    cases v.components.mapM Scalar.complement? <;> simp

theorem abs_eq_ok_iff (flat : v.ty ≠ .mat3) :
    v.abs = .ok r ↔ (rule (.math .abs)).result? [v] = some r := by
  rw [rule, LaneRule.result?_one, Value.abs, if_neg flat]
  cases v.components.mapM Scalar.abs? <;> simp

theorem componentwise_eq_ok_iff {op : BinaryOp} : Value.componentwise op a b = .ok r ↔
    (LaneRule.two Value.joinType? (Scalar.arith? op)).result? [a, b] = some r := by
  rw [LaneRule.result?_two, Value.componentwise]
  cases Value.joinType? a.ty b.ty with
  | none => simp
  | some ty =>
    dsimp only [Option.bind_some]
    cases (List.range ty.components).mapM fun i => Scalar.arith? op (a.pick i) (b.pick i) <;> simp

/-- A result that has the type of the first operand and all its components. -/
theorem ok_iff_of_lanes {join : ValueType → ValueType → Option ValueType} {f : Scalar → Scalar → Scalar}
    (joins : join a.ty b.ty = some a.ty) :
    (.ok (Value.ofComponents a.ty ((List.range a.ty.components).map fun k => f (a.lane k) (b.pick k))) :
      Except TypeError Value) = .ok r ↔
      (LaneRule.two join fun x y => some (f x y)).result? [a, b] = some r := by
  have places : (List.range a.ty.components).map (fun k => f (a.lane k) (b.pick k)) =
      (List.range a.ty.components).map fun k => f (a.pick k) (b.pick k) :=
    List.map_congr_left fun k member => by rw [Value.pick_eq_lane (List.mem_range.1 member)]
  rw [LaneRule.result?_two, joins, Option.bind_some, mapM_some, Option.map_some, places, Except.ok.injEq,
    Option.some.injEq]

theorem shift_eq_ok_iff {op : BinaryOp} {left : Bool} (same : decide (op = .shl) = left) :
    Value.shift op a b = .ok r ↔
      (LaneRule.two shiftType? fun x y => some (x.shift left y.toBits)).result? [a, b] = some r := by
  subst same
  rw [Value.shift]
  split
  · next fits => exact ok_iff_of_lanes (f := fun x y => x.shift (op = .shl) y.toBits) (if_pos fits)
  · next refused =>
    have none : shiftType? a.ty b.ty = none := if_neg refused
    simp [LaneRule.result?_two, none]

theorem extremum_eq_ok_iff (choose : Scalar → Scalar → Scalar) : Value.extremum choose a b = .ok r ↔
    (LaneRule.two extremumType? fun x y => some (choose x y)).result? [a, b] = some r := by
  rw [Value.extremum]
  split
  · next fits => exact ok_iff_of_lanes (if_pos fits)
  · next refused =>
    have none : extremumType? a.ty b.ty = none := if_neg refused
    simp [LaneRule.result?_two, none]

/-- What two choices give that are made one after the other. -/
theorem result?_clamp (v low high : Value) : LaneRule.clamp.result? [v, low, high] =
    ((LaneRule.two extremumType? fun x y => some (x.max y)).result? [v, low]).bind fun w =>
      (LaneRule.two extremumType? fun x y => some (x.min y)).result? [w, high] := by
  rw [LaneRule.result?_two]
  cases joined : extremumType? v.ty low.ty with
  | none => simp [LaneRule.result?, LaneRule.clamp, joined]
  | some ty =>
    obtain ⟨rfl, kind⟩ := of_extremumType? joined
    let raised := (List.range v.ty.components).map fun k => (v.pick k).max (low.pick k)
    have length : raised.length = v.ty.components := by simp [raised]
    have kinds : ∀ s ∈ raised, s.kind = v.ty.kind := by
      intro s member
      obtain ⟨k, -, rfl⟩ := List.mem_map.1 member
      exact (Scalar.kind_max (Value.kind_pick.trans (kind.trans Value.kind_pick.symm))).trans Value.kind_pick
    have picked (k : Nat) (member : k ∈ List.range v.ty.components) :
        (Value.ofComponents v.ty raised).pick k = (v.pick k).max (low.pick k) := by
      have inside := List.mem_range.1 member
      have held := Value.pick_ofComponents length kinds inside
      simpa [raised, inside] using held.symm
    have lowered :
        (List.range v.ty.components).map (fun k => ((v.pick k).max (low.pick k)).min (high.pick k)) =
          (List.range v.ty.components).map fun k =>
            ((Value.ofComponents v.ty raised).pick k).min (high.pick k) :=
      List.map_congr_left fun k member => by rw [picked k member]
    have shape : LaneRule.clamp.shape? ([v, low, high].map Value.ty) = extremumType? v.ty high.ty :=
      congrArg (Option.bind · (extremumType? · high.ty)) joined
    rw [Option.bind_some, mapM_some, Option.map_some, Option.bind_some, LaneRule.result?_two,
      LaneRule.result?, shape]
    change _ = (extremumType? v.ty high.ty).bind _
    cases joined' : extremumType? v.ty high.ty with
    | none => rfl
    | some ty =>
      obtain ⟨rfl, -⟩ := of_extremumType? joined'
      rw [Option.bind_some, Option.bind_some, mapM_some, ← lowered]
      exact congrArg _ (mapM_some ..)

theorem clamp_eq_ok_iff {low high : Value} : Value.math .clamp [v, low, high] = .ok r ↔
    LaneRule.clamp.result? [v, low, high] = some r := by
  rw [result?_clamp, Option.bind_eq_some_iff]
  constructor
  · intro ran
    rw [Value.math] at ran
    cases raised : Value.extremum Scalar.max v low with
    | error e =>
      rw [raised] at ran
      cases ran
    | ok w =>
      rw [raised] at ran
      exact ⟨w, (extremum_eq_ok_iff _).1 raised, (extremum_eq_ok_iff _).1 ran⟩
  · rintro ⟨w, raised, lowered⟩
    have first : Value.extremum Scalar.max v low = .ok w := (extremum_eq_ok_iff _).2 raised
    rw [Value.math, first]
    exact (extremum_eq_ok_iff _).2 lowered

theorem binary_eq_ok_iff {op : BinaryOp} (lanewise : Lanewise (.binary op)) (flat : a.ty ≠ .mat3)
    (flat' : b.ty ≠ .mat3) :
    Value.binary op a b = .ok r ↔ (rule (.binary op)).result? [a, b] = some r := by
  cases op with
  | eq | ne | lt | le | gt | ge => exact absurd lanewise (by decide)
  | shl | shr => exact shift_eq_ok_iff rfl
  | mul =>
    have plain : Value.binary .mul a b = Value.componentwise .mul a b := by
      rw [Value.binary, Value.product, if_neg fun both => flat both.1, if_neg fun both => flat both.1,
        if_neg fun both => flat' both.2]
    rw [plain]
    exact componentwise_eq_ok_iff
  | add | sub | div | mod | bitAnd | bitOr | bitXor => exact componentwise_eq_ok_iff

/-- Without matrices an operation gives what its rule does. -/
theorem apply_eq_ok_iff {o : LaneOperation} {args : List Value} (lanewise : o.Lanewise)
    (flat : ∀ a ∈ args, a.ty ≠ .mat3) : o.apply args = .ok r ↔ o.rule.result? args = some r := by
  cases o with
  | unary op =>
    rcases args with _ | ⟨v, _ | ⟨w, rest⟩⟩
    · cases op <;> simp [apply, rule, LaneRule.result?, LaneRule.one]
    · exact unary_eq_ok_iff lanewise
    · cases op <;> simp [apply, rule, LaneRule.result?, LaneRule.one]
  | binary op =>
    rcases args with _ | ⟨a, _ | ⟨b, _ | ⟨w, rest⟩⟩⟩
    · cases op <;> simp [apply, rule, LaneRule.result?, LaneRule.two]
    · cases op <;> simp [apply, rule, LaneRule.result?, LaneRule.two]
    · exact binary_eq_ok_iff lanewise (flat a (by simp)) (flat b (by simp))
    · cases op <;> simp [apply, rule, LaneRule.result?, LaneRule.two]
  | math f =>
    cases f with
    | abs =>
      rcases args with _ | ⟨v, _ | ⟨w, rest⟩⟩
      · simp [apply, rule, LaneRule.result?, LaneRule.one, Value.math]
      · exact abs_eq_ok_iff (flat v List.mem_cons_self)
      · simp [apply, rule, LaneRule.result?, LaneRule.one, Value.math]
    | min | max =>
      rcases args with _ | ⟨a, _ | ⟨b, _ | ⟨w, rest⟩⟩⟩
      · simp [apply, rule, LaneRule.result?, LaneRule.two, Value.math]
      · simp [apply, rule, LaneRule.result?, LaneRule.two, Value.math]
      · exact extremum_eq_ok_iff _
      · simp [apply, rule, LaneRule.result?, LaneRule.two, Value.math]
    | clamp =>
      rcases args with _ | ⟨v, _ | ⟨low, _ | ⟨high, _ | ⟨w, rest⟩⟩⟩⟩
      · simp [apply, rule, LaneRule.result?, LaneRule.clamp, Value.math]
      · simp [apply, rule, LaneRule.result?, LaneRule.clamp, Value.math]
      · simp [apply, rule, LaneRule.result?, LaneRule.clamp, Value.math]
      · exact clamp_eq_ok_iff
      · simp [apply, rule, LaneRule.result?, LaneRule.clamp, Value.math]

end LaneOperation

/-! ## Laws of operations -/

/-- Types of one operation are equal, or one of them is the scalar of the other one's kind. -/
theorem joinType?_eq_some_iff {a b ty : ValueType} : Value.joinType? a b = some ty ↔
    (a = ty ∨ a = .scalar ty.kind) ∧ b = ty ∨ a = ty ∧ b = .scalar ty.kind := by
  unfold Value.joinType?
  constructor
  · intro joined
    split at joined
    · next same =>
      cases joined
      exact .inl ⟨.inl rfl, same.symm⟩
    · split at joined <;> try split at joined
      all_goals cases joined
      · next same => exact .inl ⟨.inr (congrArg _ same.symm), rfl⟩
      · next same => exact .inr ⟨rfl, congrArg _ same.symm⟩
  · rintro (⟨rfl | rfl, rfl⟩ | ⟨rfl, rfl⟩)
    · exact if_pos rfl
    · split
      · next same => exact congrArg some same
      · exact if_pos rfl
    · split
      · rfl
      · next differ =>
        cases a with
        | scalar kind => exact (differ rfl).elim
        | vector | mat3 => exact if_pos rfl

theorem joins_joinType? : LaneRule.Joins Value.joinType? where
  operand joined := by grind [joinType?_eq_some_iff]
  size joined := by grind [joinType?_eq_some_iff, ValueType.components]
  lanes joined := by grind [joinType?_eq_some_iff, ValueType.kind]
  left joined := by grind [joinType?_eq_some_iff, ValueType.kind]
  right joined := by grind [joinType?_eq_some_iff, ValueType.kind]

theorem joins_shiftType? : LaneRule.Joins shiftType? where
  operand joined := by grind [shiftType?]
  size joined := by grind [shiftType?]
  lanes joined := by grind [shiftType?, ValueType.components, ValueType.kind]
  left joined := by grind [shiftType?]
  right joined := by grind [shiftType?, ValueType.components, ValueType.kind]

theorem joins_extremumType? : LaneRule.Joins extremumType? where
  operand joined := .inl (of_extremumType? joined).1
  size joined := by grind [extremumType?, ValueType.components]
  lanes joined := by grind [extremumType?, ValueType.kind]
  left joined := by grind [extremumType?]
  right joined := by grind [extremumType?, ValueType.kind]

namespace LaneRule

theorem shape?_clamp {a low high ty : ValueType} : clamp.shape? [a, low, high] = some ty ↔
    ty = a ∧ extremumType? a low = some a ∧ extremumType? a high = some a := by
  constructor
  · intro shape
    obtain ⟨mid, first, second⟩ := Option.bind_eq_some_iff.1 shape
    obtain ⟨rfl, -⟩ := of_extremumType? first
    obtain ⟨rfl, -⟩ := of_extremumType? second
    exact ⟨rfl, first, second⟩
  · rintro ⟨rfl, first, second⟩
    exact Option.bind_eq_some_iff.2 ⟨_, first, second⟩

theorem lawful_clamp : clamp.Lawful where
  operand {tys ty} shape := by
    match tys with
    | [a, low, high] =>
      obtain ⟨rfl, -⟩ := shape?_clamp.1 shape
      exact List.mem_cons_self
  size {tys ty} shape := by
    match tys with
    | [a, low, high] =>
      obtain ⟨rfl, first, second⟩ := shape?_clamp.1 shape
      simp [(joins_extremumType?.size first).2, (joins_extremumType?.size second).2]
  lanes {tys ty} shape := by
    match tys with
    | [a, low, high] =>
      obtain ⟨rfl, first, second⟩ := shape?_clamp.1 shape
      exact shape?_clamp.2 ⟨rfl, joins_extremumType?.lanes first, joins_extremumType?.lanes second⟩
  splat {tys i kind kind' size} shape scalar := by
    match tys, i with
    | [a, low, high], 0 =>
      obtain ⟨rfl, -⟩ := shape?_clamp.1 shape
      cases scalar
    | [a, low, high], 1 =>
      obtain ⟨rfl, first, second⟩ := shape?_clamp.1 shape
      obtain rfl : low = .scalar kind := by simpa using scalar
      exact shape?_clamp.2 ⟨rfl, joins_extremumType?.right first, second⟩
    | [a, low, high], 2 =>
      obtain ⟨rfl, first, second⟩ := shape?_clamp.1 shape
      obtain rfl : high = .scalar kind := by simpa using scalar
      exact shape?_clamp.2 ⟨rfl, first, joins_extremumType?.right second⟩
    | [a, low, high], _ + 3 => simp at scalar
  kind {tys ty xs x} shape same result := by
    match tys, xs with
    | [a, low, high], [x, l, h] =>
      obtain ⟨rfl, first, second⟩ := shape?_clamp.1 shape
      simp only [List.map_cons, List.map_nil, List.cons.injEq, and_true] at same
      obtain ⟨here, here', here''⟩ := same
      have lower : l.kind = x.kind := here'.trans ((of_extremumType? first).2.trans here.symm)
      have upper : h.kind = x.kind := here''.trans ((of_extremumType? second).2.trans here.symm)
      obtain rfl := Option.some.inj result
      exact (Scalar.kind_min (upper.trans (Scalar.kind_max lower).symm)).trans
        ((Scalar.kind_max lower).trans here)

end LaneRule

/-! ## Operations -/

theorem VectorSize.toNat_ne_one (size : VectorSize) : size.toNat ≠ 1 := by
  cases size <;> decide

theorem VectorSize.toNat_inj {a b : VectorSize} (same : a.toNat = b.toNat) : a = b := by
  revert same
  cases a <;> cases b <;> decide

/-- Without matrices a vector is told by the number of its components. -/
theorem ValueType.eq_vector_of_components {ty : ValueType} {size : VectorSize} (flat : ty ≠ .mat3)
    (same : ty.components = size.toNat) : ∃ kind, ty = .vector kind size := by
  cases ty with
  | scalar => exact (size.toNat_ne_one same.symm).elim
  | vector kind other =>
    obtain rfl : other = size := VectorSize.toNat_inj same
    exact ⟨kind, rfl⟩
  | mat3 => exact (flat rfl).elim

namespace Scalar

variable {x y z : Scalar}

theorem kind_negate? (negated : x.negate? = some y) : y.kind = x.kind := by
  cases x <;> cases negated <;> rfl

theorem kind_complement? (inverted : x.complement? = some y) : y.kind = x.kind := by
  cases x <;> cases inverted <;> rfl

theorem kind_abs? (result : x.abs? = some y) : y.kind = x.kind := by
  cases x <;> cases result <;> rfl

theorem kind_arith? {op : BinaryOp} (result : arith? op x y = some z) : z.kind = x.kind := by
  unfold arith? at result
  split at result
  case h_4 => cases result
  all_goals
    obtain ⟨_, -, rfl⟩ := Option.map_eq_some_iff.1 result
    rfl

theorem kind_shift {left : Bool} {amount : UInt32} : (x.shift left amount).kind = x.kind := by
  cases x <;> rfl

theorem convert_self : x.convert x.kind = x := by
  cases x with
  | bool b => cases b <;> decide
  | int | uint | float => rfl

end Scalar

/-- The constructor of a vector repeats a lone scalar of its kind. -/
theorem Value.construct_splat {s : Value} {kind : ScalarKind} (scalar : s.ty = .scalar kind)
    (size : VectorSize) : ∃ t, construct (.vector kind size) [s] = .ok t ∧ t.ty = .vector kind size ∧
      ∀ k < size.toNat, t.pick k = s.pick k := by
  have here (k : Nat) : s.pick k = s.lane 0 := by
    rw [pick, scalar]
    rfl
  have same : (s.lane 0).kind = kind := by
    rw [lane, Scalar.kind_ofBits, Value.kind, scalar]
    rfl
  have lone : s.asScalar? = some (s.lane 0) := by
    rw [asScalar?, scalar]
  refine ⟨ofComponents (.vector kind size) (List.replicate size.toNat (s.lane 0)), ?_, rfl,
    fun k inside => ?_⟩
  · have unconverted : (s.lane 0).convert kind = s.lane 0 := by rw [← same, Scalar.convert_self]
    simp only [construct, lone, unconverted]
  · have held := @pick_ofComponents (.vector kind size) (List.replicate size.toNat (s.lane 0)) k
      (by simp [ValueType.components]) (by simp [same, ValueType.kind]) inside
    rw [here]
    simpa [inside] using held.symm

namespace LaneOperation

theorem lawful_rule (o : LaneOperation) : o.rule.Lawful := by
  have shifts {left : Bool} :
      (LaneRule.two shiftType? fun x y => some (x.shift left y.toBits)).Lawful := by
    refine LaneRule.lawful_two joins_shiftType? fun a b ty x y z joined here _ shifted => ?_
    obtain rfl := Option.some.inj shifted
    obtain rfl : a = ty := by
      unfold shiftType? at joined
      split at joined <;> cases joined
      rfl
    exact Scalar.kind_shift.trans here
  have arithmetic {op : BinaryOp} : (LaneRule.two Value.joinType? (Scalar.arith? op)).Lawful := by
    refine LaneRule.lawful_two joins_joinType? fun a b ty x y z joined here _ result => ?_
    rw [Scalar.kind_arith? result, here]
    rcases joinType?_eq_some_iff.1 joined with ⟨rfl | rfl, -⟩ | ⟨rfl, -⟩ <;> rfl
  have choice {choose : Scalar → Scalar → Scalar}
      (kinds : ∀ x y : Scalar, y.kind = x.kind → (choose x y).kind = x.kind) :
      (LaneRule.two extremumType? fun x y => some (choose x y)).Lawful := by
    refine LaneRule.lawful_two joins_extremumType? fun a b ty x y z joined here there chosen => ?_
    obtain rfl := Option.some.inj chosen
    obtain ⟨rfl, same⟩ := of_extremumType? joined
    exact (kinds x y (there.trans (same.trans here.symm))).trans here
  cases o with
  | unary op =>
    cases op with
    | neg => exact LaneRule.lawful_one fun _ _ => Scalar.kind_negate?
    | bitNot => exact LaneRule.lawful_one fun _ _ => Scalar.kind_complement?
    | not => exact LaneRule.lawful_one fun _ _ impossible => nomatch impossible
  | binary op =>
    cases op with
    | shl | shr => exact shifts
    | _ => exact arithmetic
  | math f =>
    cases f with
    | min => exact choice fun _ _ => Scalar.kind_min
    | max => exact choice fun _ _ => Scalar.kind_max
    | abs => exact LaneRule.lawful_one fun _ _ => Scalar.kind_abs?
    | clamp => exact LaneRule.lawful_clamp

/-- An operation works lane by lane: where it gives a result, its operands have as many components as this one
or a single one, it gives each lane of the result on the lanes of the operands there, and it gives the same
result if a scalar beside a vector is replaced by the vector that repeats it. -/
theorem lane_by_lane {o : LaneOperation} {args : List Value} {r : Value} (lanewise : o.Lanewise)
    (flat : ∀ a ∈ args, a.ty ≠ .mat3) (ran : o.apply args = .ok r) :
    (∀ a ∈ args, a.ty.components = 1 ∨ a.ty.components = r.ty.components) ∧
      (∀ k < r.ty.components, o.apply (args.map (·.laneAt k)) = .ok (r.laneAt k)) ∧
      ∀ (i j : Nat) (s v : Value) (kind kind' : ScalarKind) (size : VectorSize), args[i]? = some s →
        s.ty = .scalar kind → args[j]? = some v → v.ty = .vector kind' size →
          ∃ t, Value.construct (.vector kind size) [s] = .ok t ∧ o.apply (args.set i t) = .ok r := by
  have lawful := o.lawful_rule
  have result := (apply_eq_ok_iff lanewise flat).1 ran
  obtain ⟨shape, -⟩ := lawful.pick_result result
  have sizes := List.forall_mem_map.1 (lawful.size shape)
  refine ⟨sizes, fun k inside => ?_, fun i j s v kind kind' size there scalar beside vector => ?_⟩
  · refine (apply_eq_ok_iff lanewise ?_).2 (lawful.result?_laneAt result inside)
    intro a member
    obtain ⟨a, -, rfl⟩ := List.mem_map.1 member
    exact nofun
  · have wide : v.ty.components = r.ty.components := by
      refine (sizes v (List.mem_of_getElem? beside)).resolve_left ?_
      rw [vector]
      exact size.toNat_ne_one
    obtain ⟨operand, member, ty⟩ := List.mem_map.1 (lawful.operand shape)
    rw [vector] at wide
    obtain ⟨_, result_type⟩ := ValueType.eq_vector_of_components (ty ▸ flat operand member) wide.symm
    obtain ⟨t, made, typed, repeats⟩ := Value.construct_splat scalar size
    refine ⟨t, made, (apply_eq_ok_iff lanewise ?_).2
      (lawful.result?_set result there scalar result_type typed repeats)⟩
    intro a member
    rcases List.mem_or_eq_of_mem_set member with before | rfl
    · exact flat a before
    · rw [typed]
      exact nofun

/-- A shift of two integers by one amount of another kind, of which the low five bits count. -/
theorem lane_by_lane_shift : Lanewise (.binary .shr) ∧
    (∀ a ∈ [Value.ofBits (.vector .int .two) [0x80000000, 12], Value.uint 33], a.ty ≠ .mat3) ∧
    apply (.binary .shr) [.ofBits (.vector .int .two) [0x80000000, 12], Value.uint 33] =
      .ok (.ofBits (.vector .int .two) [0xC0000000, 6]) ∧
    apply (.binary .shr) [.ofBits (.scalar .int) [0x80000000], Value.uint 33] =
      .ok (.ofBits (.scalar .int) [0xC0000000]) ∧
    ∃ t, Value.construct (.vector .uint .two) [Value.uint 33] = .ok t ∧
      apply (.binary .shr) [.ofBits (.vector .int .two) [0x80000000, 12], t] =
        .ok (.ofBits (.vector .int .two) [0xC0000000, 6]) := by
  have lanewise : Lanewise (.binary .shr) := by decide
  have flat : ∀ a ∈ [Value.ofBits (.vector .int .two) [0x80000000, 12], Value.uint 33], a.ty ≠ .mat3 := by
    decide
  have ran : apply (.binary .shr) [.ofBits (.vector .int .two) [0x80000000, 12], Value.uint 33] =
      .ok (.ofBits (.vector .int .two) [0xC0000000, 6]) := by
    decide +kernel
  obtain ⟨-, lanes, splats⟩ := lane_by_lane lanewise flat ran
  exact ⟨lanewise, flat, ran, lanes 0 (by decide), splats 1 0 _ _ _ _ .two rfl rfl rfl rfl⟩

end LaneOperation

end ComputeShader
