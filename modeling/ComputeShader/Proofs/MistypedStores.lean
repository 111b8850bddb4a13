import ComputeShader.Proofs.CaseSeeds
import ComputeShader.Proofs.EmptyResources
import ComputeShader.Proofs.ProjectedStores
import ComputeShader.Proofs.StepTraces

/-! # Stores of values of another type

A path selects the same type in all values of a type, and a store through it succeeds exactly for values of
that type. But only a store to a whole element asks for the type first: a store to a part of one asks for it
where the part is replaced, so never when the index is a fault or the store is dropped.
-/

namespace ComputeShader

/-! ## The type at the end of a path -/

/-- The part of a type that a step selects. -/
def Step.part? (ty : ValueType) : Step → Option ValueType
  | index i => (ty.element?.filter (i < ·.2)).map Prod.fst
  | swizzle selection =>
    match ty with
    | .vector kind size =>
      if ∀ c ∈ selection, c < size.toNat then ValueType.ofCount? kind selection.length else none
    | _ => none

/-- The type of the part at the end of a path. -/
def ValueType.at? : ValueType → List Step → Option ValueType
  | ty, [] => some ty
  | ty, step :: rest => (step.part? ty).bind (at? · rest)

namespace Step

variable {step : Step} {ty part : ValueType} {v sub new : Value}

theorem part?_index {i : Nat} :
    (index i).part? ty = some part ↔ ∃ count, ty.element? = some (part, count) ∧ i < count := by
  simp only [part?, Option.map_eq_some_iff, Option.filter_eq_some_iff, decide_eq_true_eq]
  constructor
  · rintro ⟨⟨_, count⟩, ⟨elements, inside⟩, rfl⟩
    exact ⟨count, elements, inside⟩
  · rintro ⟨count, elements, inside⟩
    exact ⟨(part, count), ⟨elements, inside⟩, rfl⟩

theorem part?_swizzle {selection : List Nat} :
    (swizzle selection).part? ty = some part ↔ ∃ kind size, ty = .vector kind size ∧
      (∀ c ∈ selection, c < size.toNat) ∧ ValueType.ofCount? kind selection.length = some part := by
  cases ty with
  | scalar | mat3 => simp [part?]
  | vector kind size =>
    simp only [part?, Option.ite_none_right_eq_some]
    constructor
    · rintro ⟨inside, count⟩
      exact ⟨kind, size, rfl, inside, count⟩
    · rintro ⟨_, _, same, inside, count⟩
      cases same
      exact ⟨inside, count⟩

/-- A step that selects a part of the type gives a part of every value of it. -/
theorem get_of_part? (selects : step.part? v.ty = some part) :
    ∃ sub, step.get v = .ok sub ∧ sub.ty = part := by
  cases step with
  | index i =>
    obtain ⟨count, elements, inside⟩ := part?_index.1 selects
    exact ⟨_, Value.element_eq elements inside, rfl⟩
  | swizzle selection =>
    obtain ⟨kind, size, ty, inside, count⟩ := part?_swizzle.1 selects
    exact ⟨_, Value.swizzle_eq ty inside count, rfl⟩

/-- A step that gives a part of a value selects its type. -/
theorem part?_of_get (got : step.get v = .ok sub) : step.part? v.ty = some sub.ty := by
  have same {part : ValueType} (selects : step.part? v.ty = some part) :
      step.part? v.ty = some sub.ty := by
    obtain ⟨sub', got', rfl⟩ := get_of_part? selects
    cases got'.symm.trans got
    exact selects
  cases step with
  | index i =>
    by_cases elements : ∃ part count, v.ty.element? = some (part, count) ∧ i < count
    · obtain ⟨part, count, elements, inside⟩ := elements
      exact same (part?_index.2 ⟨count, elements, inside⟩)
    · have fails : (index i).get v = _ := Value.element_error fun part count found =>
        Nat.not_lt.1 fun inside => elements ⟨part, count, found, inside⟩
      cases fails.symm.trans got
  | swizzle selection =>
    cases ty : v.ty with
    | scalar | mat3 =>
      have fails : (swizzle selection).get v = _ := Value.swizzle_error (by simp [ty])
      cases fails.symm.trans got
    | vector kind size =>
      rw [← ty]
      rcases Value.swizzle_cases kind size selection with ⟨part, inside, count⟩ | ⟨e, fails⟩
      · exact same (part?_swizzle.2 ⟨kind, size, ty, inside, count⟩)
      · cases (fails v ty).symm.trans got

/-- A part can be replaced by a value of its type, and the whole keeps its own. -/
theorem set_of_part? (selects : step.part? v.ty = some new.ty) :
    ∃ v', step.set v new = .ok v' ∧ v'.ty = v.ty := by
  cases step with
  | index i =>
    obtain ⟨count, elements, inside⟩ := part?_index.1 selects
    exact ⟨_, Value.withElement_eq elements inside rfl, rfl⟩
  | swizzle selection =>
    obtain ⟨kind, size, ty, inside, count⟩ := part?_swizzle.1 selects
    have kinds : new.ty.kind = kind := (ValueType.ofCount?_eq_some count).1
    have length : new.bits.length = (selection.map (v.words.getD · 0)).length := by
      rw [new.length_bits, (ValueType.ofCount?_eq_some count).2, List.length_map]
    obtain ⟨v', replaced, same, -⟩ := Value.withSwizzle_eq ty inside count
      (kinds ▸ Patch.written_whole) (Patch.apply_whole length).symm
    exact ⟨v', replaced, same⟩

end Step

section Paths

variable {old new v : Value} {path : List Step}

/-- What a store through a path accepts is of the type at its end. -/
theorem at?_of_setPath (replaced : setPath old path new = .ok v) : old.ty.at? path = some new.ty := by
  induction path generalizing old v with
  | nil =>
    rw [setPath] at replaced
    split at replaced
    · next same => exact congrArg some same.symm
    · cases replaced
  | cons step rest ih =>
    obtain ⟨sub, got, replaced⟩ := exists_of_bind_eq_ok replaced
    obtain ⟨sub', inner, -⟩ := exists_of_bind_eq_ok replaced
    exact Option.bind_eq_some_iff.2 ⟨sub.ty, Step.part?_of_get got, ih inner⟩

/-- A store through a path accepts the values of the type at its end, and keeps the type of the whole. -/
theorem setPath_of_at? (typed : old.ty.at? path = some new.ty) :
    ∃ v, setPath old path new = .ok v ∧ v.ty = old.ty := by
  induction path generalizing old with
  | nil =>
    have same : old.ty = new.ty := Option.some.inj typed
    exact ⟨new, if_pos same.symm, same.symm⟩
  | cons step rest ih =>
    obtain ⟨part, selects, typed⟩ := Option.bind_eq_some_iff.1 typed
    obtain ⟨sub, got, rfl⟩ := Step.get_of_part? selects
    obtain ⟨sub', inner, same⟩ := ih typed
    rw [← same] at selects
    obtain ⟨v, replaced, same⟩ := Step.set_of_part? selects
    refine ⟨v, ?_, same⟩
    rw [setPath, got]
    exact (congrArg (· >>= step.set old) inner).trans replaced

end Paths

/-! ## One store -/

namespace Store

/-- Whether an index stands for an element of a buffer: it is in range, or the nearest one is taken. -/
def Reaches (s : Store) (b : Buffer) (index : Int) : Prop :=
  (0 ≤ index ∧ index < b.length) ∨ (s.oobPolicy = .clampAndReport ∧ 0 < b.length)

instance (s : Store) (b : Buffer) (index : Int) : Decidable (s.Reaches b index) :=
  inferInstanceAs (Decidable (_ ∨ _))

variable {s : Store} {binding : Binding} {b : Buffer} {index : Int} {me : InvocationId}

theorem resolution_of_reaches (reaches : s.Reaches b index) (label : String) :
    ∃ i, (Resolution.ofIndex s.oobPolicy label index b.length).answer = .ok (some i) := by
  unfold Resolution.ofIndex
  split
  · exact ⟨_, rfl⟩
  · next outside =>
    obtain inside | ⟨clamps, some⟩ := reaches
    · exact (outside inside).elim
    · rw [if_neg (Nat.ne_of_gt some), clamps]
      exact ⟨_, rfl⟩

theorem resolution_of_not_reaches (misses : ¬ s.Reaches b index)
    (spared : ¬ (s.oobPolicy = .fault ∧ 0 < b.length)) (label : String) :
    (Resolution.ofIndex s.oobPolicy label index b.length).answer = .ok none := by
  obtain ⟨outside, unclamped⟩ := not_or.1 misses
  unfold Resolution.ofIndex
  rw [if_neg outside]
  split
  · rfl
  · next some =>
    cases policy : s.oobPolicy with
    | clampAndReport => exact (unclamped ⟨policy, Nat.pos_of_ne_zero some⟩).elim
    | discardAndReport => rfl
    | fault => exact (spared ⟨policy, Nat.pos_of_ne_zero some⟩).elim

/-- A change that is a type error on all values is found out where the index reaches an element. -/
theorem update_mistyped {change : Value → Except EngineError Value}
    (found : s.buffers.get? binding = some b) (reaches : s.Reaches b index)
    (mistyped : ∀ old, old.ty = b.element → ∃ site e, change old = .error (.typeMismatch site e)) :
    ∃ site e diagnostics, update binding index me change s =
      .error (.typeMismatch site e) { s with diagnostics } := by
  obtain ⟨i, answer⟩ := resolution_of_reaches reaches (b.label binding)
  obtain ⟨site, e, failed⟩ := mistyped (b.value i) rfl
  obtain ⟨diagnostics, noted⟩ := @performAll_notes_eq s me
    (.ofIndex s.oobPolicy (b.label binding) index b.length)
  have resolved : resolve (b.label binding) index b.length me s = .ok (some i) { s with diagnostics } :=
    (resolve_eq ..).trans (by simp only [noted, answer]; rfl)
  refine ⟨site, e, diagnostics, ?_⟩
  rw [update, bind_eq (bufferAt_eq found), bind_eq resolved]
  simp only [failed]
  rfl

/-- A change is not even tried where the index is a fault. -/
theorem update_fault (change : Value → Except EngineError Value)
    (found : s.buffers.get? binding = some b) (misses : ¬ s.Reaches b index)
    (fault : s.oobPolicy = .fault) (some : 0 < b.length) :
    update binding index me change s = .error (.outOfBounds (b.label binding) index b.length) s := by
  have outside := (not_or.1 misses).1
  rw [update, bind_eq (bufferAt_eq found)]
  refine bind_eq_error ?_
  rw [resolve_eq, fault, Resolution.ofIndex_fault some outside]
  rfl

/-- A change is not even tried where the store is dropped. -/
theorem update_dropped (change : Value → Except EngineError Value)
    (found : s.buffers.get? binding = some b) (misses : ¬ s.Reaches b index)
    (spared : ¬ (s.oobPolicy = .fault ∧ 0 < b.length)) :
    s.Discards (update binding index me change s) () := by
  rw [update, bind_eq (bufferAt_eq found)]
  exact discards_of_dropped (resolve_eq ..) (resolution_of_not_reaches misses spared _) fun _ => rfl

/-- A whole value of another type is found out whatever the index. -/
theorem write_mistyped {v : Value} (found : s.buffers.get? binding = some b) (differ : v.ty ≠ b.element) :
    write binding index v me s =
      .error (.typeMismatch (.store (b.label binding)) ⟨b.element.name, v.ty.name⟩) s := by
  rw [write, bind_eq (bufferAt_eq found)]
  exact bind_eq_error ((checkElement_eq v).trans (by rw [if_neg differ]; rfl))

end Store

/-! ## Assignments -/

namespace RunContext

/-- The part of an assignment that comes before the store to one of its targets: the value that is stored
and what the target comes to. The targets `before` have their stores done. -/
def upTo (c : RunContext) (line : Nat) (value : Expr) (before : List Target) (t : Target) :
    RunM (Value × Option ResolvedTarget) := do
  c.step
  let v ← c.eval value
  c.storeAll line v before
  return (v, ← c.resolveTarget line t)

theorem bind_congr_at {α β : Type} {x y : RunM α} {k : α → RunM β} {s s' : RunState}
    (same : x s = y s') : (x >>= k) s = (y >>= k) s' := by
  simp only [Bind.bind, EStateM.bind, same]

variable {c : RunContext} {line : Nat} {targets before after : List Target} {t : Target} {value : Expr}
  {v : Value} {target : ResolvedTarget} {binding : Binding} {index : Int} {path : List Step} {b : Buffer}
  {s s' : RunState}

theorem storeAll_of_resolved (came : c.resolveTarget line t s = .ok (some target) s') :
    c.storeAll line v (t :: after) s =
      (c.store line target v >>= fun _ => c.storeAll line v after) s' := by
  rw [storeAll, bind_eq_of_ok came]

theorem storeAll_of_dropped (came : c.resolveTarget line t s = .ok none s') :
    c.storeAll line v (t :: after) s = c.storeAll line v after s' := by
  rw [storeAll, bind_eq_of_ok came]

theorem storeAll_append (done : c.storeAll line v before s = .ok () s') :
    c.storeAll line v (before ++ after) s = c.storeAll line v after s' := by
  induction before generalizing s with
  | nil =>
    cases done
    rfl
  | cons t rest ih =>
    obtain ⟨resolved, s₁, came, -⟩ := exists_of_ran_bind (storeAll.eq_2 .. ▸ done)
    cases resolved with
    | none =>
      rw [storeAll_of_dropped came] at done
      exact (storeAll_of_dropped came).trans (ih done)
    | some target =>
      rw [storeAll_of_resolved came] at done
      obtain ⟨_, s₂, stored, done⟩ := exists_of_ran_bind done
      exact (storeAll_of_resolved came).trans ((bind_eq_of_ok stored).trans (ih done))

/-- From the store to one of its targets on, an assignment does this store and those to the others. -/
theorem exec_assign_eq (order : targets.reverse = before ++ t :: after)
    (comes : c.upTo line value before t s = .ok (v, some target) s') :
    c.exec (.assign line targets value) s =
      ((c.store line target v >>= fun _ => c.storeAll line v after) >>= fun _ => pure Flow.next) s' := by
  obtain ⟨_, s₁, stepped, comes⟩ := exists_of_ran_bind comes
  obtain ⟨_, s₂, evaluated, comes⟩ := exists_of_ran_bind comes
  obtain ⟨_, s₃, stored, comes⟩ := exists_of_ran_bind comes
  obtain ⟨_, s₄, resolved, comes⟩ := exists_of_ran_bind comes
  cases comes
  rw [exec.eq_def, bind_eq_of_ok stepped]
  dsimp only
  rw [bind_eq_of_ok evaluated, order]
  exact bind_congr_at ((storeAll_append stored).trans (storeAll_of_resolved resolved))

/-- The change that a store to a part makes is a type error on all elements if the value is not of the type
of the part. -/
theorem change_mistyped {element : ValueType} (differ : element.at? path ≠ some v.ty) (old : Value)
    (typed : old.ty = element) :
    ∃ site e, (setPath old path v).mapError (EngineError.typeMismatch (.atLine "store" line)) =
      .error (.typeMismatch site e) := by
  cases replaced : setPath old path v with
  | error e => exact ⟨_, e, rfl⟩
  | ok new => exact (differ (typed ▸ at?_of_setPath replaced)).elim

/-- The state with other diagnostics. -/
def noted (s : RunState) (diagnostics : Diagnostics) : RunState :=
  { s with store := { s.store with diagnostics } }

/-- How a store of another type than the target's ends: in a type error if it is to a whole element or the
index reaches one; otherwise the index is a fault, or nothing is stored. -/
theorem store_mistyped (line : Nat) (found : s.store.buffers.get? binding = some b)
    (differ : b.element.at? path ≠ some v.ty) :
    if path = [] ∨ s.store.Reaches b index then
      ∃ site e diagnostics, c.store line (.buffer binding index path) v s =
        .error (.typeMismatch site e) (noted s diagnostics)
    else if s.store.oobPolicy = .fault ∧ 0 < b.length then
      c.store line (.buffer binding index path) v s =
        .error (.outOfBounds (b.label binding) index b.length) s
    else ∃ diagnostics, c.store line (.buffer binding index path) v s = .ok () (noted s diagnostics) := by
  cases path with
  | nil =>
    have differ : v.ty ≠ b.element := fun same => differ (congrArg some same.symm)
    have failed := @Store.write_mistyped s.store binding b index c.me v found differ
    rw [if_pos (.inl rfl)]
    refine ⟨.store (b.label binding), ⟨b.element.name, v.ty.name⟩, s.store.diagnostics, ?_⟩
    rw [store, onStore_eq, failed]
    rfl
  | cons step rest =>
    have mistyped := @change_mistyped line v (step :: rest) _ differ
    simp only [store, onStore_eq, List.cons_ne_nil, false_or]
    split
    · next reaches =>
      obtain ⟨site, e, diagnostics, failed⟩ := Store.update_mistyped found reaches mistyped
      refine ⟨site, e, diagnostics, ?_⟩
      rw [failed]
      rfl
    split
    · next misses fault =>
      rw [Store.update_fault _ found misses fault.1 fault.2]
    · next misses spared =>
      obtain ⟨diagnostics, dropped⟩ := Store.update_dropped _ found misses spared
      refine ⟨diagnostics, ?_⟩
      rw [dropped]
      rfl

/-- An assignment that comes to an element of a buffer, or a part of one, with a value of another type than is
selected there ends in a type error, whatever the index, if it stores to the whole element; if it stores to a
part, only where the index reaches an element. Elsewhere the index is a fault, or the assignment goes on with
its other targets as if the value had been stored. -/
theorem mistyped_assignment (order : targets.reverse = before ++ t :: after)
    (comes : c.upTo line value before t s = .ok (v, some (.buffer binding index path)) s')
    (found : s'.store.buffers.get? binding = some b) (differ : b.element.at? path ≠ some v.ty) :
    if path = [] ∨ s'.store.Reaches b index then
      ∃ site e diagnostics, c.exec (.assign line targets value) s =
        .error (.typeMismatch site e) (noted s' diagnostics)
    else if s'.store.oobPolicy = .fault ∧ 0 < b.length then
      c.exec (.assign line targets value) s = .error (.outOfBounds (b.label binding) index b.length) s'
    else ∃ diagnostics, c.exec (.assign line targets value) s =
      (c.storeAll line v after >>= fun _ => pure Flow.next) (noted s' diagnostics) := by
  have stored := @store_mistyped c v binding index path b s' line found differ
  rw [exec_assign_eq order comes]
  split
  · next checked =>
    rw [if_pos checked] at stored
    obtain ⟨site, e, diagnostics, failed⟩ := stored
    exact ⟨site, e, diagnostics, bind_eq_of_error (bind_eq_of_error failed)⟩
  · next unchecked =>
    rw [if_neg unchecked] at stored
    split
    · next fault =>
      rw [if_pos fault] at stored
      exact bind_eq_of_error (bind_eq_of_error stored)
    · next spared =>
      rw [if_neg spared] at stored
      obtain ⟨diagnostics, dropped⟩ := stored
      exact ⟨diagnostics, bind_congr_at (bind_eq_of_ok dropped)⟩

/-- An invocation over a buffer of two pairs of words. -/
def halving : RunContext where
  shader :=
    { name := "halving", version := 310, extensions := [], localSize := ⟨1, 1, 1⟩,
      buffers := [⟨0, "Out", none, "O", .vector .uint .two, .readWrite⟩],
      images := [], samplers := [], uniforms := [], locals := [], body := [] }
  sampler := .external
  stepBudget := 10
  invocation := ⟨⟨0, 0, 0⟩, ⟨0, 0, 0⟩, ⟨1, 1, 1⟩, ⟨1, 1, 1⟩⟩
  me := 0

/-- One and a half. -/
def oneAndAHalf : Value := .ofBits (.scalar .float) [0x3FC00000]

/-- The target `O[i].x`. -/
def firstOf (i : UInt32) : Target := ⟨.bufferElement 0 (.literal ⟨1, 3⟩ (.uint i)), [.swizzle [0]]⟩

/-- A float stored to a component of the last pair of words is a type error. -/
theorem mistyped_assignment_halving :
    let s := halving.start (.create halving.shader { bufferLength := 2, oobPolicy := .discardAndReport })
    let s' : RunState := { s with steps := 3 }
    halving.upTo 1 (.literal ⟨1, 10⟩ oneAndAHalf) [] (firstOf 1) s =
        .ok (oneAndAHalf, some (.buffer 0 1 [.swizzle [0]])) s' ∧
      ∃ site e diagnostics, halving.exec (.assign 1 [firstOf 1] (.literal ⟨1, 10⟩ oneAndAHalf)) s =
        .error (.typeMismatch site e) (noted s' diagnostics) := by
  intro s s'
  have order : [firstOf 1].reverse = [] ++ firstOf 1 :: [] := rfl
  have comes : halving.upTo 1 (.literal ⟨1, 10⟩ oneAndAHalf) [] (firstOf 1) s =
      .ok (oneAndAHalf, some (.buffer 0 1 [.swizzle [0]])) s' := rfl
  have found : s'.store.buffers.get? 0 = some (.zeros "O" (.vector .uint .two) 2) := rfl
  have ends := mistyped_assignment order comes found (by decide)
  rw [if_pos (by decide)] at ends
  exact ⟨comes, ends⟩

/-- The same store past the last pair is as good as done. -/
theorem mistyped_assignment_dropped :
    let s := halving.start (.create halving.shader { bufferLength := 2, oobPolicy := .discardAndReport })
    let s' : RunState := { s with steps := 3 }
    halving.upTo 1 (.literal ⟨1, 10⟩ oneAndAHalf) [] (firstOf 9) s =
        .ok (oneAndAHalf, some (.buffer 0 9 [.swizzle [0]])) s' ∧
      (ValueType.vector .uint .two).at? [.swizzle [0]] = some (.scalar .uint) ∧
      oneAndAHalf.ty = .scalar .float ∧
      ∃ diagnostics, halving.exec (.assign 1 [firstOf 9] (.literal ⟨1, 10⟩ oneAndAHalf)) s =
        .ok .next (noted s' diagnostics) := by
  intro s s'
  have comes : halving.upTo 1 (.literal ⟨1, 10⟩ oneAndAHalf) [] (firstOf 9) s =
      .ok (oneAndAHalf, some (.buffer 0 9 [.swizzle [0]])) s' := rfl
  have found : s'.store.buffers.get? 0 = some (.zeros "O" (.vector .uint .two) 2) := rfl
  have differ : (ValueType.vector .uint .two).at? [.swizzle [0]] ≠ some oneAndAHalf.ty := by decide
  have stored := @store_mistyped halving oneAndAHalf 0 9 [.swizzle [0]] _ s' 1 found differ
  rw [if_neg (by decide), if_neg (by decide)] at stored
  obtain ⟨diagnostics, dropped⟩ := stored
  have order : [firstOf 9].reverse = [] ++ firstOf 9 :: [] := rfl
  refine ⟨comes, by decide, rfl, diagnostics, (exec_assign_eq order comes).trans ?_⟩
  exact bind_congr_at (bind_eq_of_ok dropped)

end RunContext

end ComputeShader
