import ComputeShader.Proofs.OperationErrors
import ComputeShader.Proofs.RunComposition

/-! # Steps of a run

A run counts its steps and fails at the first one that its budget does not cover. Its trace lists the
stores at which it takes its steps. What the run does beyond counting does not depend on the count: begun
`d` steps later it does the same `d` steps later, until it is cut short at a store that its trace tells.
-/

namespace ComputeShader

namespace RunState

/-- The state with `d` more steps taken. -/
def later (d : Nat) (s : RunState) : RunState := { s with steps := s.steps + d }

@[simp] theorem store_later (d : Nat) (s : RunState) : (s.later d).store = s.store := rfl

@[simp] theorem locals_later (d : Nat) (s : RunState) : (s.later d).locals = s.locals := rfl

@[simp] theorem steps_later (d : Nat) (s : RunState) : (s.later d).steps = s.steps + d := rfl

theorem later_inj {s s' : RunState} {d : Nat} (same : s.later d = s'.later d) : s = s' := by
  cases s
  cases s'
  simpa [later] using same

end RunState

namespace EngineError

/-- The error of a budget greater by `d`. -/
def allowing (d : Nat) : EngineError → EngineError
  | stepBudgetExceeded i budget => stepBudgetExceeded i (budget + d)
  | e => e

theorem allowing_eq {e : EngineError} (ordinary : e.kind ≠ .stepBudgetExceeded) (d : Nat) :
    e.allowing d = e := by
  cases e with
  | stepBudgetExceeded i budget => exact absurd rfl ordinary
  | _ => rfl

@[simp] theorem kind_allowing (d : Nat) (e : EngineError) : (e.allowing d).kind = e.kind := by
  cases e <;> rfl

end EngineError

namespace RunContext

variable {c : RunContext} {α β : Type} {x : RunM α} {k : α → RunM β} {s : RunState}

/-- What a part of a run comes to if it begins `d` steps later on a budget greater by `d`. -/
def delayed (d : Nat) : EStateM.Result EngineError RunState α → EStateM.Result EngineError RunState α
  | .ok a s => .ok a (s.later d)
  | .error e s => .error (e.allowing d) (s.later d)

theorem bind_eq_of_ok {a : α} {s' : RunState} (ran : x s = .ok a s') : (x >>= k) s = k a s' := by
  simp only [Bind.bind, EStateM.bind, ran]

theorem bind_eq_of_error {e : EngineError} {s' : RunState} (failed : x s = .error e s') :
    (x >>= k) s = .error e s' := by
  simp only [Bind.bind, EStateM.bind, failed]

/-! ## Parts without steps -/

/-- Whether a part of a run takes no step: it neither looks at the count nor changes it, and does not
fail for want of steps. -/
structure Quiet (x : RunM α) : Prop where
  delayed : ∀ d s, x (s.later d) = delayed d (x s)
  steps : ∀ s a s', x s = .ok a s' → s'.steps = s.steps
  ordinary : ∀ s e s', x s = .error e s' → e.kind ≠ .stepBudgetExceeded

theorem quiet_pure (a : α) : Quiet (pure a : RunM α) where
  delayed _ _ := rfl
  steps := by
    rintro s _ _ ⟨⟩
    rfl
  ordinary := by
    rintro s _ _ ⟨⟩

theorem quiet_mismatch (site : AccessSite) (e : TypeError) :
    Quiet (throw (.typeMismatch site e) : RunM α) where
  delayed _ _ := rfl
  steps := by
    rintro s _ _ ⟨⟩
  ordinary := by
    rintro s _ _ ⟨⟩
    simp [EngineError.kind]

theorem Quiet.bind (first : Quiet x) (next : ∀ a, Quiet (k a)) : Quiet (x >>= k) := by
  constructor
  · intro d s
    have begun := first.delayed d s
    cases ran : x s with
    | ok a s' =>
      rw [ran, RunContext.delayed] at begun
      rw [bind_eq_of_ok begun, bind_eq_of_ok ran, (next a).delayed]
    | error e s' =>
      rw [ran, RunContext.delayed] at begun
      rw [bind_eq_of_error begun, bind_eq_of_error ran, RunContext.delayed]
  · intro s b s'' finished
    cases ran : x s with
    | ok a s' =>
      rw [bind_eq_of_ok ran] at finished
      exact ((next a).steps s' b s'' finished).trans (first.steps s a s' ran)
    | error e s' =>
      rw [bind_eq_of_error ran] at finished
      cases finished
  · intro s e s'' failed
    cases ran : x s with
    | ok a s' =>
      rw [bind_eq_of_ok ran] at failed
      exact (next a).ordinary s' e s'' failed
    | error e' s' =>
      rw [bind_eq_of_error ran] at failed
      cases failed
      exact first.ordinary s _ _ ran

theorem quiet_readLocals {k : List Value → RunM α} (next : ∀ locals, Quiet (k locals)) :
    Quiet (get >>= fun s => k s.locals) where
  delayed d s := (next s.locals).delayed d s
  steps s := (next s.locals).steps s
  ordinary s := (next s.locals).ordinary s

theorem quiet_storeLocal (slot : Nat) (v : Value) :
    Quiet (modify fun s => { s with locals := s.locals.set slot v }) where
  delayed _ _ := rfl
  steps := by
    rintro s _ _ ⟨⟩
    rfl
  ordinary := by
    rintro s _ _ ⟨⟩

theorem onStore_eq (action : StoreM α) (s : RunState) : onStore action s =
    match action s.store with
    | .ok a store => .ok a { s with store }
    | .error e store => .error e { s with store } := rfl

theorem quiet_onStore {action : StoreM α} (ordinary : Store.FailsOrdinarily action) :
    Quiet (onStore action) := by
  constructor
  · intro d s
    rw [onStore_eq, onStore_eq, RunState.store_later]
    cases acted : action s.store with
    | ok a store => rfl
    | error e store =>
      simp only [delayed, EngineError.allowing_eq (ordinary _ _ _ acted), RunState.later]
  · intro s a s' ran
    rw [onStore_eq] at ran
    split at ran
    · cases ran
      rfl
    · cases ran
  · intro s e s' failed
    rw [onStore_eq] at failed
    split at failed
    · cases failed
    · next acted =>
      cases failed
      exact ordinary _ _ _ acted

theorem quiet_typed (site : AccessSite) (answer : Except TypeError α) : Quiet (typed site answer) := by
  cases answer with
  | ok a => exact quiet_pure a
  | error e => exact quiet_mismatch site e

theorem quiet_asCondition (e : Expr) (v : Value) : Quiet (asCondition e v) := by
  unfold asCondition
  split
  · exact quiet_pure _
  · exact quiet_mismatch _ _

theorem quiet_asIndex (e : Expr) (v : Value) : Quiet (asIndex e v) := by
  unfold asIndex
  split
  · exact quiet_pure _
  · exact quiet_mismatch _ _

theorem quiet_asCoord (e : Expr) (v : Value) : Quiet (asCoord e v) := by
  unfold asCoord
  split
  · exact quiet_pure _
  · exact quiet_mismatch _ _

theorem quiet_asTextureCoord (pos : Position) (v : Value) : Quiet (asTextureCoord pos v) := by
  unfold asTextureCoord
  split
  · exact quiet_pure _
  · exact quiet_mismatch _ _

theorem quiet_asBias (e : Expr) (v : Value) : Quiet (asBias e v) := by
  unfold asBias
  split
  · exact quiet_pure _
  · exact quiet_mismatch _ _

theorem quiet_subscript (c : RunContext) (pos : Position) (v : Value) (i : Int) :
    Quiet (c.subscript pos v i) := by
  unfold subscript
  split
  · exact quiet_mismatch _ _
  · refine (quiet_onStore (Store.ordinary_resolve _ _ _ _)).bind fun resolved => ?_
    split
    · exact quiet_typed _ _
    · exact quiet_pure _

theorem quiet_lookupTexture (c : RunContext) (binding : Binding) (coord : Single × Single)
    (bias : Option Single) : Quiet (c.lookupTexture binding coord bias) :=
  (quiet_onStore (Store.ordinary_sample _ _ _)).bind fun _ => quiet_pure _

theorem quiet_load (c : RunContext) (line : Nat) (r : ResolvedTarget) : Quiet (c.load line r) := by
  cases r with
  | localVar slot path =>
    exact quiet_readLocals (k := fun locals => typed _ (getPath (locals.getD slot default) path))
      fun locals => quiet_typed _ _
  | buffer binding index path =>
    exact (quiet_onStore (Store.ordinary_read _ _ _)).bind fun v => quiet_typed _ _

theorem quiet_store (c : RunContext) (line : Nat) (r : ResolvedTarget) (v : Value) :
    Quiet (c.store line r v) := by
  unfold store
  split
  · next slot path =>
    refine quiet_readLocals (k := fun locals => do
      let new ← typed (.atLine "store" line) (setPath (locals.getD slot default) path v)
      modify fun s => { s with locals := s.locals.set slot new }) fun locals => ?_
    exact (quiet_typed _ _).bind fun new => quiet_storeLocal slot new
  · exact quiet_onStore (Store.ordinary_write _ _ _ _)
  · next binding index path _ =>
    refine quiet_onStore (Store.ordinary_update _ _ _ fun old e failed => ?_)
    cases stored : setPath old path v with
    | ok new =>
      rw [stored] at failed
      cases failed
    | error found =>
      rw [stored] at failed
      cases failed
      simp [EngineError.kind]

/-! ## Traces -/

/-- The stores at which a part of a run takes its steps, the one that exceeds the budget included. -/
inductive Takes (c : RunContext) : {α : Type} → RunM α → RunState → List Store → Prop where
  | quiet {α : Type} {x : RunM α} (quiet : Quiet x) (s : RunState) : Takes c x s []
  | step (s : RunState) : Takes c c.step s [s.store]
  | next {α β : Type} {x : RunM α} {k : α → RunM β} {s s' : RunState} {a : α}
      {stores stores' : List Store} (first : Takes c x s stores) (ran : x s = .ok a s')
      (rest : Takes c (k a) s' stores') : Takes c (x >>= k) s (stores ++ stores')
  | stop {α β : Type} {x : RunM α} {k : α → RunM β} {s s' : RunState} {e : EngineError}
      {stores : List Store} (first : Takes c x s stores) (failed : x s = .error e s') :
      Takes c (x >>= k) s stores

/-- The error of a run that exceeds its budget. -/
def spent (c : RunContext) : EngineError := .stepBudgetExceeded c.me c.stepBudget

/-- Whether a part of a run, begun `d` steps later, still takes all steps of its trace within the budget. -/
structure Completes (c : RunContext) (x : RunM α) (s : RunState) (stores : List Store) (d : Nat) :
    Prop where
  fits : s.steps + d + stores.length ≤ c.stepBudget
  delayed : x (s.later d) = delayed d (x s)
  steps : ∀ a s', x s = .ok a s' → s'.steps = s.steps + stores.length
  ordinary : ∀ e s', x s = .error e s' → e.kind ≠ .stepBudgetExceeded

/-- Whether a part of a run, begun `d` steps later, is cut short at the step of its trace that the budget
does not cover. -/
def CutShort (c : RunContext) (x : RunM α) (s : RunState) (stores : List Store) (d : Nat) : Prop :=
  ∃ s', x (s.later d) = .error c.spent s' ∧ stores[c.stepBudget - (s.steps + d)]? = some s'.store

theorem CutShort.length {stores : List Store} {d : Nat} (short : c.CutShort x s stores d) :
    c.stepBudget < s.steps + d + stores.length := by
  obtain ⟨s', -, found⟩ := short
  obtain ⟨inside, -⟩ := List.getElem?_eq_some_iff.1 found
  omega

theorem Quiet.completes (quiet : Quiet x) {d : Nat} (room : s.steps + d ≤ c.stepBudget) :
    c.Completes x s [] d where
  fits := room
  delayed := quiet.delayed d s
  steps := quiet.steps s
  ordinary := quiet.ordinary s

theorem step_completes {d : Nat} (room : s.steps + d < c.stepBudget) :
    c.Completes c.step s [s.store] d := by
  have stepped : c.step s = .ok () { s with steps := s.steps + 1 } := by
    rw [step_eq, if_neg (by omega)]
  have stepped_later : c.step (s.later d) = .ok () { s with steps := s.steps + d + 1 } := by
    rw [step_eq, RunState.steps_later, if_neg (by omega)]
    rfl
  constructor
  · exact room
  · rw [stepped, stepped_later, RunContext.delayed, RunState.later, Nat.add_right_comm]
  · intro a s' ran
    rw [stepped] at ran
    cases ran
    rfl
  · intro e s' failed
    rw [stepped] at failed
    cases failed

theorem step_cutShort {d : Nat} (room : s.steps + d = c.stepBudget) :
    c.CutShort c.step s [s.store] d := by
  have stepped : c.step (s.later d) = .error c.spent { s with steps := s.steps + d + 1 } := by
    rw [step_eq, RunState.steps_later, if_pos (by omega)]
    rfl
  refine ⟨_, stepped, ?_⟩
  rw [room, Nat.sub_self]
  rfl

section Sequences

variable {stores stores' : List Store} {d : Nat} {s' : RunState} {a : α} {e : EngineError}

theorem Completes.later_ok (done : c.Completes x s stores d) (ran : x s = .ok a s') :
    x (s.later d) = .ok a (s'.later d) := by
  rw [done.delayed, ran, RunContext.delayed]

theorem Completes.later_error (done : c.Completes x s stores d) (failed : x s = .error e s') :
    x (s.later d) = .error (e.allowing d) (s'.later d) := by
  rw [done.delayed, failed, RunContext.delayed]

theorem Completes.next (done : c.Completes x s stores d) (ran : x s = .ok a s')
    (done' : c.Completes (k a) s' stores' d) : c.Completes (x >>= k) s (stores ++ stores') d := by
  have counted := done.steps a s' ran
  constructor
  · have fits := done'.fits
    rw [List.length_append]
    omega
  · rw [bind_eq_of_ok (done.later_ok ran), bind_eq_of_ok ran, done'.delayed]
  · intro b s'' ran'
    rw [bind_eq_of_ok ran] at ran'
    rw [done'.steps b s'' ran', counted, List.length_append, Nat.add_assoc]
  · intro e s'' failed
    rw [bind_eq_of_ok ran] at failed
    exact done'.ordinary e s'' failed

theorem Completes.stop (done : c.Completes x s stores d) (failed : x s = .error e s') :
    c.Completes (x >>= k) s stores d := by
  refine ⟨done.fits, ?_, ?_, ?_⟩
  · rw [bind_eq_of_error (done.later_error failed), bind_eq_of_error failed, RunContext.delayed]
  · intro b s'' ran
    rw [bind_eq_of_error failed] at ran
    cases ran
  · intro e' s'' failed'
    rw [bind_eq_of_error failed] at failed'
    cases failed'
    exact done.ordinary e s' failed

theorem CutShort.bind (short : c.CutShort x s stores d) :
    c.CutShort (x >>= k) s (stores ++ stores') d := by
  obtain ⟨t, failed, found⟩ := short
  obtain ⟨inside, -⟩ := List.getElem?_eq_some_iff.1 found
  refine ⟨t, bind_eq_of_error failed, ?_⟩
  rw [List.getElem?_append_left inside, found]

/-- What is cut short behind a part that completes is cut short at a place counted from the beginning. -/
theorem Completes.cutShort (done : c.Completes x s stores d) (ran : x s = .ok a s')
    (short : c.CutShort (k a) s' stores' d) : c.CutShort (x >>= k) s (stores ++ stores') d := by
  obtain ⟨t, failed, found⟩ := short
  have counted := done.steps a s' ran
  have fits := done.fits
  refine ⟨t, by rw [bind_eq_of_ok (done.later_ok ran), failed], ?_⟩
  have place : c.stepBudget - (s.steps + d) - stores.length = c.stepBudget - (s'.steps + d) := by omega
  rw [List.getElem?_append_right (by omega), place, found]

end Sequences

/-- A part of a run that begins later completes or is cut short, and its trace tells where. -/
theorem Takes.completes_or_cutShort {stores : List Store} (taken : c.Takes x s stores) {d : Nat}
    (room : s.steps + d ≤ c.stepBudget) : c.Completes x s stores d ∨ c.CutShort x s stores d := by
  induction taken with
  | quiet quiet s => exact .inl (quiet.completes room)
  | step s =>
    rcases Nat.lt_or_eq_of_le room with inside | last
    · exact .inl (step_completes inside)
    · exact .inr (step_cutShort last)
  | next first ran rest ih ih' =>
    rcases ih room with done | short
    · have counted := done.steps _ _ ran
      have fits := done.fits
      rcases ih' (by omega) with done' | short
      · exact .inl (done.next ran done')
      · exact .inr (done.cutShort ran short)
    · exact .inr short.bind
  | @stop _ _ x k s s' e stores first failed ih =>
    rcases ih room with done | short
    · exact .inl (done.stop failed)
    · rw [← List.append_nil stores]
      exact .inr short.bind

end RunContext

end ComputeShader
