import ComputeShader.Proofs.RunEffects

/-! # One step of a dispatch

What an invocation does is its effects, and then its conflicts are settled: rejected, or drained into the
diagnostics. `runOne_eq_of_finishesBy` puts the two together; the rest says what either of them adds to
the log, the conflicts and the diagnostics.
-/

namespace ComputeShader

namespace Store

variable {s t : Store} {me : InvocationId} {effects : List Effect} {kind : ErrorKind}

/-! ## What effects note -/

theorem mentions_performAll : (s.performAll me effects).diagnostics.Mentions kind ↔
    (∃ e ∈ effects, e.noted? = some kind) ∨ s.diagnostics.Mentions kind := by
  induction effects generalizing s with
  | nil => simp [performAll, replay]
  | cons e rest ih =>
    have first : (s.perform me e).diagnostics.Mentions kind ↔
        e.noted? = some kind ∨ s.diagnostics.Mentions kind := by
      cases e with
      | note noted message =>
        refine Diagnostics.mentions_add.trans (or_congr_left ?_)
        simp [Effect.noted?]
      | load | store | atomic => simp [Effect.noted?, diagnostics_perform, Effect.event?,
          Diagnostics.merge]
    have later := @ih (s.perform me e)
    rw [first] at later
    rw [List.exists_mem_cons_iff]
    exact later.trans (or_left_comm.trans or_assoc.symm)

theorem count_performAll (unnoted : ∀ e ∈ effects, e.noted? ≠ some kind) :
    (s.performAll me effects).diagnostics.count kind = s.diagnostics.count kind := by
  induction effects generalizing s with
  | nil => rfl
  | cons e rest ih =>
    obtain ⟨here, later⟩ := List.forall_mem_cons.1 unnoted
    refine (@ih (s.perform me e) later).trans ?_
    cases e with
    | note noted message =>
      have other : noted ≠ kind := fun same => here (congrArg some same)
      refine Diagnostics.count_add.trans ?_
      rw [if_neg other, Nat.zero_add]
    | load | store | atomic => simp [diagnostics_perform, Effect.event?, Diagnostics.merge]

/-! ## Draining conflicts -/

/-- The store with its conflicts moved to the diagnostics. -/
def drained (s : Store) : Store := { s.conflicts.foldl reportRace s with conflicts := [] }

/-- Draining turns every conflict into one event and adds no other ones. -/
theorem drained_eq (s : Store) : ∃ ds : Diagnostics,
    s.drained = { s with diagnostics := ds, conflicts := [] } ∧
      ds.count .raceDetected = s.diagnostics.count .raceDetected + s.conflicts.length ∧
      ∀ kind ≠ .raceDetected, (ds.Mentions kind ↔ s.diagnostics.Mentions kind) := by
  have reporting (conflicts : List Conflict) (s : Store) : ∃ ds : Diagnostics,
      conflicts.foldl reportRace s = { s with diagnostics := ds } ∧
        ds.count .raceDetected = s.diagnostics.count .raceDetected + conflicts.length ∧
        ∀ kind ≠ .raceDetected, (ds.Mentions kind ↔ s.diagnostics.Mentions kind) := by
    induction conflicts generalizing s with
    | nil => exact ⟨s.diagnostics, rfl, rfl, fun _ _ => Iff.rfl⟩
    | cons c rest ih =>
      obtain ⟨ds, same, count, mentions⟩ := ih (s.reportRace c)
      refine ⟨ds, same, count.trans ?_, fun kind other => (mentions kind other).trans ?_⟩
      · have one : (s.reportRace c).diagnostics.count .raceDetected =
            1 + s.diagnostics.count .raceDetected := Diagnostics.count_add
        rw [one, List.length_cons]
        omega
      · exact Diagnostics.mentions_add.trans (or_iff_right fun same => other same.symm)
  obtain ⟨ds, same, count, mentions⟩ := reporting s.conflicts s
  exact ⟨ds, by rw [drained, same], count, mentions⟩

theorem drained_of_quiet (quiet : s.conflicts = []) : s.drained = s := by
  obtain ⟨_, _, _, _, _, _, _, conflicts, _⟩ := s
  obtain rfl : conflicts = [] := quiet
  rfl

theorem contents_drained : s.drained.contents = s.contents := by
  obtain ⟨ds, same, -, -⟩ := drained_eq s
  rw [same]
  rfl

theorem frame_drained : s.drained.frame = s.frame := by
  obtain ⟨ds, same, -, -⟩ := drained_eq s
  rw [same]
  rfl

theorem oobPolicy_drained : s.drained.oobPolicy = s.oobPolicy := by
  obtain ⟨ds, same, -, -⟩ := drained_eq s
  rw [same]

theorem log_drained : s.drained.log = s.log := by
  obtain ⟨ds, same, -, -⟩ := drained_eq s
  rw [same]

theorem count_drained : s.drained.diagnostics.count .raceDetected =
    s.diagnostics.count .raceDetected + s.conflicts.length := by
  obtain ⟨ds, same, count, -⟩ := drained_eq s
  rw [same]
  exact count

theorem mentions_drained (other : kind ≠ .raceDetected) :
    s.drained.diagnostics.Mentions kind ↔ s.diagnostics.Mentions kind := by
  obtain ⟨ds, same, -, mentions⟩ := drained_eq s
  rw [same]
  exact mentions kind other

theorem conflicts_performAll : (s.performAll me effects).conflicts =
    s.conflicts ++ s.log.conflicts (Trace.observations s.cell (effects.map (me, ·))) :=
  conflicts_replay

theorem log_performAll : (s.performAll me effects).log =
    s.log.after (Trace.observations s.cell (effects.map (me, ·))) :=
  log_replay

end Store

/-- The effects of an invocation keep a store well formed. -/
theorem RunContext.FinishesBy.wellFormed {c : RunContext} {s : Store} {effects : List Effect}
    {answer : Option EngineError} (finishes : c.FinishesBy s effects answer) (proper : s.WellFormed) :
    (s.performAll c.me effects).WellFormed := by
  refine proper.replay fun visit member => ?_
  obtain ⟨e, happens, rfl⟩ := List.mem_map.1 member
  exact finishes.admitted e happens

namespace Dispatcher

variable {d : Dispatcher} {s s' : Store} {i : Invocation}

theorem settle_report_eq (s : Store) : settle .report s = .ok s.drained := by
  cases conflicts : s.conflicts with
  | nil =>
    rw [Store.drained_of_quiet conflicts]
    simp only [settle, conflicts]
  | cons c rest => simp only [settle, Store.drained, conflicts]

theorem settle_of_quiet (policy : RacePolicy) (quiet : s.conflicts = []) : settle policy s = .ok s := by
  simp only [settle, quiet]

/-- What is settled is drained, and there was nothing to drain if races are rejected. -/
theorem settle_eq_ok {policy : RacePolicy} : settle policy s = .ok s' ↔
    (policy = .report ∨ s.conflicts = []) ∧ s' = s.drained := by
  cases policy with
  | report =>
    rw [settle_report_eq]
    simp [eq_comm]
  | reject =>
    cases conflicts : s.conflicts with
    | nil =>
      rw [settle_of_quiet _ conflicts, Store.drained_of_quiet conflicts]
      simp [eq_comm]
    | cons c rest => simp [settle, conflicts]

/-- The end of the step of an invocation: the error that ends the dispatch, or what is settled. -/
def conclude (policy : RacePolicy) (s : Store) : Option EngineError → Except EngineError Store
  | none => settle policy s
  | some e => .error e

/-- An invocation ends the dispatch, or its effects are settled. -/
theorem runOne_eq_of_finishesBy {effects : List Effect} {answer : Option EngineError}
    (finishes : (d.context i).FinishesBy s effects answer) {t : Store} (same : t.contents = s.contents)
    (policy : t.oobPolicy = s.oobPolicy ∨ ∀ e ∈ effects, e.noted? ≠ some .outOfBounds) :
    d.runOne t i = conclude d.config.racePolicy (t.performAll i.id effects) answer := by
  rw [runOne_finish, finishes.finish t same policy]
  cases answer <;> rfl

end Dispatcher

end ComputeShader
