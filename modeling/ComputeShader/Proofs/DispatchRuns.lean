import ComputeShader.Dispatch.Basic
import ComputeShader.Proofs.DiagnosticOrder
import ComputeShader.Proofs.InvocationScripts
import ComputeShader.Proofs.SerialRuns

/-! # Dispatches as serial runs

Without atomics an invocation is a job: it notes its own fault and ends with the error that ends the
dispatch, if there is one. A dispatch that rejects races replays the serial run of these jobs; one
that reports them does the same to the contents, and adds nothing but races to the diagnostics.
-/

namespace ComputeShader

/-- The buffers that the body loads from and those that it stores to in parts. -/
def Shader.footprint (s : Shader) : Footprint := ⟨fun b => s.loads b, fun b => s.storesParts b⟩

namespace RunContext

variable {F s : Store} {c : RunContext}

/-- The body of a shader without atomics. -/
theorem scripted_body (free : c.shader.atomicFree) :
    Scripted F c.shader.footprint c.me (c.execAll c.shader.body) := by
  refine c.scripted_execAll _ (fun e member => ⟨?_, fun binding element => ?_⟩)
    fun x member => ⟨fun binding inside part => ?_, fun loaded binding inside => ?_⟩
  · simpa using List.all_eq_true.1 free e member
  · exact Bool.or_eq_true_iff.2 (.inl (List.any_eq_true.2 ⟨e, member, element⟩))
  · exact List.any_eq_true.2 ⟨x, member, by simp [inside, part]⟩
  · exact Bool.or_eq_true_iff.2 (.inr (List.any_eq_true.2 ⟨x, member, by simp [inside, loaded]⟩))

/-- Run an invocation and note its fault: the error that ends the dispatch, if any, and the store. -/
def finish (c : RunContext) (s : Store) : Option EngineError × Store :=
  match c.run s with
  | (none, s') => (none, s')
  | (some e, s') => if e.isInvocationFault then (none, s'.recordFault e c.me) else (some e, s')

/-- Whether a process does what an invocation does to all stores of a frame. -/
def Runs (c : RunContext) (F : Store) (p : Process (Option EngineError)) : Prop :=
  p.Obeys (c.shader.footprint.Allows F) ∧ ∀ s : Store, s.frame = F.frame → s.WellFormed →
    c.finish s = (p.answer s.cell, s.performAll c.me (p.effects s.cell))

theorem kind_of_isInvocationFault {e : EngineError} (fault : e.isInvocationFault) :
    e.kind ≠ .raceDetected := by
  cases e <;> simp [EngineError.isInvocationFault, EngineError.kind] at fault ⊢

/-- What a run is, in terms of its body as an operation on the store. -/
theorem run_eq (c : RunContext) (s : Store) : c.run s =
    match onStores (c.execAll c.shader.body) (c.shader.locals.map fun l => Value.zero l.ty) 0 s with
    | .ok _ s' => (none, s')
    | .error e s' => (some e, s') := by
  unfold run onStores start
  cases c.execAll c.shader.body ⟨s, c.shader.locals.map fun l => Value.zero l.ty, 0⟩ <;> rfl

/-- What an invocation does after its body. -/
def ending {α : Type} (F : Store) : Except EngineError α → Process (Option EngineError)
  | .ok _ => .done none
  | .error e =>
    if e.isInvocationFault then .note e.kind (e.message F.shader) (.done none) else .done (some e)

theorem exists_runs (c : RunContext) (F : Store) (free : c.shader.atomicFree) :
    ∃ p, c.Runs F p := by
  obtain ⟨p, obeys, ran⟩ :=
    @scripted_body F c free (c.shader.locals.map fun l => Value.zero l.ty) 0
  refine ⟨p.bind (ending F), obeys.bind fun answer => ?_, fun s frame proper => ?_⟩
  · cases answer with
    | ok a => trivial
    | error e =>
      by_cases fault : e.isInvocationFault
      · rw [ending, if_pos fault]
        exact ⟨kind_of_isInvocationFault fault, trivial⟩
      · rw [ending, if_neg fault]
        trivial
  · have name : (s.performAll c.me (p.effects s.cell)).shader = F.shader :=
      Store.shader_of_frame (Store.frame_performAll.trans frame)
    rw [finish, run_eq, ran s frame proper, Store.runProcess, Process.effects_bind,
      Process.answer_bind, Store.performAll_append, ← @Store.cell_performAll s c.me]
    cases p.answer s.cell with
    | ok a => rfl
    | error e =>
      by_cases fault : e.isInvocationFault
      · simp only [ending, if_pos fault, Store.outcome, Store.recordFault, name]
        rfl
      · simp only [ending, if_neg fault, Store.outcome]
        rfl

end RunContext

namespace Store

/-- Whether a store has the contents of another one, no conflicts, and of the diagnostics all but
those of races. -/
structure Reported (s s' : Store) : Prop where
  buffers : s'.buffers = s.buffers
  images : s'.images = s.images
  frame : s'.frame = s.frame
  conflicts : s'.conflicts = []
  diagnostics : s'.diagnostics.withoutRaces = s.diagnostics.withoutRaces
  unique : s.diagnostics.Unique → s'.diagnostics.Unique

variable {s s' : Store}

theorem Reported.cell (reported : Reported s s') : s'.cell = s.cell := by
  funext ⟨resource, i⟩
  cases resource <;> simp [Store.cell, reported.buffers, reported.images]

theorem Reported.wellFormed (reported : Reported s s') (proper : s.WellFormed) : s'.WellFormed :=
  ⟨reported.buffers ▸ proper.buffers, reported.images ▸ proper.images⟩

/-- Reporting races changes the diagnostics of races alone. -/
theorem reported_reportRaces (conflicts : List Conflict) :
    Reported s { conflicts.foldl Store.reportRace s with conflicts := [] } := by
  induction conflicts generalizing s with
  | nil => exact ⟨rfl, rfl, rfl, rfl, rfl, id⟩
  | cons c rest ih =>
    obtain ⟨buffers, images, frame, nothing, diagnostics, unique⟩ := @ih (s.reportRace c)
    refine ⟨buffers, images, frame, nothing, diagnostics.trans ?_, fun before => unique before.add⟩
    exact Diagnostics.withoutRaces_add.trans (if_pos rfl)

end Store

namespace Dispatcher

variable {d : Dispatcher} {F s s' : Store} {job : Invocation → Job (Option EngineError)}
  {order : List Invocation}

/-- What stays the same while an invocation of a dispatch runs. -/
def context (d : Dispatcher) (i : Invocation) : RunContext :=
  ⟨d.shader, d.config.sampler, d.config.stepBudget, i, i.id⟩

/-- Whether jobs do what the invocations of a dispatch do. -/
def Jobs (d : Dispatcher) (F : Store) (job : Invocation → Job (Option EngineError)) : Prop :=
  ∀ i, (job i).me = i.id ∧ (d.context i).Runs F (job i).process

theorem exists_jobs (F : Store) (free : d.shader.atomicFree) : ∃ job, d.Jobs F job := by
  choose p runs using fun i => (d.context i).exists_runs F free
  exact ⟨fun i => ⟨i.id, p i⟩, fun i => ⟨rfl, runs i⟩⟩

theorem runOne_finish (i : Invocation) : d.runOne s i =
    match (d.context i).finish s with
    | (none, s') => settle d.config.racePolicy s'
    | (some e, _) => .error e := by
  rw [runOne, RunContext.finish]
  change (match (d.context i).run s with | (none, s') => _ | (some e, s') => _) = _
  rcases (d.context i).run s with ⟨_ | e, s'⟩
  · rfl
  · by_cases fault : e.isInvocationFault
    · simp only [if_pos fault]
      rfl
    · simp only [if_neg fault]

/-- One invocation, as a job. -/
theorem runOne_eq (jobs : d.Jobs F job) (frame : s.frame = F.frame) (proper : s.WellFormed)
    (i : Invocation) : d.runOne s i =
      match (job i).process.answer s.cell with
      | none => settle d.config.racePolicy (s.replay ((job i).trace s.cell))
      | some e => .error e := by
  obtain ⟨me, -, does⟩ := jobs i
  rw [runOne_finish, does s frame proper, Job.trace, me]
  cases (job i).process.answer s.cell <;> rfl

theorem admitted_of_mem_trace (jobs : d.Jobs F job) (frame : s.frame = F.frame) (i : Invocation)
    {m : Memory} {visit : InvocationId × Effect} (member : visit ∈ (job i).trace m) :
    visit.2.Admitted s := by
  obtain ⟨e, happens, rfl⟩ := List.mem_map.1 member
  exact ((jobs i).2.1.effects happens).admitted frame

/-- A dispatch that rejects races and succeeds replays the serial run of its jobs. -/
theorem replay_of_runAll (jobs : d.Jobs F job) (policy : d.config.racePolicy = .reject)
    (frame : s.frame = F.frame) (proper : s.WellFormed) (quiet : s.conflicts = [])
    (ran : d.runAll s order = .ok s') :
    s' = s.replay (Job.serial (order.map job) s.cell) ∧ s'.conflicts = [] ∧
      ∀ a ∈ Job.answers (order.map job) s.cell, a = none := by
  induction order generalizing s with
  | nil =>
    cases ran
    exact ⟨rfl, quiet, by simp [Job.answers]⟩
  | cons i rest ih =>
    rw [runAll, List.foldlM_cons, runOne_eq jobs frame proper] at ran
    cases answer : (job i).process.answer s.cell with
    | some e =>
      rw [answer] at ran
      cases ran
    | none =>
      rw [answer, policy] at ran
      dsimp only at ran
      cases conflicts : (s.replay ((job i).trace s.cell)).conflicts with
      | cons c more =>
        unfold settle at ran
        rw [conflicts] at ran
        cases ran
      | nil =>
        unfold settle at ran
        rw [conflicts] at ran
        obtain ⟨replayed, nothing, answers⟩ := ih (Store.frame_replay.trans frame)
          (proper.replay fun visit member => admitted_of_mem_trace jobs frame i member) conflicts ran
        rw [Store.cell_replay] at replayed answers
        refine ⟨?_, nothing, fun a member => ?_⟩
        · rw [replayed, List.map_cons, Job.serial, Store.replay_append]
        · rcases List.mem_cons.1 member with rfl | later
          · exact answer
          · exact answers a later

theorem settle_report (s : Store) : ∃ s', settle .report s = .ok s' ∧ s.Reported s' := by
  unfold settle
  cases conflicts : s.conflicts with
  | nil => exact ⟨s, rfl, rfl, rfl, rfl, conflicts, rfl, id⟩
  | cons c rest => exact ⟨_, rfl, Store.reported_reportRaces (c :: rest)⟩

/-- A dispatch that reports races succeeds if its jobs do, and leaves what they leave. -/
theorem runAll_of_answers (jobs : d.Jobs F job) (policy : d.config.racePolicy = .report)
    (frame : s.frame = F.frame) (proper : s.WellFormed) (unique : s.diagnostics.Unique)
    (answers : ∀ a ∈ Job.answers (order.map job) s.cell, a = none) :
    ∃ s', d.runAll s order = .ok s' ∧ s'.frame = F.frame ∧ s'.WellFormed ∧ s'.diagnostics.Unique ∧
      s'.cell = (Job.serial (order.map job) s.cell).apply s.cell ∧
      s'.diagnostics.withoutRaces = (s.diagnostics.merge
        (Trace.events (Job.serial (order.map job) s.cell))).withoutRaces := by
  induction order generalizing s with
  | nil => exact ⟨s, rfl, frame, proper, unique, rfl, rfl⟩
  | cons i rest ih =>
    have answer : (job i).process.answer s.cell = none := answers _ List.mem_cons_self
    obtain ⟨next, settled, reported⟩ := settle_report (s.replay ((job i).trace s.cell))
    have cells : next.cell = ((job i).trace s.cell).apply s.cell :=
      reported.cell.trans Store.cell_replay
    have next_proper : next.WellFormed := reported.wellFormed
      (proper.replay fun visit member => admitted_of_mem_trace jobs frame i member)
    have next_unique : next.diagnostics.Unique := reported.unique (by
      rw [Store.diagnostics_replay]
      exact unique.merge)
    obtain ⟨s', ran, frame', proper', unique', cell, diagnostics⟩ := @ih next
      (reported.frame.trans (Store.frame_replay.trans frame)) next_proper next_unique
      fun a member => answers a (List.mem_cons_of_mem _ (cells ▸ member))
    refine ⟨s', ?_, frame', proper', unique', ?_, ?_⟩
    · rw [runAll, List.foldlM_cons, runOne_eq jobs frame proper, answer, policy]
      dsimp only
      rw [settled]
      exact ran
    · rw [cell, cells, List.map_cons, Job.serial, Trace.apply_append]
    · rw [diagnostics, cells, List.map_cons, Job.serial, Trace.events_append,
        Diagnostics.merge_append, Diagnostics.withoutRaces_merge, reported.diagnostics,
        Store.diagnostics_replay, ← Diagnostics.withoutRaces_merge]

/-- A sequential dispatch that succeeds freezes what the run in the order of the grid leaves. -/
theorem exists_runAll_of_dispatch {groups : Extent3} {snapshot : Snapshot}
    (stage : d.stage = .initialized) (schedule : d.config.schedule = .sequential)
    (accepts : (d.dispatch s groups).1 = .ok snapshot) :
    ∃ s', d.runAll s (invocations d.shader.localSize groups) = .ok s' ∧ s'.freeze = snapshot := by
  rw [dispatch, stage] at accepts
  dsimp only at accepts
  rw [execute, schedule, Schedule.order] at accepts
  cases ran : d.runAll s (invocations d.shader.localSize groups) with
  | error e =>
    rw [ran] at accepts
    cases accepts
  | ok s' =>
    rw [ran] at accepts
    exact ⟨s', rfl, Except.ok.inj accepts⟩

end Dispatcher

end ComputeShader
