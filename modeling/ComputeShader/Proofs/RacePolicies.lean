import ComputeShader.Proofs.DispatchSteps
import ComputeShader.Proofs.ScheduleIndependence
import ComputeShader.Proofs.SeededStores

/-! # The two race policies

A dispatch that rejects races and one that reports them keep in step until an invocation leaves a
conflict. Up to there they hold the same store; from there on the one has ended with the conflict as its
error, and the other one carries it in its diagnostics to the end. Reporting neither loses nor repeats
a conflict: drained after each invocation, they are as many as a run that never drains them leaves.
-/

namespace ComputeShader

namespace Dispatcher

variable {d : Dispatcher} {s s' : Store} {order : List Invocation}

/-- The dispatcher under a policy for races. -/
def under (d : Dispatcher) (policy : RacePolicy) : Dispatcher :=
  { d with config := { d.config with racePolicy := policy } }

/-- What an invocation comes to does not depend on the policy but for settling it. -/
theorem runOne_under {i : Invocation} {effects : List Effect} {answer : Option EngineError}
    (finishes : (d.context i).FinishesBy s effects answer) (policy : RacePolicy) :
    (d.under policy).runOne s i = conclude policy (s.performAll i.id effects) answer := by
  have finishes' : ((d.under policy).context i).FinishesBy s effects answer := finishes
  exact runOne_eq_of_finishesBy finishes' rfl (.inl rfl)

/-- From a store with a race in its diagnostics, a dispatch that reports races ends with one, or with a
type error. -/
theorem report_of_raced (proper : s.WellFormed) (raced : 1 ≤ s.diagnostics.count .raceDetected) :
    (∃ s', (d.under .report).runAll s order = .ok s' ∧ 1 ≤ s'.diagnostics.count .raceDetected) ∨
      ∃ site found, (d.under .report).runAll s order = .error (.typeMismatch site found) := by
  induction order generalizing s with
  | nil => exact .inl ⟨s, rfl, raced⟩
  | cons i rest ih =>
    obtain ⟨effects, answer, finishes⟩ := (d.context i).exists_finishesBy proper
    rw [runAll, List.foldlM_cons, runOne_under finishes]
    cases answer with
    | some e =>
      obtain ⟨site, found, rfl⟩ := finishes.mismatch e rfl
      exact .inr ⟨site, found, rfl⟩
    | none =>
      rw [conclude, settle_report_eq]
      refine ih ((finishes.wellFormed proper).of_contents Store.contents_drained) ?_
      rw [Store.count_drained, Store.count_performAll finishes.unraced]
      omega

theorem exists_of_map_eq_ok {ε α β : Type} {x : Except ε α} {f : α → β} {b : β}
    (mapped : x.map f = .ok b) : ∃ a, x = .ok a ∧ f a = b := by
  cases x with
  | error e => cases mapped
  | ok a =>
    cases mapped
    exact ⟨a, rfl, rfl⟩

/-- What the two policies make of the same dispatch. -/
inductive Verdicts : Except EngineError Store → Except EngineError Store → Prop where
  | alike (s : Store) (unraced : ¬ s.diagnostics.Mentions .raceDetected) : Verdicts (.ok s) (.ok s)
  | mismatch (site : AccessSite) (found : TypeError) :
      Verdicts (.error (.typeMismatch site found)) (.error (.typeMismatch site found))
  | raced (s : Store) (c : Conflict) (report : Except EngineError Store)
      (noticed : (∃ s', report = .ok s' ∧ 1 ≤ s'.diagnostics.count .raceDetected) ∨
        ∃ site found, report = .error (.typeMismatch site found)) :
      Verdicts (.error (s.raceError c)) report

/-- The two policies keep in step until an invocation leaves a conflict. -/
theorem verdicts_runAll (proper : s.WellFormed) (quiet : s.conflicts = [])
    (unraced : ¬ s.diagnostics.Mentions .raceDetected) :
    Verdicts ((d.under .reject).runAll s order) ((d.under .report).runAll s order) := by
  induction order generalizing s with
  | nil => exact .alike s unraced
  | cons i rest ih =>
    obtain ⟨effects, answer, finishes⟩ := (d.context i).exists_finishesBy proper
    rw [runAll, runAll, List.foldlM_cons, List.foldlM_cons, runOne_under finishes,
      runOne_under finishes]
    cases answer with
    | some e =>
      obtain ⟨site, found, rfl⟩ := finishes.mismatch e rfl
      exact .mismatch site found
    | none =>
      have proper' := finishes.wellFormed proper
      cases conflicts : (s.performAll i.id effects).conflicts with
      | nil =>
        -- Neither policy has anything to settle.
        rw [conclude, conclude, settle_of_quiet _ conflicts, settle_of_quiet _ conflicts]
        refine ih proper' conflicts fun mentioned => ?_
        rcases Store.mentions_performAll.1 mentioned with ⟨e, member, noted⟩ | before
        · exact finishes.unraced e member noted
        · exact unraced before
      | cons c more =>
        have rejected : settle .reject (s.performAll i.id effects) =
            .error ((s.performAll i.id effects).raceError c) := by
          simp only [settle, conflicts]
        rw [conclude, conclude, rejected, settle_report_eq]
        refine .raced _ c _ (report_of_raced (proper'.of_contents Store.contents_drained) ?_)
        rw [Store.count_drained, conflicts, List.length_cons]
        omega

/-- The store that the invocations leave when no conflict is settled. -/
def unsettled (d : Dispatcher) (s : Store) (order : List Invocation) : Store :=
  order.foldl (fun s i => ((d.context i).finish s).2) s

/-- A dispatch that reports races and one that leaves all conflicts unsettled make the same of the
contents and of the log, and the one reports as many races as the other one leaves conflicts. -/
theorem count_of_report {t final : Store} (proper : s.WellFormed) (contents : t.contents = s.contents)
    (policy : t.oobPolicy = s.oobPolicy) (log : t.log = s.log) (quiet : s.conflicts = [])
    (counted : s.diagnostics.count .raceDetected = t.conflicts.length)
    (ran : (d.under .report).runAll s order = .ok final) :
    final.diagnostics.count .raceDetected = (d.unsettled t order).conflicts.length ∧
      ∃ trace : Trace, d.unsettled t order = t.replay trace := by
  induction order generalizing s t with
  | nil =>
    cases ran
    exact ⟨counted, [], rfl⟩
  | cons i rest ih =>
    obtain ⟨effects, answer, finishes⟩ := (d.context i).exists_finishesBy proper
    rw [runAll, List.foldlM_cons, runOne_under finishes] at ran
    cases answer with
    | some e => cases ran
    | none =>
      rw [conclude, settle_report_eq] at ran
      have step : d.unsettled t (i :: rest) = d.unsettled (t.performAll i.id effects) rest := by
        rw [unsettled, List.foldl_cons, finishes.finish t contents (.inl policy)]
        rfl
      have cells : t.cell = s.cell := Store.cell_of_contents contents
      have proper' := (finishes.wellFormed proper).of_contents Store.contents_drained
      have contents' : (t.performAll i.id effects).contents =
          (s.performAll i.id effects).drained.contents :=
        (Store.contents_performAll contents effects).trans Store.contents_drained.symm
      have policy' : (t.performAll i.id effects).oobPolicy =
          (s.performAll i.id effects).drained.oobPolicy := by
        rw [Store.oobPolicy_drained, Store.oobPolicy_performAll, Store.oobPolicy_performAll, policy]
      have log' : (t.performAll i.id effects).log = (s.performAll i.id effects).drained.log := by
        rw [Store.log_drained, Store.log_performAll, Store.log_performAll, log, cells]
      have counted' : (s.performAll i.id effects).drained.diagnostics.count .raceDetected =
          (t.performAll i.id effects).conflicts.length := by
        rw [Store.count_drained, Store.count_performAll finishes.unraced, Store.conflicts_performAll,
          Store.conflicts_performAll, quiet, List.nil_append, counted, List.length_append, log, cells]
      obtain ⟨count, trace, replayed⟩ := ih proper' contents' policy' log' rfl counted' ran
      rw [step]
      refine ⟨count, effects.map (i.id, ·) ++ trace, ?_⟩
      rw [replayed, Store.replay_append]
      rfl

namespace Verdicts

variable {reject report : Except EngineError Store}

theorem accepts_iff (verdicts : Verdicts reject report) (snapshot : Snapshot) :
    reject.map Store.freeze = .ok snapshot ↔
      report.map Store.freeze = .ok snapshot ∧ ¬ snapshot.diagnostics.Mentions .raceDetected := by
  cases verdicts with
  | alike s unraced =>
    constructor
    · rintro ⟨⟩
      exact ⟨rfl, fun mentioned => unraced (Diagnostics.mentions_normalize.1 mentioned)⟩
    · exact And.left
  | mismatch site found =>
    constructor
    · nofun
    · rintro ⟨accepts, -⟩
      cases accepts
  | raced s c report noticed =>
    constructor
    · nofun
    · rintro ⟨accepts, unraced⟩
      rcases noticed with ⟨s', rfl, counted⟩ | ⟨site, found, rfl⟩
      · cases accepts
        exact (unraced (Diagnostics.mentions_normalize.2 (Diagnostics.mentions_of_count counted))).elim
      · cases accepts

theorem of_error (verdicts : Verdicts reject report) {e : EngineError}
    (fails : reject.map Store.freeze = .error e) :
    (e.kind = .raceDetected ∧
      ((∃ snapshot, report.map Store.freeze = .ok snapshot ∧
          1 ≤ snapshot.diagnostics.count .raceDetected) ∨
        ∃ e', report.map Store.freeze = .error e' ∧ e'.kind = .typeMismatch)) ∨
    (e.kind = .typeMismatch ∧ report.map Store.freeze = .error e) := by
  cases verdicts with
  | alike s unraced => cases fails
  | mismatch site found =>
    cases fails
    exact .inr ⟨rfl, rfl⟩
  | raced s c report noticed =>
    cases fails
    refine .inl ⟨rfl, ?_⟩
    rcases noticed with ⟨s', rfl, counted⟩ | ⟨site, found, rfl⟩
    · refine .inl ⟨s'.freeze, rfl, ?_⟩
      rw [Store.freeze, Diagnostics.count_normalize]
      exact counted
    · exact .inr ⟨_, rfl, rfl⟩

end Verdicts

/-- The two race policies agree on everything but racy runs. Rejecting races gives a snapshot exactly
when reporting them gives the same one without a race; a rejected race is reported in the end, unless a
type error ends the dispatch; a type error ends both. And every conflict is reported once: there are as
many reports as conflicts among all the accesses of a dispatch that settles none. -/
theorem race_policies_agree (seeded : Seeded d.shader s) (order : List Invocation) :
    let reject := ((d.under .reject).runAll s order).map Store.freeze
    let report := ((d.under .report).runAll s order).map Store.freeze
    (∀ snapshot, reject = .ok snapshot ↔
      report = .ok snapshot ∧ ¬ snapshot.diagnostics.Mentions .raceDetected) ∧
    (∀ e, reject = .error e →
      (e.kind = .raceDetected ∧
        ((∃ snapshot, report = .ok snapshot ∧ 1 ≤ snapshot.diagnostics.count .raceDetected) ∨
          ∃ e', report = .error e' ∧ e'.kind = .typeMismatch)) ∨
      (e.kind = .typeMismatch ∧ report = .error e)) ∧
    ∀ snapshot, report = .ok snapshot →
      let all := d.unsettled s order
      snapshot.diagnostics.count .raceDetected = all.conflicts.length ∧
        ∃ trace : Trace, all = s.replay trace ∧
          all.conflicts = ({} : AccessLog).conflicts (trace.observations s.cell) := by
  intro reject report
  have fresh := seeded.fresh
  have unraced : ¬ s.diagnostics.Mentions .raceDetected := by
    rw [fresh.diagnostics]
    rintro ⟨d, none, -⟩
    cases none
  have verdicts : Verdicts ((d.under .reject).runAll s order) ((d.under .report).runAll s order) :=
    verdicts_runAll fresh.wellFormed fresh.conflicts unraced
  refine ⟨verdicts.accepts_iff, fun e fails => verdicts.of_error fails, ?_⟩
  intro snapshot accepts all
  obtain ⟨final, ran, rfl⟩ := exists_of_map_eq_ok accepts
  have started : s.diagnostics.count .raceDetected = s.conflicts.length := by
    rw [fresh.diagnostics, fresh.conflicts]
    rfl
  obtain ⟨counted, trace, replayed⟩ :=
    count_of_report fresh.wellFormed rfl rfl rfl fresh.conflicts started ran
  constructor
  · rw [Store.freeze, Diagnostics.count_normalize, counted]
  · have told : (s.replay trace).conflicts = ({} : AccessLog).conflicts (trace.observations s.cell) := by
      rw [Store.conflicts_replay, fresh.conflicts, fresh.log, List.nil_append]
    exact ⟨trace, replayed, (congrArg Store.conflicts replayed).trans told⟩

/-- `P[0] = uvec2(i); Q[i] = P[9];`, where the index stops the invocation. -/
def colliding : Dispatcher :=
  { pairs
      [.assign 1 [⟨.bufferElement 0 (.literal ⟨1, 1⟩ (.uint 0)), []⟩]
          (.construct ⟨1, 1⟩ (.vector .uint .two) [localIndex]),
        .assign 2 [⟨.bufferElement 1 localIndex, []⟩]
          (.bufferElement ⟨2, 1⟩ 0 (.literal ⟨2, 1⟩ (.uint 9)))]
    with config := { bufferLength := 2, oobPolicy := .fault } }

/-- The conflict of an invocation that faults is rejected or reported like any other. -/
theorem race_policies_agree_colliding :
    let store := Store.create colliding.shader colliding.config
    let order := invocations colliding.shader.localSize ⟨1, 1, 1⟩
    (∃ e, ((colliding.under .reject).runAll store order).map Store.freeze = .error e ∧
      e.kind = .raceDetected) ∧
    ∃ snapshot, ((colliding.under .report).runAll store order).map Store.freeze = .ok snapshot ∧
      snapshot.diagnostics.count .outOfBounds = 2 ∧ snapshot.diagnostics.count .raceDetected = 1 ∧
        (colliding.unsettled store order).conflicts.length = 1 := by
  intro store order
  have reported : ((colliding.under .report).runAll store order).toOption.any fun final =>
      final.diagnostics.count .outOfBounds == 2 && final.diagnostics.count .raceDetected == 1 := by
    decide +kernel
  obtain ⟨final, ran, counts⟩ := exists_ok reported
  obtain ⟨faults, races⟩ := Bool.and_eq_true_iff.1 counts
  have two : final.freeze.diagnostics.count .outOfBounds = 2 :=
    Diagnostics.count_normalize.trans (eq_of_beq faults)
  have one : final.freeze.diagnostics.count .raceDetected = 1 :=
    Diagnostics.count_normalize.trans (eq_of_beq races)
  have accepts : ((colliding.under .report).runAll store order).map Store.freeze =
      .ok final.freeze := by rw [ran]; rfl
  obtain ⟨accepts_iff, fails, all_reported⟩ := race_policies_agree (.created colliding.config) order
  constructor
  · cases rejected : ((colliding.under .reject).runAll store order).map Store.freeze with
    | ok snapshot =>
      obtain ⟨same, unraced⟩ := (accepts_iff snapshot).1 rejected
      obtain rfl : final.freeze = snapshot := Except.ok.inj (accepts.symm.trans same)
      exact (unraced (Diagnostics.mentions_of_count (by omega))).elim
    | error e =>
      rcases fails e rejected with ⟨raced, -⟩ | ⟨-, same⟩
      · exact ⟨e, rfl, raced⟩
      · cases accepts.symm.trans same
  · have counted := (all_reported final.freeze accepts).1
    exact ⟨final.freeze, accepts, two, one, counted.symm.trans one⟩

end Dispatcher

end ComputeShader
