import ComputeShader.Dispatch.Config
import ComputeShader.Dispatch.Execution
import ComputeShader.Dispatch.Shuffle

/-! # Dispatches

A dispatch runs every invocation of a grid in the order of a schedule, each to its end before the
next one starts. After each invocation its faults become diagnostics and its races are rejected or
reported; any other error ends the dispatch.
-/

namespace ComputeShader

/-- The order in which a schedule runs invocations. -/
def Schedule.order (s : Schedule) (all : List Invocation) : List Invocation :=
  match s with
  | .sequential | .parallel => all
  | .shuffled seed => Shuffle.shuffled seed all

/-- A shader with the conventions under which it is dispatched. -/
structure Dispatcher where
  shader : Shader
  config : EngineConfig
  stage : DispatchStage := .initialized
  deriving Repr, Inhabited

namespace Dispatcher

/-- Reject or report the conflicts that an invocation left behind. -/
def settle (policy : RacePolicy) (store : Store) : Except EngineError Store :=
  match policy, store.conflicts with
  | _, [] => .ok store
  | .reject, c :: _ => .error (store.raceError c)
  | .report, conflicts =>
    .ok { conflicts.foldl Store.reportRace store with conflicts := [] }

/-- Run one invocation and settle what it left behind. -/
def runOne (d : Dispatcher) (store : Store) (i : Invocation) : Except EngineError Store :=
  let c : RunContext := ⟨d.shader, d.config.sampler, d.config.stepBudget, i, i.id⟩
  match c.run store with
  | (none, store) => settle d.config.racePolicy store
  | (some e, store) =>
    if e.isInvocationFault then settle d.config.racePolicy (store.recordFault e c.me)
    else .error e

/-- Run invocations one after another. -/
def runAll (d : Dispatcher) (store : Store) (order : List Invocation) : Except EngineError Store :=
  order.foldlM d.runOne store

/-- Run the whole grid and freeze the store. -/
def execute (d : Dispatcher) (store : Store) (groups : Extent3) : Except EngineError Snapshot :=
  (d.runAll store (d.config.schedule.order (invocations d.shader.localSize groups))).map Store.freeze

/-- Dispatch. A dispatcher serves once. -/
def dispatch (d : Dispatcher) (store : Store) (groups : Extent3) :
    Except EngineError Snapshot × Dispatcher :=
  match d.stage with
  | .initialized => (d.execute store groups, { d with stage := .completed })
  | .completed => (.error (.invalidState d.stage), d)

end Dispatcher

end ComputeShader
