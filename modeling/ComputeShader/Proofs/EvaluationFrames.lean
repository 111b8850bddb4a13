import ComputeShader.Proofs.FailedOperations
import ComputeShader.Proofs.ReachedStates

/-! # What an evaluation leaves alone

An evaluation loads local variables and asks the store, and does nothing else. So it leaves every local
variable as it is, however it ends; and if nothing that it asks is an atomic, the store differs afterwards
in no more than the log, the conflicts and the diagnostics. An operation that fails changes even less of
the store than one that succeeds, which is why an evaluation that ends in an error needs no case of its own.
-/

namespace ComputeShader

namespace Store

/-- Stores that are visibly the same differ in the log, the conflicts and the diagnostics. -/
theorem eq_of_visible {s t : Store} (same : t.visible = s.visible) :
    t = { s with log := t.log, conflicts := t.conflicts, diagnostics := t.diagnostics } := by
  cases s
  cases t
  simp_all [visible]

end Store

/-- The state that a part of a run leaves, whether it gives an answer or fails. -/
def RunContext.left {α : Type} : EStateM.Result EngineError RunState α → RunState
  | .ok _ s | .error _ s => s

theorem Keeps.left {α : Type} {I : RunState → Prop} {x : RunM α} {Q : α → Prop} (keeps : Keeps I x Q)
    {s : RunState} (before : I s) : I (RunContext.left (x s)) := by
  cases ran : x s with
  | ok a s' => exact ((keeps s before).1 a s' ran).1
  | error e s' => exact (keeps s before).2 e s' ran

namespace RunContext

variable {c : RunContext} {atomics : Prop} {α : Type}

/-! ## Local variables -/

theorem Mirrors.keeps_locals {x y : RunM α} (mirrors : c.Mirrors atomics x y) (locals : List Value) :
    Keeps (fun s => s.locals = locals) x fun _ => True :=
  mirrors.keeps (fun _ _ same => same) fun _ _ same _ => same

/-! ## The store -/

theorem Asks.failsCleanly {x y : StoreM α} (asks : c.Asks atomics x y) : Store.FailsCleanly x := by
  cases asks with
  | resolve label label' index extent => exact Store.failsCleanly_resolve label index extent c.me
  | uniform slot element => exact Store.failsCleanly_uniform slot element c.me
  | read binding index => exact Store.failsCleanly_read binding index c.me
  | length binding =>
    exact (Store.onlyLooks_bufferAt binding).bind fun _ => (Store.onlyLooks_pure _).failsCleanly
  | atomic op binding index operands _ =>
    exact Store.failsCleanly_atomic op binding index operands c.me
  | imageLoad binding x y => exact Store.failsCleanly_imageLoad binding x y c.me
  | imageAtomicAdd binding x y v _ => exact Store.failsCleanly_imageAtomicAdd binding x y v c.me
  | imageSize binding =>
    exact (Store.onlyLooks_imageAt binding).bind fun _ => (Store.onlyLooks_pure _).failsCleanly
  | sample binding r => exact Store.failsCleanly_sample c.sampler binding r

theorem keeps_view_onStore {x y : StoreM α} (asks : c.Asks False x y) (view : Store × List Value) :
    Keeps (fun s => s.view = view) (onStore x) fun _ => True := by
  intro s before
  refine ⟨fun a s' ran => ⟨(view_onStore asks.looks ran).trans before, trivial⟩, fun e s' failed => ?_⟩
  rw [onStore_eq] at failed
  cases asked : x s.store with
  | ok a store =>
    rw [asked] at failed
    cases failed
  | error e' store =>
    rw [asked] at failed
    cases failed
    rw [asks.failsCleanly _ _ _ asked]
    exact before

/-- Without atomics, an evaluation keeps all that an invocation reads. -/
theorem Mirrors.keeps_view {x y : RunM α} (mirrors : c.Mirrors False x y) (view : Store × List Value) :
    Keeps (fun s => s.view = view) x fun _ => True := by
  induction mirrors with
  | pure a => exact keeps_pure trivial
  | bind _ _ first next => exact first.bind fun a _ => next a
  | step => exact keeps_counted fun _ _ same => same
  | mismatch site site' e e' => exact keeps_throw _
  | loadLocal slot _ next => exact keeps_get fun s _ => next _
  | ask asks => exact keeps_view_onStore asks view

/-- States that an invocation sees alike differ in the log, the conflicts, the diagnostics and the number
of steps. -/
theorem eq_of_view {s t : RunState} (same : t.view = s.view) :
    t = { s with
      store := { s.store with
        log := t.store.log, conflicts := t.store.conflicts, diagnostics := t.store.diagnostics }
      steps := t.steps } := by
  rw [← Store.eq_of_visible (RunState.store_of_view same), ← RunState.locals_of_view same]

/-! ## Expressions -/

/-- Evaluating an expression leaves every local variable as it is, whether it gives a value or fails. If
neither the expression nor any part of it is an atomic, buffers, images, textures, uniforms and all else of
the state stay the same as well: only the log, the conflicts, the diagnostics and the number of steps may
change. -/
theorem evaluation_frame (c : RunContext) (e : Expr) (s : RunState) :
    (left (c.eval e s)).locals = s.locals ∧
      (e.AtomicFree → ∃ log conflicts diagnostics steps, left (c.eval e s) =
        { s with store := { s.store with log, conflicts, diagnostics }, steps }) := by
  have all : Allows True e.nodes := fun _ _ _ => trivial
  refine ⟨((c.mirrors_eval e all).keeps_locals s.locals).left rfl, fun free => ?_⟩
  have mirrors : c.Mirrors False (c.eval e) (c.eval e.unplaced) :=
    c.mirrors_eval e (allows_of_atomicFree free)
  exact ⟨_, _, _, _, eq_of_view ((mirrors.keeps_view s.view).left rfl)⟩

/-- An invocation over a buffer of words, with one local variable. -/
def tasting : RunContext where
  shader :=
    { name := "tasting", version := 310, extensions := [], localSize := ⟨1, 1, 1⟩,
      buffers := [⟨0, "Words", none, "words", .scalar .uint, .readWrite⟩],
      images := [], samplers := [], uniforms := [], locals := [⟨"n", .scalar .uint⟩], body := [] }
  sampler := .external
  stepBudget := 20
  invocation := ⟨⟨0, 0, 0⟩, ⟨0, 0, 0⟩, ⟨1, 1, 1⟩, ⟨1, 1, 1⟩⟩
  me := 0

/-- `words[n] + 1.5` fails for its types, after its index was clamped; all that it leaves is the diagnostic
and two entries of the log. `atomicAdd(words[n], words[n])` does change a word, but no local variable. -/
theorem evaluation_frame_tasting :
    let place : Position := ⟨1, 1⟩
    let word : Expr := .bufferElement place 0 (.localVar place 0)
    let mistyped : Expr := .binary place .add word (.literal place (.ofScalar (.float ⟨0x3fc00000⟩)))
    let doubled : Expr := .atomic place .add 0 (.localVar place 0) [word]
    let store := Store.create tasting.shader { bufferLength := 2 }
    let s : RunState :=
      ⟨{ store with buffers := .ofList [(0, ⟨"words", .scalar .uint, #[[3], [4]]⟩)] }, [.uint 9], 0⟩
    mistyped.AtomicFree ∧
      (∃ log conflicts diagnostics steps, left (tasting.eval mistyped s) =
        { s with store := { s.store with log, conflicts, diagnostics }, steps }) ∧
      (left (tasting.eval mistyped s)).store.diagnostics = [⟨.outOfBounds,
        "index 9 out of bounds for buffer `words` (binding 0) (extent 2), clamped to 1", 1, 0⟩] ∧
      (left (tasting.eval doubled s)).locals = s.locals ∧
      (left (tasting.eval doubled s)).store.buffers.get? 0 =
        some ⟨"words", .scalar .uint, #[[3], [8]]⟩ := by
  intro place word mistyped doubled store s
  have free : mistyped.AtomicFree := by decide
  exact ⟨free, (tasting.evaluation_frame mistyped s).2 free, by decide +kernel,
    (tasting.evaluation_frame doubled s).1, by decide +kernel⟩

end RunContext

end ComputeShader
