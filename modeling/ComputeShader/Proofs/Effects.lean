import Mathlib.Logic.Function.Basic
import ComputeShader.Proofs.RaceDetection
import ComputeShader.Proofs.StoreCells

/-! # Effects on a store

Whatever a running invocation does to a store is a sequence of notes, loads, stores and atomic
changes. `Store.replay` performs such a sequence. What it leaves in the cells, the log, the conflicts
and the diagnostics are four separate stories, each told by the trace and the contents of the cells
before it.
-/

namespace ComputeShader

/-- The contents of all cells. -/
abbrev Memory := Location → List UInt32

/-- New patterns for some of the components of an element. -/
abbrev Patch := Nat → Option UInt32

namespace Patch

def apply (patch : Patch) (bits : List UInt32) : List UInt32 :=
  bits.mapIdx fun i w => (patch i).getD w

/-- Replace all components. -/
def whole (bits : List UInt32) : Patch := fun i => bits[i]?

/-- Whether a patch leaves nothing of an element of `count` components. -/
def Covers (patch : Patch) (count : Nat) : Prop := ∀ i < count, (patch i).isSome

variable {patch : Patch} {bits bits' : List UInt32}

@[simp] theorem length_apply : (patch.apply bits).length = bits.length := by
  simp [apply]

@[simp] theorem getElem?_apply {i : Nat} :
    (patch.apply bits)[i]? = bits[i]?.map fun w => (patch i).getD w := by
  simp [apply]

@[simp] theorem apply_apply : patch.apply (patch.apply bits) = patch.apply bits := by
  refine List.ext_getElem? fun i => ?_
  cases new : patch i <;> simp [new, Function.comp_def]

theorem apply_eq_of_covers (covers : patch.Covers bits.length) (same : bits.length = bits'.length) :
    patch.apply bits = patch.apply bits' := by
  refine List.ext_getElem? fun i => ?_
  rw [getElem?_apply, getElem?_apply]
  rcases Nat.lt_or_ge i bits.length with inside | outside
  · obtain ⟨w, new⟩ := Option.isSome_iff_exists.1 (covers i inside)
    simp [new, inside, same ▸ inside]
  · simp [outside, same ▸ outside]

theorem covers_whole : (whole bits).Covers bits.length := by
  simp [Covers, whole]

theorem apply_whole (same : bits.length = bits'.length) : (whole bits).apply bits' = bits := by
  refine List.ext_getElem? fun i => ?_
  rw [getElem?_apply]
  rcases Nat.lt_or_ge i bits.length with inside | outside
  · simp [whole, inside, same ▸ inside]
  · simp [outside, same ▸ outside]

end Patch

/-- One thing that an invocation does to a store. -/
inductive Effect where
  | note (kind : ErrorKind) (message : String)
  | load (place : Location)
  | store (place : Location) (patch : Patch)
  | atomic (place : Location) (change : UInt32 → UInt32)

namespace Effect

/-- What an effect makes of the cells. -/
def apply : Effect → Memory → Memory
  | .note _ _, m | .load _, m => m
  | .store place patch, m => Function.update m place (patch.apply (m place))
  | .atomic place change, m => Function.update m place ((m place).map change)

/-- The access that an effect is logged as. -/
def observation? (m : Memory) (me : InvocationId) : Effect → Option Observation
  | .note _ _ => none
  | .load place => some ⟨place, m place, .read, me⟩
  | .store place patch => some ⟨place, m place, .write (patch.apply (m place)), me⟩
  | .atomic place _ => some ⟨place, m place, .atomic, me⟩

/-- The event that an effect is counted as. -/
def event? (me : InvocationId) : Effect → Option Diagnostic
  | .note kind message => some ⟨kind, message, 1, me⟩
  | _ => none

/-- Whether every word that an effect stores is a pattern of the element type. -/
def Admitted (s : Store) : Effect → Prop
  | .note _ _ | .load _ => True
  | .store place patch => ∀ i w, patch i = some w → s.Admits w place
  | .atomic place change => ∀ w, s.Admits (change w) place

end Effect

/-- Effects in the order in which they happen, each with the invocation it is of. -/
abbrev Trace := List (InvocationId × Effect)

namespace Trace

/-- The cells after a trace. -/
def apply (trace : Trace) (m : Memory) : Memory := trace.foldl (fun m visit => visit.2.apply m) m

/-- The accesses that a trace is logged as. -/
def observations (m : Memory) : Trace → List Observation
  | [] => []
  | (me, e) :: rest => (e.observation? m me).toList ++ observations (e.apply m) rest

/-- The events that a trace notes. -/
def events (trace : Trace) : Diagnostics := trace.filterMap fun visit => visit.2.event? visit.1

/-- The touches that a trace makes of one cell. -/
def history (m : Memory) (trace : Trace) (place : Location) : History :=
  Observation.history place (observations m trace)

end Trace

namespace Store

/-- Log an access to a place. -/
def touch (s : Store) (place : Location) (t : Touch) (me : InvocationId) : Store :=
  { s with
    log := (s.log.observe place (s.cell place) t me).1
    conflicts := s.conflicts ++ (s.log.observe place (s.cell place) t me).2.toList }

def perform (s : Store) (me : InvocationId) : Effect → Store
  | .note kind message => s.record kind message me
  | .load place => s.touch place .read me
  | .store place patch =>
    (s.touch place (.write (patch.apply (s.cell place))) me).setCell (patch.apply (s.cell place)) place
  | .atomic place change => (s.touch place .atomic me).setCell ((s.cell place).map change) place

/-- The store after all effects of a trace. -/
def replay (s : Store) (trace : Trace) : Store :=
  trace.foldl (fun s visit => s.perform visit.1 visit.2) s

variable {s : Store} {place : Location} {t : Touch} {me : InvocationId} {e : Effect} {trace : Trace}

/-! ## One effect -/

@[simp] theorem cell_touch : (s.touch place t me).cell = s.cell := by
  funext ⟨resource, i⟩
  cases resource <;> rfl

@[simp] theorem cell_record {kind : ErrorKind} {message : String} :
    (s.record kind message me).cell = s.cell := by
  funext ⟨resource, i⟩
  cases resource <;> rfl

theorem cell_perform : (s.perform me e).cell = e.apply s.cell := by
  funext other
  cases e with
  | note kind message => simp [perform, Effect.apply]
  | load place => simp [perform, Effect.apply]
  | store place patch =>
    rw [perform, cell_setCell (by simp)]
    simp [Effect.apply, Function.update_apply]
  | atomic place change =>
    rw [perform, cell_setCell (by simp)]
    simp [Effect.apply, Function.update_apply]

theorem frame_perform : (s.perform me e).frame = s.frame := by
  cases e <;> simp [perform] <;> rfl

theorem log_perform :
    (s.perform me e).log = s.log.after (e.observation? s.cell me).toList := by
  cases e <;> simp [perform, Effect.observation?, AccessLog.after, touch, record]

theorem conflicts_perform : (s.perform me e).conflicts =
    s.conflicts ++ s.log.conflicts (e.observation? s.cell me).toList := by
  cases e <;> simp [perform, Effect.observation?, AccessLog.conflicts, touch, record]

theorem diagnostics_perform :
    (s.perform me e).diagnostics = s.diagnostics.merge (e.event? me).toList := by
  cases e <;> simp [perform, Effect.event?, Diagnostics.merge, touch, record, Diagnostics.record]

theorem WellFormed.admits_cell (proper : s.WellFormed) {w : UInt32} (member : w ∈ s.cell place) :
    s.Admits w place := by
  obtain ⟨binding | binding, i⟩ := place
  · intro b held
    simp only [cell, held, Option.map_some, Option.getD_some] at member
    rcases Nat.lt_or_ge i b.length with inside | outside
    · exact (proper.buffers binding b held i inside).2 w member
    · simp [Buffer.bits_eq_nil outside] at member
  · trivial

theorem WellFormed.perform (proper : s.WellFormed) (admitted : e.Admitted s) :
    (s.perform me e).WellFormed := by
  have touched (place : Location) (t : Touch) : (s.touch place t me).WellFormed :=
    ⟨proper.buffers, proper.images⟩
  cases e with
  | note kind message => exact ⟨proper.buffers, proper.images⟩
  | load place => exact touched place .read
  | store place patch =>
    refine (touched place _).setCell (by simp) fun w member => ?_
    obtain ⟨i, bound, rfl⟩ := List.mem_mapIdx.1 member
    cases new : patch i with
    | none => exact proper.admits_cell (List.getElem_mem bound)
    | some w => exact admitted i w new
  | atomic place change =>
    refine (touched place _).setCell (by simp) fun w member => ?_
    obtain ⟨old, _, rfl⟩ := List.mem_map.1 member
    exact admitted old

theorem admitted_congr {s' : Store} (frame : s.frame = s'.frame) :
    e.Admitted s ↔ e.Admitted s' := by
  have words (w : UInt32) (place : Location) : s.Admits w place ↔ s'.Admits w place := by
    rw [← admits_frame, frame, admits_frame]
  cases e <;> simp only [Effect.Admitted, words]

end Store

namespace Effect

variable {m : Memory} {e : Effect} {place : Location} {me : InvocationId} {a : Observation}

theorem current_observation (seen : e.observation? m me = some a) : a.current = m a.place := by
  cases e <;> simp only [observation?, Option.some.injEq, reduceCtorEq] at seen <;> subst seen <;> rfl

/-- An effect changes no cell that it does not access. -/
theorem apply_of_ne (me : InvocationId) (elsewhere : ∀ a ∈ e.observation? m me, a.place ≠ place) :
    e.apply m place = m place := by
  cases e with
  | note | load => rfl
  | store here patch => exact Function.update_of_ne (Ne.symm (elsewhere _ rfl)) ..
  | atomic here change => exact Function.update_of_ne (Ne.symm (elsewhere _ rfl)) ..

end Effect

/-! ## Whole traces -/

namespace Trace

variable {m : Memory} {trace trace' : Trace} {place : Location} {me : InvocationId} {e : Effect}

theorem apply_append : (trace ++ trace').apply m = trace'.apply (trace.apply m) :=
  List.foldl_append

@[simp] theorem apply_nil : apply [] m = m := rfl

theorem apply_singleton : apply [(me, e)] m = e.apply m := rfl

theorem observations_append : observations m (trace ++ trace') =
    observations m trace ++ observations (trace.apply m) trace' := by
  induction trace generalizing m with
  | nil => rfl
  | cons visit rest ih =>
    simp only [List.cons_append, observations, ih, List.append_assoc, apply, List.foldl_cons]

theorem history_append : history m (trace ++ trace') place =
    history m trace place ++ history (trace.apply m) trace' place := by
  simp [history, Observation.history, observations_append]

theorem history_cons : history m ((me, e) :: trace) place =
    history m [(me, e)] place ++ history (e.apply m) trace place :=
  @history_append m [(me, e)] trace place

theorem events_append : events (trace ++ trace') = trace.events ++ trace'.events :=
  List.filterMap_append

@[simp] theorem history_nil : history m [] place = [] := rfl

@[simp] theorem history_note {kind : ErrorKind} {message : String} :
    history m [(me, .note kind message)] place = [] := rfl

theorem history_load {here : Location} :
    history m [(me, .load here)] place = if here = place then [(me, .read)] else [] := by
  split <;> simp [history, Observation.history, observations, Effect.observation?, *]

theorem history_store {here : Location} {patch : Patch} :
    history m [(me, .store here patch)] place =
      if here = place then [(me, .write (patch.apply (m place)))] else [] := by
  split
  · next same => simp [history, Observation.history, observations, Effect.observation?, same]
  · next differ => simp [history, Observation.history, observations, Effect.observation?, differ]

theorem history_atomic {here : Location} {change : UInt32 → UInt32} :
    history m [(me, .atomic here change)] place = if here = place then [(me, .atomic)] else [] := by
  split <;> simp [history, Observation.history, observations, Effect.observation?, *]

/-- A cell without atomics holds what was stored to it last. -/
theorem apply_eq_lastStore (plain : ∀ i, ¬ (history m trace place).Atomic i) :
    trace.apply m place = (history m trace place).lastStore.getD (m place) := by
  induction trace using List.reverseRecOn with
  | nil => rfl
  | append_singleton before visit ih =>
    obtain ⟨i, e⟩ := visit
    rw [history_append] at plain ⊢
    have earlier := ih fun j atomic => plain j (List.mem_append_left _ atomic)
    rw [apply_append]
    cases e with
    | note kind message => simpa [apply_singleton, Effect.apply] using earlier
    | load here =>
      rw [history_load]
      split <;> simpa [apply_singleton, Effect.apply] using earlier
    | store here patch =>
      rw [history_store]
      split
      · next same => simp [apply_singleton, Effect.apply, same]
      · next differ =>
        simpa [apply_singleton, Effect.apply, Function.update_of_ne (Ne.symm differ)] using earlier
    | atomic here change =>
      rw [history_atomic] at plain ⊢
      split
      · next same => exact (plain i (by simp [same, History.Atomic])).elim
      · next differ =>
        simpa [apply_singleton, Effect.apply, Function.update_of_ne (Ne.symm differ)] using earlier

/-- The first access to a cell finds it as it was. -/
theorem baseline_observations (touched : history m trace place ≠ []) :
    Observation.baseline place (observations m trace) = m place := by
  induction trace generalizing m with
  | nil => exact (touched rfl).elim
  | cons visit rest ih =>
    obtain ⟨i, e⟩ := visit
    rw [history_cons] at touched
    cases seen : e.observation? m i with
    | none =>
      have untouched : history m [(i, e)] place = [] := by
        simp [history, Observation.history, observations, seen]
      rw [untouched, List.nil_append] at touched
      have same : e.apply m place = m place := Effect.apply_of_ne i (by simp [seen])
      rw [observations, seen, ← same]
      exact ih touched
    | some a =>
      rw [observations, seen]
      by_cases here : a.place = place
      · exact (Observation.baseline_cons_of_eq here).trans (here ▸ Effect.current_observation seen)
      · have untouched : history m [(i, e)] place = [] := by
          simp [history, Observation.history, observations, seen, here]
        rw [untouched, List.nil_append] at touched
        refine (Observation.baseline_cons_of_ne here).trans ((ih touched).trans ?_)
        exact Effect.apply_of_ne i (by simpa [seen] using here)

/-- A trace without conflicts is silent on every cell. -/
theorem silent_of_quiet (quiet : ({} : AccessLog).conflicts (observations m trace) = [])
    (place : Location) : (ElementLog.fresh (m place)).Silent (history m trace place) := by
  by_cases touched : history m trace place = []
  · rw [touched]
    exact ElementLog.silent_nil
  · rw [← baseline_observations touched]
    have nothing : ∀ c ∈ ({} : AccessLog).conflicts (observations m trace), c.place ≠ place := by
      simp [quiet]
    exact AccessLog.quiet_iff_silent.1 nothing

end Trace

namespace AccessLog

variable {l : AccessLog} {accesses accesses' : List Observation}

theorem after_append : l.after (accesses ++ accesses') = (l.after accesses).after accesses' :=
  List.foldl_append

theorem conflicts_append : l.conflicts (accesses ++ accesses') =
    l.conflicts accesses ++ (l.after accesses).conflicts accesses' := by
  induction accesses generalizing l with
  | nil => rfl
  | cons a rest ih => simp only [List.cons_append, conflicts, ih, List.append_assoc, after,
      List.foldl_cons]

end AccessLog

namespace Store

variable {s : Store} {trace trace' : Trace}

theorem replay_append : s.replay (trace ++ trace') = (s.replay trace).replay trace' :=
  List.foldl_append

theorem cell_replay : (s.replay trace).cell = trace.apply s.cell := by
  induction trace generalizing s with
  | nil => rfl
  | cons visit rest ih => exact ih.trans (congrArg _ cell_perform)

theorem frame_replay : (s.replay trace).frame = s.frame := by
  induction trace generalizing s with
  | nil => rfl
  | cons visit rest ih => exact ih.trans frame_perform

theorem log_replay :
    (s.replay trace).log = s.log.after (trace.observations s.cell) := by
  induction trace generalizing s with
  | nil => rfl
  | cons visit rest ih =>
    rw [Trace.observations, AccessLog.after_append, ← log_perform, ← cell_perform]
    exact ih

theorem conflicts_replay : (s.replay trace).conflicts =
    s.conflicts ++ s.log.conflicts (trace.observations s.cell) := by
  induction trace generalizing s with
  | nil => simp [replay, Trace.observations, AccessLog.conflicts]
  | cons visit rest ih =>
    rw [Trace.observations, AccessLog.conflicts_append, ← List.append_assoc, ← conflicts_perform,
      ← log_perform, ← cell_perform]
    exact ih

theorem diagnostics_replay :
    (s.replay trace).diagnostics = s.diagnostics.merge trace.events := by
  induction trace generalizing s with
  | nil => rfl
  | cons visit rest ih =>
    refine ih.trans ?_
    simp only [diagnostics_perform, Trace.events, List.filterMap_cons]
    cases visit.2.event? visit.1 <;> rfl

theorem WellFormed.replay (proper : s.WellFormed)
    (admitted : ∀ visit ∈ trace, visit.2.Admitted s) : (s.replay trace).WellFormed := by
  induction trace generalizing s with
  | nil => exact proper
  | cons visit rest ih =>
    refine ih (proper.perform (admitted visit List.mem_cons_self)) fun later member => ?_
    exact (admitted_congr frame_perform).2 (admitted later (List.mem_cons_of_mem _ member))

end Store

end ComputeShader
