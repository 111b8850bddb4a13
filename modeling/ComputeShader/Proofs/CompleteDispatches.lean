import ComputeShader.Proofs.GridCoverage
import ComputeShader.Proofs.RacePolicies

/-! # Complete dispatches

A dispatch that succeeds has run every cell of every workgroup to its end, each of them once, whatever the
order of its schedule.
-/

namespace ComputeShader

namespace Dispatcher

/-- Invocations run one after another, each from the store that the one before it left. -/
inductive Runs (d : Dispatcher) : Store → List Invocation → Store → Prop where
  | nil (s : Store) : Runs d s [] s
  | cons {s s' t : Store} {i : Invocation} {rest : List Invocation} (first : d.runOne s i = .ok s')
      (later : Runs d s' rest t) : Runs d s (i :: rest) t

theorem runs_of_runAll {d : Dispatcher} {order : List Invocation} {s t : Store}
    (ran : d.runAll s order = .ok t) : d.Runs s order t := by
  induction order generalizing s with
  | nil =>
    cases ran
    exact .nil _
  | cons i rest ih =>
    rw [runAll, List.foldlM_cons] at ran
    cases first : d.runOne s i with
    | error e =>
      rw [first] at ran
      cases ran
    | ok s' =>
      rw [first] at ran
      exact .cons first (ih ran)

/-- The list of invocations is every cell of the grid once, and a dispatch that succeeds has run each of
them once. -/
theorem grid_covered (d : Dispatcher) {groups : Extent3} (small : d.shader.localSize.volume < 4294967296)
    (few : groups.volume * d.shader.localSize.volume < 18446744073709551616) :
    d.shader.Enumerates groups ∧
      ∀ (s : Store) (snapshot : Snapshot), (d.dispatch s groups).1 = .ok snapshot →
        ∃ (order : List Invocation) (t : Store), order.Perm (invocations d.shader.localSize groups) ∧
          d.Runs s order t ∧ t.freeze = snapshot := by
  refine ⟨Shader.enumerates small few, fun s snapshot done => ?_⟩
  unfold dispatch at done
  split at done
  · obtain ⟨t, ran, frozen⟩ := exists_of_map_eq_ok done
    exact ⟨_, t, d.config.schedule.order_perm _, runs_of_runAll ran, frozen⟩
  · cases done

/-- `atomicAdd(tally[0], 1u);` in workgroups of six invocations, shuffled. -/
def tallying : Dispatcher where
  shader :=
    { name := "tallying", version := 310, extensions := [], localSize := ⟨2, 3, 1⟩,
      buffers := [⟨0, "Tally", none, "tally", .scalar .uint, .readWrite⟩],
      images := [], samplers := [], uniforms := [], locals := [],
      body := [.eval 1 (.atomic ⟨1, 1⟩ .add 0 (.literal ⟨1, 11⟩ (.uint 0)) [.literal ⟨1, 15⟩ (.uint 1)])] }
  config := { bufferLength := 1, schedule := .shuffled 7 }

/-- Four workgroups of six invocations count to twenty-four. -/
theorem grid_covered_tallying :
    let s := Store.create tallying.shader tallying.config
    tallying.shader.localSize.volume < 4294967296 ∧
      Extent3.volume ⟨2, 1, 2⟩ * tallying.shader.localSize.volume < 18446744073709551616 ∧
      tallying.shader.Enumerates ⟨2, 1, 2⟩ ∧
      ∃ (snapshot : Snapshot) (order : List Invocation) (t : Store),
        (tallying.dispatch s ⟨2, 1, 2⟩).1 = .ok snapshot ∧
        snapshot.bufferElement? 0 0 = some (.uint 24) ∧
        order.Perm (invocations tallying.shader.localSize ⟨2, 1, 2⟩) ∧ tallying.Runs s order t ∧
        t.freeze = snapshot := by
  intro s
  have counted : (tallying.dispatch s ⟨2, 1, 2⟩).1.toOption.any fun snapshot =>
      snapshot.bufferElement? 0 0 == some (.uint 24) := by
    decide +kernel
  obtain ⟨snapshot, done, sum⟩ := exists_ok counted
  obtain ⟨listed, complete⟩ := @grid_covered tallying ⟨2, 1, 2⟩ (by decide) (by decide)
  obtain ⟨order, t, permuted, runs, frozen⟩ := complete s snapshot done
  exact ⟨by decide, by decide, listed, snapshot, order, t, done, eq_of_beq sum, permuted, runs, frozen⟩

end Dispatcher

end ComputeShader
