import ComputeShader.Proofs.DispatchRuns
import ComputeShader.Proofs.GridOrder
import ComputeShader.Proofs.SeededStores
import ComputeShader.Shader.Load

/-! # Independence of the schedule

When a dispatch that rejects races succeeds in one order of the invocations, every invocation took the
same way that it takes alone, and so it does in any other order: the jobs are compatible, and no
element is reported. What may break this is a load that the log does not see, of an element of which
the invocation has stored a part.
-/

namespace ComputeShader

/-- Whether no element of a buffer that the body both loads from and stores to in parts was changed by
one invocation and stored to by another one. It asks this of the buffer as a whole, whichever of its elements
the loads are of: more than it takes for the order not to matter. -/
def Shader.Apart (shader : Shader) (l : AccessLog) : Prop :=
  ∀ binding, shader.loads binding → shader.storesParts binding → ∀ i log,
    l.get? ⟨.buffer binding, i⟩ = some log → ∀ me ∈ log.writers, ∀ o ∈ log.changers, o = me

theorem exists_ok {ε α : Type} {x : Except ε α} {p : α → Bool} (holds : x.toOption.any p) :
    ∃ a, x = .ok a ∧ p a := by
  cases x with
  | error e => cases holds
  | ok a => exact ⟨a, rfl, holds⟩

theorem AccessLog.mem_of_get? {l : AccessLog} {place : Location} {log : ElementLog}
    (found : l.get? place = some log) : (place, log) ∈ l.entries := by
  obtain ⟨before, after, split, -⟩ := List.lookup_eq_some_iff.1 found
  simp [split]

/-- The log of an element, as long as nothing is reported. -/
theorem Trace.exists_log {m : Memory} {trace : Trace} {place : Location}
    (quiet : ({} : AccessLog).conflicts (trace.observations m) = [])
    (touched : trace.history m place ≠ []) :
    ∃ log, (({} : AccessLog).after (trace.observations m)).get? place = some log ∧
      ElementLog.Summarizes (m place) (trace.history m place) log := by
  refine ⟨_, AccessLog.get?_after.trans (if_neg touched), ?_⟩
  rw [show (({} : AccessLog).entry place (Observation.baseline place (observations m trace))) =
    ElementLog.fresh (m place) from congrArg ElementLog.fresh (baseline_observations touched)]
  exact ElementLog.summarizes_of_silent (silent_of_quiet quiet place)

namespace Dispatcher

variable {d : Dispatcher} {s final final' : Store} {order order' : List Invocation}
  {job : Invocation → Job (Option EngineError)}

/-- What is known of a dispatch that rejects races and succeeds. -/
structure Accepted (job : Invocation → Job (Option EngineError)) (s : Store)
    (order : List Invocation) (final : Store) : Prop where
  replayed : final = s.replay (Job.serial (order.map job) s.cell)
  quiet : ({} : AccessLog).conflicts
    ((Job.serial (order.map job) s.cell).observations s.cell) = []
  answers : ∀ a ∈ Job.answers (order.map job) s.cell, a = none

theorem accepted_of_runAll (jobs : d.Jobs s job) (fresh : s.Fresh)
    (policy : d.config.racePolicy = .reject) (ran : d.runAll s order = .ok final) :
    Accepted job s order final := by
  obtain ⟨replayed, quiet, answers⟩ :=
    replay_of_runAll jobs policy rfl fresh.wellFormed fresh.conflicts ran
  refine ⟨replayed, ?_, answers⟩
  rw [replayed, Store.conflicts_replay, fresh.conflicts, fresh.log, List.nil_append] at quiet
  exact quiet

theorem nodup_me (jobs : d.Jobs s job) (distinct : (order.map Invocation.id).Nodup) :
    ((order.map job).map Job.me).Nodup := by
  have same : (order.map job).map Job.me = order.map Invocation.id := by
    rw [List.map_map]
    exact List.map_congr_left fun i _ => (jobs i).1
  rwa [same]

theorem allowed_of_mem_serial (jobs : d.Jobs s job) {m : Memory} {visit : InvocationId × Effect}
    (member : visit ∈ Job.serial (order.map job) m) : d.shader.footprint.Allows s visit.2 := by
  refine Job.obeys_of_mem_serial (fun j among => ?_) member
  obtain ⟨i, -, rfl⟩ := List.mem_map.1 among
  exact (jobs i).2.1

/-- An accepted dispatch is undisturbed, if its loads of what was stored to in parts are kept apart. -/
theorem Accepted.undisturbed (accepted : Accepted job s order final) (jobs : d.Jobs s job)
    (fresh : s.Fresh) (apart : d.shader.Apart final.log) :
    (Job.serial (order.map job) s.cell).Undisturbed s.cell := by
  refine Trace.undisturbed_of_silent (Trace.silent_of_quiet accepted.quiet) ?_
  intro i place patch stored uncovered loaded o other changes
  obtain ⟨-, covers | parts⟩ := allowed_of_mem_serial jobs stored
  · exact uncovered (covers s rfl fresh.wellFormed)
  · have loads := allowed_of_mem_serial jobs loaded
    obtain ⟨binding | binding, index⟩ := place
    · obtain ⟨bits, wrote⟩ := @Trace.exists_write_of_store s.cell _ _ _ _ stored
      obtain ⟨log, found, summarizes⟩ :=
        Trace.exists_log accepted.quiet (List.ne_nil_of_mem wrote)
      refine other (apart binding loads parts index log ?_ i ((summarizes.writers i).2 ⟨_, wrote⟩)
        o ((summarizes.changers o).2 changes))
      rw [accepted.replayed, Store.log_replay, fresh.log]
      exact found
    · exact parts

theorem Accepted.wellFormed (accepted : Accepted job s order final) (jobs : d.Jobs s job)
    (fresh : s.Fresh) : final.WellFormed := by
  rw [accepted.replayed]
  exact fresh.wellFormed.replay fun visit member =>
    (allowed_of_mem_serial jobs member).admitted rfl

/-- What another order of an undisturbed accepted dispatch comes to. -/
theorem Accepted.any_order (accepted : Accepted job s order final) (jobs : d.Jobs s job)
    (distinct : (order.map Invocation.id).Nodup)
    (undisturbed : (Job.serial (order.map job) s.cell).Undisturbed s.cell)
    (perm : order.Perm order') :
    (Job.serial (order'.map job) s.cell).apply s.cell = final.cell ∧
      (Trace.events (Job.serial (order'.map job) s.cell)).Perm
        (Trace.events (Job.serial (order.map job) s.cell)) ∧
      ∀ a ∈ Job.answers (order'.map job) s.cell, a = none := by
  have apart := nodup_me jobs distinct
  have apart' := nodup_me jobs ((perm.map Invocation.id).nodup_iff.1 distinct)
  have compatible := Job.compatible_of_undisturbed apart undisturbed
  have alone := Job.serial_eq_apart apart compatible
  have alone' := Job.serial_eq_apart apart' (compatible.perm (perm.map job))
  refine ⟨?_, ?_, fun a member => ?_⟩
  · rw [accepted.replayed, Store.cell_replay]
    exact Job.apply_serial_perm apart compatible (Trace.silent_of_quiet accepted.quiet)
      (perm.map job)
  · rw [alone.1, alone'.1]
    exact Job.events_apart_perm (perm.map job)
  · refine accepted.answers a ?_
    rw [alone'.2] at member
    rw [alone.2]
    exact ((perm.map job).map _).mem_iff.2 member

end Dispatcher

theorem Store.freeze_eq {s t : Store} (proper : s.WellFormed) (proper' : t.WellFormed)
    (frame : s.frame = t.frame) (cell : s.cell = t.cell)
    (diagnostics : s.diagnostics.normalize = t.diagnostics.normalize) : s.freeze = t.freeze := by
  obtain ⟨buffers, images⟩ := Store.contents_eq proper proper' frame (congrFun cell)
  rw [freeze, freeze, buffers, images, diagnostics, shader_of_frame frame]

namespace Dispatcher

/-- Two orders in which a dispatch without atomics succeeds end in the same snapshot, if loads of what
was stored to in parts are kept apart. -/
theorem snapshots_agree {d : Dispatcher} {s final final' : Store} {groups : Extent3}
    {order order' : List Invocation} (seeded : Seeded d.shader s) (free : d.shader.atomicFree)
    (small : d.shader.localSize.volume < 2 ^ 32)
    (few : groups.volume * d.shader.localSize.volume < 2 ^ 64)
    (policy : d.config.racePolicy = .reject)
    (perm : order.Perm (invocations d.shader.localSize groups))
    (perm' : order'.Perm (invocations d.shader.localSize groups))
    (ran : d.runAll s order = .ok final) (ran' : d.runAll s order' = .ok final')
    (apart : d.shader.Apart final.log) : final.freeze = final'.freeze := by
  have fresh := seeded.fresh
  obtain ⟨job, jobs⟩ := exists_jobs s free
  have accepted := accepted_of_runAll jobs fresh policy ran
  have accepted' := accepted_of_runAll jobs fresh policy ran'
  have distinct : (order.map Invocation.id).Nodup :=
    (perm.map Invocation.id).nodup_iff.2 (nodup_id_invocations small few)
  obtain ⟨cell, events, -⟩ := accepted.any_order jobs distinct
    (accepted.undisturbed jobs fresh apart) (perm.trans perm'.symm)
  refine Store.freeze_eq (accepted.wellFormed jobs fresh) (accepted'.wellFormed jobs fresh) ?_ ?_ ?_
  · rw [accepted.replayed, accepted'.replayed, Store.frame_replay, Store.frame_replay]
  · rw [← cell, accepted'.replayed, Store.cell_replay]
  · have nothing : Diagnostics.Unique [] := List.Pairwise.nil
    rw [accepted.replayed, accepted'.replayed, Store.diagnostics_replay, Store.diagnostics_replay,
      fresh.diagnostics]
    exact nothing.merge.normalize_eq (Diagnostics.merge_perm nothing events.symm)

/-- One workgroup of two invocations, with two buffers of pairs of two elements each. -/
def pairs (body : List Stmt) : Dispatcher where
  shader :=
    { name := "pairs", version := 310, extensions := [], localSize := ⟨2, 1, 1⟩,
      buffers :=
        [⟨0, "A", none, "P", .vector .uint .two, .readWrite⟩,
          ⟨1, "B", none, "Q", .vector .uint .two, .readWrite⟩],
      images := [], samplers := [], uniforms := [], locals := [], body }
  config := { bufferLength := 2 }

def localIndex : Expr := .builtin ⟨1, 1⟩ .localInvocationIndex

/-- `P[i].x += 1u; P[i].y = P[i].x;` -/
def counting : Dispatcher := pairs
  [.compound 1 ⟨.bufferElement 0 localIndex, [.swizzle [0]]⟩ .add (.literal ⟨1, 1⟩ (.uint 1)),
    .assign 2 [⟨.bufferElement 0 localIndex, [.swizzle [1]]⟩]
      (.swizzle ⟨2, 1⟩ (.bufferElement ⟨2, 1⟩ 0 localIndex) [0])]

theorem snapshots_agree_counting :
    let store := Store.create counting.shader counting.config
    let order := invocations counting.shader.localSize ⟨1, 1, 1⟩
    counting.shader.loads 0 ∧ counting.shader.storesParts 0 ∧
      ∃ final final', counting.runAll store order = .ok final ∧
        counting.runAll store order.reverse = .ok final' ∧ final.freeze = final'.freeze := by
  intro store order
  have separate : (counting.runAll store order).toOption.any fun final =>
      final.log.entries.all fun e => e.2.writers.all fun me => e.2.changers.all (· = me) := by
    decide +kernel
  have succeeds : (counting.runAll store order.reverse).toOption.any fun _ => true := by
    decide +kernel
  obtain ⟨final, ran, separate⟩ := exists_ok separate
  obtain ⟨final', ran', -⟩ := exists_ok succeeds
  refine ⟨by decide, by decide, final, final', ran, ran', ?_⟩
  refine snapshots_agree (.created _) (by decide) (by decide) (by decide) rfl (.refl _)
    (List.reverse_perm _) ran ran' fun binding _ _ i log found me wrote o changed => ?_
  have entry := List.all_eq_true.1 separate _ (AccessLog.mem_of_get? found)
  exact of_decide_eq_true (List.all_eq_true.1 (List.all_eq_true.1 entry me wrote) o changed)

/-- Two invocations that store to a part of an element and then load the rest of it. -/
def crossing : String :=
  "#version 310 es\n" ++
  "layout(local_size_x = 2) in;\n" ++
  "layout(binding = 0) buffer A \x7b uvec2 P[]; \x7d;\n" ++
  "layout(binding = 1) buffer B \x7b uvec2 Q[]; \x7d;\n" ++
  "void main() \x7b\n" ++
  "  if (gl_LocalInvocationIndex == 0u) \x7b\n" ++
  "    P[0].x = 1u;\n" ++
  "    Q[0] = uvec2(1u, 1u - P[0].y);\n" ++
  "  \x7d else \x7b\n" ++
  "    Q[0].x = 1u;\n" ++
  "    P[0] = uvec2(1u, 1u - Q[0].y);\n" ++
  "  \x7d\n" ++
  "\x7d\n"

/-- A load of an element that the invocation stored a part of goes unnoticed: each of the two
invocations takes over what the other one left, whichever is first. -/
theorem snapshots_differ :
    ∃ shader, Shader.load "crossing" crossing = .ok shader ∧ shader.atomicFree ∧
      let d : Dispatcher := { shader, config := { bufferLength := 2 } }
      let store := Store.create shader d.config
      let order := invocations shader.localSize ⟨1, 1, 1⟩
      ∃ final final', d.runAll store order = .ok final ∧ d.runAll store order.reverse = .ok final' ∧
        final.freeze ≠ final'.freeze := by
  have outcome : (Shader.load "crossing" crossing).toOption.any fun shader =>
      let d : Dispatcher := { shader, config := { bufferLength := 2 } }
      let store := Store.create shader d.config
      let order := invocations shader.localSize ⟨1, 1, 1⟩
      shader.atomicFree && (d.runAll store order).toOption.any fun final =>
        (d.runAll store order.reverse).toOption.any fun final' => final.freeze != final'.freeze := by
    decide +kernel
  obtain ⟨shader, loaded, outcome⟩ := exists_ok outcome
  obtain ⟨free, outcome⟩ := Bool.and_eq_true_iff.1 outcome
  obtain ⟨final, ran, outcome⟩ := exists_ok outcome
  obtain ⟨final', ran', differ⟩ := exists_ok outcome
  exact ⟨shader, loaded, free, final, final', ran, ran', bne_iff_ne.1 differ⟩

theorem events_withoutRaces {d : Dispatcher} {s : Store} {order : List Invocation}
    {job : Invocation → Job (Option EngineError)} (jobs : d.Jobs s job) {m : Memory} :
    Diagnostics.withoutRaces (Trace.events (Job.serial (order.map job) m)) =
      Trace.events (Job.serial (order.map job) m) := by
  refine List.filter_eq_self.2 fun e member => ?_
  obtain ⟨⟨me, effect⟩, happens, counted⟩ := List.mem_filterMap.1 member
  have allowed := allowed_of_mem_serial jobs happens
  cases effect with
  | note kind message =>
    cases counted
    exact decide_eq_true allowed
  | load | store | atomic => cases counted

/-- Whatever order the invocations of an accepted sequential dispatch run in, reporting races: without
these reports the snapshot is the same. -/
theorem accepted_in_any_order {d : Dispatcher} {s : Store} {groups : Extent3} {snapshot : Snapshot}
    {order : List Invocation} (seeded : Seeded d.shader s) (free : d.shader.atomicFree)
    (whole : d.shader.storesWhole) (small : d.shader.localSize.volume < 2 ^ 32)
    (few : groups.volume * d.shader.localSize.volume < 2 ^ 64) (stage : d.stage = .initialized)
    (schedule : d.config.schedule = .sequential) (policy : d.config.racePolicy = .reject)
    (accepts : (d.dispatch s groups).1 = .ok snapshot)
    (perm : order.Perm (invocations d.shader.localSize groups)) :
    let lenient : Dispatcher := { d with config := { d.config with racePolicy := .report } }
    ∃ final, lenient.runAll s order = .ok final ∧
      { final.freeze with diagnostics := final.freeze.diagnostics.withoutRaces } = snapshot := by
  intro lenient
  have fresh := seeded.fresh
  obtain ⟨job, jobs⟩ := exists_jobs s free
  have reports : lenient.Jobs s job := jobs
  obtain ⟨first, ran, rfl⟩ := exists_runAll_of_dispatch stage schedule accepts
  have accepted := accepted_of_runAll jobs fresh policy ran
  have undisturbed := accepted.undisturbed jobs fresh fun binding _ parts => by
    obtain ⟨⟨t, loaded⟩, member, part⟩ := List.any_eq_true.1 parts
    have unparted : t.isPart = false := by simpa using List.all_eq_true.1 whole _ member
    simp [unparted] at part
  obtain ⟨cell, events, answers⟩ := accepted.any_order jobs (nodup_id_invocations small few)
    undisturbed perm.symm
  have nothing : Diagnostics.Unique [] := List.Pairwise.nil
  obtain ⟨final, ran', frame, proper, unique, cell', diagnostics⟩ := runAll_of_answers reports rfl
    rfl fresh.wellFormed (fresh.diagnostics ▸ nothing) answers
  refine ⟨final, ran', ?_⟩
  have same_frame : final.frame = first.frame := by
    rw [frame, accepted.replayed, Store.frame_replay]
  obtain ⟨buffers, images⟩ := Store.contents_eq proper (accepted.wellFormed jobs fresh) same_frame
    (congrFun (cell'.trans cell))
  have same : final.freeze.diagnostics.withoutRaces = first.freeze.diagnostics := by
    rw [Store.freeze, Store.freeze, Diagnostics.withoutRaces_normalize unique, diagnostics,
      fresh.diagnostics, Diagnostics.withoutRaces_merge, events_withoutRaces jobs, accepted.replayed,
      Store.diagnostics_replay, fresh.diagnostics]
    exact nothing.merge.normalize_eq (Diagnostics.merge_perm nothing events)
  rw [same, Store.freeze, Store.freeze, buffers, images, Store.shader_of_frame same_frame]

/-- `P[i] = Q[9] + uvec2(i);` -/
def copying : Dispatcher := pairs
  [.assign 1 [⟨.bufferElement 0 localIndex, []⟩]
    (.binary ⟨1, 1⟩ .add (.bufferElement ⟨1, 1⟩ 1 (.literal ⟨1, 1⟩ (.uint 9)))
      (.construct ⟨1, 1⟩ (.vector .uint .two) [localIndex]))]

theorem accepted_in_any_order_copying :
    let order := invocations copying.shader.localSize ⟨1, 1, 1⟩
    let lenient : Dispatcher :=
      { copying with config := { copying.config with racePolicy := .report } }
    ∃ store snapshot, Seeded copying.shader store ∧
      (copying.dispatch store ⟨1, 1, 1⟩).1 = .ok snapshot ∧
      (snapshot.buffers.get? 0).map BufferSnapshot.lanes = some [3, 5, 4, 6] ∧
      snapshot.diagnostics.count .outOfBounds = 2 ∧
      ∃ final, lenient.runAll store order.reverse = .ok final ∧
        { final.freeze with diagnostics := final.freeze.diagnostics.withoutRaces } = snapshot := by
  intro order lenient
  let second := Seeding.element 1 1 (.ofBits (.vector .uint .two) [3, 5])
  have succeeds : (second.after? (.create copying.shader copying.config)).any fun store =>
      (copying.dispatch store ⟨1, 1, 1⟩).1.toOption.any fun snapshot =>
        (snapshot.buffers.get? 0).map BufferSnapshot.lanes == some [3, 5, 4, 6] &&
          snapshot.diagnostics.count .outOfBounds == 2 := by
    decide +kernel
  obtain ⟨store, -, seeded, succeeds⟩ := Seeded.of_after? (.created _) succeeds
  obtain ⟨snapshot, accepts, noted⟩ := exists_ok succeeds
  obtain ⟨lanes, noted⟩ := Bool.and_eq_true_iff.1 noted
  exact ⟨store, snapshot, seeded, accepts, eq_of_beq lanes, eq_of_beq noted, accepted_in_any_order seeded
    (by decide) (by decide) (by decide) (by decide) rfl rfl rfl accepts (List.reverse_perm _)⟩

end Dispatcher

end ComputeShader
