import Mathlib.Data.List.Nodup
import ComputeShader.Proofs.Process
import ComputeShader.Proofs.ProjectedStores

/-! # Serial runs

Jobs run one after another on one memory, each to its end. A run is undisturbed if nobody changes what
another job exposes; then every job does what it would do alone, in the given order and in any other
one. If moreover no element is reported, the last job to store to an element left there what every
other job that stored to it had left, so that any order ends in the same memory.
-/

namespace ComputeShader

/-- Once an invocation has stored to an element, an unreported history goes on without it only by
repeating what is there. -/
theorem History.lastStore_append_of_silent {h h' : History} {baseline : List UInt32}
    {i : InvocationId} (silent : (ElementLog.fresh baseline).Silent (h ++ h')) (stored : h.Writes i)
    (absent : ∀ visit ∈ h', visit.1 ≠ i) : (h ++ h').lastStore = h.lastStore := by
  induction h' using List.reverseRecOn with
  | nil => rw [List.append_nil]
  | append_singleton before visit ih =>
    obtain ⟨o, t⟩ := visit
    rw [← List.append_assoc] at silent ⊢
    obtain ⟨quiet, harmless⟩ := ElementLog.silent_snoc.1 silent
    have earlier := ih quiet fun v member => absent v (List.mem_append_left _ member)
    cases t with
    | read => rw [lastStore_snoc_read, earlier]
    | atomic => rw [lastStore_snoc_atomic, earlier]
    | write bits =>
      have here := writes_append (k := before).2 (.inl stored)
      have other : i ≠ o := (absent (o, .write bits) (by simp)).symm
      have repeated := harmless.2.1.resolve_right fun alone => other (alone i here)
      cases last : (h ++ before).lastStore with
      | none => exact (lastStore_eq_none_iff.1 last i here).elim
      | some found => rw [lastStore_snoc_write, repeated found last, ← earlier, last]

/-- An invocation with what it is to do. -/
structure Job (β : Type) where
  me : InvocationId
  process : Process β

namespace Patch

/-- One patch after another. -/
def onto (later earlier : Patch) : Patch := fun i => (later i).or (earlier i)

theorem apply_onto {later earlier : Patch} {bits : List UInt32} :
    (later.onto earlier).apply bits = later.apply (earlier.apply bits) := by
  refine List.ext_getElem? fun i => ?_
  cases new : later i <;> simp [onto, new, Function.comp_def]

/-- Where a patch that fixes one content stores something, it leads to that content from any. -/
theorem getElem?_apply_of_fixed {patch : Patch} {final bits : List UInt32} {i : Nat}
    (fixed : patch.apply final = final) (same : bits.length = final.length)
    (stores : (patch i).isSome) : (patch.apply bits)[i]? = final[i]? := by
  obtain ⟨w, new⟩ := Option.isSome_iff_exists.1 stores
  have held : final[i]? = final[i]?.map fun _ => w := by
    conv_lhs => rw [← fixed, getElem?_apply, new]
    rfl
  rw [held, getElem?_apply, new]
  rcases Nat.lt_or_ge i final.length with inside | outside
  · rw [List.getElem?_eq_getElem inside, List.getElem?_eq_getElem (same ▸ inside)]
    rfl
  · rw [List.getElem?_eq_none outside, List.getElem?_eq_none (same ▸ outside)]
    rfl

/-- Patches that all fix one content lead to it wherever one of them stores something. -/
theorem foldl_apply_of_fixed {α : Type} {Q : α → Patch} {xs : List α} {final bits : List UInt32}
    (fixed : ∀ x ∈ xs, (Q x).apply final = final) (same : bits.length = final.length) (i : Nat) :
    (xs.foldl (fun bits x => (Q x).apply bits) bits)[i]? =
      if ∃ x ∈ xs, (Q x i).isSome then final[i]? else bits[i]? := by
  induction xs generalizing bits with
  | nil => simp
  | cons x rest ih =>
    have later := @ih ((Q x).apply bits) (fun y member => fixed y (List.mem_cons_of_mem x member))
      (length_apply.trans same)
    rw [List.foldl_cons, later]
    by_cases stored : ∃ y ∈ rest, (Q y i).isSome
    · rw [if_pos stored, if_pos (stored.imp fun y both => ⟨List.mem_cons_of_mem x both.1, both.2⟩)]
    · rw [if_neg stored]
      by_cases here : (Q x i).isSome
      · rw [if_pos ⟨x, List.mem_cons_self, here⟩]
        exact getElem?_apply_of_fixed (fixed x List.mem_cons_self) same here
      · rw [if_neg (by simpa [here] using stored), getElem?_apply, Option.not_isSome_iff_eq_none.1 here]
        exact congrFun Option.map_id _

end Patch

namespace Trace

/-- The effects of one invocation. -/
def own (trace : Trace) (i : InvocationId) : List Effect :=
  (trace.filter fun visit => visit.1 = i).map Prod.snd

/-- Whether nobody changes a cell that another invocation exposes. -/
def Undisturbed (m : Memory) (trace : Trace) : Prop :=
  ∀ i place, Exposes place (m place).length (trace.own i) →
    ∀ o, o ≠ i → ¬ (history m trace place).Changes (m place) o

variable {m : Memory} {trace trace' : Trace} {place : Location} {i : InvocationId}
  {effects : List Effect} {e : Effect} {patch : Patch}

theorem own_append : (trace ++ trace').own i = trace.own i ++ trace'.own i := by
  simp [own]

theorem own_same : own (effects.map (i, ·)) i = effects := by
  simp [own, List.filter_map, Function.comp_def]

theorem own_eq_nil (absent : ∀ visit ∈ trace, visit.1 ≠ i) : trace.own i = [] := by
  simpa [own] using absent

/-- Who touches a cell has an effect in the trace. -/
theorem exists_of_mem_history {t : Touch} (touched : (i, t) ∈ history m trace place) :
    ∃ e, (i, e) ∈ trace := by
  induction trace generalizing m with
  | nil => cases touched
  | cons visit rest ih =>
    obtain ⟨j, e⟩ := visit
    rw [history_cons, List.mem_append] at touched
    rcases touched with first | later
    · obtain rfl : i = j := by
        cases e <;> simp [history_load, history_store, history_atomic] at first <;> exact first.2.1
      exact ⟨e, List.mem_cons_self⟩
    · obtain ⟨e', member⟩ := ih later
      exact ⟨e', List.mem_cons_of_mem _ member⟩

/-- A store in the history is that of an effect. -/
theorem exists_store_of_mem_history {bits : List UInt32}
    (stored : (i, .write bits) ∈ history m trace place) :
    ∃ patch, (i, .store place patch) ∈ trace := by
  induction trace generalizing m with
  | nil => cases stored
  | cons visit rest ih =>
    obtain ⟨j, e⟩ := visit
    rw [history_cons, List.mem_append] at stored
    rcases stored with first | later
    · cases e with
      | note | load | atomic => simp [history_load, history_atomic] at first
      | store here patch =>
        rw [history_store] at first
        split at first
        · next same =>
          subst same
          obtain ⟨rfl, -⟩ : i = j ∧ _ := by simpa using first
          exact ⟨patch, List.mem_cons_self⟩
        · cases first
    · obtain ⟨patch, member⟩ := ih later
      exact ⟨patch, List.mem_cons_of_mem _ member⟩

/-- Where the effects of one invocation come apart, so does the trace. -/
theorem exists_split_of_own {before after : List Effect} (split : trace.own i = before ++ e :: after) :
    ∃ first last, trace = first ++ (i, e) :: last ∧ first.own i = before := by
  induction trace generalizing before with
  | nil => simp [own] at split
  | cons visit rest ih =>
    obtain ⟨j, e'⟩ := visit
    by_cases mine : j = i
    · subst mine
      have here : own ((j, e') :: rest) j = e' :: own rest j := by simp [own]
      rw [here] at split
      cases before with
      | nil =>
        obtain ⟨rfl, -⟩ := List.cons.inj split
        exact ⟨[], rest, rfl, rfl⟩
      | cons head tail =>
        obtain ⟨rfl, later⟩ := List.cons.inj split
        obtain ⟨first, last, rfl, same⟩ := ih later
        exact ⟨(j, e') :: first, last, rfl, by simpa [own] using same⟩
    · have skipped : own ((j, e') :: rest) i = own rest i := by simp [own, mine]
      rw [skipped] at split
      obtain ⟨first, last, rfl, same⟩ := ih split
      exact ⟨(j, e') :: first, last, rfl, by simpa [own, mine] using same⟩

/-- Without reports nobody changes a cell that another invocation loads first. A load after a store
to a part of the cell is not noticed, so such cells are asked for. -/
theorem undisturbed_of_silent
    (silent : ∀ place, (ElementLog.fresh (m place)).Silent (history m trace place))
    (parts : ∀ i place patch, (i, .store place patch) ∈ trace → ¬ patch.Covers (m place).length →
      (i, .load place) ∈ trace → ∀ o, o ≠ i → ¬ (history m trace place).Changes (m place) o) :
    trace.Undisturbed m := by
  rintro i place ⟨before, after, split, uncovered⟩ o other changes
  obtain ⟨first, last, rfl, same⟩ := exists_split_of_own split
  have loaded : (i, .load place) ∈ first ++ (i, .load place) :: last := by simp
  by_cases stored : ∃ patch, .store place patch ∈ before
  · obtain ⟨patch, stored⟩ := stored
    refine parts i place patch ?_ (uncovered patch stored) loaded o other changes
    rw [← same] at stored
    obtain ⟨⟨j, e⟩, listed, rfl⟩ := List.mem_map.1 stored
    obtain ⟨member, rfl⟩ : _ ∧ j = i := by simpa using List.mem_filter.1 listed
    exact List.mem_append_left _ member
  · obtain ⟨-, unraced, -⟩ := ElementLog.silent_iff.1 (silent place)
    refine unraced ⟨o, i, other, changes, ?_⟩
    refine ⟨history m first place, history (first.apply m) last place, ?_, ?_⟩
    · rw [history_append, history_cons, history_load, if_pos rfl]
      rfl
    · rintro ⟨bits, wrote⟩
      obtain ⟨patch, member⟩ := exists_store_of_mem_history wrote
      refine stored ⟨patch, same ▸ List.mem_map.2 ⟨_, List.mem_filter.2 ⟨member, ?_⟩, rfl⟩⟩
      simp

/-- A cell without atomics that nobody changes stays as it is. -/
theorem apply_eq_of_unchanged (plain : ∀ o, ¬ (history m trace place).Atomic o)
    (unchanged : ∀ o, ¬ (history m trace place).Changes (m place) o) :
    trace.apply m place = m place := by
  rw [apply_eq_lastStore plain]
  cases last : (history m trace place).lastStore with
  | none => rfl
  | some bits =>
    obtain ⟨o, stored⟩ := History.exists_write_of_lastStore last
    by_contra differ
    exact unchanged o ⟨bits, stored, differ⟩

/-- A cell that every store fixes stays as it is. -/
theorem apply_eq_of_fixed {bits : List UInt32} (holds : m place = bits)
    (plain : ∀ visit ∈ trace, ∀ change, visit.2 ≠ .atomic place change)
    (fixed : ∀ visit ∈ trace, ∀ patch, visit.2 = .store place patch → patch.apply bits = bits) :
    trace.apply m place = bits := by
  induction trace generalizing m with
  | nil => exact holds
  | cons visit rest ih =>
    refine ih ?_ (fun v member => plain v (List.mem_cons_of_mem _ member))
      fun v member => fixed v (List.mem_cons_of_mem _ member)
    obtain ⟨j, e⟩ := visit
    cases e with
    | note | load => exact holds
    | store here patch =>
      by_cases same : here = place
      · subst same
        simpa [Effect.apply, holds] using fixed _ List.mem_cons_self patch rfl
      · simpa [Effect.apply, Function.update_of_ne (Ne.symm same)] using holds
    | atomic here change =>
      by_cases same : here = place
      · subst same
        exact (plain _ List.mem_cons_self change rfl).elim
      · simpa [Effect.apply, Function.update_of_ne (Ne.symm same)] using holds

theorem not_atomic (plain : ∀ visit ∈ trace, ∀ change, visit.2 ≠ .atomic place change)
    (o : InvocationId) : ¬ (history m trace place).Atomic o := by
  induction trace generalizing m with
  | nil => simp [History.Atomic]
  | cons visit rest ih =>
    obtain ⟨j, e⟩ := visit
    rw [history_cons]
    intro used
    rcases List.mem_append.1 used with first | later
    · cases e <;> simp [history_load, history_store, history_atomic] at first
      exact plain _ List.mem_cons_self _ (congrArg (Effect.atomic · _) first.1)
    · exact ih (fun v member => plain v (List.mem_cons_of_mem _ member)) later

theorem length_apply : (trace.apply m place).length = (m place).length := by
  induction trace generalizing m with
  | nil => rfl
  | cons visit rest ih =>
    refine ih.trans ?_
    obtain ⟨i, e⟩ := visit
    cases e with
    | note | load => rfl
    | store here patch | atomic here change =>
      by_cases same : place = here
      · subst same
        simp [Effect.apply]
      · simp [Effect.apply, Function.update_of_ne same]

/-- A store leaves in the history what it made of some content. -/
theorem exists_write_of_store (stored : (i, .store place patch) ∈ trace) :
    ∃ bits, (i, .write (patch.apply bits)) ∈ history m trace place := by
  induction trace generalizing m with
  | nil => cases stored
  | cons visit rest ih =>
    obtain ⟨j, e⟩ := visit
    rw [history_cons]
    rcases List.mem_cons.1 stored with here | later
    · obtain ⟨rfl, rfl⟩ := Prod.mk.inj here
      exact ⟨m place, List.mem_append_left _ (by simp [history_store])⟩
    · obtain ⟨bits, member⟩ := ih later
      exact ⟨bits, List.mem_append_right _ member⟩

end Trace

namespace Process

variable {β : Type}

/-- Processes have no atomics. -/
theorem obeys_ne_atomic (p : Process β) (place : Location) (change : UInt32 → UInt32) :
    p.Obeys (· ≠ .atomic place change) := by
  induction p with
  | done a => trivial
  | note kind message next ih => exact ⟨by simp, ih⟩
  | load here next ih => exact ⟨by simp, ih⟩
  | store here patch next ih => exact ⟨by simp, ih⟩

theorem atomic_not_mem_effects (p : Process β) (m : Memory) (place : Location)
    (change : UInt32 → UInt32) : .atomic place change ∉ p.effects m :=
  fun member => (p.obeys_ne_atomic place change).effects member rfl

end Process

/-- Effects without atomics patch every cell. -/
theorem Memory.exists_patch (effects : List Effect) (place : Location)
    (plain : ∀ change, .atomic place change ∉ effects) :
    ∃ patch : Patch, ∀ m : Memory, m.after effects place = patch.apply (m place) := by
  induction effects with
  | nil => exact ⟨.nothing, fun m => Patch.apply_nothing.symm⟩
  | cons e rest ih =>
    obtain ⟨later, patches⟩ := ih fun change member => plain change (List.mem_cons_of_mem e member)
    have moved (m : Memory) : m.after (e :: rest) place = later.apply (e.apply m place) :=
      patches (e.apply m)
    cases e with
    | note | load => exact ⟨later, moved⟩
    | store here patch =>
      by_cases same : here = place
      · subst same
        refine ⟨later.onto patch, fun m => ?_⟩
        rw [moved, Patch.apply_onto]
        simp [Effect.apply]
      · refine ⟨later, fun m => ?_⟩
        rw [moved]
        simp [Effect.apply, Function.update_of_ne (Ne.symm same)]
    | atomic here change =>
      refine ⟨later, fun m => ?_⟩
      have elsewhere : place ≠ here := by
        rintro rfl
        exact plain change List.mem_cons_self
      rw [moved]
      simp [Effect.apply, Function.update_of_ne elsewhere]

namespace Job

variable {β : Type} {jobs jobs' : List (Job β)} {j : Job β} {m : Memory} {place : Location}

/-- What a job does when it finds the given cells. -/
def trace (j : Job β) (m : Memory) : Trace := (j.process.effects m).map (j.me, ·)

/-- Jobs one after another, each on what the one before it left. -/
def serial : List (Job β) → Memory → Trace
  | [], _ => []
  | j :: rest, m => j.trace m ++ serial rest ((j.trace m).apply m)

/-- What the jobs of a serial run end with. -/
def answers : List (Job β) → Memory → List β
  | [], _ => []
  | j :: rest, m => j.process.answer m :: answers rest ((j.trace m).apply m)

/-- Jobs each on the same memory. -/
def apart (jobs : List (Job β)) (m : Memory) : Trace := jobs.flatMap fun j => j.trace m

/-- Whether every cell that a job alone exposes is left as it is by the other jobs. -/
def Compatible (jobs : List (Job β)) (m : Memory) : Prop :=
  ∀ i ∈ jobs, ∀ j ∈ jobs, i.me ≠ j.me → ∀ place,
    Exposes place (m place).length (j.process.effects m) →
      ∀ patch, .store place patch ∈ i.process.effects m → patch.apply (m place) = m place

theorem apply_trace {m' : Memory} : (j.trace m).apply m' = m'.after (j.process.effects m) := by
  rw [trace, Trace.apply, List.foldl_map]
  rfl

theorem serial_append : serial (jobs ++ jobs') m =
    serial jobs m ++ serial jobs' ((serial jobs m).apply m) := by
  induction jobs generalizing m with
  | nil => rfl
  | cons j rest ih =>
    rw [List.cons_append, serial, ih, serial, List.append_assoc, Trace.apply_append]

theorem answers_append : answers (jobs ++ jobs') m =
    answers jobs m ++ answers jobs' ((serial jobs m).apply m) := by
  induction jobs generalizing m with
  | nil => rfl
  | cons j rest ih => rw [List.cons_append, answers, ih, answers, serial, Trace.apply_append]; rfl

theorem serial_singleton : serial [j] m = j.trace m := by
  rw [serial, serial, List.append_nil]

theorem me_of_mem_trace {visit : InvocationId × Effect} (member : visit ∈ j.trace m) :
    visit.1 = j.me := by
  obtain ⟨e, -, rfl⟩ := List.mem_map.1 member
  rfl

theorem exists_of_mem_serial {visit : InvocationId × Effect} (member : visit ∈ serial jobs m) :
    ∃ j ∈ jobs, visit.1 = j.me := by
  induction jobs generalizing m with
  | nil => cases member
  | cons j rest ih =>
    rcases List.mem_append.1 member with here | later
    · exact ⟨j, List.mem_cons_self, me_of_mem_trace here⟩
    · obtain ⟨j', among, same⟩ := ih later
      exact ⟨j', List.mem_cons_of_mem j among, same⟩

theorem obeys_of_mem_serial {allowed : Effect → Prop} {visit : InvocationId × Effect}
    (obeys : ∀ j ∈ jobs, j.process.Obeys allowed) (member : visit ∈ serial jobs m) :
    allowed visit.2 := by
  induction jobs generalizing m with
  | nil => cases member
  | cons j rest ih =>
    rcases List.mem_append.1 member with here | later
    · obtain ⟨e, happens, rfl⟩ := List.mem_map.1 here
      exact (obeys j List.mem_cons_self).effects happens
    · exact ih (fun j' among => obeys j' (List.mem_cons_of_mem j among)) later

theorem atomic_not_mem_serial {visit : InvocationId × Effect} (member : visit ∈ serial jobs m)
    (change : UInt32 → UInt32) : visit.2 ≠ .atomic place change :=
  obeys_of_mem_serial (fun j _ => j.process.obeys_ne_atomic place change) member

theorem own_serial_of_not_mem {i : InvocationId} (absent : i ∉ jobs.map Job.me) :
    (serial jobs m).own i = [] := by
  refine Trace.own_eq_nil fun visit member same => absent ?_
  obtain ⟨j, among, me⟩ := exists_of_mem_serial member
  exact List.mem_map.2 ⟨j, among, me.symm.trans same⟩

variable {before after : List (Job β)}

theorem serial_split (split : jobs = before ++ j :: after) : serial jobs m =
    serial before m ++ (j.trace ((serial before m).apply m) ++
      serial after ((serial (before ++ [j]) m).apply m)) := by
  rw [split, List.append_cons, serial_append, serial_append, serial_singleton, List.append_assoc]

theorem own_serial (distinct : (jobs.map Job.me).Nodup) (split : jobs = before ++ j :: after) :
    (serial jobs m).own j.me = j.process.effects ((serial before m).apply m) := by
  rw [split, List.map_append, List.nodup_append] at distinct
  obtain ⟨-, later, disjoint⟩ := distinct
  rw [serial_split split, Trace.own_append, Trace.own_append, trace, Trace.own_same,
    own_serial_of_not_mem, own_serial_of_not_mem, List.nil_append, List.append_nil]
  · exact (List.nodup_cons.1 later).1
  · exact fun member => disjoint _ member _ (by simp) rfl

/-- In an undisturbed run every job does what it would do alone. -/
theorem effects_of_undisturbed (distinct : (jobs.map Job.me).Nodup)
    (undisturbed : (serial jobs m).Undisturbed m) (split : jobs = before ++ j :: after) :
    j.process.effects ((serial before m).apply m) = j.process.effects m := by
  have mine := @own_serial _ _ _ m _ _ distinct split
  rw [split, List.map_append, List.nodup_append] at distinct
  refine (Process.effects_congr (fun _ => Trace.length_apply) fun place exposes => ?_).1
  rw [Trace.length_apply, ← mine] at exposes
  refine Trace.apply_eq_of_unchanged
    (Trace.not_atomic fun visit member => atomic_not_mem_serial member) fun o changes => ?_
  obtain ⟨bits, stored, differ⟩ := changes
  have other : o ≠ j.me := by
    obtain ⟨e, member⟩ := Trace.exists_of_mem_history stored
    obtain ⟨i, among, me⟩ := exists_of_mem_serial member
    exact fun same => distinct.2.2 _ (List.mem_map_of_mem among) _ (by simp) (me.symm.trans same)
  refine undisturbed j.me place exposes o other ⟨bits, ?_, differ⟩
  rw [serial_split split, Trace.history_append]
  exact List.mem_append_left _ stored

/-- What other jobs store to a cell that a job exposes leaves it as it is. -/
theorem compatible_of_undisturbed (distinct : (jobs.map Job.me).Nodup)
    (undisturbed : (serial jobs m).Undisturbed m) : Compatible jobs m := by
  have alone : ∀ j ∈ jobs, (serial jobs m).own j.me = j.process.effects m := by
    intro j among
    obtain ⟨before, after, split⟩ := List.append_of_mem among
    rw [own_serial distinct split, effects_of_undisturbed distinct undisturbed split]
  intro i i_among j j_among differ place exposes patch stores
  rw [← alone j j_among] at exposes
  rw [← alone i i_among] at stores
  obtain ⟨⟨me, e⟩, member, rfl⟩ := List.mem_map.1 stores
  obtain ⟨stored, rfl⟩ : _ ∧ me = i.me := by simpa using List.mem_filter.1 member
  obtain ⟨bits, wrote⟩ := @Trace.exists_write_of_store m _ _ _ _ stored
  have unchanged := undisturbed j.me place exposes i.me differ
  have same : patch.apply bits = m place := by
    by_contra change
    exact unchanged ⟨_, wrote, change⟩
  rw [← same, Patch.apply_apply]

/-- Compatible jobs do what they would do alone. -/
theorem serial_eq_apart (distinct : (jobs.map Job.me).Nodup) (compatible : Compatible jobs m) :
    serial jobs m = apart jobs m ∧ answers jobs m = jobs.map fun j => j.process.answer m := by
  induction jobs using List.reverseRecOn with
  | nil => exact ⟨rfl, rfl⟩
  | append_singleton before j ih =>
    rw [List.map_append, List.nodup_append] at distinct
    have earlier := ih distinct.1 fun i i_among j j_among =>
      compatible i (List.mem_append_left _ i_among) j (List.mem_append_left _ j_among)
    have same := @Process.effects_congr _ j.process m ((serial before m).apply m)
      (fun _ => Trace.length_apply.symm) fun place exposes => by
        refine (Trace.apply_eq_of_fixed rfl (fun visit member => atomic_not_mem_serial member) ?_).symm
        intro visit member patch stores
        rw [earlier.1] at member
        obtain ⟨i, among, happens⟩ := List.mem_flatMap.1 member
        obtain ⟨e, effect, rfl⟩ := List.mem_map.1 happens
        obtain rfl : e = .store place patch := stores
        refine compatible i (List.mem_append_left _ among) j (by simp) ?_ place exposes patch effect
        exact fun same => distinct.2.2 _ (List.mem_map_of_mem among) _ (by simp) same
    constructor
    · rw [serial_append, serial_singleton, apart, List.flatMap_append, List.flatMap_singleton,
        trace, trace, ← same.1, earlier.1]
      rfl
    · rw [answers_append, earlier.2, List.map_append, answers, answers, ← same.2]
      rfl

theorem events_apart_perm (perm : jobs.Perm jobs') :
    (Trace.events (apart jobs' m)).Perm (Trace.events (apart jobs m)) :=
  (perm.symm.flatMap_right _).filterMap _

theorem Compatible.sublist (compatible : Compatible jobs m) (sublist : jobs'.Sublist jobs) :
    Compatible jobs' m :=
  fun i i_among j j_among => compatible i (sublist.subset i_among) j (sublist.subset j_among)

theorem Compatible.perm (compatible : Compatible jobs m) (perm : jobs.Perm jobs') :
    Compatible jobs' m :=
  fun i i_among j j_among => compatible i (perm.mem_iff.2 i_among) j (perm.mem_iff.2 j_among)

/-! ## The memory in the end -/

theorem not_atomic_serial (o : InvocationId) :
    ¬ (Trace.history m (serial jobs m) place).Atomic o :=
  Trace.not_atomic (fun _ member => atomic_not_mem_serial member) o

/-- Without reports, what a job leaves in a cell that it stores to is what the run leaves there. -/
theorem apply_serial_of_store (distinct : (jobs.map Job.me).Nodup)
    (silent : (ElementLog.fresh (m place)).Silent (Trace.history m (serial jobs m) place))
    (split : jobs = before ++ j :: after) {patch : Patch}
    (stored : (j.me, .store place patch) ∈ serial (before ++ [j]) m) :
    (serial jobs m).apply m place = (serial (before ++ [j]) m).apply m place := by
  have runs : serial jobs m = serial (before ++ [j]) m ++
      serial after ((serial (before ++ [j]) m).apply m) := by
    rw [split, List.append_cons, serial_append]
  obtain ⟨bits, wrote⟩ := @Trace.exists_write_of_store m _ _ _ _ stored
  rw [Trace.apply_eq_lastStore not_atomic_serial, Trace.apply_eq_lastStore not_atomic_serial]
  rw [runs, Trace.history_append] at silent ⊢
  rw [History.lastStore_append_of_silent silent ⟨_, wrote⟩ fun visit member same => ?_]
  obtain ⟨e, happens⟩ := Trace.exists_of_mem_history member
  obtain ⟨i, among, me⟩ := exists_of_mem_serial happens
  rw [split, List.map_append, List.nodup_append] at distinct
  exact (List.nodup_cons.1 distinct.2.1).1 (List.mem_map.2 ⟨i, among, me.symm.trans same⟩)

theorem apply_apart {Q : Job β → Patch} {m' : Memory}
    (patches : ∀ j (m' : Memory), m'.after (j.process.effects m) place = (Q j).apply (m' place)) :
    (apart jobs m).apply m' place = jobs.foldl (fun bits j => (Q j).apply bits) (m' place) := by
  induction jobs generalizing m' with
  | nil => rfl
  | cons j rest ih =>
    rw [apart, List.flatMap_cons, Trace.apply_append, ← apart, ih, apply_trace, patches,
      List.foldl_cons]

/-- Compatible jobs of which no element is reported end in the same memory in any order. -/
theorem apply_serial_perm (distinct : (jobs.map Job.me).Nodup) (compatible : Compatible jobs m)
    (silent : ∀ place, (ElementLog.fresh (m place)).Silent (Trace.history m (serial jobs m) place))
    (perm : jobs.Perm jobs') : (serial jobs' m).apply m = (serial jobs m).apply m := by
  funext place
  choose Q patches using fun j : Job β => Memory.exists_patch (j.process.effects m) place
    (j.process.atomic_not_mem_effects m place)
  have alone := (serial_eq_apart distinct compatible).1
  have alone' := (serial_eq_apart ((perm.map Job.me).nodup_iff.1 distinct) (compatible.perm perm)).1
  have fixed : ∀ j ∈ jobs,
      (Q j).apply ((serial jobs m).apply m place) = (serial jobs m).apply m place := by
    intro j among
    by_cases stores : ∃ patch, .store place patch ∈ j.process.effects m
    · obtain ⟨patch, stores⟩ := stores
      obtain ⟨before, after, split⟩ := List.append_of_mem among
      have first : (before ++ [j]).Sublist jobs := by
        rw [split]
        exact (List.singleton_sublist.2 List.mem_cons_self).append_left before
      have alone := (serial_eq_apart ((first.map Job.me).nodup distinct)
        (compatible.sublist first)).1
      have stored : (j.me, .store place patch) ∈ serial (before ++ [j]) m := by
        rw [alone, apart, List.flatMap_append, List.flatMap_singleton]
        exact List.mem_append_right _ (List.mem_map_of_mem stores)
      rw [apply_serial_of_store distinct (silent place) split stored, alone, apply_apart patches,
        List.foldl_concat, Patch.apply_apply]
    · rw [← patches, ← apply_trace]
      refine Trace.apply_eq_of_fixed rfl ?_ ?_
      · intro visit member change
        obtain ⟨e, happens, rfl⟩ := List.mem_map.1 member
        rintro rfl
        exact j.process.atomic_not_mem_effects m place change happens
      · intro visit member patch stored
        obtain ⟨e, happens, rfl⟩ := List.mem_map.1 member
        obtain rfl : e = .store place patch := stored
        exact (stores ⟨patch, happens⟩).elim
  refine List.ext_getElem? fun i => ?_
  have same : (m place).length = ((serial jobs m).apply m place).length := Trace.length_apply.symm
  have run := @Patch.foldl_apply_of_fixed _ Q jobs _ _ fixed same i
  have run' := @Patch.foldl_apply_of_fixed _ Q jobs' _ _
    (fun j among => fixed j (perm.mem_iff.2 among)) same i
  rw [← apply_apart patches] at run run'
  rw [← alone] at run
  rw [alone', run']
  simp only [← perm.mem_iff]
  exact run.symm

end Job

end ComputeShader
