import ComputeShader.Proofs.StoreCalls

/-! # Isolation of accesses

As long as no access has left a conflict, an invocation that loads an element without atomics cannot
tell that there are others: it finds what it stored there last, or what the element held to begin
with. This holds for calls of any invocations in any order, one at a time.
-/

namespace ComputeShader

namespace History

variable {h : History} {baseline : List UInt32} {i : InvocationId}

/-- What one invocation stored last. -/
def ownStore (h : History) (i : InvocationId) : Option (List UInt32) :=
  lastStore (h.filter fun visit => visit.1 = i)

/-- After a store of its own, an invocation sees others repeat what is there already. -/
theorem lastStore_eq_ownStore (silent : (ElementLog.fresh baseline).Silent h) (mine : h.Writes i) :
    h.lastStore = h.ownStore i := by
  induction h using List.reverseRecOn with
  | nil => exact (writes_nil mine).elim
  | append_singleton before visit ih =>
    obtain ⟨j, t⟩ := visit
    obtain ⟨quiet, harmless⟩ := ElementLog.silent_snoc.1 silent
    rw [ownStore, List.filter_append]
    by_cases own : j = i
    · subst own
      rw [List.filter_cons_of_pos (by simp), List.filter_nil]
      cases t with
      | write bits => simp
      | read =>
        rw [lastStore_snoc_read, lastStore_snoc_read]
        exact ih quiet (by simpa [writes_snoc] using mine)
      | atomic =>
        rw [lastStore_snoc_atomic, lastStore_snoc_atomic]
        exact ih quiet (by simpa [writes_snoc] using mine)
    · have earlier : Writes before i := by simpa [writes_snoc, Ne.symm own] using mine
      rw [List.filter_cons_of_neg (by simpa using own), List.filter_nil, List.append_nil]
      refine Eq.trans ?_ (ih quiet earlier)
      cases t with
      | read => exact lastStore_snoc_read
      | atomic => exact lastStore_snoc_atomic
      | write bits =>
        rw [lastStore_snoc_write]
        cases last : lastStore before with
        | none => exact (lastStore_eq_none_iff.1 last i earlier).elim
        | some bits' =>
          rcases harmless.2.1 with agree | lone
          · rw [agree bits' last]
          · exact (own (lone i earlier).symm).elim

/-- What an unreported read finds is what the reader stored last, or the baseline. -/
theorem lastStore_of_read (silent : (ElementLog.fresh baseline).Silent (h ++ [(i, .read)])) :
    h.lastStore.getD baseline = (h.ownStore i).getD baseline := by
  obtain ⟨quiet, -, seen⟩ := ElementLog.silent_snoc.1 silent
  by_cases mine : h.Writes i
  · rw [lastStore_eq_ownStore quiet mine]
  · have never : h.ownStore i = none :=
      lastStore_eq_none_iff.2 fun j ⟨bits, member⟩ => by
        obtain ⟨held, rfl⟩ : (j, Touch.write bits) ∈ h ∧ j = i := by
          simpa using List.mem_filter.1 member
        exact mine ⟨bits, held⟩
    rw [never]
    cases last : h.lastStore with
    | none => rfl
    | some bits =>
      -- A store of anything but the baseline would have been one of the reader's own.
      obtain ⟨j, member⟩ := exists_write_of_lastStore last
      by_contra change
      have alone := seen.resolve_left mine j ⟨bits, member, change⟩
      exact mine ⟨bits, alone ▸ member⟩

end History

/-- A call by which an invocation accesses an element. -/
inductive StoreCall where
  | read (binding : Binding) (index : Int)
  | write (binding : Binding) (index : Int) (v : Value)
  | update (binding : Binding) (index : Int) (change : Value → Except EngineError Value)
  | atomic (op : AtomicOp) (binding : Binding) (index : Int) (operands : List Value)
  | imageLoad (binding : Binding) (x y : Int)
  | imageStore (binding : Binding) (x y : Int) (v : Value)
  | imageAtomicAdd (binding : Binding) (x y : Int) (v : Value)

namespace Store

/-- The element that an index of a buffer stands for. -/
def elementAt? (s : Store) (binding : Binding) (index : Int) : Option Location := do
  let b ← s.buffers.get? binding
  let i ← (Resolution.ofIndex s.oobPolicy (b.label binding) index b.length).index?
  return ⟨.buffer binding, i⟩

/-- The texel that coordinates stand for. -/
def texelAt? (s : Store) (binding : Binding) (x y : Int) : Option Location := do
  let i ← s.images.get? binding
  let t ← (Resolution.ofTexel s.oobPolicy i binding x y).index?
  return ⟨.image binding, t⟩

end Store

namespace StoreCall

/-- The store after a call, whether or not the call fails. -/
def perform (c : StoreCall) (s : Store) (me : InvocationId) : Store :=
  match c with
  | read binding index => Store.left (Store.read binding index me s)
  | write binding index v => Store.left (Store.write binding index v me s)
  | update binding index change => Store.left (Store.update binding index me change s)
  | atomic op binding index operands => Store.left (Store.atomic op binding index operands me s)
  | imageLoad binding x y => Store.left (Store.imageLoad binding x y me s)
  | imageStore binding x y v => Store.left (Store.imageStore binding x y v me s)
  | imageAtomicAdd binding x y v => Store.left (Store.imageAtomicAdd binding x y v me s)

/-- The element that a call accesses, if it comes to that, and how. -/
def access? (c : StoreCall) (s : Store) (me : InvocationId) : Option (Location × Touch) :=
  match c with
  | read binding index => (s.elementAt? binding index).map (·, .read)
  | write binding index v => do
    let b ← s.buffers.get? binding
    if v.ty = b.element then (s.elementAt? binding index).map (·, .write v.bits) else none
  | update binding index change => do
    let b ← s.buffers.get? binding
    let place ← s.elementAt? binding index
    match change (b.value place.index) with
    | .ok v => if v.ty = b.element then some (place, .write v.bits) else none
    | .error _ => none
  | atomic op binding index operands =>
    match Store.atomic op binding index operands me s with
    | .ok _ _ => (s.elementAt? binding index).map (·, .atomic)
    | .error _ _ => none
  | imageLoad binding x y => (s.texelAt? binding x y).map (·, .read)
  | imageStore binding x y v => do
    let i ← s.images.get? binding
    match i.format.encode v with
    | .ok bytes => (s.texelAt? binding x y).map (·, .write (LittleEndian.words bytes))
    | .error _ => none
  | imageAtomicAdd binding x y v =>
    match Store.imageAtomicAdd binding x y v me s with
    | .ok _ _ => (s.texelAt? binding x y).map (·, .atomic)
    | .error _ _ => none

/-- What the tracker is told of a call. -/
def observation? (c : StoreCall) (s : Store) (me : InvocationId) : Option Observation :=
  (c.access? s me).map fun (place, t) => ⟨place, s.cell place, t, me⟩

end StoreCall

namespace Store

variable {s : Store} {me : InvocationId}

theorem elementAt?_eq {binding : Binding} {b : Buffer} (found : s.buffers.get? binding = some b)
    (index : Int) : s.elementAt? binding index =
      (Resolution.ofIndex s.oobPolicy (b.label binding) index b.length).index?.map
        (⟨.buffer binding, ·⟩) := by
  simp only [elementAt?, found, Option.bind_eq_bind, Option.bind_some, Option.map_eq_bind]
  rfl

theorem texelAt?_eq {binding : Binding} {i : Image} (found : s.images.get? binding = some i)
    (x y : Int) : s.texelAt? binding x y =
      (Resolution.ofTexel s.oobPolicy i binding x y).index?.map (⟨.image binding, ·⟩) := by
  simp only [texelAt?, found, Option.bind_eq_bind, Option.bind_some, Option.map_eq_bind]
  rfl

/-- The words of a value of the element type may be stored. -/
theorem admitted_whole {binding : Binding} {b : Buffer} {i : Nat}
    (found : s.buffers.get? binding = some b) {v : Value} (same : v.ty = b.element) :
    (Effect.store ⟨.buffer binding, i⟩ (.whole v.bits)).Admitted s := by
  intro position w stored b' found'
  obtain rfl : b = b' := Option.some.inj (found.symm.trans found')
  exact same ▸ v.holds_bits.2 w (List.mem_of_getElem? stored)

/-- Any word may be stored to an integer element. -/
theorem admitted_atomic {binding : Binding} {b : Buffer} {i : Nat} {change : UInt32 → UInt32}
    (found : s.buffers.get? binding = some b)
    (integer : b.element = .scalar .int ∨ b.element = .scalar .uint) :
    (Effect.atomic ⟨.buffer binding, i⟩ change).Admitted s := by
  intro w b' found'
  obtain rfl : b = b' := Option.some.inj (found.symm.trans found')
  rcases integer with same | same <;> rw [same] <;> rfl

/-- What touching a resolved place comes to. -/
theorem left_touching {α : Type} (r : Resolution) (dropped : α)
    (access : Nat → Except EngineError (Effect × α)) :
    left (s.touching me r dropped access) = s.performAll me (r.notes ++
      (r.index?.bind fun i => ((access i).toOption.map Prod.fst)).toList) := by
  rw [touching, Resolution.index?]
  split
  · next answer => simp [answer, left]
  · next answer => simp [answer, left]
  · next i answer =>
    rw [answer]
    cases found : access i with
    | error e => simp [left, Except.toOption, found]
    | ok accessed => simp [left, Except.toOption, found]

/-- The trace of the effects of one invocation tells the tracker of the place it touches. -/
theorem observations_touching (m : Memory) (r : Resolution) (e? : Option Effect) :
    Trace.observations m ((r.notes ++ e?.toList).map (me, ·)) =
      (e?.bind (Effect.observation? m me)).toList := by
  obtain ⟨answer, messages⟩ := r
  simp only [Resolution.notes]
  induction messages with
  | nil => cases e? <;> simp [Trace.observations]
  | cons message rest ih => exact ih

end Store

namespace StoreCall

variable {s : Store} {me : InvocationId}

/-- What is known of a call once its effects are. -/
def PerformsOnce (c : StoreCall) (s : Store) (me : InvocationId) : Prop :=
  ∃ effects : List Effect, c.perform s me = s.performAll me effects ∧
    (∀ e ∈ effects, e.Admitted s) ∧
    Trace.observations s.cell (effects.map (me, ·)) = (c.observation? s me).toList

theorem performsOnce_of_error {c : StoreCall} (same : c.perform s me = s)
    (nothing : c.access? s me = none) : c.PerformsOnce s me := by
  refine ⟨[], same, by simp, ?_⟩
  simp [observation?, nothing, Trace.observations]

theorem performsOnce_of_touching {α : Type} {c : StoreCall} {r : Resolution} {dropped : α}
    {access : Nat → Except EngineError (Effect × α)}
    (ran : c.perform s me = Store.left (s.touching me r dropped access))
    (admitted : ∀ i e a, access i = .ok (e, a) → e.Admitted s)
    (told : (r.index?.bind fun i => (access i).toOption.bind fun accessed =>
      accessed.1.observation? s.cell me) = c.observation? s me) : c.PerformsOnce s me := by
  refine ⟨_, ran.trans (Store.left_touching r dropped access), fun e member => ?_, ?_⟩
  · rcases List.mem_append.1 member with noted | accessed
    · obtain ⟨message, _, rfl⟩ := List.mem_map.1 noted
      trivial
    · obtain ⟨i, _, touched⟩ := Option.bind_eq_some_iff.1 (Option.mem_toList.1 accessed)
      obtain ⟨⟨e, a⟩, found, rfl⟩ := Option.map_eq_some_iff.1 touched
      refine admitted i e a ?_
      cases outcome : access i with
      | error e => simp [outcome, Except.toOption] at found
      | ok _ => simpa [outcome, Except.toOption] using found
  · rw [Store.observations_touching, ← told]
    congr 1
    cases r.index? with
    | none => rfl
    | some i => cases found : access i <;> simp [Except.toOption, found]

theorem performsOnce_read (binding : Binding) (index : Int) :
    (read binding index).PerformsOnce s me := by
  cases found : s.buffers.get? binding with
  | none =>
    refine performsOnce_of_error ?_ (by simp [access?, Store.elementAt?, found])
    rw [perform, Store.read, Store.bind_eq_error (Store.bufferAt_eq_error found)]
    rfl
  | some b =>
    refine performsOnce_of_touching (congrArg Store.left (Store.read_eq found me index)) ?_ ?_
    · intro i e a accessed
      cases accessed
      trivial
    · rw [observation?, access?, Store.elementAt?_eq found]
      cases (Resolution.ofIndex s.oobPolicy (b.label binding) index b.length).index? <;> rfl

theorem performsOnce_write (proper : s.WellFormed) (binding : Binding) (index : Int) (v : Value) :
    (write binding index v).PerformsOnce s me := by
  cases found : s.buffers.get? binding with
  | none =>
    refine performsOnce_of_error ?_ (by simp [access?, found])
    rw [perform, Store.write, Store.bind_eq_error (Store.bufferAt_eq_error found)]
    rfl
  | some b =>
    by_cases same : v.ty = b.element
    · have ran := Store.write_eq proper found me index v
      rw [if_pos same] at ran
      refine performsOnce_of_touching (congrArg Store.left ran) ?_ ?_
      · intro i e a accessed
        cases accessed
        exact Store.admitted_whole found same
      · simp only [observation?, access?, found, Option.bind_eq_bind, Option.bind_some,
          if_pos same, Store.elementAt?_eq found]
        cases inside :
            (Resolution.ofIndex s.oobPolicy (b.label binding) index b.length).index? with
        | none => rfl
        | some i =>
          simp [Except.toOption, Effect.observation?,
            Store.apply_whole proper found same (Resolution.index_lt inside)]
    · refine performsOnce_of_error ?_ (by simp [access?, found, same])
      rw [perform, Store.write_eq proper found, if_neg same]
      rfl

theorem performsOnce_update (proper : s.WellFormed) (binding : Binding) (index : Int)
    (change : Value → Except EngineError Value) :
    (update binding index change).PerformsOnce s me := by
  cases found : s.buffers.get? binding with
  | none =>
    refine performsOnce_of_error ?_ (by simp [access?, found])
    rw [perform, Store.update, Store.bind_eq_error (Store.bufferAt_eq_error found)]
    rfl
  | some b =>
    have ran := Store.update_eq proper found me index change
    refine performsOnce_of_touching (congrArg Store.left ran) ?_ ?_
    · intro i e a accessed
      rw [Store.updated] at accessed
      split at accessed
      · cases accessed
      · split at accessed
        · next same =>
          cases accessed
          exact Store.admitted_whole found same
        · cases accessed
    · simp only [observation?, access?, found, Option.bind_eq_bind, Option.bind_some,
        Store.elementAt?_eq found]
      cases inside :
          (Resolution.ofIndex s.oobPolicy (b.label binding) index b.length).index? with
      | none => rfl
      | some i =>
        simp only [Store.updated, Option.bind_some, Option.map_some]
        cases change (b.value i) with
        | error e => rfl
        | ok v =>
          by_cases same : v.ty = b.element
          · simp [same, Except.toOption, Effect.observation?,
              Store.apply_whole proper found same (Resolution.index_lt inside)]
          · simp [same, Except.toOption]

theorem performsOnce_atomic (proper : s.WellFormed) (op : AtomicOp) (binding : Binding)
    (index : Int) (operands : List Value) :
    (atomic op binding index operands).PerformsOnce s me := by
  cases found : s.buffers.get? binding with
  | none =>
    have failed : Store.atomic op binding index operands me s = _ :=
      Store.bind_eq_error (Store.bufferAt_eq_error found)
    exact performsOnce_of_error (congrArg Store.left failed) (by simp [access?, failed])
  | some b =>
    rcases Store.atomic_eq binding b op index operands me with
      ⟨e, -, fails⟩ | ⟨change, integer, runs⟩
    · have failed := fails s found
      exact performsOnce_of_error (congrArg Store.left failed) (by simp [access?, failed])
    · have ran := runs s proper found
      refine performsOnce_of_touching (congrArg Store.left ran) ?_ ?_
      · intro i e a accessed
        cases accessed
        exact Store.admitted_atomic found integer
      · simp only [observation?, access?, ran, Store.touching, Store.elementAt?_eq found]
        generalize Resolution.ofIndex s.oobPolicy (b.label binding) index b.length = r
        rcases r with ⟨_ | _ | i, messages⟩ <;> rfl

theorem performsOnce_imageLoad (binding : Binding) (x y : Int) :
    (imageLoad binding x y).PerformsOnce s me := by
  cases found : s.images.get? binding with
  | none =>
    refine performsOnce_of_error ?_ (by simp [access?, Store.texelAt?, found])
    rw [perform, Store.imageLoad, Store.bind_eq_error (Store.imageAt_eq_error found)]
    rfl
  | some i =>
    refine performsOnce_of_touching (congrArg Store.left (Store.imageLoad_eq found me x y)) ?_ ?_
    · intro t e a accessed
      cases accessed
      trivial
    · rw [observation?, access?, Store.texelAt?_eq found]
      cases (Resolution.ofTexel s.oobPolicy i binding x y).index? <;> rfl

theorem performsOnce_imageStore (proper : s.WellFormed) (binding : Binding) (x y : Int)
    (v : Value) : (imageStore binding x y v).PerformsOnce s me := by
  cases found : s.images.get? binding with
  | none =>
    refine performsOnce_of_error ?_ (by simp [access?, found])
    rw [perform, Store.imageStore, Store.bind_eq_error (Store.imageAt_eq_error found)]
    rfl
  | some i =>
    have ran := Store.imageStore_eq proper found me x y v
    cases encoded : i.format.encode v with
    | error e =>
      rw [encoded] at ran
      exact performsOnce_of_error (congrArg Store.left ran) (by simp [access?, found, encoded])
    | ok bytes =>
      rw [encoded] at ran
      refine performsOnce_of_touching (congrArg Store.left ran) ?_ ?_
      · intro t e a accessed
        cases accessed
        exact fun _ _ _ => trivial
      · simp only [observation?, access?, found, encoded, Option.bind_eq_bind, Option.bind_some,
          Store.texelAt?_eq found]
        cases inside : (Resolution.ofTexel s.oobPolicy i binding x y).index? with
        | none => rfl
        | some t =>
          simp [Except.toOption, Effect.observation?, Store.apply_whole_texel proper found
            (i.format.length_encode encoded) (Resolution.texel_lt inside)]

theorem performsOnce_imageAtomicAdd (proper : s.WellFormed) (binding : Binding) (x y : Int)
    (v : Value) : (imageAtomicAdd binding x y v).PerformsOnce s me := by
  cases found : s.images.get? binding with
  | none =>
    have failed : Store.imageAtomicAdd binding x y v me s = _ :=
      Store.bind_eq_error (Store.imageAt_eq_error found)
    exact performsOnce_of_error (congrArg Store.left failed) (by simp [access?, failed])
  | some i =>
    have ran := Store.imageAtomicAdd_eq proper found me x y v
    split at ran
    · exact performsOnce_of_error (congrArg Store.left ran) (by simp [access?, ran])
    split at ran
    · exact performsOnce_of_error (congrArg Store.left ran) (by simp [access?, ran])
    · refine performsOnce_of_touching (congrArg Store.left ran) ?_ ?_
      · intro t e a accessed
        cases accessed
        exact fun _ => trivial
      · simp only [observation?, access?, ran, Store.touching, Store.texelAt?_eq found]
        generalize Resolution.ofTexel s.oobPolicy i binding x y = r
        rcases r with ⟨_ | _ | t, messages⟩ <;> rfl

/-- A call is a sequence of effects, of which the tracker is told at most one. -/
theorem performsOnce (c : StoreCall) (me : InvocationId) (proper : s.WellFormed) :
    c.PerformsOnce s me := by
  cases c with
  | read binding index => exact performsOnce_read binding index
  | write binding index v => exact performsOnce_write proper binding index v
  | update binding index change => exact performsOnce_update proper binding index change
  | atomic op binding index operands => exact performsOnce_atomic proper op binding index operands
  | imageLoad binding x y => exact performsOnce_imageLoad binding x y
  | imageStore binding x y v => exact performsOnce_imageStore proper binding x y v
  | imageAtomicAdd binding x y v => exact performsOnce_imageAtomicAdd proper binding x y v

end StoreCall

/-! ## Runs of calls -/

namespace Store

/-- The store after calls, each of one invocation. -/
def after (s : Store) (calls : List (InvocationId × StoreCall)) : Store :=
  calls.foldl (fun s call => call.2.perform s call.1) s

/-- What the tracker is told of calls. -/
def told (s : Store) : List (InvocationId × StoreCall) → List Observation
  | [] => []
  | (me, c) :: rest => (c.observation? s me).toList ++ told (c.perform s me) rest

variable {s : Store} {r : InvocationId} {calls : List (InvocationId × StoreCall)}

/-- Calls are a trace of effects. -/
theorem after_eq_replay (proper : s.WellFormed) (calls : List (InvocationId × StoreCall)) :
    ∃ trace : Trace, s.after calls = s.replay trace ∧ (∀ visit ∈ trace, visit.2.Admitted s) ∧
      trace.observations s.cell = s.told calls := by
  induction calls generalizing s with
  | nil => exact ⟨[], rfl, by simp, rfl⟩
  | cons call rest ih =>
    obtain ⟨me, c⟩ := call
    obtain ⟨effects, performed, admitted, once⟩ := c.performsOnce me proper
    have admitted_all : ∀ visit ∈ effects.map (me, ·), visit.2.Admitted s := by
      simpa using admitted
    have proper' : (c.perform s me).WellFormed := performed ▸ proper.replay admitted_all
    obtain ⟨trace, ran, later, told⟩ := ih proper'
    have frame : (c.perform s me).frame = s.frame := performed ▸ frame_replay
    have cells : (c.perform s me).cell = Trace.apply (effects.map (me, ·)) s.cell :=
      performed ▸ cell_replay
    refine ⟨effects.map (me, ·) ++ trace, ?_, fun visit member => ?_, ?_⟩
    · rw [replay_append]
      exact ran.trans (congrArg (Store.replay · trace) performed)
    · rcases List.mem_append.1 member with first | second
      · exact admitted_all visit first
      · exact (admitted_congr frame).1 (later visit second)
    · rw [Trace.observations_append, once, ← cells, told]
      rfl

/-- A load of a place without atomics that leaves no conflict finds the reader's last store. -/
theorem cell_after (proper : s.WellFormed) (fresh : s.log = {}) {place : Location}
    (calls : List (InvocationId × StoreCall)) {resolution : Resolution}
    (plain : ∀ o, ¬ (Observation.history place (s.told calls)).Atomic o)
    (quiet : ((s.after calls).performAll r (resolution.notes ++ [.load place])).conflicts =
      s.conflicts) : (s.after calls).WellFormed ∧ (s.after calls).cell place =
        ((Observation.history place (s.told calls)).ownStore r).getD (s.cell place) := by
  obtain ⟨trace, ran, admitted, told⟩ := after_eq_replay proper calls
  have history : Trace.history s.cell trace place = Observation.history place (s.told calls) :=
    congrArg _ told
  rw [ran] at quiet ⊢
  rw [← history] at plain ⊢
  refine ⟨proper.replay admitted, ?_⟩
  rw [performAll, ← replay_append, conflicts_replay, fresh, List.append_right_eq_self] at quiet
  have silent := Trace.silent_of_quiet quiet place
  have read : Trace.observations (trace.apply s.cell)
      ((resolution.notes ++ [Effect.load place]).map (r, ·)) =
        [⟨place, trace.apply s.cell place, .read, r⟩] :=
    observations_touching _ resolution (some (Effect.load place))
  have last : Trace.history (trace.apply s.cell)
      ((resolution.notes ++ [Effect.load place]).map (r, ·)) place = [(r, .read)] := by
    rw [Trace.history, read]
    simp [Observation.history]
  rw [Trace.history_append, last] at silent
  rw [cell_replay, Trace.apply_eq_lastStore plain, History.lastStore_of_read silent]

/-- Isolation: a load that leaves no conflict gives the reader's last store, or what was there. -/
theorem loads_isolated (proper : s.WellFormed) (fresh : s.log = {})
    (calls : List (InvocationId × StoreCall)) (r : InvocationId) :
    let now := s.after calls
    let history (place : Location) : History := Observation.history place (s.told calls)
    let own (place : Location) : List UInt32 := ((history place).ownStore r).getD (s.cell place)
    (∀ binding index b i, now.buffers.get? binding = some b →
      now.elementAt? binding index = some ⟨.buffer binding, i⟩ →
      (∀ o, ¬ (history ⟨.buffer binding, i⟩).Atomic o) →
      (left (read binding index r now)).conflicts = s.conflicts →
      ∃ v t, read binding index r now = .ok v t ∧ v.ty = b.element ∧
        v.bits = own ⟨.buffer binding, i⟩) ∧
    ∀ binding x y image t, now.images.get? binding = some image →
      now.texelAt? binding x y = some ⟨.image binding, t⟩ →
      (∀ o, ¬ (history ⟨.image binding, t⟩).Atomic o) →
      (left (imageLoad binding x y r now)).conflicts = s.conflicts →
      ∃ t', imageLoad binding x y r now =
        .ok (image.format.decode ((own ⟨.image binding, t⟩).flatMap LittleEndian.bytes)) t' := by
  intro now history own
  constructor
  · intro binding index b i found element plain quiet
    rw [elementAt?_eq found] at element
    obtain ⟨j, inside, same⟩ := Option.map_eq_some_iff.1 element
    obtain rfl : j = i := by simpa using same
    have ran := (read_eq found r index).trans (touching_eq inside rfl)
    rw [ran] at quiet
    obtain ⟨proper', held⟩ := cell_after proper fresh calls plain quiet
    have bits : b.bits j = own ⟨.buffer binding, j⟩ := by
      refine Eq.trans ?_ held
      rw [cell, found]
      rfl
    have holds := proper'.buffers binding b found j (Resolution.index_lt inside)
    exact ⟨_, _, ran, rfl, (Value.bits_ofBits holds).trans bits⟩
  · intro binding x y image t found texel plain quiet
    rw [texelAt?_eq found] at texel
    obtain ⟨u, inside, same⟩ := Option.map_eq_some_iff.1 texel
    obtain rfl : u = t := by simpa using same
    have ran := (imageLoad_eq found r x y).trans (touching_eq inside rfl)
    rw [ran] at quiet
    obtain ⟨proper', held⟩ := cell_after proper fresh calls plain quiet
    have words : LittleEndian.words (image.bytes u) = own ⟨.image binding, u⟩ := by
      refine Eq.trans ?_ held
      rw [cell, found]
      rfl
    exact ⟨_, by rw [ran, ← words, (proper'.images binding image found).flatMap_words u]⟩

/-- Two invocations store to an element each and load a third one, and the first also stores to a texel. Each
loads back what it has stored itself, and both find in the third element what was there before. -/
theorem loads_own_stores :
    let s : Store :=
      { shader := "t"
        oobPolicy := .clampAndReport
        buffers := .ofList [(0, ⟨"A", .scalar .uint, #[[3], [4], [6]]⟩)]
        images := .ofList [(1, .zeros "I" .r32ui 2 1)]
        textures := .empty
        uniforms := [] }
    let texel := Value.ofBits (.vector .uint .four) [9, 0, 0, 1]
    let calls := [(0, StoreCall.write 0 1 (Value.uint 7)), (1, StoreCall.write 0 0 (Value.uint 5)),
      (0, StoreCall.imageStore 1 0 0 texel), (1, StoreCall.read 0 2), (1, StoreCall.imageLoad 1 1 0)]
    (∃ v t, read 0 1 0 (s.after calls) = .ok v t ∧ v.bits = [7]) ∧
      (∃ v t, read 0 0 1 (s.after calls) = .ok v t ∧ v.bits = [5]) ∧
      (∀ me, me = 0 ∨ me = 1 → ∃ v t, read 0 2 me (s.after calls) = .ok v t ∧ v.bits = [6]) ∧
      ∃ t, imageLoad 1 0 0 0 (s.after calls) = .ok texel t := by
  intro s texel calls
  have proper : s.WellFormed := by
    constructor
    · intro binding b found
      obtain ⟨rfl, rfl⟩ : binding = 0 ∧ b = ⟨"A", .scalar .uint, #[[3], [4], [6]]⟩ := by
        simpa using Bindings.mem_of_get?_ofList found
      intro i inside
      have few : i < 3 := inside
      obtain rfl | rfl | rfl : i = 0 ∨ i = 1 ∨ i = 2 := by omega
      · exact Value.holds_bits (Value.uint 3)
      · exact Value.holds_bits (Value.uint 4)
      · exact Value.holds_bits (Value.uint 6)
    · intro binding i found
      obtain ⟨rfl, rfl⟩ : binding = 1 ∧ i = .zeros "I" .r32ui 2 1 := by
        simpa using Bindings.mem_of_get?_ofList found
      exact Image.proper_zeros ..
  have plain (place : Location) (o : InvocationId) :
      ¬ (Observation.history place (s.told calls)).Atomic o := by
    have none : ∀ a ∈ s.told calls, a.touch ≠ .atomic := by decide +kernel
    intro atomic
    obtain ⟨a, held, same⟩ := List.mem_map.1 atomic
    exact none a (List.mem_filter.1 held).1 (congrArg Prod.snd same)
  have found : (s.after calls).buffers.get? 0 = some ⟨"A", .scalar .uint, #[[5], [7], [6]]⟩ := by decide +kernel
  have loads (me : InvocationId) (i : Nat) {word : UInt32}
      (inside : (s.after calls).elementAt? 0 i = some ⟨.buffer 0, i⟩)
      (quiet : (left (read 0 i me (s.after calls))).conflicts = s.conflicts)
      (held : ((Observation.history ⟨.buffer 0, i⟩ (s.told calls)).ownStore me).getD
        (s.cell ⟨.buffer 0, i⟩) = [word]) :
      ∃ v t, read 0 i me (s.after calls) = .ok v t ∧ v.bits = [word] := by
    obtain ⟨v, t, ran, -, bits⟩ := (loads_isolated proper rfl calls me).1 0 i _ i found inside (plain _) quiet
    exact ⟨v, t, ran, bits.trans held⟩
  refine ⟨?_, ?_, ?_, ?_⟩
  · exact loads 0 1 (by decide +kernel) (by decide +kernel) (by decide +kernel)
  · exact loads 1 0 (by decide +kernel) (by decide +kernel) (by decide +kernel)
  · rintro me (rfl | rfl)
    · exact loads 0 2 (by decide +kernel) (by decide +kernel) (by decide +kernel)
    · exact loads 1 2 (by decide +kernel) (by decide +kernel) (by decide +kernel)
  · have pictured : (s.after calls).images.get? 1 = some ⟨"I", .r32ui, 2, 1, #[[9, 0, 0, 0], [0, 0, 0, 0]]⟩ := by
      decide +kernel
    obtain ⟨t, ran⟩ := (loads_isolated proper rfl calls 0).2 1 0 0 _ 0 pictured (by decide +kernel) (plain _)
      (by decide +kernel)
    have decoded : TexelFormat.r32ui.decode ((((Observation.history ⟨.image 1, 0⟩
        (s.told calls)).ownStore 0).getD (s.cell ⟨.image 1, 0⟩)).flatMap LittleEndian.bytes) =
          texel := by decide +kernel
    exact ⟨t, ran.trans (congrArg (EStateM.Result.ok · t) decoded)⟩

end Store

end ComputeShader
