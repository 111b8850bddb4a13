import ComputeShader.Proofs.AccessIsolation

/-! # What a call uses and what it keeps

A call uses the one place that its index stands for, to load from it, to store to it or to do both. Whether
or not it fails, it keeps the frame of the store and every cell that it does not store to.
-/

namespace ComputeShader

namespace StoreCall

/-- What a call gives back. -/
def Answer : StoreCall → Type
  | read .. | atomic .. | imageLoad .. | imageAtomicAdd .. => Value
  | write .. | update .. | imageStore .. => Unit

/-- The operation of the store that a call is. -/
def run (call : StoreCall) (me : InvocationId) : StoreM call.Answer :=
  match call with
  | read binding index => Store.read binding index me
  | write binding index v => Store.write binding index v me
  | update binding index change => Store.update binding index me change
  | atomic op binding index operands => Store.atomic op binding index operands me
  | imageLoad binding x y => Store.imageLoad binding x y me
  | imageStore binding x y v => Store.imageStore binding x y v me
  | imageAtomicAdd binding x y v => Store.imageAtomicAdd binding x y v me

/-- The resource that a call accesses. -/
def resource : StoreCall → Resource
  | read binding _ | write binding .. | update binding .. | atomic _ binding .. => .buffer binding
  | imageLoad binding .. | imageStore binding .. | imageAtomicAdd binding .. => .image binding

/-- The element or the texel that a call's index stands for. -/
def place? (s : Store) : StoreCall → Option Location
  | read binding index | write binding index _ | update binding index _ | atomic _ binding index _ =>
    s.elementAt? binding index
  | imageLoad binding x y | imageStore binding x y _ | imageAtomicAdd binding x y _ =>
    s.texelAt? binding x y

/-- Whether a call loads. -/
def Loads : StoreCall → Prop
  | read .. | atomic .. | imageLoad .. | imageAtomicAdd .. => True
  | write .. | update .. | imageStore .. => False

/-- Whether a call stores. -/
def Stores : StoreCall → Prop
  | write .. | update .. | atomic .. | imageStore .. | imageAtomicAdd .. => True
  | read .. | imageLoad .. => False

end StoreCall

@[simp] theorem Store.left_outcome {α : Type} (s : Store) (answer : Except EngineError α) :
    Store.left (s.outcome answer) = s := by
  cases answer <;> rfl

namespace StoreCall

variable {call : StoreCall} {s : Store} {me : InvocationId} {place : Location} {t : Touch}

theorem left_run : Store.left (call.run me s) = call.perform s me := by cases call <;> rfl

theorem resource_of_elementAt? {binding : Binding} {index : Int}
    (found : s.elementAt? binding index = some place) : place.resource = .buffer binding := by
  unfold Store.elementAt? at found
  obtain ⟨b, -, found⟩ := Option.bind_eq_some_iff.1 found
  obtain ⟨i, -, found⟩ := Option.bind_eq_some_iff.1 found
  cases found
  rfl

theorem resource_of_texelAt? {binding : Binding} {x y : Int}
    (found : s.texelAt? binding x y = some place) : place.resource = .image binding := by
  unfold Store.texelAt? at found
  obtain ⟨i, -, found⟩ := Option.bind_eq_some_iff.1 found
  obtain ⟨t, -, found⟩ := Option.bind_eq_some_iff.1 found
  cases found
  rfl

theorem resource_of_place? (stands : call.place? s = some place) : place.resource = call.resource := by
  cases call with
  | read | write | update | atomic => exact resource_of_elementAt? stands
  | imageLoad | imageStore | imageAtomicAdd => exact resource_of_texelAt? stands

/-- A call touches the place that its index stands for, and as a store only if it is one. -/
theorem access?_eq_some (accessed : call.access? s me = some (place, t)) :
    call.place? s = some place ∧ (t = .read ∨ call.Stores) := by
  have touching {place? : Option Location} {touch : Touch}
      (touched : place?.map (·, touch) = some (place, t)) : place? = some place ∧ t = touch := by
    obtain ⟨p, found, same⟩ := Option.map_eq_some_iff.1 touched
    cases same
    exact ⟨found, rfl⟩
  cases call with
  | read binding index => exact (touching accessed).imp_right .inl
  | write binding index v =>
    obtain ⟨b, -, accessed⟩ := Option.bind_eq_some_iff.1 accessed
    split at accessed
    · exact ⟨(touching accessed).1, .inr trivial⟩
    · cases accessed
  | update binding index change =>
    obtain ⟨b, -, accessed⟩ := Option.bind_eq_some_iff.1 accessed
    obtain ⟨p, found, accessed⟩ := Option.bind_eq_some_iff.1 accessed
    split at accessed
    · split at accessed
      · cases accessed
        exact ⟨found, .inr trivial⟩
      · cases accessed
    · cases accessed
  | atomic op binding index operands =>
    simp only [access?] at accessed
    split at accessed
    · exact ⟨(touching accessed).1, .inr trivial⟩
    · cases accessed
  | imageLoad binding x y => exact (touching accessed).imp_right .inl
  | imageStore binding x y v =>
    obtain ⟨i, -, accessed⟩ := Option.bind_eq_some_iff.1 accessed
    split at accessed
    · exact ⟨(touching accessed).1, .inr trivial⟩
    · cases accessed
  | imageAtomicAdd binding x y v =>
    simp only [access?] at accessed
    split at accessed
    · exact ⟨(touching accessed).1, .inr trivial⟩
    · cases accessed

/-- What a call leaves alone: the frame, and every cell that it does not store to. -/
theorem perform_keeps (proper : s.WellFormed) (call : StoreCall) (me : InvocationId) :
    (call.perform s me).frame = s.frame ∧ (call.perform s me).WellFormed ∧
      ∀ place : Location, (call.Stores → call.place? s ≠ some place) →
        (call.perform s me).cell place = s.cell place := by
  obtain ⟨effects, performed, admitted, once⟩ := call.performsOnce me proper
  rw [performed]
  refine ⟨Store.frame_replay, ?_, fun place elsewhere => ?_⟩
  · refine proper.replay fun visit member => ?_
    obtain ⟨e, happens, rfl⟩ := List.mem_map.1 member
    exact admitted e happens
  · -- The call touches the cell with a read at most.
    have history : ∀ visit ∈ Trace.history s.cell (effects.map (me, ·)) place, visit.2 = .read := by
      intro visit member
      rw [Trace.history, once] at member
      obtain ⟨a, held, rfl⟩ := List.mem_map.1 member
      obtain ⟨told, here⟩ := List.mem_filter.1 held
      obtain ⟨⟨p, t⟩, accessed, rfl⟩ := Option.map_eq_some_iff.1 (Option.mem_toList.1 told)
      obtain ⟨stands, reading | storing⟩ := access?_eq_some accessed
      · exact reading
      · obtain rfl : p = place := of_decide_eq_true here
        exact (elsewhere storing stands).elim
    have plain (i : InvocationId) : ¬ (Trace.history s.cell (effects.map (me, ·)) place).Atomic i := by
      intro atomic
      cases history _ atomic
    have unwritten : (Trace.history s.cell (effects.map (me, ·)) place).lastStore = none := by
      refine History.lastStore_eq_none_iff.2 fun i => ?_
      rintro ⟨bits, written⟩
      cases history _ written
    rw [Store.performAll, Store.cell_replay, Trace.apply_eq_lastStore plain, unwritten]
    rfl

end StoreCall

end ComputeShader
