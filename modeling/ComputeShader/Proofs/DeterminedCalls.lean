import ComputeShader.Proofs.ClosedBodies
import ComputeShader.Proofs.StoreScripts

/-! # Determined operations

Of a store, an operation looks at nothing but the declarations and contents of the resources and, where
an index is out of bounds, the policy for such indices. `Determined` says so: on all stores with the same
contents an operation performs the same effects and gives the same answer, even under another policy
unless something was out of bounds.
-/

namespace ComputeShader

/-- What an effect is counted as, if it is a note. -/
def Effect.noted? : Effect → Option ErrorKind
  | .note kind _ => some kind
  | .load _ | .store _ _ | .atomic _ _ => none

/-! ## Resolutions under different policies -/

namespace Resolution

/-- Whether nothing was out of bounds. -/
def InBounds (r : Resolution) : Prop :=
  r.messages = [] ∧ ∀ label index extent, r.answer ≠ .error (.outOfBounds label index extent)

/-- Whether the policy does not matter to an index in bounds. -/
def Steady (r : OobPolicy → Resolution) : Prop :=
  ∀ policy policy', (r policy).InBounds → r policy' = r policy

theorem steady_ofIndex (label : String) (index : Int) (extent : Nat) :
    Steady fun policy => ofIndex policy label index extent := by
  intro policy policy' inside
  obtain ⟨silent, answered⟩ := inside
  simp only [ofIndex] at silent answered ⊢
  split
  · rfl
  split
  · rfl
  · next outside some =>
    rw [if_neg outside, if_neg some] at silent answered
    cases policy with
    | clampAndReport | discardAndReport => cases silent
    | fault => exact (answered label index extent rfl).elim

theorem steady_ofTexel (image : Image) (binding : Binding) (x y : Int) :
    Steady fun policy => ofTexel policy image binding x y := by
  intro policy policy' inside
  have columns := steady_ofIndex ("x coordinate of " ++ image.label binding) x image.width.toNat
    policy policy'
  have rows := steady_ofIndex ("y coordinate of " ++ image.label binding) y image.height.toNat
    policy policy'
  simp only [ofTexel] at inside columns rows ⊢
  generalize ofIndex policy _ x _ = column at inside columns
  generalize ofIndex policy _ y _ = row at inside rows
  obtain ⟨answer, messages⟩ := column
  obtain ⟨answer', messages'⟩ := row
  -- Both coordinates are in bounds if the texel is.
  rcases answer with e | _ | x
  · rw [columns inside]
  · rw [columns inside]
  · obtain ⟨silent, answered⟩ := inside
    obtain ⟨rfl, rfl⟩ := List.append_eq_nil_iff.1 silent
    have column_inside : InBounds ⟨.ok (some x), []⟩ := ⟨rfl, by rintro _ _ _ ⟨⟩⟩
    have row_inside : InBounds ⟨answer', []⟩ := by
      refine ⟨rfl, fun label index extent failed => ?_⟩
      dsimp only at failed
      exact answered label index extent (by rw [failed]; rfl)
    rw [columns column_inside, rows row_inside]

/-- An index that stops the invocation is a fault. -/
theorem fault_ofIndex {policy : OobPolicy} {label : String} {index : Int} {extent : Nat}
    {e : EngineError} (failed : (ofIndex policy label index extent).answer = .error e) :
    e.isInvocationFault := by
  simp only [ofIndex] at failed
  split at failed
  · cases failed
  split at failed
  · cases failed
  · cases policy <;> cases failed
    rfl

theorem fault_ofTexel {policy : OobPolicy} {image : Image} {binding : Binding} {x y : Int}
    {e : EngineError} (failed : (ofTexel policy image binding x y).answer = .error e) :
    e.isInvocationFault := by
  simp only [ofTexel] at failed
  split at failed
  · dsimp only at failed
    cases row : (ofIndex policy ("y coordinate of " ++ image.label binding) y
      image.height.toNat).answer with
    | ok found =>
      rw [row] at failed
      cases failed
    | error e' =>
      rw [row] at failed
      cases failed
      exact fault_ofIndex row
  · exact fault_ofIndex failed

end Resolution

namespace Store

variable {s t : Store} {me : InvocationId}

/-! ## Contents -/

/-- A store without the policy for indices out of bounds, the log, the conflicts and the diagnostics. -/
def contents (s : Store) : Store :=
  { s with oobPolicy := default, log := {}, conflicts := [], diagnostics := [] }

theorem buffers_of_contents (same : t.contents = s.contents) : t.buffers = s.buffers := by
  simpa [contents] using congrArg Store.buffers same

theorem images_of_contents (same : t.contents = s.contents) : t.images = s.images := by
  simpa [contents] using congrArg Store.images same

theorem shader_of_contents (same : t.contents = s.contents) : t.shader = s.shader := by
  simpa [contents] using congrArg Store.shader same

theorem buffer_of_contents {binding : Binding} {b : Buffer} (same : t.contents = s.contents)
    (found : s.buffers.get? binding = some b) : t.buffers.get? binding = some b := by
  rw [buffers_of_contents same, found]

theorem image_of_contents {binding : Binding} {i : Image} (same : t.contents = s.contents)
    (found : s.images.get? binding = some i) : t.images.get? binding = some i := by
  rw [images_of_contents same, found]

theorem cell_of_contents (same : t.contents = s.contents) : t.cell = s.cell := by
  funext ⟨resource, i⟩
  cases resource <;> simp [cell, buffers_of_contents same, images_of_contents same]

theorem WellFormed.of_contents (proper : s.WellFormed) (same : t.contents = s.contents) :
    t.WellFormed := by
  constructor
  · rw [buffers_of_contents same]
    exact proper.buffers
  · rw [images_of_contents same]
    exact proper.images

theorem contents_setCell {bits : List UInt32} {place : Location} :
    (s.setCell bits place).contents = s.contents.setCell bits place := by
  obtain ⟨_ | _, _⟩ := place <;> rfl

theorem contents_perform (same : t.contents = s.contents) (e : Effect) :
    (t.perform me e).contents = (s.perform me e).contents := by
  cases e with
  | note kind message => exact same
  | load place => exact same
  | store place patch =>
    simp only [perform, contents_setCell, cell_of_contents same]
    exact congrArg (Store.setCell · _ _) same
  | atomic place change =>
    simp only [perform, contents_setCell, cell_of_contents same]
    exact congrArg (Store.setCell · _ _) same

theorem contents_performAll (same : t.contents = s.contents) (effects : List Effect) :
    (t.performAll me effects).contents = (s.performAll me effects).contents := by
  induction effects generalizing s t with
  | nil => exact same
  | cons e rest ih => exact ih (contents_perform same e)

theorem oobPolicy_performAll (effects : List Effect) :
    (s.performAll me effects).oobPolicy = s.oobPolicy :=
  oobPolicy_of_frame frame_performAll

/-! ## Determined operations -/

section Determined

variable {α β : Type} {P : EngineError → Prop} {F : Store} {x y : StoreM α}

/-- Whether effects and an answer do not depend on the policy for indices out of bounds. -/
def InBounds (effects : List Effect) (answer : Except EngineError α) : Prop :=
  (∀ e ∈ effects, e.noted? = none) ∧
    ∀ label index extent, answer ≠ .error (.outOfBounds label index extent)

/-- Whether an operation performs certain effects and gives a certain answer on all stores with the
contents of one. Its notes are of indices out of bounds, and it fails with errors of a property. -/
def DeterminedAt (P : EngineError → Prop) (me : InvocationId) (s : Store) (x : StoreM α) : Prop :=
  ∃ effects answer, (∀ e ∈ effects, e.Admitted s ∧ ∀ kind ∈ e.noted?, kind = .outOfBounds) ∧
    FailsWith P answer ∧
    ∀ t : Store, t.contents = s.contents → (t.oobPolicy = s.oobPolicy ∨ InBounds effects answer) →
      x t = (t.performAll me effects).outcome answer

/-- Whether an operation is determined on all well-formed stores of a frame. -/
def Determined (P : EngineError → Prop) (F : Store) (me : InvocationId) (x : StoreM α) : Prop :=
  ∀ s : Store, s.frame = F.frame → s.WellFormed → DeterminedAt P me s x

theorem determinedAt_pure (a : α) : DeterminedAt P me s (pure a) :=
  ⟨[], .ok a, by simp, failsWith_ok, fun _ _ _ => rfl⟩

theorem determinedAt_throw {e : EngineError} (holds : P e) :
    DeterminedAt P me s (throw e : StoreM α) :=
  ⟨[], .error e, by simp, failsWith_error holds, fun _ _ _ => rfl⟩

theorem determined_pure (a : α) : Determined P F me (pure a) :=
  fun _ _ _ => determinedAt_pure a

theorem determined_throw {e : EngineError} (holds : P e) :
    Determined P F me (throw e : StoreM α) :=
  fun _ _ _ => determinedAt_throw holds

/-- Operations that agree on all stores with the contents of one. -/
theorem DeterminedAt.congr (determined : DeterminedAt P me s y)
    (same : ∀ t : Store, t.contents = s.contents → x t = y t) : DeterminedAt P me s x := by
  obtain ⟨effects, answer, allowed, fails, ran⟩ := determined
  refine ⟨effects, answer, allowed, fails, fun t contents policy => ?_⟩
  exact (same t contents).trans (ran t contents policy)

/-- One operation after another; the second one only for what the first one can give. -/
theorem Determined.bind_of {k : α → StoreM β} {Q : α → Prop} (first : Determined P F me x)
    (gives : ∀ s a s', x s = .ok a s' → Q a) (next : ∀ a, Q a → Determined P F me (k a)) :
    Determined P F me (x >>= k) := by
  intro s frame proper
  obtain ⟨effects, answer, allowed, fails, ran⟩ := first s frame proper
  cases answer with
  | error e =>
    refine ⟨effects, .error e, allowed, failsWith_error (fails e rfl), fun t same policy => ?_⟩
    refine bind_eq_error (ran t same (policy.imp_right fun inside => ⟨inside.1, ?_⟩))
    rintro label index extent ⟨⟩
    exact inside.2 label index extent rfl
  | ok a =>
    have given : Q a := gives s a _ (ran s rfl (.inl rfl))
    have proper' : (s.performAll me effects).WellFormed := by
      refine proper.replay fun visit member => ?_
      obtain ⟨e, happens, rfl⟩ := List.mem_map.1 member
      exact (allowed e happens).1
    obtain ⟨effects', answer', allowed', fails', ran'⟩ :=
      next a given (s.performAll me effects) (frame_performAll.trans frame) proper'
    refine ⟨effects ++ effects', answer', fun e member => ?_, fails', fun t same policy => ?_⟩
    · rcases List.mem_append.1 member with earlier | later
      · exact allowed e earlier
      · exact (allowed' e later).imp_left (admitted_congr frame_performAll).1
    · have policies : (t.oobPolicy = s.oobPolicy ∨ InBounds effects (.ok a)) ∧
          ((t.performAll me effects).oobPolicy = (s.performAll me effects).oobPolicy ∨
            InBounds effects' answer') := by
        rw [oobPolicy_performAll, oobPolicy_performAll]
        rcases policy with policy | ⟨silent, answered⟩
        · exact ⟨.inl policy, .inl policy⟩
        · constructor
          · exact .inr ⟨fun e member => silent e (List.mem_append_left _ member), fun _ _ _ => nofun⟩
          · exact .inr ⟨fun e member => silent e (List.mem_append_right _ member), answered⟩
      rw [bind_eq (ran t same policies.1), ran' _ (contents_performAll same effects) policies.2,
        performAll_append]

theorem Determined.bind {k : α → StoreM β} (first : Determined P F me x)
    (next : ∀ a, Determined P F me (k a)) : Determined P F me (x >>= k) :=
  first.bind_of (fun _ _ _ _ => trivial) fun a _ => next a

/-- A resolution notes nothing but indices out of bounds. -/
theorem allowed_notes (r : Resolution) :
    ∀ e ∈ r.notes, e.Admitted s ∧ ∀ kind ∈ e.noted?, kind = .outOfBounds := by
  intro e member
  obtain ⟨message, -, rfl⟩ := List.mem_map.1 member
  exact ⟨trivial, fun kind noted => (Option.some.inj noted).symm⟩

/-- Effects and an answer in bounds come from a resolution in bounds. -/
theorem inBounds_of_notes {r : Resolution} {effects : List Effect} {answer : Except EngineError α}
    (inside : InBounds effects answer) (notes : r.notes ⊆ effects)
    (fails : ∀ e, r.answer = .error e → answer = .error e) : r.InBounds := by
  constructor
  · refine List.eq_nil_iff_forall_not_mem.2 fun message member => ?_
    cases inside.1 _ (notes (List.mem_map.2 ⟨message, member, rfl⟩))
  · intro label index extent failed
    exact inside.2 label index extent (fails _ failed)

theorem determinedAt_resolve (label : String) (index : Int) (extent : Nat)
    (faults : ∀ e : EngineError, e.isInvocationFault → P e) :
    DeterminedAt P me s (resolve label index extent me) := by
  refine ⟨(Resolution.ofIndex s.oobPolicy label index extent).notes,
    (Resolution.ofIndex s.oobPolicy label index extent).answer, allowed_notes _, ?_, ?_⟩
  · intro e failed
    exact faults e (Resolution.fault_ofIndex failed)
  · intro t same policy
    have resolved : Resolution.ofIndex t.oobPolicy label index extent =
        Resolution.ofIndex s.oobPolicy label index extent := by
      rcases policy with policy | inside
      · rw [policy]
      · exact Resolution.steady_ofIndex label index extent _ _
          (inBounds_of_notes inside (fun _ => id) fun _ => id)
    rw [resolve_eq, resolved]

/-- The effects of touching the place that an index stands for. -/
def touched (r : Resolution) (access : Nat → Except EngineError (Effect × α)) : List Effect :=
  r.notes ++ (r.index?.bind fun i => (access i).toOption.map Prod.fst).toList

/-- The answer of touching the place that an index stands for. -/
def found (r : Resolution) (dropped : α) (access : Nat → Except EngineError (Effect × α)) :
    Except EngineError α :=
  match r.answer with
  | .error e => .error e
  | .ok none => .ok dropped
  | .ok (some i) => (access i).map Prod.snd

theorem touching_outcome (r : Resolution) (dropped : α)
    (access : Nat → Except EngineError (Effect × α)) : s.touching me r dropped access =
      (s.performAll me (touched r access)).outcome (found r dropped access) := by
  obtain ⟨answer, messages⟩ := r
  match answer with
  | .error e => simp [touching, touched, found, outcome, Resolution.index?]
  | .ok none => simp [touching, touched, found, outcome, Resolution.index?]
  | .ok (some i) =>
    cases accessed : access i <;>
      simp [touching, touched, found, outcome, Resolution.index?, accessed, Except.toOption, Except.map]

/-- An operation that touches the place that an index stands for. -/
theorem determinedAt_of_touching {dropped : α} {access : Nat → Except EngineError (Effect × α)}
    (r : OobPolicy → Resolution) (steady : Resolution.Steady r)
    (stops : FailsWith P (r s.oobPolicy).answer)
    (acts : ∀ i, (r s.oobPolicy).index? = some i →
      (∃ e a, access i = .ok (e, a) ∧ e.Admitted s ∧ e.noted? = none) ∨
        ∃ e, access i = .error e ∧ P e)
    (ran : ∀ t : Store, t.contents = s.contents →
      x t = t.touching me (r t.oobPolicy) dropped access) : DeterminedAt P me s x := by
  refine ⟨touched (r s.oobPolicy) access, found (r s.oobPolicy) dropped access, ?_, ?_, ?_⟩
  · intro e member
    rcases List.mem_append.1 member with noted | last
    · exact allowed_notes _ e noted
    · obtain ⟨i, inside, accessed⟩ := Option.bind_eq_some_iff.1 (Option.mem_toList.1 last)
      rcases acts i inside with ⟨e', a, done, admitted, plain⟩ | ⟨e', failed, -⟩
      · rw [done] at accessed
        cases accessed
        refine ⟨admitted, fun kind noted => ?_⟩
        rw [plain] at noted
        cases noted
      · rw [failed] at accessed
        cases accessed
  · intro e failed
    simp only [found] at failed
    split at failed
    · next answer =>
      cases failed
      exact stops e answer
    · cases failed
    · next i answer =>
      rcases acts i (Resolution.index?_eq_some.2 answer) with ⟨e', a, done, -⟩ | ⟨e', fault, holds⟩
      · rw [done] at failed
        cases failed
      · rw [fault] at failed
        cases failed
        exact holds
  · intro t same policy
    have resolved : r t.oobPolicy = r s.oobPolicy := by
      rcases policy with policy | inside
      · rw [policy]
      · refine steady _ _ (inBounds_of_notes inside (List.subset_append_left _ _) fun e failed => ?_)
        rw [found, failed]
    rw [ran t same, resolved, touching_outcome]

end Determined

end Store

end ComputeShader
