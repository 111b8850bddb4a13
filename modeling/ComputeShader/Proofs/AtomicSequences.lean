import ComputeShader.Proofs.AtomicChanges
import ComputeShader.Proofs.CallPlaces
import ComputeShader.Proofs.StoreScripts

/-! # Atomics on one element

As long as an element is accessed by atomics alone, whatever happens elsewhere, each atomic gives back the
word that the one before it left. `HoldsWord` is what every call keeps; the values of a whole run follow
from its step by induction on the calls, and with them what counters and swaps give back.
-/

namespace ComputeShader

/-! ## What atomics ask for -/

/-- The request of an atomic with these operands, if they are as many as the operation takes and all of
one kind. -/
def AtomicRequest.of? (kind : ScalarKind) (op : AtomicOp) (operands : List Value) :
    Option AtomicRequest :=
  if ∀ v ∈ operands, v.ty = .scalar kind then
    match op, operands.map fun v => (v.lane 0).toBits with
    | .compSwap, [compare, data] => some ⟨.compSwap, some compare, data⟩
    | .compSwap, _ => none
    | op, [data] => some ⟨op, none, data⟩
    | _, _ => none
  else none

/-- A value of one word. -/
def Value.ofWord (kind : ScalarKind) (w : UInt32) : Value := .ofBits (.scalar kind) [w]

theorem Value.ofWord_injective {kind : ScalarKind} (integer : kind = .int ∨ kind = .uint) :
    Function.Injective (ofWord kind) := by
  have bits (w : UInt32) : (ofWord kind w).bits = [w] := by
    refine bits_ofBits ⟨rfl, fun x member => ?_⟩
    rcases integer with rfl | rfl
    · exact UInt32.toUInt32_toInt32 x
    · rfl
  intro x y same
  have words := congrArg Value.bits same
  rw [bits, bits] at words
  exact List.head_eq_of_cons_eq words

namespace Store

variable {site : AccessSite} {kind : ScalarKind} {operands : List Value} {op : AtomicOp}
  {r : AtomicRequest}

theorem asScalar?_of_ty {v : Value} (typed : v.ty = .scalar kind) :
    v.asScalar? = some (v.lane 0) ∧ (v.lane 0).kind = kind := by
  constructor
  · rw [Value.asScalar?, typed]
  · rw [Value.lane, Scalar.kind_ofBits, Value.kind, typed]
    rfl

/-- Operands of the element's kind are taken as they are. -/
theorem atomicOperands_eq (typed : ∀ v ∈ operands, v.ty = .scalar kind) (s : Store) :
    atomicOperands site kind operands s = .ok (operands.map (·.lane 0)) s := by
  unfold atomicOperands
  induction operands with
  | nil => rfl
  | cons v rest ih =>
    obtain ⟨first, later⟩ := List.forall_mem_cons.1 typed
    obtain ⟨scalar, same⟩ := asScalar?_of_ty first
    rw [List.mapM_cons]
    refine (bind_eq (show _ = EStateM.Result.ok (v.lane 0) s from ?_)).trans (bind_eq (ih later))
    simp only [scalar, if_pos same]
    rfl

/-- An operand of another type is an error. -/
theorem atomicOperands_eq_error (untyped : ¬ ∀ v ∈ operands, v.ty = .scalar kind) :
    ∃ e, ∀ s, atomicOperands site kind operands s = .error e s := by
  unfold atomicOperands
  induction operands with
  | nil => exact (untyped fun _ none => nomatch none).elim
  | cons v rest ih =>
    simp only [List.mapM_cons]
    by_cases first : v.ty = .scalar kind
    · obtain ⟨scalar, same⟩ := asScalar?_of_ty first
      obtain ⟨e, fails⟩ := ih fun later => untyped (List.forall_mem_cons.2 ⟨first, later⟩)
      refine ⟨e, fun s => (bind_eq (show _ = EStateM.Result.ok (v.lane 0) s from ?_)).trans
        (bind_eq_error (fails s))⟩
      simp only [scalar, if_pos same]
      rfl
    · refine ⟨.typeMismatch site ⟨kind.name, v.ty.name⟩, fun s => bind_eq_error ?_⟩
      cases ty : v.ty with
      | scalar other =>
        obtain ⟨scalar, same⟩ := asScalar?_of_ty ty
        have differ : (v.lane 0).kind ≠ kind := fun equal => first (by rw [ty, ← same, equal])
        simp only [scalar, if_neg differ]
        rfl
      | vector | mat3 =>
        have no_scalar : v.asScalar? = none := by rw [Value.asScalar?, ty]
        simp only [no_scalar]
        rfl

/-- Operands that make a request are split into what to compare with and the data; others are too few or
too many. -/
theorem atomicArguments_eq (typed : ∀ v ∈ operands, v.ty = .scalar kind) :
    match AtomicRequest.of? kind op operands with
    | some r => r.op = op ∧ ∀ s, atomicArguments site op (operands.map (·.lane 0)) s =
        .ok (r.compare?, r.data) s
    | none => ∃ e, ∀ s, atomicArguments site op (operands.map (·.lane 0)) s = .error e s := by
  simp only [AtomicRequest.of?, if_pos typed]
  match op, operands with
  | .compSwap, [_, _] => exact ⟨rfl, fun _ => rfl⟩
  | .compSwap, [] | .compSwap, [_] | .compSwap, _ :: _ :: _ :: _ => exact ⟨_, fun _ => rfl⟩
  | .add, [_] | .min, [_] | .max, [_] | .and, [_] | .or, [_] | .xor, [_] | .exchange, [_] =>
    exact ⟨rfl, fun _ => rfl⟩
  | .add, [] | .min, [] | .max, [] | .and, [] | .or, [] | .xor, [] | .exchange, []
  | .add, _ :: _ :: _ | .min, _ :: _ :: _ | .max, _ :: _ :: _ | .and, _ :: _ :: _
  | .or, _ :: _ :: _ | .xor, _ :: _ :: _ | .exchange, _ :: _ :: _ => exact ⟨_, fun _ => rfl⟩

/-- An atomic on an integer element changes its word as it is asked to, or fails and does nothing. -/
theorem atomic_run {s : Store} {binding : Binding} {b : Buffer} (proper : s.WellFormed)
    (found : s.buffers.get? binding = some b) (scalar : b.element = .scalar kind)
    (integer : kind = .int ∨ kind = .uint) (op : AtomicOp) (index : Int) (operands : List Value)
    (me : InvocationId) :
    match AtomicRequest.of? kind op operands with
    | some r => atomic op binding index operands me s =
        s.touching me (.ofIndex s.oobPolicy (b.label binding) index b.length) (Value.zero b.element)
          fun i => .ok (.atomic ⟨.buffer binding, i⟩ (r.change kind), b.value i)
    | none => ∃ e, atomic op binding index operands me s = .error e s := by
  have kinds : atomicKind (.atomic (b.label binding)) b.element s = .ok kind s := by
    rw [scalar]
    rcases integer with rfl | rfl <;> rfl
  simp only [atomic]
  rw [bind_eq (bufferAt_eq found), bind_eq kinds]
  by_cases typed : ∀ v ∈ operands, v.ty = .scalar kind
  · rw [bind_eq (atomicOperands_eq typed s)]
    have split := @atomicArguments_eq (.atomic (b.label binding)) kind operands op typed
    cases requested : AtomicRequest.of? kind op operands with
    | none =>
      rw [requested] at split
      obtain ⟨e, fails⟩ := split
      exact ⟨e, bind_eq_error (fails s)⟩
    | some r =>
      rw [requested] at split
      obtain ⟨rfl, splits⟩ := split
      have changes : (fun old => atomicBits r.op (kind = .int) old r.compare? r.data) = r.change kind :=
        funext (r.change_eq integer)
      dsimp only
      rw [bind_eq (splits s), ← changes]
      exact change_eq proper found scalar me index fun old =>
        atomicBits r.op (kind = .int) old r.compare? r.data
  · have unrequested : AtomicRequest.of? kind op operands = none := if_neg typed
    rw [unrequested]
    obtain ⟨e, fails⟩ := @atomicOperands_eq_error (.atomic (b.label binding)) kind operands typed
    exact ⟨e, bind_eq_error (fails s)⟩

end Store

/-! ## Calls around one element -/

namespace StoreCall

def isAtomic : StoreCall → Bool
  | atomic .. => true
  | _ => false

/-- What a call asks of a place, if it is an atomic on it with operands of a kind. -/
def request? (s : Store) (kind : ScalarKind) (place : Location) : StoreCall → Option AtomicRequest
  | atomic op binding index operands =>
    if s.elementAt? binding index = some place then AtomicRequest.of? kind op operands else none
  | _ => none

/-- What a call gives back if it is an atomic on a place. -/
def returned? (s : Store) (place : Location) (me : InvocationId) : StoreCall → Option Value
  | atomic op binding index operands =>
    if s.elementAt? binding index = some place then
      match Store.atomic op binding index operands me s with
      | .ok v _ => some v
      | .error .. => none
    else none
  | _ => none

end StoreCall

namespace Store

/-- What the atomics on a place ask for, in the order of the calls. -/
def requests (s : Store) (kind : ScalarKind) (place : Location)
    (calls : List (InvocationId × StoreCall)) : List AtomicRequest :=
  calls.filterMap fun call => call.2.request? s kind place

/-- What the atomics on a place give back, in the order of the calls. -/
def returned (place : Location) : Store → List (InvocationId × StoreCall) → List Value
  | _, [] => []
  | s, (me, c) :: rest => (c.returned? s place me).toList ++ returned place (c.perform s me) rest

/-- Whether calls use a place by atomics alone. At other places they may do anything. -/
def AtomicsAlone (s : Store) (place : Location) (calls : List (InvocationId × StoreCall)) : Prop :=
  ∀ call ∈ calls, call.2.place? s = some place → call.2.isAtomic

variable {s t : Store} {binding : Binding} {b : Buffer} {kind : ScalarKind} {i : Nat} {w : UInt32}
  {me : InvocationId} {place : Location}

theorem elementAt?_of_frame (frame : t.frame = s.frame) (binding : Binding) (index : Int) :
    t.elementAt? binding index = s.elementAt? binding index := by
  cases found : s.buffers.get? binding with
  | none => simp [elementAt?, found, no_buffer_of_frame frame found]
  | some b =>
    obtain ⟨b', found', same⟩ := buffer_of_frame frame found
    rw [elementAt?_eq found, elementAt?_eq found', oobPolicy_of_frame frame, Buffer.label_of_frame same,
      Buffer.length_of_frame same]

theorem texelAt?_of_frame (frame : t.frame = s.frame) (binding : Binding) (x y : Int) :
    t.texelAt? binding x y = s.texelAt? binding x y := by
  cases found : s.images.get? binding with
  | none => simp [texelAt?, found, no_image_of_frame frame found]
  | some i =>
    obtain ⟨i', found', same⟩ := image_of_frame frame found
    rw [texelAt?_eq found, texelAt?_eq found', oobPolicy_of_frame frame, ofTexel_of_frame same]

theorem place?_of_frame (frame : t.frame = s.frame) (call : StoreCall) :
    call.place? t = call.place? s := by
  cases call with
  | read | write | update | atomic => exact elementAt?_of_frame frame _ _
  | imageLoad | imageStore | imageAtomicAdd => exact texelAt?_of_frame frame _ _ _

/-- Whether a store of a frame holds a word in an element of an integer buffer. -/
structure HoldsWord (F : Store) (binding : Binding) (i : Nat) (kind : ScalarKind) (w : UInt32)
    (s : Store) : Prop where
  proper : s.WellFormed
  frame : s.frame = F.frame
  element : ∃ b, s.buffers.get? binding = some b ∧ b.element = .scalar kind
  cell : s.cell ⟨.buffer binding, i⟩ = [w]

/-- Any call keeps the frame. What is left to say is the word. -/
theorem HoldsWord.perform {F : Store} (holds : HoldsWord F binding i kind w s) (call : StoreCall)
    {w' : UInt32} (cell : (call.perform s me).cell ⟨.buffer binding, i⟩ = [w']) :
    HoldsWord F binding i kind w' (call.perform s me) := by
  obtain ⟨frame, proper, -⟩ := call.perform_keeps holds.proper me
  obtain ⟨b, found, scalar⟩ := holds.element
  obtain ⟨b', found', same⟩ := buffer_of_frame frame found
  exact ⟨proper, frame.trans holds.frame, ⟨b', found', (Buffer.element_of_frame same).trans scalar⟩, cell⟩

/-- An atomic on the element gives back its word and changes it as asked to, or fails and does nothing. -/
theorem HoldsWord.atomic {F : Store} (holds : HoldsWord F binding i kind w s)
    (integer : kind = .int ∨ kind = .uint) (me : InvocationId) (op : AtomicOp) {index : Int}
    (operands : List Value) (stands : s.elementAt? binding index = some ⟨.buffer binding, i⟩) :
    match AtomicRequest.of? kind op operands with
    | some r => ∃ t, Store.atomic op binding index operands me s = .ok (.ofWord kind w) t ∧
        t.cell ⟨.buffer binding, i⟩ = [r.change kind w]
    | none => ∃ e, Store.atomic op binding index operands me s = .error e s := by
  obtain ⟨b, found, scalar⟩ := holds.element
  have ran := atomic_run holds.proper found scalar integer op index operands me
  cases requested : AtomicRequest.of? kind op operands with
  | none =>
    rw [requested] at ran
    exact ran
  | some r =>
    rw [requested] at ran
    rw [elementAt?_eq found] at stands
    obtain ⟨j, inside, same⟩ := Option.map_eq_some_iff.1 stands
    cases same
    dsimp only at ran
    rw [touching_eq inside rfl] at ran
    have word : b.bits i = [w] := by
      have cell := holds.cell
      rwa [Store.cell, found] at cell
    have value : b.value i = .ofWord kind w := by
      rw [Buffer.value, word, scalar]
      rfl
    refine ⟨_, value ▸ ran, ?_⟩
    rw [performAll_concat, cell_perform, Effect.apply, Function.update_self, cell_performAll_notes,
      holds.cell]
    rfl

/-- One call. Whatever is not an atomic on the element leaves its word as it is. -/
theorem HoldsWord.step {F : Store} (holds : HoldsWord F binding i kind w s)
    (integer : kind = .int ∨ kind = .uint) (me : InvocationId) {call : StoreCall}
    (alone : call.place? F = some ⟨.buffer binding, i⟩ → call.isAtomic) :
    match call.request? F kind ⟨.buffer binding, i⟩ with
    | some r => call.returned? s ⟨.buffer binding, i⟩ me = some (.ofWord kind w) ∧
        HoldsWord F binding i kind (r.change kind w) (call.perform s me)
    | none => call.returned? s ⟨.buffer binding, i⟩ me = none ∧
        HoldsWord F binding i kind w (call.perform s me) := by
  have places := place?_of_frame holds.frame call
  by_cases here : call.place? F = some ⟨.buffer binding, i⟩
  · have is_atomic := alone here
    cases call with
    | atomic op other index operands =>
      have stands : s.elementAt? other index = some ⟨.buffer binding, i⟩ := places.trans here
      have stands' : F.elementAt? other index = some ⟨.buffer binding, i⟩ := here
      obtain rfl : binding = other := Resource.buffer.inj (StoreCall.resource_of_elementAt? stands)
      simp only [StoreCall.request?, if_pos stands', StoreCall.returned?, if_pos stands]
      have ran := holds.atomic integer me op operands stands
      cases requested : AtomicRequest.of? kind op operands with
      | none =>
        rw [requested] at ran
        obtain ⟨e, failed⟩ := ran
        have left : (StoreCall.atomic op binding index operands).perform s me = s :=
          congrArg Store.left failed
        rw [failed]
        exact ⟨rfl, holds.perform _ (left.symm ▸ holds.cell)⟩
      | some r =>
        rw [requested] at ran
        obtain ⟨t, ran, cell⟩ := ran
        have left : (StoreCall.atomic op binding index operands).perform s me = t :=
          congrArg Store.left ran
        rw [ran]
        exact ⟨rfl, holds.perform _ (left.symm ▸ cell)⟩
    | _ => cases is_atomic
  · have elsewhere : call.place? s ≠ some ⟨.buffer binding, i⟩ := fun stands => here (places ▸ stands)
    have unasked : call.request? F kind ⟨.buffer binding, i⟩ = none ∧
        call.returned? s ⟨.buffer binding, i⟩ me = none := by
      cases call with
      | atomic op other index operands => exact ⟨if_neg here, if_neg elsewhere⟩
      | _ => exact ⟨rfl, rfl⟩
    rw [unasked.1]
    refine ⟨unasked.2, holds.perform call ?_⟩
    have kept := (call.perform_keeps holds.proper me).2.2 ⟨.buffer binding, i⟩ fun _ => elsewhere
    exact kept.trans holds.cell

/-- A run of calls. The words that the atomics give back, and then the word that is left, are the
successive words under what they ask for. -/
theorem HoldsWord.after {F : Store} (holds : HoldsWord F binding i kind w s)
    (integer : kind = .int ∨ kind = .uint) {calls : List (InvocationId × StoreCall)}
    (alone : F.AtomicsAlone ⟨.buffer binding, i⟩ calls) :
    ∃ seen last, returned ⟨.buffer binding, i⟩ s calls = seen.map (Value.ofWord kind) ∧
      (s.after calls).cell ⟨.buffer binding, i⟩ = [last] ∧
      seen ++ [last] =
        AtomicRequest.successive kind w (F.requests kind ⟨.buffer binding, i⟩ calls) := by
  induction calls generalizing s w with
  | nil => exact ⟨[], w, rfl, holds.cell, rfl⟩
  | cons visit rest ih =>
    obtain ⟨me, call⟩ := visit
    obtain ⟨first, later⟩ := List.forall_mem_cons.1 alone
    have step := holds.step integer me first
    rw [returned, requests, List.filterMap_cons]
    dsimp only
    cases requested : call.request? F kind ⟨.buffer binding, i⟩ with
    | none =>
      rw [requested] at step
      obtain ⟨nothing, holds'⟩ := step
      obtain ⟨seen, last, gives, left, passes⟩ := ih holds' later
      rw [nothing]
      exact ⟨seen, last, gives, left, passes⟩
    | some r =>
      rw [requested] at step
      obtain ⟨gave, holds'⟩ := step
      obtain ⟨seen, last, gives, left, passes⟩ := ih holds' later
      rw [gave]
      refine ⟨w :: seen, last, ?_, left, ?_⟩
      · rw [gives]
        rfl
      · rw [AtomicRequest.successive, List.scanl_cons, List.cons_append, passes]
        rfl

/-- Another run whose atomics ask for the same in another order leaves the same word, if they all combine
words by one operation. -/
theorem HoldsWord.after_perm {F : Store} (holds : HoldsWord F binding i kind w s)
    (integer : kind = .int ∨ kind = .uint) {calls calls' : List (InvocationId × StoreCall)}
    (alone : F.AtomicsAlone ⟨.buffer binding, i⟩ calls)
    (alone' : F.AtomicsAlone ⟨.buffer binding, i⟩ calls') {op : AtomicOp}
    {combine : UInt32 → UInt32 → UInt32} (combines : op.combine? kind = some combine)
    (uniform : ∀ r ∈ F.requests kind ⟨.buffer binding, i⟩ calls, r.op = op)
    (reordered : (F.requests kind ⟨.buffer binding, i⟩ calls').Perm
      (F.requests kind ⟨.buffer binding, i⟩ calls)) :
    (s.after calls').cell ⟨.buffer binding, i⟩ = (s.after calls).cell ⟨.buffer binding, i⟩ := by
  obtain ⟨seen, last, -, left, passes⟩ := holds.after integer alone
  obtain ⟨seen', last', -, left', passes'⟩ := holds.after integer alone'
  rw [left, left', AtomicRequest.last_of_successive passes, AtomicRequest.last_of_successive passes',
    AtomicRequest.changeAll_perm combines uniform reordered.symm]

/-- The word of an element of an integer buffer. -/
theorem exists_holdsWord (proper : s.WellFormed) (found : s.buffers.get? binding = some b)
    (scalar : b.element = .scalar kind) (inside : i < b.length) :
    ∃ w, HoldsWord s binding i kind w s := by
  have single : (b.bits i).length = 1 := by
    rw [(proper.buffers binding b found i inside).1, scalar]
    rfl
  obtain ⟨w, word⟩ := List.length_eq_one_iff.1 single
  have cell : s.cell ⟨.buffer binding, i⟩ = [w] := by
    rw [Store.cell, found]
    exact word
  exact ⟨w, proper, rfl, ⟨b, found, scalar⟩, cell⟩

/-- Atomics on one element of an integer buffer take turns, however the invocations interleave them with
each other and with calls at other places: the words that they give back, and then the word that is left,
are the successive words under what they ask for. If they all combine words by one operation, the last
word folds their operands and is the same in every order. Up to 2 ^ 32 additions of one give back distinct
words that count up, and of equal swaps exactly the first one finds what it compares with. -/
theorem atomics_linearize (proper : s.WellFormed) (found : s.buffers.get? binding = some b)
    (scalar : b.element = .scalar kind) (integer : kind = .int ∨ kind = .uint) (inside : i < b.length) :
    let place : Location := ⟨.buffer binding, i⟩
    ∃ w, s.cell place = [w] ∧ ∀ calls, s.AtomicsAlone place calls →
      let requests := s.requests kind place calls
      ∃ seen last, s.returned place calls = seen.map (Value.ofWord kind) ∧
        (s.after calls).cell place = [last] ∧
        seen ++ [last] = AtomicRequest.successive kind w requests ∧
        (∀ (op : AtomicOp) combine (data : List UInt32), op.combine? kind = some combine →
          requests = data.map (⟨op, none, ·⟩) →
          last = data.foldl combine w ∧
          ∀ calls', s.AtomicsAlone place calls' → (s.requests kind place calls').Perm requests →
            (s.after calls').cell place = [last]) ∧
        (∀ n : Nat, n ≤ 2 ^ 32 → requests = List.replicate n ⟨.add, none, 1⟩ →
          seen = (List.range n).map (fun k => w + UInt32.ofNat k) ∧ (s.returned place calls).Nodup) ∧
        ∀ n x y, x ≠ y → w = x → requests = List.replicate (n + 1) ⟨.compSwap, some x, y⟩ →
          s.returned place calls = .ofWord kind x :: List.replicate n (.ofWord kind y) ∧
            Value.ofWord kind x ≠ .ofWord kind y := by
  intro place
  obtain ⟨w, holds⟩ := exists_holdsWord proper found scalar inside
  refine ⟨w, holds.cell, fun calls alone => ?_⟩
  intro requests
  obtain ⟨seen, last, gives, left, passes⟩ := holds.after integer alone
  refine ⟨seen, last, gives, left, passes, ?_, ?_, ?_⟩
  · intro op combine data combines asked
    constructor
    · rw [AtomicRequest.last_of_successive passes]
      exact (congrArg _ asked).trans (AtomicRequest.changeAll_combine combines data)
    · intro calls' alone' reordered
      have uniform : ∀ r ∈ requests, r.op = op := by
        intro r member
        obtain ⟨x, -, rfl⟩ := List.mem_map.1 (asked ▸ member)
        rfl
      exact (holds.after_perm integer alone alone' combines uniform reordered).trans left
  · intro n few asked
    have counted := AtomicRequest.eq_of_counting (passes.trans (congrArg _ asked))
    refine ⟨counted, ?_⟩
    rw [gives, counted]
    exact (AtomicRequest.nodup_counting few w).map (Value.ofWord_injective integer)
  · rintro n x y differ rfl asked
    have swapped := AtomicRequest.eq_of_swapping differ (passes.trans (congrArg _ asked))
    refine ⟨?_, fun same => differ (Value.ofWord_injective integer same)⟩
    rw [gives, swapped, List.map_cons, List.map_replicate]

/-- Minima of signed numbers, with a store to another element between them. -/
theorem atomics_linearize_signed :
    let s : Store :=
      { shader := "t"
        oobPolicy := .clampAndReport
        buffers := .ofList [(0, .zeros "A" (.scalar .int) 2)]
        images := .empty
        textures := .empty
        uniforms := [] }
    let place : Location := ⟨.buffer 0, 0⟩
    let calls := [(0, StoreCall.atomic .min 0 0 [.ofWord .int 5]),
      (1, StoreCall.write 0 1 (.ofWord .int 9)), (2, StoreCall.atomic .min 0 0 [.ofWord .int (-1)])]
    s.returned place calls = [.ofWord .int 0, .ofWord .int 0] ∧
      (s.after calls).cell place = [-1] ∧ (s.after calls.reverse).cell place = [-1] := by
  intro s place calls
  have proper : s.WellFormed := by
    constructor
    · intro binding b found
      obtain ⟨rfl, rfl⟩ : binding = 0 ∧ b = .zeros "A" (.scalar .int) 2 := by
        simpa using Bindings.mem_of_get?_ofList found
      exact Buffer.proper_zeros "A" (.scalar .int) 2
    · intro binding i found
      cases found
  obtain ⟨w, cell, linear⟩ :=
    @atomics_linearize s 0 _ .int 0 proper rfl rfl (.inl rfl) (by decide)
  obtain rfl : 0 = w := List.head_eq_of_cons_eq cell
  have asked : s.requests .int place calls = [5, -1].map (⟨.min, none, ·⟩) := by decide +kernel
  have asked' : s.requests .int place calls.reverse = [-1, 5].map (⟨.min, none, ·⟩) := by
    decide +kernel
  have alone : s.AtomicsAlone place calls := by
    unfold AtomicsAlone
    decide +kernel
  have alone' : s.AtomicsAlone place calls.reverse := fun call member =>
    alone call (List.mem_reverse.1 member)
  obtain ⟨seen, last, gives, left, passes, folds, -⟩ := linear calls alone
  obtain ⟨folded, reordered⟩ := folds .min _ [5, -1] rfl asked
  have words : seen ++ [last] = [0, 0] ++ [-1] := passes.trans (by rw [asked]; decide +kernel)
  obtain ⟨rfl, ending⟩ := List.append_inj' words rfl
  obtain rfl : last = -1 := List.head_eq_of_cons_eq ending
  refine ⟨gives, left, reordered _ alone' ?_⟩
  rw [asked, asked']
  exact .swap ..

end Store

end ComputeShader
