import ComputeShader.Case.Seed
import ComputeShader.Proofs.SeededStores

/-! # Seeds of cases

What a case sets up is a seeded store: its seeds are seeding operations, and what they fill a resource
with fits its declaration, since a resource keeps its type when it is allocated again.
-/

namespace ComputeShader

theorem exists_of_bind_eq_ok {ε α β : Type} {x : Except ε α} {k : α → Except ε β} {b : β}
    (ran : (x >>= k) = .ok b) : ∃ a, x = .ok a ∧ k a = .ok b := by
  cases x with
  | error e => cases ran
  | ok a => exact ⟨a, rfl, ran⟩

theorem exists_of_ran_bind {ε σ α β : Type} {x : EStateM ε σ α} {k : α → EStateM ε σ β} {s s' : σ} {b : β}
    (ran : (x >>= k) s = .ok b s') : ∃ a t, x s = .ok a t ∧ k a t = .ok b s' := by
  simp only [bind, EStateM.bind] at ran
  cases first : x s with
  | error e t =>
    rw [first] at ran
    cases ran
  | ok a t =>
    rw [first] at ran
    exact ⟨a, t, rfl, ran⟩

namespace Literal

variable {l : Literal}

theorem ty_of_toValue {ty : ValueType} {v : Value} (read : l.toValue ty = .ok v) : v.ty = ty := by
  obtain ⟨components, -, read⟩ := exists_of_bind_eq_ok read
  split at read
  · cases read
    rfl
  · cases read

theorem length_of_toTexel {f : TexelFormat} {bytes : List UInt8} (read : l.toTexel f = .ok bytes) :
    bytes.length = f.texelSize := by
  obtain ⟨channels, encoded⟩ : ∃ channels, f.encodeChannels channels = .ok bytes := by
    cases l <;>
    · obtain ⟨channels, -, read⟩ := exists_of_bind_eq_ok read
      refine ⟨channels, ?_⟩
      dsimp only at read
      cases encoded : f.encodeChannels channels with
      | error e =>
        rw [encoded] at read
        cases read
      | ok bytes =>
        rw [encoded] at read
        cases read
        rfl
  rw [TexelFormat.encodeChannels] at encoded
  split at encoded
  · next complete =>
    obtain rfl := Except.ok.inj encoded
    refine f.length_encodeBits ?_
    rw [List.length_map]
    have atMost := f.channels_le_four
    omega
  · cases encoded

end Literal

/-- What is known after an operation that succeeds, if `P` is known before. -/
def Leads {α : Type} (P : Store → Prop) (x : StoreM α) (Q : α → Store → Prop) : Prop :=
  ∀ s a s', P s → x s = .ok a s' → Q a s'

section Leads

variable {α β : Type} {P P' : Store → Prop} {x : StoreM α} {Q Q' : α → Store → Prop}

theorem leads_pure {a : α} (holds : ∀ s, P s → Q a s) : Leads P (pure a) Q := by
  intro s a' s' before ran
  cases ran
  exact holds _ before

theorem leads_invalidSeed {target : String} {fault : SeedFault} :
    Leads P (Store.invalidSeed target fault) Q :=
  fun _ _ _ _ ran => nomatch ran

theorem Leads.bind {k : α → StoreM β} {R : β → Store → Prop} (first : Leads P x Q)
    (next : ∀ a, Leads (Q a) (k a) R) : Leads P (x >>= k) R := by
  intro s b s' before ran
  cases done : x s with
  | error e t =>
    rw [Store.bind_eq_error done] at ran
    cases ran
  | ok a t =>
    rw [Store.bind_eq done] at ran
    exact next a t b s' (first s a t before done) ran

theorem leads_invalidSeed_bind {target : String} {fault : SeedFault} {k : α → StoreM β}
    {R : β → Store → Prop} : Leads P (Store.invalidSeed target fault >>= k) R :=
  (leads_invalidSeed (Q := fun _ _ => False)).bind fun _ _ _ _ impossible _ => impossible.elim

theorem Leads.mono (leads : Leads P x Q) (before : ∀ s, P' s → P s)
    (after : ∀ a s, Q a s → Q' a s) : Leads P' x Q' :=
  fun s a s' holds ran => after a s' (leads s a s' (before s holds) ran)

theorem leads_forM {f : β → StoreM Unit} {bs : List β} (each : ∀ b ∈ bs, Leads P (f b) fun _ => P) :
    Leads P (bs.forM f) fun _ => P := by
  induction bs with
  | nil => exact leads_pure fun _ before => before
  | cons b rest ih =>
    have first := each b List.mem_cons_self
    exact first.bind fun _ => ih fun b' member => each b' (List.mem_cons_of_mem b member)

theorem leads_mapM {f : β → StoreM α} {bs : List β} (each : ∀ b, Leads P (f b) fun _ => P) :
    Leads P (bs.mapM f) fun _ => P := by
  induction bs with
  | nil => exact leads_pure fun _ before => before
  | cons b rest ih =>
    rw [List.mapM_cons]
    exact (each b).bind fun _ => ih.bind fun _ => leads_pure fun _ before => before

end Leads

variable {shader : Shader} {P : Store → Prop}

theorem leads_seeding (call : Seeding) : Leads (Seeded shader) call.run fun _ => Seeded shader :=
  fun _ _ _ before ran => .seeded call before ran

theorem leads_seedValue (target : String) (ty : ValueType) (l : Literal) :
    Leads P (seedValue target ty l) fun v s => P s ∧ v.ty = ty := by
  rw [seedValue]
  split
  · next v read => exact leads_pure fun _ before => ⟨before, Literal.ty_of_toValue read⟩
  · exact leads_invalidSeed

theorem leads_seedBytes (target : String) (f : TexelFormat) (l : Literal) :
    Leads P (seedBytes target f l) fun bytes s => P s ∧ bytes.length = f.texelSize := by
  rw [seedBytes]
  split
  · next bytes read => exact leads_pure fun _ before => ⟨before, Literal.length_of_toTexel read⟩
  · exact leads_invalidSeed

section Buffers

variable {binding : Binding} {b : Buffer}

theorem leads_seedBufferAt : Leads P (Store.seedBufferAt binding) fun b s =>
    P s ∧ s.buffers.get? binding = some b := by
  intro s b s' before ran
  rw [← bind_pure (Store.seedBufferAt binding)] at ran
  obtain ⟨b', found, done⟩ := Store.of_seedBufferAt ran
  cases done
  exact ⟨before, found⟩

/-- A buffer keeps its element type when it is allocated again. -/
theorem leads_allocateBuffer (length : Nat) :
    Leads (fun s => Seeded shader s ∧ s.buffers.get? binding = some b)
      (Store.allocateBuffer binding length) fun _ s => Seeded shader s ∧
        ∀ b', s.buffers.get? binding = some b' → b'.element = b.element := by
  intro s _ s' ⟨before, found⟩ ran
  refine ⟨.seeded (.allocateBuffer binding length) before ran, fun b' found' => ?_⟩
  obtain ⟨c, same, ran⟩ := Store.of_seedBufferAt ran
  obtain rfl : b = c := Option.some.inj (found.symm.trans same)
  cases ran
  rw [Bindings.get?_modify, if_pos rfl, found] at found'
  cases found'
  rfl

theorem leads_seedElement (target : String) (ty : ValueType) (index : Nat) (l : Literal) :
    Leads (Seeded shader) (do Store.seedElement binding index (← seedValue target ty l))
      fun _ => Seeded shader :=
  (leads_seedValue target ty l).bind fun v =>
    (leads_seeding (.element binding index v)).mono (fun _ before => before.1) fun _ _ after => after

theorem BufferSeed.leads_apply (seed : BufferSeed) :
    Leads (Seeded shader) seed.apply fun _ => Seeded shader := by
  refine leads_seedBufferAt.bind fun b => ?_
  have elements : Leads (Seeded shader) (do
      seed.data.zipIdx.forM fun x => do
        Store.seedElement seed.binding x.2
          (← seedValue (Store.bufferTarget seed.binding) b.element x.1)
      seed.set.forM fun x => do
        Store.seedElement seed.binding x.1
          (← seedValue (Store.bufferTarget seed.binding) b.element x.2)) fun _ => Seeded shader :=
    (leads_forM fun x _ => leads_seedElement _ _ x.2 x.1).bind fun _ =>
      leads_forM fun x _ => leads_seedElement _ _ x.1 x.2
  dsimp only
  by_cases tooLong : seed.lengthFrom b.length < seed.data.length ∧ seed.length.isSome
  · rw [if_pos tooLong]
    exact leads_invalidSeed_bind
  · rw [if_neg tooLong]
    refine (leads_allocateBuffer _).bind fun _ => ?_
    cases seed.fill with
    | none => exact elements.mono (fun _ before => before.1) fun _ _ after => after
    | some l =>
      refine (leads_seedValue _ _ l).bind fun v => Leads.bind ?_ fun _ => elements
      intro s _ s' ⟨⟨before, keeps⟩, typed⟩ ran
      exact .filledBuffer seed.binding v before (fun b' found => typed.trans (keeps b' found).symm) ran

end Buffers

section Images

variable {binding : Binding} {i : Image}

theorem leads_seedImageAt : Leads P (Store.seedImageAt binding) fun i s =>
    P s ∧ s.images.get? binding = some i := by
  intro s i s' before ran
  rw [← bind_pure (Store.seedImageAt binding)] at ran
  obtain ⟨i', found, done⟩ := Store.of_seedImageAt ran
  cases done
  exact ⟨before, found⟩

/-- An image keeps its format when it is allocated again. -/
theorem leads_allocateImage (width height : UInt32) :
    Leads (fun s => Seeded shader s ∧ s.images.get? binding = some i)
      (Store.allocateImage binding width height) fun _ s => Seeded shader s ∧
        ∀ i', s.images.get? binding = some i' → i'.format = i.format := by
  intro s _ s' ⟨before, found⟩ ran
  refine ⟨.seeded (.allocateImage binding width height) before ran, fun i' found' => ?_⟩
  obtain ⟨j, same, ran⟩ := Store.of_seedImageAt ran
  obtain rfl : i = j := Option.some.inj (found.symm.trans same)
  cases ran
  rw [Bindings.get?_modify, if_pos rfl, found] at found'
  cases found'
  rfl

theorem leads_seedTexel (target : String) (f : TexelFormat) (x y : UInt32) (l : Literal) :
    Leads (Seeded shader) (do Store.seedTexel binding x y (← seedBytes target f l))
      fun _ => Seeded shader :=
  (leads_seedBytes target f l).bind fun bytes =>
    (leads_seeding (.texel binding x y bytes)).mono (fun _ before => before.1) fun _ _ after => after

theorem ImageSeed.leads_apply (seed : ImageSeed) :
    Leads (Seeded shader) seed.apply fun _ => Seeded shader := by
  refine leads_seedImageAt.bind fun i => ?_
  have texels : Leads (Seeded shader) (do
      seed.data.zipIdx.forM fun x => do
        let position := UInt32.ofNat x.2
        Store.seedTexel seed.binding (position % seed.width) (position / seed.width)
          (← seedBytes (Store.imageTarget seed.binding) i.format x.1)
      seed.texels.forM fun t => do
        Store.seedTexel seed.binding t.x t.y
          (← seedBytes (Store.imageTarget seed.binding) i.format t.value)) fun _ => Seeded shader :=
    (leads_forM fun x _ => leads_seedTexel _ _ _ _ x.1).bind fun _ =>
      leads_forM fun t _ => leads_seedTexel _ _ t.x t.y t.value
  dsimp only
  by_cases tooMany : seed.width.toNat * seed.height.toNat < seed.data.length
  · rw [if_pos tooMany]
    exact leads_invalidSeed_bind
  · rw [if_neg tooMany]
    refine (leads_allocateImage _ _).bind fun _ => ?_
    cases seed.fill with
    | none => exact texels.mono (fun _ before => before.1) fun _ _ after => after
    | some l =>
      refine (leads_seedBytes _ _ l).bind fun bytes => Leads.bind ?_ fun _ => texels
      intro s _ s' ⟨⟨before, keeps⟩, sized⟩ ran
      refine .filledImage seed.binding bytes before (fun i' found => ?_) ran
      rw [keeps i' found, sized]

end Images

theorem UniformSeed.leads_values (seed : UniformSeed) (ty : ValueType) (length : Option Nat) :
    Leads P (seed.values ty length) fun _ => P := by
  have value (l : Literal) : Leads P (seedValue seed.name ty l) fun _ => P :=
    (leads_seedValue _ ty l).mono (fun _ before => before) fun _ _ after => after.1
  unfold values
  split
  · exact (value _).bind fun _ => leads_pure fun _ before => before
  · exact leads_mapM value
  · exact leads_invalidSeed

theorem UniformSeed.leads_apply (seed : UniformSeed) :
    Leads (Seeded shader) seed.apply fun _ => Seeded shader := by
  intro s _ s' before ran
  rw [apply, Store.get_bind] at ran
  cases found : s.uniformSlot? seed.name with
  | none =>
    rw [found] at ran
    cases ran
  | some slot =>
    obtain ⟨slot, ty, length⟩ := slot
    rw [found] at ran
    have sets := (seed.leads_values ty length).bind fun values =>
      @leads_seeding shader (.uniform slot values)
    exact sets s _ s' before ran

/-- The store of a case is a seeded store. -/
theorem Case.seeded_of_seededStore {c : Case} {s : Store}
    (succeeds : c.seededStore shader = .ok s) : Seeded shader s := by
  have seeds : Leads (Seeded shader) c.applySeeds fun _ => Seeded shader :=
    (leads_forM fun seed _ => seed.leads_apply).bind fun _ =>
      (leads_forM fun seed _ => seed.leads_apply).bind fun _ =>
        (leads_forM fun seed _ => leads_seeding (.texture seed.binding seed.texture)).bind fun _ =>
          leads_forM fun seed _ => seed.leads_apply
  rw [seededStore] at succeeds
  cases ran : c.applySeeds (Store.create shader c.engine) with
  | error e t =>
    rw [ran] at succeeds
    cases succeeds
  | ok a t =>
    rw [ran] at succeeds
    cases succeeds
    exact seeds _ a _ (.created c.engine) ran

end ComputeShader
