import ComputeShader.Proofs.CallPlaces
import ComputeShader.Proofs.ClosedShaders

/-! # Permitted calls

A run of a checked body is put together from calls that the access qualifiers permit and from operations
that access no element: no writeonly resource is ever loaded from, no readonly one stored to. So what is
readonly keeps its contents through a whole dispatch.
-/

namespace ComputeShader

/-! ## Runs of permitted calls -/

namespace RunContext

/-- The operations of the store that access no element. -/
inductive Aside (c : RunContext) : {α : Type} → StoreM α → Prop where
  | resolve (label : String) (index : Int) (extent : Nat) :
      Aside c (Store.resolve label index extent c.me)
  | uniform (slot : Nat) (element : Option Int) : Aside c (Store.uniform slot element c.me)
  | length (binding : Binding) : Aside c (Store.length binding)
  | imageSize (binding : Binding) : Aside c (Store.imageSize binding)
  | sample (binding : Binding) (r : SampleRequest) : Aside c (Store.sample c.sampler binding r)

/-- The parts of a run that access elements by calls of a kind alone. -/
inductive Confined (c : RunContext) (allowed : StoreCall → Prop) : {α : Type} → RunM α → Prop where
  | pure {α : Type} (a : α) : Confined c allowed (Pure.pure a : RunM α)
  | bind_of {α β : Type} {x : RunM α} {k : α → RunM β} {Q : α → Prop} (first : Confined c allowed x)
      (gives : Gives x Q) (next : ∀ a, Q a → Confined c allowed (k a)) : Confined c allowed (x >>= k)
  | step : Confined c allowed c.step
  | fail {α : Type} (e : EngineError) : Confined c allowed (throw e : RunM α)
  | loadLocal {α : Type} (slot : Nat) {k : Value → RunM α} (next : ∀ v, Confined c allowed (k v)) :
      Confined c allowed (get >>= fun s => k (s.locals.getD slot default))
  | storeLocal (slot : Nat) (v : Value) :
      Confined c allowed (modify fun s => { s with locals := s.locals.set slot v })
  | aside {α : Type} {x : StoreM α} (operation : Aside c x) : Confined c allowed (onStore x)
  | call (call : StoreCall) (permitted : allowed call) : Confined c allowed (onStore (call.run c.me))

variable {c : RunContext} {allowed allowed' : StoreCall → Prop} {α : Type} {x : RunM α}

theorem Confined.mono (more : ∀ call, allowed call → allowed' call) (confined : c.Confined allowed x) :
    c.Confined allowed' x := by
  induction confined with
  | pure a => exact .pure a
  | bind_of first gives next ih ih' => exact .bind_of ih gives ih'
  | step => exact .step
  | fail e => exact .fail e
  | loadLocal slot next ih => exact .loadLocal slot ih
  | storeLocal slot v => exact .storeLocal slot v
  | aside operation => exact .aside operation
  | call call permitted => exact .call call (more call permitted)

end RunContext

/-- Whether a call is one that a checked body may make: it loads from and stores to what it may, and
stores to parts of elements only where the body has such targets. -/
structure Shader.Grants (s : Shader) (call : StoreCall) : Prop where
  loads : call.Loads → s.MayRead call.resource
  stores : call.Stores → s.MayWrite call.resource
  parts : ∀ binding index change, call = .update binding index change → s.storesParts binding

namespace RunContext

variable {c : RunContext} {α : Type} {x : RunM α}

/-- Every operation of a run of a checked body is a granted call or accesses no element. -/
theorem confined_access {y : StoreM α} (checked : c.shader.Checked) (operation : c.Access y) :
    c.Confined c.shader.Grants (onStore y) := by
  cases operation with
  | resolve label index extent => exact .aside (.resolve label index extent)
  | uniform slot element _ => exact .aside (.uniform slot element)
  | read binding index _ permitted =>
    exact .call (.read binding index) ⟨fun _ => permitted checked, False.elim, nofun⟩
  | write binding index v _ permitted =>
    exact .call (.write binding index v) ⟨False.elim, fun _ => permitted checked, nofun⟩
  | update binding index line path v _ permitted part =>
    refine .call (.update binding index fun old =>
      (setPath old path v).mapError (.typeMismatch (.atLine "store" line))) ⟨False.elim, ?_, ?_⟩
    · exact fun _ => permitted checked
    · rintro _ _ _ ⟨⟩
      exact part
  | length binding _ => exact .aside (.length binding)
  | atomic op binding index operands _ permitted =>
    exact .call (.atomic op binding index operands)
      ⟨fun _ => (permitted checked).1, fun _ => (permitted checked).2, nofun⟩
  | imageLoad binding x y _ permitted =>
    exact .call (.imageLoad binding x y) ⟨fun _ => permitted checked, False.elim, nofun⟩
  | imageStore binding x y v _ permitted =>
    exact .call (.imageStore binding x y v) ⟨False.elim, fun _ => permitted checked, nofun⟩
  | imageAtomicAdd binding x y v _ permitted =>
    exact .call (.imageAtomicAdd binding x y v)
      ⟨fun _ => (permitted checked).1, fun _ => (permitted checked).2, nofun⟩
  | imageSize binding _ => exact .aside (.imageSize binding)
  | sample binding r _ => exact .aside (.sample binding r)

theorem Composed.confined (checked : c.shader.Checked) (composed : c.Composed x) :
    c.Confined c.shader.Grants x := by
  induction composed with
  | pure a => exact .pure a
  | bind_of first gives next ih ih' => exact .bind_of ih gives ih'
  | step => exact .step
  | mismatch site e ordinary => exact .fail _
  | loadLocal slot declared next ih => exact .loadLocal slot ih
  | storeLocal slot v declared => exact .storeLocal slot v
  | access operation => exact confined_access checked operation

/-- A run of a checked body makes granted calls only. -/
theorem confined_body (c : RunContext) (checked : c.shader.Checked) :
    c.Confined c.shader.Grants (c.execAll c.shader.body) :=
  c.composed_body.confined checked

/-! ## What a run keeps -/

/-- The store that a part of a run leaves, whether or not it fails. -/
def ended : EStateM.Result EngineError RunState α → Store
  | .ok _ s | .error _ s => s.store

/-- An operation that accesses no element depends on the frame alone, and does no more than note
something. -/
theorem Aside.eq {y : StoreM α} (operation : Aside c y) (F : Store) :
    ∃ (r : Resolution) (answer : Except EngineError α), ∀ s : Store, s.frame = F.frame →
      y s = (s.performAll c.me r.notes).outcome answer := by
  have resolved (label : String) (index : Int) (extent : Nat) : ∃ r : Resolution, ∀ s : Store,
      s.frame = F.frame →
        Store.resolve label index extent c.me s = (s.performAll c.me r.notes).outcome r.answer := by
    refine ⟨.ofIndex F.oobPolicy label index extent, fun s frame => ?_⟩
    rw [Store.resolve_eq, Store.oobPolicy_of_frame frame]
  have silent {y : StoreM α} (answer : Except EngineError α)
      (same : ∀ s : Store, s.frame = F.frame → y s = s.outcome answer) :
      ∃ (r : Resolution) (answer : Except EngineError α), ∀ s : Store, s.frame = F.frame →
        y s = (s.performAll c.me r.notes).outcome answer := ⟨⟨.ok none, []⟩, answer, same⟩
  cases operation with
  | resolve label index extent =>
    obtain ⟨r, ran⟩ := resolved label index extent
    exact ⟨r, r.answer, ran⟩
  | uniform slot element =>
    have looked {s : Store} (frame : s.frame = F.frame) : s.uniforms[slot]? = F.uniforms[slot]? := by
      have uniforms : s.frame.uniforms = F.frame.uniforms := by rw [frame]
      exact congrArg (·[slot]?) uniforms
    cases found : F.uniforms[slot]? with
    | none =>
      exact silent (.error _) fun s frame => by
        rw [Store.uniform, Store.get_bind, looked frame, found]
        rfl
    | some u =>
      cases element with
      | none =>
        by_cases array : u.isArray
        · exact silent (.error _) fun s frame => by
            rw [Store.uniform, Store.get_bind, looked frame, found]
            exact congrFun (if_pos array) s
        · refine silent (.ok (u.values.headD (Value.zero u.ty))) fun s frame => ?_
          rw [Store.uniform, Store.get_bind, looked frame, found]
          exact congrFun (if_neg array) s
      | some index =>
        obtain ⟨⟨answer, messages⟩, ran⟩ := resolved ("uniform `" ++ u.name ++ "`") index u.values.length
        refine ⟨⟨answer, messages⟩,
          answer.map fun i? => i?.elim (Value.zero u.ty) (u.values.getD · (Value.zero u.ty)),
          fun s frame => ?_⟩
        have ran := ran s frame
        rw [Store.uniform, Store.get_bind, looked frame, found]
        dsimp only
        rcases answer with e | _ | i
        · exact Store.bind_eq_error ran
        · exact Store.bind_eq ran
        · exact Store.bind_eq ran
  | length binding =>
    cases found : F.buffers.get? binding with
    | none =>
      exact silent (.error _) fun s frame =>
        Store.bind_eq_error (Store.bufferAt_eq_error (Store.no_buffer_of_frame frame found))
    | some b =>
      refine silent (.ok b.length) fun s frame => ?_
      obtain ⟨b', found', alike⟩ := Store.buffer_of_frame frame found
      rw [← Buffer.length_of_frame alike]
      exact Store.bind_eq (Store.bufferAt_eq found')
  | imageSize binding =>
    cases found : F.images.get? binding with
    | none =>
      exact silent (.error _) fun s frame =>
        Store.bind_eq_error (Store.imageAt_eq_error (Store.no_image_of_frame frame found))
    | some i =>
      refine silent (.ok (i.width, i.height)) fun s frame => ?_
      obtain ⟨i', found', alike⟩ := Store.image_of_frame frame found
      rw [← Image.width_of_frame alike, ← Image.height_of_frame alike]
      exact Store.bind_eq (Store.imageAt_eq found')
  | sample binding r =>
    have looked {s : Store} (frame : s.frame = F.frame) :
        s.textures.get? binding = F.textures.get? binding := by
      have textures : s.frame.textures = F.frame.textures := by rw [frame]
      exact congrArg (fun t => t.get? binding) textures
    cases found : F.textures.get? binding with
    | none =>
      exact silent (.error _) fun s frame => by
        rw [Store.sample, Store.get_bind, looked frame, found]
        rfl
    | some t =>
      cases sampled : c.sampler.sample t r with
      | ok lanes =>
        refine silent (.ok lanes) fun s frame => ?_
        rw [Store.sample, Store.get_bind, looked frame, found]
        simp only [sampled]
        rfl
      | error reason =>
        exact silent (.error _) fun s frame => by
          rw [Store.sample, Store.get_bind, looked frame, found]
          simp only [sampled]
          rfl

/-- What calls and notes keep, a run keeps. -/
theorem Confined.keeps {allowed : StoreCall → Prop} {I : Store → Prop}
    (notes : ∀ s (r : Resolution), I s → I (s.performAll c.me r.notes))
    (calls : ∀ s call, allowed call → I s → I (call.perform s c.me)) (confined : c.Confined allowed x)
    (s : RunState) (before : I s.store) : I (ended (x s)) := by
  have onStore_keeps {β : Type} (y : StoreM β) (s : RunState) (kept : I (Store.left (y s.store))) :
      I (ended (onStore y s)) := by
    unfold onStore
    cases ran : y s.store with
    | ok a store => rwa [ran] at kept
    | error e store => rwa [ran] at kept
  induction confined generalizing s with
  | pure a => exact before
  | @bind_of _ _ x k Q first gives next ih ih' =>
    have kept := ih s before
    cases ran : x s with
    | ok a s' =>
      rw [ran] at kept
      have together : (x >>= k) s = k a s' := by simp only [bind, EStateM.bind, ran]
      rw [together]
      exact ih' a (gives s a s' ran) s' kept
    | error e s' =>
      rw [ran] at kept
      have together : (x >>= k) s = .error e s' := by simp only [bind, EStateM.bind, ran]
      rwa [together]
  | step =>
    rw [step_eq]
    split
    · exact before
    · exact before
  | fail e => exact before
  | loadLocal slot next ih => exact ih _ s before
  | storeLocal slot v => exact before
  | aside operation =>
    refine onStore_keeps _ s ?_
    obtain ⟨r, answer, ran⟩ := operation.eq s.store
    rw [ran s.store rfl, Store.left_outcome]
    exact notes s.store r before
  | call call permitted =>
    refine onStore_keeps _ s ?_
    rw [StoreCall.left_run]
    exact calls s.store call permitted before

end RunContext

/-! ## What is readonly -/

/-- A member of a list is found by its key, if no two members share one. -/
theorem find?_of_nodup {α : Type} {key : α → Binding} {as : List α} (distinct : (as.map key).Nodup) {a : α}
    (member : a ∈ as) : as.find? (fun other => key other = key a) = some a := by
  have held : (as.find? fun other => key other = key a).isSome :=
    List.find?_isSome.2 ⟨a, member, decide_eq_true rfl⟩
  obtain ⟨other, found⟩ := Option.isSome_iff_exists.1 held
  have same : key other = key a := by simpa using List.find?_some found
  obtain rfl := List.inj_on_of_nodup_map distinct (List.mem_of_find?_eq_some found) member same
  exact found

namespace Shader

variable {s : Shader} {r : Resource}

/-- Whether a resource is declared with an access. -/
def Declares (s : Shader) (access : Access) : Resource → Prop
  | .buffer binding => ∃ b ∈ s.buffers, b.binding = binding ∧ b.access = access
  | .image binding => ∃ i ∈ s.images, i.binding = binding ∧ i.access = access

/-- What is declared is found, if no two buffers and no two images share a binding. -/
theorem access?_of_declares (buffers : (s.buffers.map BufferDecl.binding).Nodup)
    (images : (s.images.map ImageDecl.binding).Nodup) {access : Access} (declares : s.Declares access r) :
    s.access? r = some access := by
  cases r with
  | buffer binding =>
    obtain ⟨b, member, rfl, rfl⟩ := declares
    have found : s.buffer? b.binding = some b := find?_of_nodup buffers member
    rw [access?, found, Option.map_some]
  | image binding =>
    obtain ⟨i, member, rfl, rfl⟩ := declares
    have found : s.image? i.binding = some i := find?_of_nodup images member
    rw [access?, found, Option.map_some]

/-- Whether a call neither loads from a resource that is declared writeonly nor stores to one that is
declared readonly. -/
def Permits (s : Shader) (call : StoreCall) : Prop :=
  (call.Loads → ¬ s.Declares .writeOnly call.resource) ∧
    (call.Stores → ¬ s.Declares .readOnly call.resource)

end Shader

namespace Store

/-- Whether a store is well formed and keeps the frame of another one and the cells of some resources. -/
structure Retains (s : Store) (kept : Resource → Prop) (t : Store) : Prop where
  wellFormed : t.WellFormed
  frame : t.frame = s.frame
  cell : ∀ place : Location, kept place.resource → t.cell place = s.cell place

variable {s t : Store} {kept : Resource → Prop}

theorem Retains.of_contents (retains : s.Retains kept t) {t' : Store} (same : t'.contents = t.contents)
    (frame : t'.frame = t.frame) : s.Retains kept t' where
  wellFormed := retains.wellFormed.of_contents same
  frame := frame.trans retains.frame
  cell place member := (congrFun (cell_of_contents same) place).trans (retains.cell place member)

theorem Retains.notes (retains : s.Retains kept t) {me : InvocationId} (r : Resolution) :
    s.Retains kept (t.performAll me r.notes) := by
  refine ⟨?_, frame_performAll.trans retains.frame, fun place member => ?_⟩
  · obtain ⟨buffers, images, -⟩ := @performAll_notes t me r
    exact ⟨buffers ▸ retains.wellFormed.buffers, images ▸ retains.wellFormed.images⟩
  · rw [cell_performAll_notes]
    exact retains.cell place member

/-- A call keeps what it may not store to. -/
theorem Retains.call (retains : s.Retains kept t) {me : InvocationId} (call : StoreCall)
    (elsewhere : call.Stores → ¬ kept call.resource) : s.Retains kept (call.perform t me) := by
  obtain ⟨frame, proper, cell⟩ := call.perform_keeps retains.wellFormed me
  refine ⟨proper, frame.trans retains.frame, fun place member => ?_⟩
  rw [cell place fun stores stands =>
    elsewhere stores (StoreCall.resource_of_place? stands ▸ member)]
  exact retains.cell place member

variable {binding : Binding}

theorem Retains.buffer (retains : s.Retains kept t) (member : kept (.buffer binding)) :
    t.buffers.get? binding = s.buffers.get? binding := by
  cases found : s.buffers.get? binding with
  | none => exact no_buffer_of_frame retains.frame found
  | some b =>
    obtain ⟨b', found', alike⟩ := buffer_of_frame retains.frame found
    have same : b' = b := by
      refine Buffer.eq_of_bits alike fun i => ?_
      have cell := retains.cell ⟨.buffer binding, i⟩ member
      simpa only [Store.cell, found, found', Option.map_some, Option.getD_some] using cell
    rw [found', same]

theorem Retains.image (retains : s.Retains kept t) (proper : s.WellFormed)
    (member : kept (.image binding)) : t.images.get? binding = s.images.get? binding := by
  cases found : s.images.get? binding with
  | none => exact no_image_of_frame retains.frame found
  | some i =>
    obtain ⟨i', found', alike⟩ := image_of_frame retains.frame found
    have same : i' = i := by
      refine Image.eq_of_words alike (retains.wellFormed.images _ _ found') (proper.images _ _ found)
        fun u => ?_
      have cell := retains.cell ⟨.image binding, u⟩ member
      simpa only [Store.cell, found, found', Option.map_some, Option.getD_some] using cell
    rw [found', same]

end Store

/-- A run keeps the resources that no granted call stores to. -/
theorem RunContext.retains_finish {c : RunContext} (checked : c.shader.Checked) {kept : Resource → Prop}
    (readonly : ∀ r, kept r → ¬ c.shader.MayWrite r) {s t : Store} (retains : s.Retains kept t) :
    s.Retains kept (c.finish t).2 := by
  have body : s.Retains kept (ended (c.execAll c.shader.body (c.start t))) := by
    refine (c.confined_body checked).keeps (I := fun t => s.Retains kept t) ?_ ?_ (c.start t) retains
    · exact fun t r before => before.notes r
    · intro t call granted before
      exact before.call call fun stores member => readonly _ member (granted.stores stores)
  unfold finish run
  cases ran : c.execAll c.shader.body (c.start t) with
  | ok flow final =>
    rw [ran] at body
    exact body
  | error e final =>
    rw [ran] at body
    dsimp only
    split
    · exact body.of_contents rfl rfl
    · exact body

namespace Dispatcher

variable {d : Dispatcher} {s t t' : Store} {kept : Resource → Prop} {i : Invocation}

theorem retains_runOne (checked : d.shader.Checked) (readonly : ∀ r, kept r → ¬ d.shader.MayWrite r)
    (retains : s.Retains kept t) (ran : d.runOne t i = .ok t') : s.Retains kept t' := by
  have finished := RunContext.retains_finish (c := d.context i) checked readonly retains
  rw [runOne_finish] at ran
  cases answer : (d.context i).finish t with
  | mk e? final =>
    rw [answer] at ran finished
    cases e? with
    | some e => cases ran
    | none =>
      obtain ⟨-, rfl⟩ := settle_eq_ok.1 ran
      exact finished.of_contents Store.contents_drained Store.frame_drained

/-- A dispatch keeps what is readonly. -/
theorem retains_runAll (checked : d.shader.Checked) (readonly : ∀ r, kept r → ¬ d.shader.MayWrite r)
    (retains : s.Retains kept t) {order : List Invocation} (ran : d.runAll t order = .ok t') :
    s.Retains kept t' := by
  induction order generalizing t with
  | nil =>
    cases ran
    exact retains
  | cons i rest ih =>
    rw [runAll, List.foldlM_cons] at ran
    obtain ⟨next, first, later⟩ := exists_of_bind_eq_ok ran
    exact ih (retains_runOne checked readonly retains first) later

/-- Access qualifiers hold at run time. Whatever the invocation, the body of a loaded shader accesses
elements by calls alone that load from nothing writeonly and store to nothing readonly; and whatever the
order, a dispatch that succeeds freezes every readonly buffer and image as it was seeded. -/
theorem qualifiers_hold {name source : String} (loaded : Shader.load name source = .ok d.shader)
    (buffers : (d.shader.buffers.map BufferDecl.binding).Nodup)
    (images : (d.shader.images.map ImageDecl.binding).Nodup) (seeded : Seeded d.shader s) :
    (∀ i, (d.context i).Confined d.shader.Permits ((d.context i).execAll d.shader.body)) ∧
      ∀ order snapshot, (d.runAll s order).map Store.freeze = .ok snapshot →
        (∀ b ∈ d.shader.buffers, b.access = .readOnly → ∃ held,
          s.buffers.get? b.binding = some held ∧
            snapshot.buffers.get? b.binding = some (Store.freezeBuffer held)) ∧
        ∀ i ∈ d.shader.images, i.access = .readOnly → ∃ held,
          s.images.get? i.binding = some held ∧
            snapshot.images.get? i.binding = some (Store.freezeImage held) := by
  have checked := (Shader.parsed_of_load loaded).2
  have declared {access : Access} {r : Resource} (declares : d.shader.Declares access r) :
      d.shader.access? r = some access := Shader.access?_of_declares buffers images declares
  constructor
  · intro i
    refine ((d.context i).confined_body checked).mono fun call granted => ⟨fun loads only => ?_,
      fun stores only => ?_⟩
    · exact granted.loads loads (declared only)
    · exact granted.stores stores (declared only)
  · intro order snapshot frozen
    have proper := seeded.fresh.wellFormed
    have provides := seeded.provides buffers images
    cases ran : d.runAll s order with
    | error e =>
      rw [ran] at frozen
      cases frozen
    | ok t =>
      rw [ran] at frozen
      cases frozen
      have start : s.Retains (d.shader.Declares .readOnly) s := ⟨proper, rfl, fun _ _ => rfl⟩
      have retains : s.Retains (d.shader.Declares .readOnly) t :=
        retains_runAll checked (fun r only may => may (declared only)) start ran
      constructor
      · intro b member only
        have readonly : d.shader.Declares .readOnly (.buffer b.binding) := ⟨b, member, rfl, only⟩
        obtain ⟨decl, is_declared, -⟩ := Option.map_eq_some_iff.1 (declared readonly)
        obtain ⟨held, found, -⟩ := provides.buffers _ decl is_declared
        refine ⟨held, found, ?_⟩
        rw [Store.freeze, Bindings.get?_mapValues, retains.buffer readonly, found, Option.map_some]
      · intro i member only
        have readonly : d.shader.Declares .readOnly (.image i.binding) := ⟨i, member, rfl, only⟩
        obtain ⟨decl, is_declared, -⟩ := Option.map_eq_some_iff.1 (declared readonly)
        obtain ⟨held, found, -⟩ := provides.images _ decl is_declared
        refine ⟨held, found, ?_⟩
        rw [Store.freeze, Bindings.get?_mapValues, retains.image proper readonly, found, Option.map_some]

/-- A body that loads from a readonly buffer and image, and stores to a writeonly buffer and image. -/
def relaying : String :=
  "#version 310 es\n" ++
  "layout(local_size_x = 2) in;\n" ++
  "layout(binding = 0) readonly buffer From \x7b uint source[]; \x7d;\n" ++
  "layout(binding = 1) writeonly buffer To \x7b uvec2 sink[]; \x7d;\n" ++
  "layout(r32ui, binding = 0) readonly uniform highp uimage2D seen;\n" ++
  "layout(rgba8, binding = 1) writeonly uniform highp image2D drawn;\n" ++
  "void main() \x7b\n" ++
  "  uint i = gl_LocalInvocationIndex;\n" ++
  "  sink[i].x = source[i] + imageLoad(seen, ivec2(0)).x;\n" ++
  "  imageStore(drawn, ivec2(int(i), 0), vec4(1.0));\n" ++
  "\x7d\n"

theorem qualifiers_hold_relaying : ∃ (d : Dispatcher) (s : Store) (snapshot : Snapshot) (held : Buffer),
    Shader.load "relaying" relaying = .ok d.shader ∧ Seeded d.shader s ∧
      (d.runAll s (invocations d.shader.localSize ⟨1, 1, 1⟩)).map Store.freeze = .ok snapshot ∧
      s.buffers.get? 0 = some held ∧ held.bits 1 = [7] ∧
      snapshot.buffers.get? 0 = some (Store.freezeBuffer held) ∧
      (d.context default).Confined d.shader.Permits
        ((d.context default).execAll d.shader.body) := by
  let config : EngineConfig := { bufferLength := 2, imageWidth := 2, imageHeight := 1 }
  have outcome : (Shader.load "relaying" relaying).toOption.any fun shader =>
      let d : Dispatcher := { shader, config }
      decide (shader.buffers.map BufferDecl.binding).Nodup &&
        (decide (shader.images.map ImageDecl.binding).Nodup &&
          (shader.buffers.any (fun b => b.binding = 0 && b.access = .readOnly) &&
            ((Seeding.element 0 1 (Value.uint 7)).after? (.create shader config)).any fun s =>
              (s.buffers.get? 0).any (fun b => b.bits 1 = [7]) &&
                (d.runAll s (invocations shader.localSize ⟨1, 1, 1⟩)).toOption.isSome)) := by
    rw [load_of_toList "relaying" (by
      delta relaying
      simp only [String.toList_append, String.reduceToList]
      rfl)]
    decide +kernel
  obtain ⟨shader, loaded, outcome⟩ := exists_ok outcome
  obtain ⟨buffers, outcome⟩ := Bool.and_eq_true_iff.1 outcome
  obtain ⟨images, outcome⟩ := Bool.and_eq_true_iff.1 outcome
  obtain ⟨present, outcome⟩ := Bool.and_eq_true_iff.1 outcome
  let d : Dispatcher := { shader, config }
  obtain ⟨s, -, seeded, outcome⟩ := Seeded.of_after? (.created config) outcome
  obtain ⟨stored, finished⟩ := Bool.and_eq_true_iff.1 outcome
  obtain ⟨t, ran⟩ : ∃ t, d.runAll s (invocations d.shader.localSize ⟨1, 1, 1⟩) = .ok t := by
    obtain ⟨t, ran, -⟩ := exists_ok (p := fun _ => true) (by simpa using finished)
    exact ⟨t, ran⟩
  obtain ⟨confined, readonly⟩ :=
    qualifiers_hold (d := d) loaded (of_decide_eq_true buffers) (of_decide_eq_true images) seeded
  obtain ⟨b, member, matched⟩ := List.any_eq_true.1 present
  obtain ⟨first, only⟩ := Bool.and_eq_true_iff.1 matched
  have frozen : (d.runAll s (invocations d.shader.localSize ⟨1, 1, 1⟩)).map Store.freeze =
      .ok t.freeze := by rw [ran]; rfl
  obtain ⟨held, found, kept⟩ := (readonly _ _ frozen).1 b member (of_decide_eq_true only)
  rw [of_decide_eq_true first] at found kept
  rw [found] at stored
  exact ⟨d, s, t.freeze, held, loaded, seeded, frozen, found, of_decide_eq_true stored, kept,
    confined default⟩

end Dispatcher

end ComputeShader
