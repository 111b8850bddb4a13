import Mathlib.Data.List.GetD
import ComputeShader.Proofs.DispatchSteps
import ComputeShader.Proofs.LoadedShaders
import ComputeShader.Proofs.ScheduleIndependence
import ComputeShader.Proofs.SeededStores

/-! # Dispatches of closed shaders

A store that is created for a shader has what the shader declares, whatever it is set up with, and keeps
it. So no run of a closed body meets a resource that is not declared, or uses one as what it is not; and
what stands behind its local variables does not matter to it.
-/

namespace ComputeShader

/-! ## What stores provide -/

/-- A map made from a list with distinct keys holds every entry of it. -/
theorem Bindings.get?_ofList_of_nodup {α β : Type} {items : List α} {key : α → Binding} {value : α → β}
    (distinct : (items.map key).Nodup) {a : α} (member : a ∈ items) :
    (Bindings.ofList (items.map fun a => (key a, value a))).get? (key a) = some (value a) := by
  have held : ((Bindings.ofList (items.map fun a => (key a, value a))).get? (key a)).isSome := by
    refine Bindings.isSome_get?_ofList.2 ?_
    rw [List.map_map]
    exact List.mem_map_of_mem member
  obtain ⟨v, found⟩ := Option.isSome_iff_exists.1 held
  obtain ⟨a', member', same⟩ := List.mem_map.1 (Bindings.mem_of_get?_ofList found)
  obtain ⟨keys, rfl⟩ := Prod.mk.inj same
  obtain rfl := List.inj_on_of_nodup_map distinct member' member keys
  exact found

namespace Store

variable {shader : Shader} {s s' : Store}

/-- A created store has what is declared, if no two buffers and no two images share a binding. -/
theorem provides_create (config : EngineConfig)
    (buffers : (shader.buffers.map BufferDecl.binding).Nodup)
    (images : (shader.images.map ImageDecl.binding).Nodup) :
    (create shader config).Provides shader := by
  constructor
  · intro binding decl declared
    have found : shader.buffers.find? (fun b => b.binding = binding) = some decl := declared
    obtain rfl : decl.binding = binding := by simpa using List.find?_some found
    exact ⟨_, Bindings.get?_ofList_of_nodup buffers (List.mem_of_find?_eq_some found), rfl⟩
  · intro binding decl declared
    have found : shader.images.find? (fun i => i.binding = binding) = some decl := declared
    obtain rfl : decl.binding = binding := by simpa using List.find?_some found
    exact ⟨_, Bindings.get?_ofList_of_nodup images (List.mem_of_find?_eq_some found), rfl⟩
  · intro decl member
    refine Option.isSome_iff_exists.1 (Bindings.isSome_get?_ofList.2 ?_)
    rw [List.map_map]
    exact List.mem_map_of_mem member
  · intro slot decl declared
    have held : (create shader config).uniforms[slot]? = some _ :=
      List.getElem?_map.trans (congrArg _ declared)
    exact ⟨_, held, rfl⟩

/-- Setting up a store takes nothing away. -/
theorem Provides.setUp (provides : s.Provides shader) (step : s.SetUp s') : s'.Provides shader := by
  cases step with
  | buffer binding f typed keeps =>
    refine ⟨fun other decl declared => ?_, provides.images, provides.samplers, provides.uniforms⟩
    obtain ⟨b, found, element⟩ := provides.buffers other decl declared
    rw [Bindings.get?_modify, found]
    split
    · next same =>
      subst same
      exact ⟨f b, rfl, (typed b found).trans element⟩
    · exact ⟨b, rfl, element⟩
  | image binding f typed keeps =>
    refine ⟨provides.buffers, fun other decl declared => ?_, provides.samplers, provides.uniforms⟩
    obtain ⟨i, found, format⟩ := provides.images other decl declared
    rw [Bindings.get?_modify, found]
    split
    · next same =>
      subst same
      exact ⟨f i, rfl, (typed i found).trans format⟩
    · exact ⟨i, rfl, format⟩
  | texture binding t =>
    refine ⟨provides.buffers, provides.images, fun decl member => ?_, provides.uniforms⟩
    obtain ⟨old, found⟩ := provides.samplers decl member
    rw [Bindings.get?_modify, found]
    split
    · exact ⟨t, rfl⟩
    · exact ⟨old, rfl⟩
  | uniform slot u values held =>
    refine ⟨provides.buffers, provides.images, provides.samplers, fun other decl declared => ?_⟩
    obtain ⟨u', found, array⟩ := provides.uniforms other decl declared
    rw [List.getElem?_set]
    split
    · next same =>
      subst same
      obtain rfl : u = u' := Option.some.inj (held.symm.trans found)
      rw [if_pos (List.getElem?_eq_some_iff.1 held).1]
      exact ⟨_, rfl, array⟩
    · exact ⟨u', found, array⟩

end Store

/-- A seeded store has what is declared. -/
theorem Seeded.provides {shader : Shader} {s : Store} (seeded : Seeded shader s)
    (buffers : (shader.buffers.map BufferDecl.binding).Nodup)
    (images : (shader.images.map ImageDecl.binding).Nodup) : s.Provides shader :=
  seeded.invariant (P := fun s => s.Provides shader)
    (fun config => Store.provides_create config buffers images)
    fun _ _ step provides => provides.setUp step

/-! ## Local variables -/

/-- The state with further values behind the local variables. -/
def RunState.extended (s : RunState) (extra : List Value) : RunState :=
  { s with locals := s.locals ++ extra }

namespace RunContext

variable {c : RunContext} {α β : Type} {x : RunM α} {k : α → RunM β}

/-- What a part of a run comes to, with further values behind the local variables. -/
def extendedResult (extra : List Value) :
    EStateM.Result EngineError RunState α → EStateM.Result EngineError RunState α
  | .ok a s => .ok a (s.extended extra)
  | .error e s => .error e (s.extended extra)

/-- Whether a part of a run neither looks at nor changes what stands behind the local variables. -/
structure Contained (c : RunContext) (x : RunM α) : Prop where
  extended : ∀ (s : RunState) (extra : List Value), s.locals.length = c.shader.locals.length →
    x (s.extended extra) = extendedResult extra (x s)
  keeps : ∀ (s : RunState) (a : α) (s' : RunState), s.locals.length = c.shader.locals.length →
    x s = .ok a s' → s'.locals.length = c.shader.locals.length

theorem Contained.bind (first : c.Contained x) (next : ∀ s a s', x s = .ok a s' → c.Contained (k a)) :
    c.Contained (x >>= k) := by
  constructor
  · intro s extra length
    have same := first.extended s extra length
    cases ran : x s with
    | ok a s' =>
      rw [ran] at same
      have later := (next s a s' ran).extended s' extra (first.keeps s a s' length ran)
      simpa only [Bind.bind, EStateM.bind, ran, same, extendedResult] using later
    | error e s' =>
      rw [ran] at same
      simp only [Bind.bind, EStateM.bind, ran, same, extendedResult]
  · intro s b s'' length ran
    cases ran₁ : x s with
    | ok a s' =>
      have ran₂ : k a s' = .ok b s'' := by simpa only [Bind.bind, EStateM.bind, ran₁] using ran
      exact (next s a s' ran₁).keeps s' b s'' (first.keeps s a s' length ran₁) ran₂
    | error e s' =>
      simp only [Bind.bind, EStateM.bind, ran₁] at ran
      cases ran

theorem contained_step : c.Contained c.step := by
  constructor
  · intro s extra length
    have steps : (s.extended extra).steps = s.steps := rfl
    rw [step_eq, step_eq, steps]
    split
    · rfl
    · rfl
  · intro s a s' length ran
    rw [step_eq] at ran
    split at ran
    · cases ran
    · cases ran
      exact length

theorem contained_loadLocal {slot : Nat} {k : Value → RunM β} (declared : c.shader.DeclaresLocal slot)
    (next : ∀ v, c.Contained (k v)) :
    c.Contained (get >>= fun s => k (s.locals.getD slot default)) := by
  constructor
  · intro s extra length
    have within : slot < s.locals.length := length ▸ declared
    have value : (s.extended extra).locals.getD slot default = s.locals.getD slot default :=
      List.getD_append _ _ _ _ within
    have looked (s : RunState) : (get >>= fun s => k (s.locals.getD slot default)) s =
        k (s.locals.getD slot default) s := rfl
    rw [looked, looked, value]
    exact (next _).extended s extra length
  · exact fun s b s' length ran => (next _).keeps s b s' length ran

theorem contained_storeLocal {slot : Nat} (v : Value) (declared : c.shader.DeclaresLocal slot) :
    c.Contained (modify fun s => { s with locals := s.locals.set slot v }) := by
  constructor
  · intro s extra length
    have within : slot < s.locals.length := length ▸ declared
    have stored : (s.extended extra).locals.set slot v = s.locals.set slot v ++ extra :=
      List.set_append_left _ _ within
    exact congrArg (fun locals => EStateM.Result.ok () { s with locals }) stored
  · rintro s _ _ length ⟨⟩
    exact List.length_set.trans length

/-- If the body is closed, every part of a run refers to local variables that are there. -/
theorem Composed.contained (closed : c.shader.Closed) (composed : c.Composed x) : c.Contained x := by
  induction composed with
  | pure a =>
    refine ⟨fun _ _ _ => rfl, ?_⟩
    rintro s _ _ length ⟨⟩
    exact length
  | bind_of first gives next ih ih' => exact ih.bind fun s a s' ran => ih' a (gives s a s' ran)
  | step => exact contained_step
  | mismatch site e ordinary => exact ⟨fun _ _ _ => rfl, fun _ _ _ _ ran => nomatch ran⟩
  | loadLocal slot declared next ih => exact contained_loadLocal (declared closed) ih
  | storeLocal slot v declared => exact contained_storeLocal v (declared closed)
  | @access α y operation =>
    constructor
    · intro s extra length
      unfold onStore RunState.extended
      cases y s.store <;> rfl
    · intro s a s' length ran
      unfold onStore at ran
      split at ran
      · cases ran
        exact length
      · cases ran

end RunContext

/-! ## Dispatches -/

namespace Dispatcher

variable {d : Dispatcher} {s : Store}

theorem not_dangling_of_settle {policy : RacePolicy} {e : EngineError} (ran : settle policy s = .error e) :
    ¬ e.Dangling := by
  unfold settle at ran
  split at ran
  · cases ran
  · cases ran
    nofun
  · cases ran

/-- A dispatch of a closed shader on a store that has what is declared ends with no dangling error. -/
theorem not_dangling_of_runAll (closed : d.shader.Closed) (proper : s.WellFormed)
    (provides : s.Provides d.shader) {order : List Invocation} {e : EngineError}
    (ran : d.runAll s order = .error e) : ¬ e.Dangling := by
  induction order generalizing s with
  | nil => cases ran
  | cons i rest ih =>
    obtain ⟨effects, answer, finishes⟩ := (d.context i).exists_finishesBy proper
    rw [runAll, List.foldlM_cons, runOne_eq_of_finishesBy finishes rfl (.inl rfl)] at ran
    cases answer with
    | some e' =>
      cases ran
      exact (finishes.expected e rfl).2 closed provides
    | none =>
      cases settled : settle d.config.racePolicy (s.performAll i.id effects) with
      | error e' =>
        rw [conclude, settled] at ran
        cases ran
        exact not_dangling_of_settle settled
      | ok next =>
        rw [conclude, settled] at ran
        obtain ⟨-, rfl⟩ := settle_eq_ok.1 settled
        have proper' := (finishes.wellFormed proper).of_contents Store.contents_drained
        have frame : (s.performAll i.id effects).drained.frame = s.frame :=
          Store.frame_drained.trans Store.frame_performAll
        exact ih proper' (provides.of_frame frame) ran

/-- A loaded shader is closed. Dispatched on any store created and set up for it, it meets nothing that is
not declared and uses everything as what it is, and no invocation refers to more local variables than there
are. -/
theorem loaded_closed {name source : String} (loaded : Shader.load name source = .ok d.shader)
    (buffers : (d.shader.buffers.map BufferDecl.binding).Nodup)
    (images : (d.shader.images.map ImageDecl.binding).Nodup) (seeded : Seeded d.shader s) :
    d.shader.Closed ∧
      (∀ order e, d.runAll s order = .error e → ¬ e.Dangling) ∧
      ∀ (i : Invocation) (t : Store) (extra : List Value),
        let c := d.context i
        c.execAll d.shader.body ((c.start t).extended extra) =
          RunContext.extendedResult extra (c.execAll d.shader.body (c.start t)) := by
  have closed := Shader.closed_of_load loaded
  refine ⟨closed, fun order e ran => ?_, fun i t extra => ?_⟩
  · exact not_dangling_of_runAll closed seeded.fresh.wellFormed (seeded.provides buffers images) ran
  · intro c
    have contained := (RunContext.composed_body c).contained closed
    exact contained.extended (c.start t) extra (List.length_map _)

/-- Loading looks at the characters of the source text. -/
theorem load_of_toList (name : String) {source : String} {chars : List Char}
    (text : source.toList = chars) : Shader.load name source =
      (match Lexer.scan 0 Position.start chars with
        | .error e => throw ⟨e.pos, .unexpectedCharacter e.text⟩
        | .ok tokens => (Parser.shader name).run' (ParserState.initial tokens)) >>= fun shader => do
          shader.checkStmts shader.body
          return shader := by
  subst text
  rfl

/-- A body that uses one of each resource, and at last stores a `uint` into an element of type `vec2`. -/
def gathering : String :=
  "#version 310 es\n" ++
  "layout(local_size_x = 2) in;\n" ++
  "layout(binding = 0) buffer Tally \x7b uint tally[]; \x7d;\n" ++
  "layout(binding = 1) buffer Waves \x7b vec2 crest[]; \x7d waves;\n" ++
  "layout(r32ui, binding = 0) uniform highp uimage2D seen;\n" ++
  "layout(binding = 0) uniform sampler2D picture;\n" ++
  "uniform float scale;\n" ++
  "uniform uint offsets[2];\n" ++
  "void main() \x7b\n" ++
  "  float middle = 0.5 * scale;\n" ++
  "  uint scale = max(offsets[gl_LocalInvocationIndex], 1u);\n" ++
  "  atomicCompSwap(tally[scale], 0u, scale);\n" ++
  "  imageAtomicAdd(seen, ivec2(0), scale);\n" ++
  "  waves.crest[0] = texture(picture, vec2(middle)).xy;\n" ++
  "  waves.crest[1] = scale;\n" ++
  "\x7d\n"

theorem loaded_closed_gathering :
    ∃ (d : Dispatcher) (s : Store) (site : AccessSite),
      Shader.load "gathering" gathering = .ok d.shader ∧ Seeded d.shader s ∧ d.shader.Closed ∧
      d.runAll s (invocations d.shader.localSize ⟨1, 1, 1⟩) =
        .error (.typeMismatch site ⟨"vec2", "uint"⟩) ∧
      ¬ (EngineError.typeMismatch site ⟨"vec2", "uint"⟩).Dangling := by
  let config : EngineConfig := { bufferLength := 2, imageWidth := 1, imageHeight := 1, sampler := .nearest }
  have outcome : (Shader.load "gathering" gathering).toOption.any fun shader =>
      let d : Dispatcher := { shader, config }
      decide (shader.buffers.map BufferDecl.binding).Nodup &&
        (decide (shader.images.map ImageDecl.binding).Nodup &&
          ((Seeding.uniform 1 [.uint 1, .uint 0]).after? (.create shader config)).any fun s =>
            match d.runAll s (invocations shader.localSize ⟨1, 1, 1⟩) with
            | .error (.typeMismatch _ found) => found == ⟨"vec2", "uint"⟩
            | _ => false) := by
    rw [load_of_toList "gathering" (by
      delta gathering
      simp only [String.toList_append, String.reduceToList]
      rfl)]
    decide +kernel
  obtain ⟨shader, loaded, outcome⟩ := exists_ok outcome
  obtain ⟨buffers, outcome⟩ := Bool.and_eq_true_iff.1 outcome
  obtain ⟨images, outcome⟩ := Bool.and_eq_true_iff.1 outcome
  let d : Dispatcher := { shader, config }
  obtain ⟨s, -, seeded, outcome⟩ := Seeded.of_after? (.created config) outcome
  split at outcome
  · next site found ran =>
    obtain rfl := eq_of_beq outcome
    obtain ⟨closed, never, -⟩ :=
      loaded_closed (d := d) loaded (of_decide_eq_true buffers) (of_decide_eq_true images) seeded
    exact ⟨d, s, site, loaded, seeded, closed, ran, never _ _ ran⟩
  · cases outcome

end Dispatcher

end ComputeShader
