import ComputeShader.Proofs.CaseSeeds
import ComputeShader.Proofs.CheckedBodies
import ComputeShader.Proofs.ScopedHeaders
import ComputeShader.Proofs.ScopedStatements
import ComputeShader.Shader.Load

/-! # Loaded shaders are closed

The global names come into scope when the declarations have their slots, and then the body is read. What
it leaves open, the memory of atomic functions, is checked on the whole body at last.
-/

namespace ComputeShader

namespace Parser

variable {d : Shader}

/-! ## Global names -/

theorem reads_declareGlobal (name : String) {entry : NameEntry} (declared : entry.DeclaredIn d)
    (pos : Position) : Reads d (fun _ => True) (declareGlobal name entry pos) := by
  refine reads_get fun s within => ?_
  dsimp only
  split
  · exact reads_fail_bind _ _
  · exact reads_set (within.push declared)

theorem declared_bufferName {b : BufferDecl} (member : b ∈ d.buffers) :
    (bufferName b).2.DeclaredIn d := by
  have declared : d.DeclaresBuffer b.binding := by
    refine Option.isSome_iff_exists.1 (List.find?_isSome.2 ⟨b, member, ?_⟩)
    exact decide_eq_true rfl
  unfold bufferName
  split
  · exact declared
  · exact declared

theorem declared_image {i : ImageDecl} (member : i ∈ d.images) : d.DeclaresImage i.binding := by
  refine Option.isSome_iff_exists.1 (List.find?_isSome.2 ⟨i, member, ?_⟩)
  exact decide_eq_true rfl

theorem declared_uniformEntry {u : UniformDecl} {slot : Nat} (held : d.uniforms[slot]? = some u) :
    (uniformEntry u slot).DeclaredIn d := by
  unfold uniformEntry
  split
  · next array => exact ⟨u, held, array⟩
  · next single => exact ⟨u, held, Bool.eq_false_iff.2 single⟩

/-! ## Whole shaders -/

theorem grows_mainFunction : Grows d Stmt.ScopedAll mainFunction := by
  refine (reads_expectKeyword _).grows fun _ _ => (reads_expectIdentifier _).grows fun name _ => ?_
  dsimp only
  split
  · exact grows_fail_bind _ _
  refine (reads_expectSymbol _).grows fun _ _ => (reads_consume _).grows fun _ _ => ?_
  refine (reads_expectSymbol _).grows fun _ _ => (reads_expectSymbol _).grows fun _ _ => ?_
  exact grows_blockBody

/-- Whether a parser, run with nothing in scope, gives something with a property where it succeeds. -/
def Opens {α : Type} (P : α → Prop) (x : Parser α) : Prop :=
  ∀ s a s', (∀ d : Shader, d.locals = [] → s.Within d) → x s = .ok (a, s') → P a

section Opens

variable {α β : Type} {P : β → Prop} {x : Parser α} {k : α → Parser β}

theorem opens_of_reads {R : Shader → α → Prop} (first : ∀ d, Reads d (R d) x)
    (next : ∀ a, (∀ d, d.locals = [] → R d a) → Opens P (k a)) : Opens P (x >>= k) := by
  intro s b s' nothing ran
  obtain ⟨a, s'', ran₁, ran₂⟩ := exists_of_bind_ok ran
  have reads (d : Shader) (empty : d.locals = []) := first d s a s'' (nothing d empty) ran₁
  exact next a (fun d empty => (reads d empty).2) s'' b s' (fun d empty => (reads d empty).1) ran₂

theorem opens_of_grows {y : Parser β} (empty : d.locals = []) (grows : Grows d (fun _ => P) y) :
    Opens P y := by
  intro s b s' nothing ran
  obtain ⟨d', -, -, holds⟩ := grows s b s' (nothing d empty) ran
  exact holds

end Opens

/-- What the body of a shader refers to is declared, and declarations of a kind share at most slots with
one that reaches the last. -/
theorem opens_shader (name : String) :
    Opens (fun s => Stmt.ScopedAll s s.body ∧ s.SlotsApart) (shader name) := by
  refine opens_of_reads (fun _ => reads_versionDirective) fun version _ => ?_
  refine opens_of_reads (fun _ => reads_state) fun start _ => ?_
  refine opens_of_reads (fun _ => reads_headerFrom _ _) fun header _ => ?_
  split
  · exact fun _ _ _ _ ran => nomatch ran
  · next localSize _ =>
    refine opens_of_reads (fun _ => reads_assigned _ BufferDecl.slots (fun _ _ => rfl) _)
      fun buffers buffersApart => ?_
    refine opens_of_reads (fun _ => reads_assigned _ ImageDecl.slots (fun _ _ => rfl) _)
      fun images imagesApart => ?_
    refine opens_of_reads (fun _ => reads_assigned _ SamplerDecl.slots (fun _ _ => rfl) _)
      fun samplers samplersApart => ?_
    refine opens_of_reads (fun _ => reads_assigned _ UniformDecl.slots (fun _ _ => rfl) _)
      fun uniforms uniformsApart => ?_
    let d : Shader := {
      name, version, localSize
      extensions := header.extensions
      buffers := buffers.map Declared.decl
      images := images.map Declared.decl
      samplers := samplers.map Declared.decl
      uniforms := uniforms.map Declared.decl
      locals := []
      body := [] }
    have apart : d.SlotsApart :=
      ⟨buffersApart d rfl, imagesApart d rfl, samplersApart d rfl, uniformsApart d rfl⟩
    refine opens_of_grows (d := d) rfl ?_
    refine (reads_forM fun b member => ?_).grows fun _ _ => ?_
    · exact reads_declareGlobal _ (declared_bufferName (List.mem_map_of_mem member)) _
    refine (reads_forM fun i member => ?_).grows fun _ _ => ?_
    · refine reads_declareGlobal _ ?_ _
      exact declared_image (List.mem_map_of_mem member)
    refine (reads_forM fun s member => ?_).grows fun _ _ => ?_
    · refine reads_declareGlobal _ ?_ _
      exact ⟨s.decl, List.mem_map_of_mem member, rfl⟩
    refine (reads_forM fun u member => ?_).grows fun _ _ => ?_
    · obtain ⟨u, slot⟩ := u
      refine reads_declareGlobal _ (declared_uniformEntry ?_) _
      have held := List.mem_zipIdx_iff_getElem?.1 member
      rw [List.getElem?_map, held]
      rfl
    refine (reads_modify fun s within => ?_).grows fun _ _ => ?_
    · exact within.of_same rfl rfl
    refine grows_mainFunction.bind fun d' body grown all => reads_peek?.grows fun kind _ => ?_
    dsimp only
    split
    · exact grows_unmet_bind _
    refine grows_get fun final within => grows_pure ⟨all.mono ?_, ⟨apart.1, apart.2, apart.3, apart.4⟩⟩
    exact ⟨grown.buffers.symm, grown.images.symm, grown.samplers.symm, grown.uniforms.symm,
      Nat.le_of_eq (congrArg List.length within.locals.symm)⟩

end Parser

/-! ## Loading -/

theorem Expr.NamedIn.closedIn {s : Shader} {e : Expr} (named : e.NamedIn s) (checked : e.CheckedIn s) :
    e.ClosedIn s := by
  cases e
  case atomic => exact ⟨named, checked.1⟩
  case imageAtomicAdd => exact checked.1
  all_goals exact named

namespace Shader

variable {s : Shader}

theorem scoped_of_parse {name source : String} (parsed : parse name source = .ok s) :
    Stmt.ScopedAll s s.body ∧ s.SlotsApart := by
  unfold parse at parsed
  split at parsed
  · cases parsed
  · next tokens _ =>
    cases ran : Parser.shader name (ParserState.initial tokens) with
    | error e =>
      rw [StateT.run', ran] at parsed
      cases parsed
    | ok r =>
      rw [StateT.run', ran] at parsed
      cases parsed
      have nothing (d : Shader) (empty : d.locals = []) : (ParserState.initial tokens).Within d :=
        ⟨empty.symm, fun _ _ absent => nomatch absent⟩
      exact Parser.opens_shader name _ _ _ nothing ran

/-- A shader that is loaded is read from its source, and its body passes the check. -/
theorem parsed_of_load {name source : String} (loaded : load name source = .ok s) :
    parse name source = .ok s ∧ s.Checked := by
  obtain ⟨read, parsed, rest⟩ := exists_of_bind_eq_ok loaded
  obtain ⟨_, passed, ⟨⟩⟩ := exists_of_bind_eq_ok rest
  exact ⟨parsed, checked_stmts s s.body passed⟩

/-- A shader that is loaded refers to nothing but what it declares. -/
theorem closed_of_load {name source : String} (loaded : load name source = .ok s) : s.Closed := by
  obtain ⟨parsed, checked⟩ := parsed_of_load loaded
  obtain ⟨⟨nodes, targets, parts⟩, -⟩ := scoped_of_parse parsed
  exact ⟨fun e member => (nodes e member).closedIn (checked.nodes e member), targets, parts⟩

end Shader

end ComputeShader
