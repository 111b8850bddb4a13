import ComputeShader.Proofs.ClosedBodies
import ComputeShader.Shader.Parser.State

/-! # Names in scope

While a body is read, every name in scope stands for something that is declared: a buffer, an image, a
sampler, a uniform that is an array or not, or a local variable. `Reads` says that a parser leaves the
scope as it is and what it gives then; `Grows` allows for further local variables.
-/

namespace ComputeShader

/-! ## Scopes -/

namespace Entity

/-- Whether an entity is declared, as what it is. -/
def DeclaredIn (d : Shader) : Entity → Prop
  | bufferArray binding | bufferInstance binding => d.DeclaresBuffer binding
  | uniformArray slot => d.DeclaresUniform slot true
  | image binding => d.DeclaresImage binding
  | sampler binding => d.DeclaresSampler binding

end Entity

namespace NameEntry

/-- Whether what a name stands for is declared, as what it is. -/
def DeclaredIn (d : Shader) : NameEntry → Prop
  | entity e => e.DeclaredIn d
  | uniform slot => d.DeclaresUniform slot false
  | localVar slot => d.DeclaresLocal slot

end NameEntry

/-- Whether declarations gain nothing but local variables, behind the present ones. -/
structure Shader.GrowsTo (d d' : Shader) : Prop where
  buffers : d'.buffers = d.buffers
  images : d'.images = d.images
  samplers : d'.samplers = d.samplers
  uniforms : d'.uniforms = d.uniforms
  locals : d.locals.length ≤ d'.locals.length

namespace Shader.GrowsTo

variable {d d' d'' : Shader} {binding : Binding} {slot : Nat}

theorem refl (d : Shader) : d.GrowsTo d := ⟨rfl, rfl, rfl, rfl, Nat.le_refl _⟩

theorem trans (grown : d.GrowsTo d') (grown' : d'.GrowsTo d'') : d.GrowsTo d'' where
  buffers := grown'.buffers.trans grown.buffers
  images := grown'.images.trans grown.images
  samplers := grown'.samplers.trans grown.samplers
  uniforms := grown'.uniforms.trans grown.uniforms
  locals := Nat.le_trans grown.locals grown'.locals

theorem buffer (grown : d.GrowsTo d') (declared : d.DeclaresBuffer binding) :
    d'.DeclaresBuffer binding := by
  unfold DeclaresBuffer buffer? at declared ⊢
  exact grown.buffers ▸ declared

theorem image (grown : d.GrowsTo d') (declared : d.DeclaresImage binding) :
    d'.DeclaresImage binding := by
  unfold DeclaresImage image? at declared ⊢
  exact grown.images ▸ declared

theorem sampler (grown : d.GrowsTo d') (declared : d.DeclaresSampler binding) :
    d'.DeclaresSampler binding := by
  unfold DeclaresSampler at declared ⊢
  exact grown.samplers ▸ declared

theorem uniform (grown : d.GrowsTo d') {array : Bool} (declared : d.DeclaresUniform slot array) :
    d'.DeclaresUniform slot array := by
  unfold DeclaresUniform at declared ⊢
  exact grown.uniforms ▸ declared

theorem localSlot (grown : d.GrowsTo d') (declared : d.DeclaresLocal slot) : d'.DeclaresLocal slot :=
  Nat.lt_of_lt_of_le declared grown.locals

/-- What is declared stays so when there are more local variables. -/
theorem entry (grown : d.GrowsTo d') {entry : NameEntry} (declared : entry.DeclaredIn d) :
    entry.DeclaredIn d' := by
  cases entry with
  | entity e =>
    cases e with
    | bufferArray binding => exact grown.buffer declared
    | bufferInstance binding => exact grown.buffer declared
    | uniformArray slot => exact grown.uniform declared
    | image binding => exact grown.image declared
    | sampler binding => exact grown.sampler declared
  | uniform slot => exact grown.uniform declared
  | localVar slot => exact grown.localSlot declared

end Shader.GrowsTo

/-- Whether the local variables are those of the declarations and every name in scope stands for
something declared. -/
structure ParserState.Within (s : ParserState) (d : Shader) : Prop where
  locals : s.locals = d.locals
  names : ∀ name entry, s.names.lookup name = some entry → entry.DeclaredIn d

/-- Tokens and blocks do not matter for the scope. -/
theorem ParserState.Within.of_same {s s' : ParserState} {d : Shader} (within : s.Within d)
    (names : s'.names = s.names) (locals : s'.locals = s.locals) : s'.Within d :=
  ⟨locals.trans within.locals, names ▸ within.names⟩

/-- A name more in scope. -/
theorem ParserState.Within.push {s : ParserState} {d : Shader} (within : s.Within d) {name : String}
    {entry : NameEntry} (declared : entry.DeclaredIn d) :
    ParserState.Within { s with names := (name, entry) :: s.names } d := by
  refine ⟨within.locals, fun other found held => ?_⟩
  rw [List.lookup_cons] at held
  split at held
  · exact Option.some.inj held ▸ declared
  · exact within.names other found held

namespace Parser

variable {d : Shader} {α β : Type} {P : α → Prop} {Q : β → Prop} {x : Parser α} {k : α → Parser β}

/-! ## Parsers that leave the scope as it is -/

/-- Whether a parser, where it succeeds, leaves the scope as it is and gives something with a
property. -/
def Reads (d : Shader) (P : α → Prop) (x : Parser α) : Prop :=
  ∀ s a s', s.Within d → x s = .ok (a, s') → s'.Within d ∧ P a

theorem exists_of_bind_ok {s s' : ParserState} {b : β} (ran : (x >>= k) s = .ok (b, s')) :
    ∃ a s'', x s = .ok (a, s'') ∧ k a s'' = .ok (b, s') := by
  cases first : x s with
  | error e =>
    rw [show (x >>= k) s = .error e by simp only [bind, StateT.bind, first]; rfl] at ran
    cases ran
  | ok r =>
    rw [show (x >>= k) s = k r.1 r.2 by simp only [bind, StateT.bind, first]; rfl] at ran
    exact ⟨r.1, r.2, rfl, ran⟩

theorem reads_pure {a : α} (holds : P a) : Reads d P (pure a) := by
  rintro s _ _ within ⟨⟩
  exact ⟨within, holds⟩

theorem reads_throw (e : SourceError) : Reads d P (throw e) := fun _ _ _ _ ran => nomatch ran

theorem reads_fail (pos : Position) (fault : SourceFault) : Reads d P (failAt pos fault) := reads_throw _

theorem Reads.bind (first : Reads d P x) (next : ∀ a, P a → Reads d Q (k a)) : Reads d Q (x >>= k) := by
  intro s b s' within ran
  obtain ⟨a, s'', ran₁, ran₂⟩ := exists_of_bind_ok ran
  obtain ⟨within', holds⟩ := first s a s'' within ran₁
  exact next a holds s'' b s' within' ran₂

theorem reads_fail_bind (pos : Position) (fault : SourceFault) :
    Reads d Q (failAt pos fault >>= k) :=
  (reads_fail (P := fun _ => False) pos fault).bind fun _ never => never.elim

theorem reads_state : Reads d (fun s => s.Within d) (get : Parser ParserState) := by
  rintro s _ _ within ⟨⟩
  exact ⟨within, within⟩

/-- A parser that begins by looking at the state. -/
theorem reads_get {k : ParserState → Parser β} (next : ∀ s, s.Within d → Reads d Q (k s)) :
    Reads d Q (get >>= k) :=
  reads_state.bind next

theorem reads_set {s : ParserState} (within : s.Within d) : Reads d (fun _ => True) (set s) := by
  rintro _ _ _ - ⟨⟩
  exact ⟨within, trivial⟩

theorem reads_modify {f : ParserState → ParserState} (within : ∀ s, s.Within d → (f s).Within d) :
    Reads d (fun _ => True) (modify f) := by
  rintro s _ _ before ⟨⟩
  exact ⟨within s before, trivial⟩

theorem reads_ite {c : Prop} [Decidable c] {y : Parser α} (holds : Reads d P x) (fails : Reads d P y) :
    Reads d P (if c then x else y) := by
  split
  · exact holds
  · exact fails

theorem reads_map {f : α → β} (reads : Reads d P x) (holds : ∀ a, P a → Q (f a)) :
    Reads d Q (f <$> x) := by
  rw [← bind_pure_comp]
  exact reads.bind fun a given => reads_pure (holds a given)

/-- A traversal gives one result for each element. -/
theorem reads_mapM {f : α → Parser β} {as : List α} (each : ∀ a ∈ as, Reads d Q (f a)) :
    Reads d (fun bs => bs.length = as.length ∧ ∀ b ∈ bs, Q b) (as.mapM f) := by
  induction as with
  | nil => exact reads_pure ⟨rfl, fun _ absent => nomatch absent⟩
  | cons a rest ih =>
    obtain ⟨here, later⟩ := List.forall_mem_cons.1 each
    rw [List.mapM_cons]
    refine here.bind fun b holds => (ih later).bind fun bs ⟨length, all⟩ => reads_pure ?_
    exact ⟨congrArg (· + 1) length, List.forall_mem_cons.2 ⟨holds, all⟩⟩

theorem reads_forM {f : α → Parser PUnit} {as : List α} (each : ∀ a ∈ as, Reads d (fun _ => True) (f a)) :
    Reads d (fun _ => True) (as.forM f) := by
  induction as with
  | nil => exact reads_pure trivial
  | cons a rest ih =>
    obtain ⟨here, later⟩ := List.forall_mem_cons.1 each
    exact here.bind fun _ _ => ih later

theorem reads_foldlM {f : β → α → Parser β} (each : ∀ b a, Reads d (fun _ => True) (f b a)) (as : List α)
    (b : β) : Reads d (fun _ => True) (as.foldlM f b) := by
  induction as generalizing b with
  | nil => exact reads_pure trivial
  | cons a rest ih =>
    rw [List.foldlM_cons]
    exact (each b a).bind fun b' _ => ih b'

/-! ## Tokens -/

theorem reads_unmet (want : Unmet) : Reads d P (failUnmet want) := reads_get fun _ _ => reads_fail _ _

theorem reads_unmet_bind (want : Unmet) : Reads d Q (failUnmet want >>= k) :=
  (reads_unmet (P := fun _ => False) want).bind fun _ never => never.elim

theorem reads_peek? : Reads d (fun _ => True) peek? := reads_get fun _ _ => reads_pure trivial

theorem reads_here : Reads d (fun _ => True) here := reads_get fun _ _ => reads_pure trivial

theorem reads_peekIdentifier? : Reads d (fun _ => True) peekIdentifier? :=
  reads_get fun _ _ => reads_pure trivial

theorem reads_limit : Reads d P (do failAt (← here) .nestingLimit) :=
  reads_here.bind fun _ _ => reads_fail _ _

/-- What a name in scope stands for is declared. -/
theorem reads_lookup? (name : String) :
    Reads d (fun found => ∀ entry, found = some entry → entry.DeclaredIn d) (lookup? name) :=
  reads_get fun _ within => reads_pure (within.names name)

theorem reads_next? : Reads d (fun _ => True) next? := by
  refine reads_get fun s within => ?_
  split
  · exact reads_pure trivial
  · refine (reads_set ?_).bind fun _ _ => reads_pure trivial
    exact within.of_same rfl rfl

theorem reads_skip : Reads d (fun _ => True) skip := by
  refine reads_modify fun s within => ?_
  split
  · exact within.of_same rfl rfl
  · exact within.of_same rfl rfl

theorem reads_skipWhile (p : Token → Bool) : Reads d (fun _ => True) (skipWhile p) :=
  reads_modify fun _ within => within.of_same rfl rfl

theorem reads_consume (kind : TokenKind) : Reads d (fun _ => True) (consume kind) := by
  refine reads_peek?.bind fun next _ => reads_ite ?_ (reads_pure trivial)
  exact reads_skip.bind fun _ _ => reads_pure trivial

theorem reads_consumeSymbol (s : Symbol) : Reads d (fun _ => True) (consumeSymbol s) := reads_consume _

theorem reads_expect (kind : TokenKind) (what : String) :
    Reads d (fun _ => True) (expect kind what) := by
  refine reads_get fun s within => ?_
  split
  · refine reads_ite ?_ (reads_unmet _)
    refine (reads_set ?_).bind fun _ _ => reads_pure trivial
    exact within.of_same rfl rfl
  · exact reads_unmet _

theorem reads_expectSymbol (s : Symbol) : Reads d (fun _ => True) (expectSymbol s) :=
  (reads_expect _ _).bind fun _ _ => reads_pure trivial

theorem reads_expectKeyword (k : Keyword) : Reads d (fun _ => True) (expectKeyword k) :=
  (reads_expect _ _).bind fun _ _ => reads_pure trivial

theorem reads_expectIdentifier (what : String) : Reads d (fun _ => True) (expectIdentifier what) :=
  reads_expect _ _

theorem reads_integerLiteral (t : Token) : Reads d (fun _ => True) (integerLiteral t) := by
  unfold integerLiteral
  split
  · exact reads_pure trivial
  · exact reads_fail _ _

theorem reads_floatLiteral (t : Token) : Reads d (fun _ => True) (floatLiteral t) := by
  unfold floatLiteral
  dsimp only
  split
  · exact reads_pure trivial
  · exact reads_fail _ _

theorem reads_expectCount : Reads d (fun _ => True) expectCount := by
  refine (reads_expect _ _).bind fun t _ => (reads_integerLiteral t).bind fun value _ => ?_
  split
  · exact reads_pure trivial
  · exact reads_ite (reads_fail _ _) (reads_pure trivial)
  · exact reads_fail _ _

/-! ## Parsers that declare local variables -/

/-- Whether a parser, where it succeeds, does no more to the scope than declare further local variables,
and gives something with a property of all declarations. -/
def Grows (d : Shader) (P : Shader → α → Prop) (x : Parser α) : Prop :=
  ∀ s a s', s.Within d → x s = .ok (a, s') → ∃ d', d.GrowsTo d' ∧ s'.Within d' ∧ P d' a

variable {R : Shader → α → Prop} {T : Shader → β → Prop}

theorem Reads.keeps (reads : Reads d (R d) x) : Grows d R x := fun s a s' within ran =>
  ⟨d, .refl d, reads s a s' within ran⟩

theorem grows_pure {a : α} (holds : R d a) : Grows d R (pure a) := (reads_pure holds).keeps

theorem grows_fail (pos : Position) (fault : SourceFault) : Grows d R (failAt pos fault) :=
  (reads_fail pos fault).keeps

theorem Grows.bind (first : Grows d R x)
    (next : ∀ d' a, d.GrowsTo d' → R d' a → Grows d' T (k a)) : Grows d T (x >>= k) := by
  intro s b s' within ran
  obtain ⟨a, s'', ran₁, ran₂⟩ := exists_of_bind_ok ran
  obtain ⟨d', grown, within', holds⟩ := first s a s'' within ran₁
  obtain ⟨d'', grown', within'', holds'⟩ := next d' a grown holds s'' b s' within' ran₂
  exact ⟨d'', grown.trans grown', within'', holds'⟩

/-- A parser that declares local variables, after one that declares none. -/
theorem Reads.grows (first : Reads d P x) (next : ∀ a, P a → Grows d T (k a)) :
    Grows d T (x >>= k) := by
  intro s b s' within ran
  obtain ⟨a, s'', ran₁, ran₂⟩ := exists_of_bind_ok ran
  obtain ⟨within', holds⟩ := first s a s'' within ran₁
  exact next a holds s'' b s' within' ran₂

theorem grows_fail_bind (pos : Position) (fault : SourceFault) : Grows d T (failAt pos fault >>= k) :=
  (reads_fail (P := fun _ => False) pos fault).grows fun _ never => never.elim

theorem grows_unmet_bind (want : Unmet) : Grows d T (failUnmet want >>= k) :=
  (reads_unmet (P := fun _ => False) want).grows fun _ never => never.elim

theorem grows_get {k : ParserState → Parser β} (next : ∀ s, s.Within d → Grows d T (k s)) :
    Grows d T (get >>= k) :=
  reads_state.grows next

theorem grows_set {d' : Shader} {s : ParserState} (grown : d.GrowsTo d') (within : s.Within d') :
    Grows d (fun d'' _ => d'' = d') (set s) := by
  rintro _ _ _ - ⟨⟩
  exact ⟨d', grown, within, rfl⟩

end Parser

end ComputeShader
