import Mathlib.Data.List.Basic
import ComputeShader.Dispatch.Execution
import ComputeShader.Shader.Nodes

/-! # Closed bodies

A body is closed if all that it refers to is declared and used as what it is: buffers, images, samplers
and uniforms by their declarations, local variables by slots that exist, functions with the arguments
that they take. The errors that a run may meet for want of this are the dangling ones.
-/

namespace ComputeShader

/-! ## Statements of a body -/

namespace Stmt

mutual

/-- A statement and every statement in it. -/
def parts : Stmt → List Stmt
  | declare line slot init => [declare line slot init]
  | assign line targets value => [assign line targets value]
  | compound line target op value => [compound line target op value]
  | imageStore line binding coord value => [imageStore line binding coord value]
  | eval line e => [eval line e]
  | branch line condition accepted => branch line condition accepted :: accepted.parts
  | branchElse line condition accepted rejected =>
    branchElse line condition accepted rejected :: (accepted.parts ++ rejected.parts)
  | block line body => block line body :: partsOf body
  | leave line => [leave line]

def partsOf : List Stmt → List Stmt
  | [] => []
  | s :: rest => s.parts ++ partsOf rest

end

end Stmt

/-! ## Declarations -/

namespace Shader

/-- Whether a slot is that of a uniform, which is an array or not. -/
def DeclaresUniform (s : Shader) (slot : Nat) (array : Bool) : Prop :=
  ∃ u, s.uniforms[slot]? = some u ∧ u.arrayLength.isSome = array

def DeclaresBuffer (s : Shader) (binding : Binding) : Prop := ∃ b, s.buffer? binding = some b

def DeclaresImage (s : Shader) (binding : Binding) : Prop := ∃ i, s.image? binding = some i

def DeclaresSampler (s : Shader) (binding : Binding) : Prop := ∃ d ∈ s.samplers, d.binding = binding

/-- Whether a slot is that of a local variable. -/
def DeclaresLocal (s : Shader) (slot : Nat) : Prop := slot < s.locals.length

/-- Whether a buffer of single integers is declared at a binding. -/
def DeclaresIntegers (s : Shader) (binding : Binding) : Prop :=
  ∃ b, s.buffer? binding = some b ∧ (b.element = .scalar .int ∨ b.element = .scalar .uint)

/-- Whether an image of single integers is declared at a binding. -/
def DeclaresIntegerImage (s : Shader) (binding : Binding) : Prop :=
  ∃ i, s.image? binding = some i ∧ (i.format = .r32i ∨ i.format = .r32ui)

end Shader

/-- Whether what a node itself refers to is declared and used as what it is. -/
def Expr.ClosedIn (s : Shader) : Expr → Prop
  | localVar _ slot => s.DeclaresLocal slot
  | uniform _ slot => s.DeclaresUniform slot false
  | uniformElement _ slot _ => s.DeclaresUniform slot true
  | bufferElement _ binding _ | bufferLength _ binding => s.DeclaresBuffer binding
  | construct _ _ args => args ≠ []
  | atomic _ op binding _ args => args.length = op.operandCount ∧ s.DeclaresIntegers binding
  | imageLoad _ binding _ | imageSize _ binding => s.DeclaresImage binding
  | imageAtomicAdd _ binding _ _ => s.DeclaresIntegerImage binding
  | texture _ binding _ | textureBiased _ binding _ _ => s.DeclaresSampler binding
  | math _ f args => args.length = f.arity
  | literal .. | builtin .. | subscript .. | swizzle .. | unary .. | binary .. | logical ..
  | ternary .. => True

/-- Whether the place of a target is declared. -/
def Target.ClosedIn (s : Shader) (t : Target) : Prop :=
  match t.place with
  | .localVar slot => s.DeclaresLocal slot
  | .bufferElement binding _ => s.DeclaresBuffer binding

/-- Whether what a statement itself refers to is declared. -/
def Stmt.ClosedIn (s : Shader) : Stmt → Prop
  | declare _ slot _ => s.DeclaresLocal slot
  | imageStore _ binding _ _ => s.DeclaresImage binding
  | assign .. | compound .. | eval .. | branch .. | branchElse .. | block .. | leave .. => True

/-- Whether the body refers to nothing but what is declared. -/
structure Shader.Closed (s : Shader) : Prop where
  nodes : ∀ e ∈ Stmt.nodesOf s.body, e.ClosedIn s
  targets : ∀ x ∈ Stmt.targetsOf s.body, x.1.ClosedIn s
  parts : ∀ stmt ∈ Stmt.partsOf s.body, stmt.ClosedIn s

/-! ## Dangling errors -/

/-- The errors of a run that refers to what is not declared, or uses it as what it is not. -/
inductive EngineError.Dangling : EngineError → Prop where
  | undeclared (resource : String) (slot : Nat) (e : TypeError) :
      Dangling (.typeMismatch (.undeclared resource slot) e)
  | undeclaredTarget (line : Nat) (binding : Binding) :
      Dangling (.typeMismatch (.atLine "store" line)
        ⟨"a declared buffer", "binding " ++ toString binding⟩)
  | wholeArray (uniform : String) (e : TypeError) : Dangling (.typeMismatch (.uniform uniform) e)
  | noArguments (ty : ValueType) (pos : Position) :
      Dangling (.typeMismatch (.node ("`" ++ ty.name ++ "` constructor") pos)
        ⟨"arguments for " ++ ty.name, "none"⟩)
  | operands (label found : String) (op : AtomicOp) :
      Dangling (.typeMismatch (.atomic label)
        ⟨if op = .compSwap then "2 operands" else "1 operand", found⟩)
  | arguments (f : MathFn) (pos : Position) (found : String) :
      Dangling (.typeMismatch (.node "built-in call" pos) ⟨toString f.arity ++ " arguments", found⟩)
  | atomicElement (label found : String) :
      Dangling (.typeMismatch (.atomic label) ⟨"int or uint", found⟩)
  | imageFormat (binding : Binding) (found : String) :
      Dangling (.typeMismatch (.imageAtomic binding) ⟨"an r32i or r32ui image", found⟩)

namespace EngineError

/-- The error of an invocation: a fault of its own or a type error that ends the dispatch. -/
def Stops (e : EngineError) : Prop :=
  e.isInvocationFault ∨ ∃ site mismatch, e = .typeMismatch site mismatch

theorem not_dangling_of_fault {e : EngineError} (fault : e.isInvocationFault) : ¬ e.Dangling := by
  rintro (_ | _ | _ | _ | _ | _ | _ | _) <;> cases fault

/-- Whether a text ends with a character. -/
def Ends (text : String) (c : Char) : Prop := text.toList.getLast? = some c

theorem Ends.append {ending : String} {c : Char} (last : Ends ending c) (text : String) :
    Ends (text ++ ending) c := by
  rw [Ends] at last ⊢
  rw [String.toList_append, List.getLast?_append, last, Option.some_or]

theorem Ends.unique {text : String} {c c' : Char} (last : Ends text c) (last' : Ends text c') : c = c' :=
  Option.some.inj (last.symm.trans last')

/-- What a node does with values of the wrong types is not dangling, but for constructors and built-in
functions. -/
theorem not_dangling_node {what : String} {pos : Position} {e : TypeError} {c : Char}
    (last : Ends what c) (constructor : c ≠ 'r') (function : c ≠ 'l') :
    ¬ (typeMismatch (.node what pos) e).Dangling := by
  rintro (_ | _ | _ | ⟨ty, _⟩ | _ | _ | _ | _)
  · have name : Ends ("`" ++ ty.name ++ "` constructor") 'r' := Ends.append (by rfl) _
    exact constructor (last.unique name)
  · have name : Ends "built-in call" 'l' := rfl
    exact function (last.unique name)

theorem not_dangling_atLine {what : String} {line : Nat} {e : TypeError} (other : what ≠ "store") :
    ¬ (typeMismatch (.atLine what line) e).Dangling := by
  rintro (_ | _ | _ | _ | _ | _ | _ | _)
  exact other rfl

theorem not_dangling_initializer {name : String} {line : Nat} {e : TypeError} :
    ¬ (typeMismatch (.initializer name line) e).Dangling := by
  rintro (_ | _ | _ | _ | _ | _ | _ | _)

/-- A type that does not fit a place is not dangling, as no type is called like a binding. -/
theorem not_dangling_place {line : Nat} {e : TypeError} (typed : ∃ ty : ValueType, e.found = ty.name) :
    ¬ (typeMismatch (.atLine "store" line) e).Dangling := by
  obtain ⟨ty, found⟩ := typed
  rintro (_ | ⟨_, binding⟩ | _ | _ | _ | _ | _ | _)
  have name : ty.name.toList.take 2 ≠ ['b', 'i'] := by
    rcases ty with kind | ⟨kind, size⟩ | _
    · cases kind <;> decide
    · cases kind <;> cases size <;> decide
    · decide
  refine name ?_
  rw [← found, String.toList_append]
  rfl

end EngineError

/-! ## Errors of operations on values -/

/-- Whether a computation fails only with errors of a property. -/
def FailsWith {ε α : Type} (P : ε → Prop) (x : Except ε α) : Prop := ∀ e, x = .error e → P e

section FailsWith

variable {ε α β : Type} {P : ε → Prop}

theorem failsWith_ok {a : α} : FailsWith P (.ok a : Except ε α) := fun _ failed => nomatch failed

theorem failsWith_error {e : ε} (holds : P e) : FailsWith P (.error e : Except ε α) := by
  rintro _ ⟨⟩
  exact holds

theorem failsWith_ite {c : Prop} [Decidable c] {x y : Except ε α} (holds : FailsWith P x)
    (fails : FailsWith P y) : FailsWith P (if c then x else y) := by
  split
  · exact holds
  · exact fails

theorem FailsWith.bind {x : Except ε α} {k : α → Except ε β} (first : FailsWith P x)
    (next : ∀ a, FailsWith P (k a)) : FailsWith P (x >>= k) := by
  cases x with
  | ok a => exact next a
  | error e => exact failsWith_error (first e rfl)

theorem failsWith_mapM {f : α → Except ε β} (each : ∀ a, FailsWith P (f a)) (as : List α) :
    FailsWith P (as.mapM f) := by
  induction as with
  | nil => exact failsWith_ok
  | cons a rest ih =>
    rw [List.mapM_cons]
    exact (each a).bind fun b => ih.bind fun bs => failsWith_ok

theorem failsWith_foldlM {f : β → α → Except ε β} (each : ∀ b a, FailsWith P (f b a)) (as : List α)
    (b : β) : FailsWith P (as.foldlM f b) := by
  induction as generalizing b with
  | nil => exact failsWith_ok
  | cons a rest ih =>
    rw [List.foldlM_cons]
    exact (each b a).bind ih

end FailsWith

namespace Value

/-- Whether an error says which type was found. -/
def FoundType (e : TypeError) : Prop := ∃ ty : ValueType, e.found = ty.name

theorem failsWith_element (v : Value) (i : Nat) : FailsWith FoundType (v.element i) := by
  unfold element
  split
  · exact failsWith_ite failsWith_ok (failsWith_error ⟨v.ty, rfl⟩)
  · exact failsWith_ite failsWith_ok (failsWith_error ⟨v.ty, rfl⟩)
  · exact failsWith_error ⟨v.ty, rfl⟩

theorem failsWith_withElement (v : Value) (i : Nat) (new : Value) :
    FailsWith FoundType (v.withElement i new) := by
  unfold withElement
  split
  · exact failsWith_ite failsWith_ok (failsWith_error ⟨new.ty, rfl⟩)
  · exact failsWith_ite failsWith_ok (failsWith_error ⟨new.ty, rfl⟩)
  · exact failsWith_error ⟨v.ty, rfl⟩

theorem failsWith_swizzle (v : Value) (selection : List Nat) :
    FailsWith FoundType (v.swizzle selection) := by
  unfold swizzle
  split
  · refine (failsWith_mapM (fun c => ?_) selection).bind fun words => ?_
    · exact failsWith_ite failsWith_ok (failsWith_error ⟨v.ty, rfl⟩)
    · split
      · exact failsWith_ok
      · exact failsWith_error ⟨v.ty, rfl⟩
  · exact failsWith_error ⟨v.ty, rfl⟩

theorem failsWith_withSwizzle (v : Value) (selection : List Nat) (new : Value) :
    FailsWith FoundType (v.withSwizzle selection new) := by
  unfold withSwizzle
  split
  · split
    · exact failsWith_foldlM
        (fun w x => failsWith_ite failsWith_ok (failsWith_error ⟨w.ty, rfl⟩)) _ v
    · exact failsWith_error ⟨new.ty, rfl⟩
  · exact failsWith_error ⟨v.ty, rfl⟩

/-- A value that does not fit a part of another one is told by its type. -/
theorem failsWith_setPath (v : Value) (path : List Step) (new : Value) :
    FailsWith FoundType (setPath v path new) := by
  induction path generalizing v with
  | nil =>
    rw [setPath]
    exact failsWith_ite failsWith_ok (failsWith_error ⟨new.ty, rfl⟩)
  | cons step rest ih =>
    rw [setPath]
    have part : FailsWith FoundType (step.get v) := by
      cases step with
      | index i => exact failsWith_element v i
      | swizzle selection => exact failsWith_swizzle v selection
    refine part.bind fun old => (ih old).bind fun changed => ?_
    cases step with
    | index i => exact failsWith_withElement v i changed
    | swizzle selection => exact failsWith_withSwizzle v selection changed

/-- A constructor that counts components does not miss all arguments. -/
theorem not_dangling_counted {ty : ValueType} {pos : Position} {e : TypeError} {n : Nat}
    (found : e.found = toString n ++ " components") :
    ¬ (EngineError.typeMismatch (.node ("`" ++ ty.name ++ "` constructor") pos) e).Dangling := by
  have counted : EngineError.Ends e.found 's' := found ▸ EngineError.Ends.append (by rfl) _
  have name : EngineError.Ends ("`" ++ ty.name ++ "` constructor") 'r' := EngineError.Ends.append (by rfl) _
  generalize "`" ++ ty.name ++ "` constructor" = what at name ⊢
  rintro (_ | _ | _ | _ | _ | _ | _ | _)
  · have none : EngineError.Ends "none" 'e' := rfl
    exact absurd (counted.unique none) (by decide)
  · have call : EngineError.Ends "built-in call" 'l' := rfl
    exact absurd (name.unique call) (by decide)

theorem failsWith_construct (ty : ValueType) {args : List Value} (some : args ≠ []) (pos : Position) :
    FailsWith (fun e => ¬ (EngineError.typeMismatch
      (.node ("`" ++ ty.name ++ "` constructor") pos) e).Dangling) (construct ty args) := by
  have gathered : FailsWith (fun e => ¬ (EngineError.typeMismatch
      (.node ("`" ++ ty.name ++ "` constructor") pos) e).Dangling) (gather ty args) := by
    unfold gather
    split
    · next none => exact (some (List.getLast?_eq_none_iff.1 none)).elim
    · exact failsWith_ite (failsWith_error (not_dangling_counted rfl)) failsWith_ok
  unfold construct
  split
  · split
    · exact failsWith_ok
    · split
      · exact failsWith_ok
      · exact gathered
    · exact failsWith_ok
    · exact failsWith_ok
    · exact gathered
  · exact gathered

/-- A built-in function that complains about operands does not complain about their number. -/
theorem not_dangling_operands {pos : Position} {e : TypeError} {c : Char}
    (last : EngineError.Ends e.expected c) (kinds : c ≠ 's') :
    ¬ (EngineError.typeMismatch (.node "built-in call" pos) e).Dangling := by
  have call : EngineError.Ends "built-in call" 'l' := rfl
  generalize "built-in call" = what at call ⊢
  rintro (_ | _ | _ | ⟨ty, _⟩ | _ | ⟨f, _, _⟩ | _ | _)
  · have name : EngineError.Ends ("`" ++ ty.name ++ "` constructor") 'r' :=
      EngineError.Ends.append (by rfl) _
    exact absurd (call.unique name) (by decide)
  · have count : EngineError.Ends (toString f.arity ++ " arguments") 's' :=
      EngineError.Ends.append (by rfl) _
    exact kinds (last.unique count)

theorem failsWith_extremum (choose : Scalar → Scalar → Scalar) (a b : Value) (pos : Position) :
    FailsWith (fun e => ¬ (EngineError.typeMismatch (.node "built-in call" pos) e).Dangling)
      (extremum choose a b) := by
  unfold extremum
  split
  · exact failsWith_ok
  · have last : EngineError.Ends "int, uint or float operands of matching shape" 'e' := rfl
    exact failsWith_error (not_dangling_operands last (by decide))

theorem failsWith_math (f : MathFn) {args : List Value} (arity : args.length = f.arity) (pos : Position) :
    FailsWith (fun e => ¬ (EngineError.typeMismatch (.node "built-in call" pos) e).Dangling)
      (math f args) := by
  have operand : EngineError.Ends "an int or float operand of `abs`" '`' := rfl
  unfold math
  split
  · unfold abs
    dsimp only
    split
    · exact failsWith_error (not_dangling_operands operand (by decide))
    · split
      · exact failsWith_ok
      · exact failsWith_error (not_dangling_operands operand (by decide))
  · exact failsWith_extremum _ _ _ pos
  · exact failsWith_extremum _ _ _ pos
  · exact (failsWith_extremum _ _ _ pos).bind fun v => failsWith_extremum _ _ _ pos
  · next one two two' three =>
    cases f with
    | abs =>
      obtain ⟨v, rfl⟩ := List.length_eq_one_iff.1 arity
      exact (one v rfl rfl).elim
    | min =>
      obtain ⟨a, b, rfl⟩ := List.length_eq_two.1 arity
      exact (two a b rfl rfl).elim
    | max =>
      obtain ⟨a, b, rfl⟩ := List.length_eq_two.1 arity
      exact (two' a b rfl rfl).elim
    | clamp =>
      obtain ⟨v, low, high, rfl⟩ := List.length_eq_three.1 arity
      exact (three v low high rfl rfl).elim

end Value

end ComputeShader
