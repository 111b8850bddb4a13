import ComputeShader.Shader.Nodes
import ComputeShader.Proofs.ScopedStatements

/-! # Expressions up to positions

Two expressions written at different places are the same up to positions if they are equal once every
position is erased. What an expression denotes as the target of an assignment does not depend on positions.
-/

namespace ComputeShader

namespace Expr

mutual

/-- An expression whose nodes all stand at the start of a source. -/
def unplaced : Expr → Expr
  | literal _ v => literal .start v
  | localVar _ slot => localVar .start slot
  | builtin _ b => builtin .start b
  | uniform _ slot => uniform .start slot
  | uniformElement _ slot index => uniformElement .start slot index.unplaced
  | bufferElement _ binding index => bufferElement .start binding index.unplaced
  | bufferLength _ binding => bufferLength .start binding
  | subscript _ base index => subscript .start base.unplaced index.unplaced
  | swizzle _ base selection => swizzle .start base.unplaced selection
  | construct _ ty args => construct .start ty (unplacedAll args)
  | unary _ op operand => unary .start op operand.unplaced
  | binary _ op left right => binary .start op left.unplaced right.unplaced
  | logical _ op left right => logical .start op left.unplaced right.unplaced
  | ternary _ condition accepted rejected =>
    ternary .start condition.unplaced accepted.unplaced rejected.unplaced
  | atomic _ op binding index args => atomic .start op binding index.unplaced (unplacedAll args)
  | imageLoad _ binding coord => imageLoad .start binding coord.unplaced
  | imageAtomicAdd _ binding coord value =>
    imageAtomicAdd .start binding coord.unplaced value.unplaced
  | imageSize _ binding => imageSize .start binding
  | texture _ binding coord => texture .start binding coord.unplaced
  | textureBiased _ binding coord bias =>
    textureBiased .start binding coord.unplaced bias.unplaced
  | math _ f args => math .start f (unplacedAll args)

def unplacedAll : List Expr → List Expr
  | [] => []
  | e :: rest => e.unplaced :: unplacedAll rest

end

/-- Whether neither an expression nor one in it is an atomic. -/
def AtomicFree (e : Expr) : Prop := ∀ n ∈ e.nodes, n.isAtomic = false

instance (e : Expr) : Decidable e.AtomicFree :=
  inferInstanceAs (Decidable (∀ n ∈ e.nodes, n.isAtomic = false))

mutual

theorem isAtomic_nodes_unplaced (e : Expr) :
    e.unplaced.nodes.map isAtomic = e.nodes.map isAtomic := by
  cases e with
  | literal | localVar | builtin | uniform | bufferLength | imageSize => rfl
  | uniformElement _ _ index | bufferElement _ _ index =>
    simp only [unplaced, nodes, List.map_cons, isAtomic_nodes_unplaced index]
    rfl
  | imageLoad _ _ coord | texture _ _ coord =>
    simp only [unplaced, nodes, List.map_cons, isAtomic_nodes_unplaced coord]
    rfl
  | swizzle _ operand | unary _ _ operand =>
    simp only [unplaced, nodes, List.map_cons, isAtomic_nodes_unplaced operand]
    rfl
  | subscript _ left right | binary _ _ left right | logical _ _ left right
  | imageAtomicAdd _ _ left right | textureBiased _ _ left right =>
    simp only [unplaced, nodes, List.map_cons, List.map_append, isAtomic_nodes_unplaced left,
      isAtomic_nodes_unplaced right]
    rfl
  | ternary _ condition accepted rejected =>
    simp only [unplaced, nodes, List.map_cons, List.map_append, isAtomic_nodes_unplaced condition,
      isAtomic_nodes_unplaced accepted, isAtomic_nodes_unplaced rejected]
    rfl
  | atomic _ _ _ index args =>
    simp only [unplaced, nodes, List.map_cons, List.map_append, isAtomic_nodes_unplaced index,
      isAtomic_nodesOf_unplacedAll args]
    rfl
  | construct _ _ args | math _ _ args =>
    simp only [unplaced, nodes, List.map_cons, isAtomic_nodesOf_unplacedAll args]
    rfl

theorem isAtomic_nodesOf_unplacedAll (es : List Expr) :
    (nodesOf (unplacedAll es)).map isAtomic = (nodesOf es).map isAtomic := by
  cases es with
  | nil => rfl
  | cons e rest =>
    simp only [unplacedAll, nodesOf, List.map_append, isAtomic_nodes_unplaced e,
      isAtomic_nodesOf_unplacedAll rest]

end

/-- What is an atomic does not depend on positions. -/
theorem AtomicFree.of_same {e e' : Expr} (free : e.AtomicFree) (same : e'.unplaced = e.unplaced) :
    e'.AtomicFree := by
  intro n member
  have kinds : e'.nodes.map isAtomic = e.nodes.map isAtomic := by
    rw [← isAtomic_nodes_unplaced, same, isAtomic_nodes_unplaced]
  have kept : n.isAtomic ∈ e.nodes.map isAtomic := kinds ▸ List.mem_map_of_mem member
  obtain ⟨n', member', equal⟩ := List.mem_map.1 kept
  exact equal ▸ free n' member'

end Expr

def Place.unplaced : Place → Place
  | localVar slot => localVar slot
  | bufferElement binding index => bufferElement binding index.unplaced

def Projection.unplaced : Projection → Projection
  | subscript index => subscript index.unplaced
  | swizzle selection => swizzle selection

/-- A target whose subscripts all stand at the start of a source. -/
def Target.unplaced (t : Target) : Target := ⟨t.place.unplaced, t.path.map Projection.unplaced⟩

namespace Parser

theorem targetFrom_unplaced (path : List Projection) (e : Expr) :
    targetFrom (path.map Projection.unplaced) e.unplaced = (targetFrom path e).map Target.unplaced := by
  fun_induction targetFrom path e with
  | case1 path pos base index ih =>
    rw [Expr.unplaced, targetFrom]
    exact ih
  | case2 path pos base selection distinct ih =>
    rw [Expr.unplaced, targetFrom, if_pos distinct]
    exact ih
  | case3 path pos base selection repeated =>
    rw [Expr.unplaced, targetFrom, if_neg repeated]
    rfl
  | case4 | case5 | case6 | case7 | case8 => rfl
  | case9 e path no_subscript no_swizzle no_local no_element no_uniform no_array no_builtin =>
    cases e with
    | subscript => exact (no_subscript _ _ _ rfl).elim
    | swizzle => exact (no_swizzle _ _ _ rfl).elim
    | localVar => exact (no_local _ _ rfl).elim
    | bufferElement => exact (no_element _ _ _ rfl).elim
    | uniform => exact (no_uniform _ _ rfl).elim
    | uniformElement => exact (no_array _ _ _ rfl).elim
    | builtin => exact (no_builtin _ _ rfl).elim
    | _ => rfl

/-- Expressions that are the same up to positions denote targets that are. -/
theorem exists_targetFrom {e e' : Expr} {t : Target} (same : e'.unplaced = e.unplaced)
    (denotes : targetFrom [] e = .ok t) : ∃ t', targetFrom [] e' = .ok t' ∧ t'.unplaced = t.unplaced := by
  have erased := targetFrom_unplaced [] e
  have erased' := targetFrom_unplaced [] e'
  rw [same, erased, denotes] at erased'
  cases found : targetFrom [] e' with
  | error why =>
    rw [found] at erased'
    cases erased'
  | ok t' =>
    rw [found] at erased'
    exact ⟨t', rfl, (Except.ok.inj erased').symm⟩

end Parser

end ComputeShader
