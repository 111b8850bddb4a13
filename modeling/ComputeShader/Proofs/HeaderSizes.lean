import ComputeShader.Proofs.ExpressionSizes
import ComputeShader.Proofs.HeaderProgress

/-! # Sizes of headers

What a header declares is gone through once more when it is complete, and the entries of a `layout` qualifier
when its declaration is read. Both are paid for as expressions are: each declaration, each directive and each
entry has a token of its own.
-/

namespace ComputeShader

/-- How many directives and declarations a header holds. -/
def Header.size (h : Header) : Nat :=
  h.extensions.length + h.buffers.length + h.images.length + h.samplers.length + h.uniforms.length

namespace Parser

variable {ahead credit : Nat}

/-! ## Qualifiers -/

/-- Every entry has its name. -/
theorem pays_layoutItems (fuel : Nat) :
    Pays ahead credit (fun items => credit + items.length) (layoutItems fuel) := by
  induction fuel generalizing ahead credit with
  | zero => exact pays_limit
  | succ fuel ih =>
    refine (advances_expectIdentifier _).pays.bind fun name => (advances_consumeSymbol _).pays.bind fun given => ?_
    have items (value : Option UInt32) : Pays 0 (credit + 1) (fun items => credit + items.length) (do
        let item := LayoutItem.mk name.lexeme value name.pos
        if ← consumeSymbol .comma then return item :: (← layoutItems fuel) else return [item]) := by
      refine (advances_consumeSymbol _).pays.bind fun further => ?_
      split
      · refine ih.bind fun rest => pays_pure ?_
        rw [List.length_cons]
        omega
      · exact pays_pure (Nat.le_refl _)
    dsimp only
    split
    · exact (advances_expectCount.map some).any.pays.bind fun value => items value
    · exact items none

theorem pays_layoutQualifier :
    Pays ahead credit (fun items => credit + items.length) layoutQualifier := by
  refine (advances_expectKeyword _).any.pays.bind fun _ => (advances_expectSymbol _).any.pays.bind fun _ => ?_
  refine pays_get fun s => (pays_layoutItems _).bind fun items => ?_
  exact (advances_expectSymbol _).any.pays.bind fun _ => pays_pure (Nat.le_refl _)

/-- Of the qualifiers, only those in a list need to be paid for. -/
theorem pays_qualifiersFrom (fuel : Nat) (q : Qualifiers) :
    Pays ahead q.layout.length (fun q => q.layout.length) (qualifiersFrom fuel q) := by
  induction fuel generalizing ahead q with
  | zero => exact pays_limit
  | succ fuel ih =>
    have taken (q : Qualifiers) : Pays ahead q.layout.length (fun q => q.layout.length)
        (do skip; qualifiersFrom fuel q) := pays_skip.bind fun _ => ih q
    refine pays_get fun s => ?_
    split
    · exact pays_pure (Nat.le_refl _)
    split
    · refine pays_layoutQualifier.bind fun items => ?_
      rw [← List.length_append]
      exact ih { q with layout := q.layout ++ items }
    · split
      · split
        · dsimp only
          split
          · exact pays_unmet_bind _
          · exact taken { q with access := some _ }
        · split
          · exact taken q
          · exact pays_pure (Nat.le_refl _)
      · split
        · exact taken { q with storage := some _ }
        · exact pays_pure (Nat.le_refl _)

/-! ## Declarations -/

theorem pays_directive (header : Header) : Pays ahead header.size Header.size (directive header) := by
  refine pays_next (pays_pure (Nat.le_refl _)) fun t => ?_
  dsimp only
  split
  · exact pays_fail _ _
  · split
    · refine pays_pure ?_
      simp only [Header.size, List.length_append, List.length_singleton]
      omega
    · exact pays_fail _ _

theorem pays_localSize (q : Qualifiers) (header : Header) :
    Pays ahead header.size Header.size (localSize q header) := by
  unfold localSize
  dsimp only
  split
  · exact pays_fail_bind _ _
  refine (looks_foldlM looks_localSizeItem _ _).pays fun size => ?_
  split
  · exact pays_fail_bind _ _
  · exact (advances_expectSymbol _).any.pays.bind fun _ => pays_pure (Nat.le_refl _)

/-- A semicolon pays for the declaration that it ends. -/
theorem pays_ended {header longer : Header} (more : longer.size = header.size + 1) :
    Pays ahead header.size Header.size (do expectSymbol .semicolon; return longer) :=
  (advances_expectSymbol _).pays.bind fun _ => pays_pure (Nat.le_of_eq more)

theorem pays_bufferBlock (q : Qualifiers) (header : Header) :
    Pays ahead header.size Header.size (bufferBlock q header) := by
  refine (looks_layoutSlot _ _ _ _).pays fun explicit => ?_
  refine (advances_expectIdentifier _).any.pays.bind fun block => ?_
  refine (advances_expectSymbol _).any.pays.bind fun _ => (advances_skipWhile _).pays.bind fun _ => ?_
  refine (advances_expectIdentifier _).any.pays.bind fun ty => ?_
  dsimp only
  split
  · exact pays_fail_bind _ _
  · exact pays_fail_bind _ _
  refine (looks_pure _).pays fun element => (advances_expectIdentifier _).any.pays.bind fun member => ?_
  refine (advances_expectSymbol _).any.pays.bind fun _ => (advances_consumeSymbol _).pays.bind fun unsized => ?_
  split
  · exact pays_unmet_bind _
  refine (advances_expectSymbol _).any.pays.bind fun _ => (advances_consumeSymbol _).pays.bind fun single => ?_
  split
  · exact pays_unmet_bind _
  have ended (instance? : Option String) : Pays 0 header.size Header.size (do
      expectSymbol .semicolon
      let decl : BufferDecl := ⟨0, block.lexeme, instance?, member.lexeme, element, q.access.getD .readWrite⟩
      return { header with buffers := header.buffers ++ [⟨explicit, q.pos, decl⟩] }) := by
    refine pays_ended ?_
    simp only [Header.size, List.length_append, List.length_singleton]
    omega
  refine sees_peekIdentifier?.pays fun blockInstance => ?_
  cases blockInstance with
  | some name => exact pays_skip.bind fun _ => ended (some name)
  | none => exact (ended none).of_ahead (Nat.zero_le _)

theorem pays_imageUniform (q : Qualifiers) (ty name : Token) (header : Header) :
    Pays ahead header.size Header.size (imageUniform q ty name header) := by
  unfold imageUniform
  dsimp only
  split
  · exact pays_fail _ _
  · refine (looks_layoutSlot _ _ _ _).pays fun explicit => ?_
    split
    · exact pays_fail_bind _ _
    split
    · exact pays_fail_bind _ _
    refine pays_ended ?_
    simp only [Header.size, List.length_append, List.length_singleton]
    omega
  · exact pays_fail _ _

theorem pays_samplerUniform (q : Qualifiers) (name : Token) (header : Header) :
    Pays ahead header.size Header.size (samplerUniform q name header) := by
  refine (looks_rejectAccess q).pays fun _ => (looks_layoutSlot _ _ _ _).pays fun explicit => pays_ended ?_
  simp only [Header.size, List.length_append, List.length_singleton]
  omega

theorem pays_valueUniform (q : Qualifiers) (ty name : Token) (header : Header) :
    Pays ahead header.size Header.size (valueUniform q ty name header) := by
  unfold valueUniform
  split
  · exact pays_fail _ _
  · refine (looks_rejectAccess q).pays fun _ => (looks_layoutSlot _ _ _ _).pays fun explicit => ?_
    refine (advances_arrayLength _).pays.bind fun length => pays_ended ?_
    simp only [Header.size, List.length_append, List.length_singleton]
    omega

theorem pays_uniformDeclaration (q : Qualifiers) (header : Header) :
    Pays ahead header.size Header.size (uniformDeclaration q header) := by
  refine (advances_expectIdentifier _).any.pays.bind fun ty => ?_
  refine (advances_expectIdentifier _).any.pays.bind fun name => ?_
  split
  · exact pays_imageUniform q ty name header
  · split
    · exact pays_samplerUniform q name header
    · exact pays_valueUniform q ty name header

theorem pays_declaration (header : Header) : Pays ahead header.size Header.size (declaration header) := by
  refine advances_qualifiers.pays.bind fun q => ?_
  split
  · dsimp only
    split
    · exact pays_fail_bind _ _
    · exact pays_localSize q header
  · exact pays_bufferBlock q header
  · exact pays_uniformDeclaration q header
  · exact pays_fail _ _

theorem pays_headerFrom (fuel : Nat) (header : Header) :
    Pays ahead header.size Header.size (headerFrom fuel header) := by
  induction fuel generalizing ahead header with
  | zero => exact pays_limit
  | succ fuel ih =>
    refine sees_peek?.pays fun kind => ?_
    split
    · exact pays_unmet _
    · exact (pays_directive header).bind fun longer => ih longer
    · exact advances_precisionStatement.any.pays.bind fun _ => ih header
    · exact pays_pure (Nat.le_refl _)
    · exact (pays_declaration header).bind fun longer => ih longer

end Parser

end ComputeShader
