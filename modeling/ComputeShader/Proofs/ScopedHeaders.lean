import ComputeShader.Proofs.ScopedParsing
import ComputeShader.Proofs.SlotAssignment
import ComputeShader.Shader.Parser.Declaration

/-! # Headers in scope

The header of a shader only reads tokens: what it declares comes into scope when it is complete.
-/

namespace ComputeShader

namespace Parser

variable {d : Shader}

/-! ## Directives -/

theorem reads_versionDirective : Reads d (fun _ => True) versionDirective := by
  refine reads_next?.bind fun token _ => ?_
  split
  · exact reads_unmet _
  · split
    · exact reads_pure trivial
    · exact reads_fail _ _
    · exact reads_fail _ _

theorem reads_directive (header : Header) : Reads d (fun _ => True) (directive header) := by
  refine reads_next?.bind fun token _ => ?_
  split
  · exact reads_pure trivial
  split
  · exact reads_fail _ _
  · split
    · exact reads_pure trivial
    · exact reads_fail _ _

theorem reads_precisionStatement : Reads d (fun _ => True) precisionStatement := by
  refine (reads_expectKeyword _).bind fun _ _ => (reads_expectIdentifier _).bind fun qualifier _ => ?_
  dsimp only
  split
  · exact reads_fail_bind _ _
  · exact (reads_expectIdentifier _).bind fun _ _ => reads_expectSymbol _

/-! ## Qualifiers -/

theorem reads_layoutItems (fuel : Nat) : Reads d (fun _ => True) (layoutItems fuel) := by
  induction fuel with
  | zero => exact reads_limit
  | succ fuel ih =>
    refine (reads_expectIdentifier _).bind fun name _ => (reads_consumeSymbol _).bind fun given _ => ?_
    have items (value : Option UInt32) : Reads d (fun _ => True) (do
        let item := LayoutItem.mk name.lexeme value name.pos
        if ← consumeSymbol .comma then return item :: (← layoutItems fuel) else return [item]) := by
      refine (reads_consumeSymbol _).bind fun further _ => reads_ite ?_ (reads_pure trivial)
      exact ih.bind fun rest _ => reads_pure trivial
    dsimp only
    split
    · have count : Reads d (fun _ => True) (some <$> expectCount) :=
        reads_map reads_expectCount fun _ _ => trivial
      exact count.bind fun value _ => items value
    · exact items none

theorem reads_layoutQualifier : Reads d (fun _ => True) layoutQualifier := by
  refine (reads_expectKeyword _).bind fun _ _ => (reads_expectSymbol _).bind fun _ _ => ?_
  refine reads_get fun s _ => (reads_layoutItems _).bind fun items _ => ?_
  exact (reads_expectSymbol _).bind fun _ _ => reads_pure trivial

theorem reads_qualifiersFrom (fuel : Nat) (q : Qualifiers) :
    Reads d (fun _ => True) (qualifiersFrom fuel q) := by
  induction fuel generalizing q with
  | zero => exact reads_limit
  | succ fuel ih =>
    refine reads_get fun s _ => ?_
    split
    · exact reads_pure trivial
    refine reads_ite (reads_layoutQualifier.bind fun items _ => ih _) (reads_ite ?_ ?_)
    · split
      · dsimp only
        split
        · exact reads_unmet_bind _
        · exact reads_skip.bind fun _ _ => ih _
      · exact reads_ite (reads_skip.bind fun _ _ => ih _) (reads_pure trivial)
    · split
      · exact reads_skip.bind fun _ _ => ih _
      · exact reads_pure trivial

theorem reads_qualifiers : Reads d (fun _ => True) qualifiers :=
  reads_get fun _ _ => reads_here.bind fun _ _ => reads_qualifiersFrom _ _

theorem reads_layoutSlot (items : List LayoutItem) (key : String) (bare : String → Bool)
    (owner : String) : Reads d (fun _ => True) (layoutSlot items key bare owner) := by
  refine reads_foldlM (fun slot item => ?_) items none
  split
  · exact reads_ite (reads_ite (reads_fail _ _) (reads_pure trivial)) (reads_fail _ _)
  · exact reads_ite (reads_pure trivial) (reads_fail _ _)

/-! ## Declarations -/

theorem reads_localSizeItem (size : Extent3) (item : LayoutItem) :
    Reads d (fun _ => True) (localSizeItem size item) := by
  unfold localSizeItem
  dsimp only
  split
  -- Whichever component is set, its value is looked at in the same way.
  iterate 3
    next =>
      split
      · exact reads_fail _ _
      · exact reads_fail _ _
      · exact reads_pure trivial
  · exact reads_fail_bind _ _

theorem reads_localSize (q : Qualifiers) (header : Header) :
    Reads d (fun _ => True) (localSize q header) := by
  unfold localSize
  dsimp only
  split
  · exact reads_fail_bind _ _
  refine (reads_foldlM reads_localSizeItem _ _).bind fun size _ => ?_
  split
  · exact reads_fail_bind _ _
  · exact (reads_expectSymbol _).bind fun _ _ => reads_pure trivial

theorem reads_bufferBlock (q : Qualifiers) (header : Header) :
    Reads d (fun _ => True) (bufferBlock q header) := by
  refine (reads_layoutSlot _ _ _ _).bind fun explicit _ => (reads_expectIdentifier _).bind fun block _ => ?_
  refine (reads_expectSymbol _).bind fun _ _ => (reads_skipWhile _).bind fun _ _ => ?_
  refine (reads_expectIdentifier _).bind fun ty _ => ?_
  dsimp only
  split
  · exact reads_fail_bind _ _
  · exact reads_fail_bind _ _
  refine (reads_pure (P := fun _ => True) trivial).bind fun element _ => ?_
  refine (reads_expectIdentifier _).bind fun member _ => (reads_expectSymbol _).bind fun _ _ => ?_
  refine (reads_consumeSymbol _).bind fun unsized _ => ?_
  split
  · exact reads_unmet_bind _
  refine (reads_expectSymbol _).bind fun _ _ => (reads_consumeSymbol _).bind fun single _ => ?_
  split
  · exact reads_unmet_bind _
  refine reads_peekIdentifier?.bind fun blockInstance _ => ?_
  split
  · exact reads_skip.bind fun _ _ => (reads_expectSymbol _).bind fun _ _ => reads_pure trivial
  · exact (reads_expectSymbol _).bind fun _ _ => reads_pure trivial

theorem reads_imageUniform (q : Qualifiers) (ty name : Token) (header : Header) :
    Reads d (fun _ => True) (imageUniform q ty name header) := by
  unfold imageUniform
  dsimp only
  split
  · exact reads_fail _ _
  · refine (reads_layoutSlot _ _ _ _).bind fun explicit _ => ?_
    split
    · exact reads_fail_bind _ _
    split
    · exact reads_fail_bind _ _
    exact (reads_expectSymbol _).bind fun _ _ => reads_pure trivial
  · exact reads_fail _ _

theorem reads_rejectAccess (q : Qualifiers) : Reads d (fun _ => True) (rejectAccess q) :=
  reads_ite (reads_fail _ _) (reads_pure trivial)

theorem reads_samplerUniform (q : Qualifiers) (name : Token) (header : Header) :
    Reads d (fun _ => True) (samplerUniform q name header) := by
  refine (reads_rejectAccess q).bind fun _ _ => (reads_layoutSlot _ _ _ _).bind fun explicit _ => ?_
  exact (reads_expectSymbol _).bind fun _ _ => reads_pure trivial

theorem reads_arrayLength (pos : Position) : Reads d (fun _ => True) (arrayLength pos) := by
  refine (reads_consumeSymbol _).bind fun array _ => ?_
  split
  · refine reads_expectCount.bind fun length _ => (reads_expectSymbol _).bind fun _ _ => ?_
    dsimp only
    split
    · exact reads_fail_bind _ _
    · exact reads_pure trivial
  · exact reads_pure trivial

theorem reads_valueUniform (q : Qualifiers) (ty name : Token) (header : Header) :
    Reads d (fun _ => True) (valueUniform q ty name header) := by
  unfold valueUniform
  split
  · exact reads_fail _ _
  · refine (reads_rejectAccess q).bind fun _ _ => (reads_layoutSlot _ _ _ _).bind fun explicit _ => ?_
    refine (reads_arrayLength _).bind fun length _ => ?_
    exact (reads_expectSymbol _).bind fun _ _ => reads_pure trivial

theorem reads_uniformDeclaration (q : Qualifiers) (header : Header) :
    Reads d (fun _ => True) (uniformDeclaration q header) := by
  refine (reads_expectIdentifier _).bind fun ty _ => (reads_expectIdentifier _).bind fun name _ => ?_
  refine reads_ite (reads_imageUniform q ty name header) ?_
  exact reads_ite (reads_samplerUniform q name header) (reads_valueUniform q ty name header)

theorem reads_declaration (header : Header) : Reads d (fun _ => True) (declaration header) := by
  refine reads_qualifiers.bind fun q _ => ?_
  split
  · dsimp only
    split
    · exact reads_fail_bind _ _
    · exact reads_localSize q header
  · exact reads_bufferBlock q header
  · exact reads_uniformDeclaration q header
  · exact reads_fail _ _

/-- Reading the header brings nothing into scope. -/
theorem reads_headerFrom (fuel : Nat) (header : Header) :
    Reads d (fun _ => True) (headerFrom fuel header) := by
  induction fuel generalizing header with
  | zero => exact reads_limit
  | succ fuel ih =>
    refine reads_peek?.bind fun kind _ => ?_
    split
    · exact reads_unmet _
    · exact (reads_directive header).bind fun longer _ => ih _
    · exact reads_precisionStatement.bind fun _ _ => ih _
    · exact reads_pure trivial
    · exact (reads_declaration header).bind fun longer _ => ih _

/-- The declarations that are given their slots share at most slots with one that reaches the last. -/
theorem reads_assigned {α : Type} (owner : String) {width : α → Nat} {set : α → UInt32 → α}
    (slots : α → SlotRange) (placed : ∀ a start, slots (set a start) = .run start (width a))
    (decls : List (Declared α)) :
    Reads d (fun done => (done.map Declared.decl).Pairwise fun a b => (slots a).Apart (slots b))
      (assigned owner width set decls) := by
  unfold assigned
  dsimp only
  split
  · next starts done =>
    refine reads_pure ?_
    have apart := assignSlots_apart done
    rw [List.zip_map_left, List.pairwise_map] at apart
    rw [List.map_map, List.pairwise_map]
    refine apart.imp fun {p q} apart => ?_
    rwa [Function.comp_apply, Function.comp_apply, placed, placed]
  · exact reads_throw _

end Parser

end ComputeShader
