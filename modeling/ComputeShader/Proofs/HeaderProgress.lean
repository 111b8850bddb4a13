import ComputeShader.Proofs.FirstFit
import ComputeShader.Proofs.TokenProgress
import ComputeShader.Shader.Parser.Declaration

/-! # Progress in headers

A directive, a `layout` qualifier and a declaration each take a token at least, so that a header with as
much fuel as there are tokens, and one more, is read to its end.
-/

namespace ComputeShader

namespace Parser

variable {ahead room : Nat}

/-! ## Directives -/

theorem advances_versionDirective : Advances ahead 1 room versionDirective := by
  refine advances_next (fun _ => advances_unmet _) fun t => ?_
  dsimp only
  split
  · exact advances_pure _
  · exact advances_fail _ (by simp)
  · exact advances_fail _ (by simp)

/-- A directive is a token, if there is one. -/
theorem advances_directive (header : Header) : Advances ahead (min ahead 1) room (directive header) := by
  refine advances_next (fun none => ?_) fun t => ?_
  · subst none
    exact advances_pure _
  · rw [Nat.sub_eq_zero_of_le (Nat.min_le_right ..)]
    dsimp only
    split
    · exact advances_fail _ (by simp)
    · split
      · exact advances_pure _
      · exact advances_fail _ (by simp)

theorem advances_precisionStatement : Advances ahead 1 room precisionStatement := by
  refine (advances_expectKeyword _).bind fun _ => (advances_expectIdentifier _).bind fun qualifier => ?_
  dsimp only
  split
  · exact advances_fail_bind _ (by simp)
  · exact (advances_expectIdentifier _).bind fun _ => (advances_expectSymbol _).any

/-! ## Qualifiers -/

/-- Every entry takes its name. -/
theorem advances_layoutItems (fuel : Nat) (enough : room ≤ fuel) :
    Advances ahead 1 room (layoutItems fuel) := by
  induction fuel generalizing ahead room with
  | zero => exact advances_limit (Nat.eq_zero_of_le_zero enough)
  | succ fuel ih =>
    refine (advances_expectIdentifier _).bind fun name => (advances_consumeSymbol _).bind fun given => ?_
    have items (value : Option UInt32) : Advances 0 0 (room - 1) (do
        let item := LayoutItem.mk name.lexeme value name.pos
        if ← consumeSymbol .comma then return item :: (← layoutItems fuel) else return [item]) := by
      refine (advances_consumeSymbol _).bind fun further => ?_
      split
      · exact (ih (by omega)).any.bind fun rest => advances_pure _
      · exact advances_pure _
    dsimp only
    split
    · exact (advances_expectCount.map some).any.bind fun value => items value
    · exact items none

theorem advances_layoutQualifier : Advances ahead 1 room layoutQualifier := by
  refine (advances_expectKeyword _).bind fun _ => (advances_expectSymbol _).bind fun _ => ?_
  refine advances_get fun s _ => (advances_layoutItems _ (Nat.min_le_right ..)).bind fun items => ?_
  exact (advances_expectSymbol _).any.bind fun _ => advances_pure _

/-- Every qualifier takes its word. -/
theorem advances_qualifiersFrom (fuel : Nat) (enough : room ≤ fuel) (q : Qualifiers) :
    Advances ahead 0 room (qualifiersFrom fuel q) := by
  induction fuel generalizing ahead room q with
  | zero => exact advances_limit (Nat.eq_zero_of_le_zero enough)
  | succ fuel ih =>
    refine advances_get fun s _ => ?_
    split
    · exact advances_pure _
    next t rest found =>
    have taken (q : Qualifiers) : Advances s.rest.length 0 (min room (s.rest.length + 1))
        (do skip; qualifiersFrom fuel q) :=
      (advances_skip.bind fun _ => ih (by omega) q).of_ahead (by simp [found])
    split
    · exact advances_layoutQualifier.bind fun items => ih (by omega) _
    · split
      · split
        · dsimp only
          split
          · exact advances_unmet_bind _
          · exact taken _
        · split
          · exact taken _
          · exact advances_pure _
      · split
        · exact taken _
        · exact advances_pure _

theorem advances_qualifiers : Advances ahead 0 room qualifiers :=
  advances_get fun _ _ => looks_here.then fun _ => advances_qualifiersFrom _ (Nat.min_le_right ..) _

theorem looks_layoutSlot (items : List LayoutItem) (key : String) (bare : String → Bool)
    (owner : String) : Looks (layoutSlot items key bare owner) := by
  refine looks_foldlM (fun slot item => ?_) items none
  split
  · refine looks_ite (looks_ite (looks_fail _ (by simp)) (looks_pure _)) (looks_fail _ (by simp))
  · exact looks_ite (looks_pure _) (looks_fail _ (by simp))

/-! ## Declarations -/

theorem looks_localSizeItem (size : Extent3) (item : LayoutItem) : Looks (localSizeItem size item) := by
  unfold localSizeItem
  extract_lets sized
  have looks (set : UInt32 → Extent3) : Looks (sized set) := by
    unfold sized
    split
    · exact looks_fail _ (by simp)
    · exact looks_fail _ (by simp)
    · exact looks_pure _
  split
  · exact looks _
  · exact looks _
  · exact looks _
  · exact (looks_fail _ (by simp)).bind looks

theorem advances_localSize (q : Qualifiers) (header : Header) :
    Advances ahead 1 room (localSize q header) := by
  unfold localSize
  dsimp only
  split
  · exact advances_fail_bind _ (by simp)
  refine (looks_foldlM looks_localSizeItem _ _).then fun size => ?_
  split
  · exact advances_fail_bind _ (by simp)
  · exact (advances_expectSymbol _).bind fun _ => advances_pure _

theorem advances_bufferBlock (q : Qualifiers) (header : Header) :
    Advances ahead 1 room (bufferBlock q header) := by
  refine (looks_layoutSlot _ _ _ _).then fun explicit => (advances_expectIdentifier _).bind fun block => ?_
  refine (advances_expectSymbol _).bind fun _ => (advances_skipWhile _).bind fun _ => ?_
  refine (advances_expectIdentifier _).bind fun ty => ?_
  dsimp only
  split
  · exact advances_fail_bind _ (by simp)
  · exact advances_fail_bind _ (by simp)
  refine (looks_pure _).then fun element => (advances_expectIdentifier _).bind fun member => ?_
  refine (advances_expectSymbol _).bind fun _ => (advances_consumeSymbol _).bind fun unsized => ?_
  split
  · exact advances_unmet_bind _
  refine (advances_expectSymbol _).bind fun _ => (advances_consumeSymbol _).bind fun single => ?_
  split
  · exact advances_unmet_bind _
  refine sees_peekIdentifier?.then fun blockInstance => ?_
  cases blockInstance with
  | some name => exact advances_skip.any.bind fun _ => (advances_expectSymbol _).any.bind fun _ => advances_pure _
  | none => exact (advances_expectSymbol _).any.bind fun _ => advances_pure _

theorem advances_imageUniform (q : Qualifiers) (ty name : Token) (header : Header) :
    Advances ahead 1 room (imageUniform q ty name header) := by
  unfold imageUniform
  dsimp only
  split
  · exact advances_fail _ (by simp)
  · refine (looks_layoutSlot _ _ _ _).then fun explicit => ?_
    split
    · exact advances_fail_bind _ (by simp)
    split
    · exact advances_fail_bind _ (by simp)
    exact (advances_expectSymbol _).bind fun _ => advances_pure _
  · exact advances_fail _ (by simp)

theorem looks_rejectAccess (q : Qualifiers) : Looks (rejectAccess q) :=
  looks_ite (looks_fail _ (by simp)) (looks_pure _)

theorem advances_samplerUniform (q : Qualifiers) (name : Token) (header : Header) :
    Advances ahead 1 room (samplerUniform q name header) := by
  refine (looks_rejectAccess q).then fun _ => (looks_layoutSlot _ _ _ _).then fun explicit => ?_
  exact (advances_expectSymbol _).bind fun _ => advances_pure _

theorem advances_arrayLength (pos : Position) : Advances ahead 0 room (arrayLength pos) := by
  refine (advances_consumeSymbol _).bind fun array => ?_
  split
  · refine advances_expectCount.any.bind fun length => (advances_expectSymbol _).any.bind fun _ => ?_
    dsimp only
    split
    · exact advances_fail_bind _ (by simp)
    · exact advances_pure _
  · exact advances_pure _

theorem advances_valueUniform (q : Qualifiers) (ty name : Token) (header : Header) :
    Advances ahead 1 room (valueUniform q ty name header) := by
  unfold valueUniform
  split
  · exact advances_fail _ (by simp)
  · refine (looks_rejectAccess q).then fun _ => (looks_layoutSlot _ _ _ _).then fun explicit => ?_
    refine (advances_arrayLength _).bind fun length => ?_
    exact (advances_expectSymbol _).bind fun _ => advances_pure _

theorem advances_uniformDeclaration (q : Qualifiers) (header : Header) :
    Advances ahead 1 room (uniformDeclaration q header) := by
  refine (advances_expectIdentifier _).bind fun ty => (advances_expectIdentifier _).bind fun name => ?_
  split
  · exact (advances_imageUniform q ty name header).any
  · split
    · exact (advances_samplerUniform q name header).any
    · exact (advances_valueUniform q ty name header).any

theorem advances_declaration (header : Header) : Advances ahead 1 room (declaration header) := by
  refine advances_qualifiers.bind fun q => ?_
  split
  · dsimp only
    split
    · exact advances_fail_bind _ (by simp)
    · exact advances_localSize q header
  · exact advances_bufferBlock q header
  · exact advances_uniformDeclaration q header
  · exact advances_fail _ (by simp)

/-- Every directive, statement and declaration of the header takes a token. -/
theorem advances_headerFrom (fuel : Nat) (enough : room ≤ fuel) (header : Header) :
    Advances ahead 0 room (headerFrom fuel header) := by
  induction fuel generalizing ahead room header with
  | zero => exact advances_limit (Nat.eq_zero_of_le_zero enough)
  | succ fuel ih =>
    refine sees_peek?.then fun kind => ?_
    split
    · exact advances_unmet _
    · have taken : Advances 1 1 room (directive header) := advances_directive header
      exact taken.bind fun longer => ih (by omega) _
    · exact advances_precisionStatement.bind fun _ => ih (by omega) _
    · exact advances_pure _
    · exact (advances_declaration header).bind fun longer => ih (by omega) _

/-! ## Slots and names -/

theorem looks_assigned {α : Type} (owner : String) (width : α → Nat) (set : α → UInt32 → α)
    (decls : List (Declared α)) : Looks (assigned owner width set decls) := by
  unfold assigned
  dsimp only
  split
  · exact looks_pure _
  · next e failed =>
    refine looks_throw ?_
    cases claimed : claimExplicit owner (decls.map fun d => SlotRequest.mk d.explicit (width d.decl) d.pos) with
    | ok taken =>
      rw [assignSlots, claimed] at failed
      cases failed
    | error e' =>
      rw [assignSlots, claimed] at failed
      cases failed
      -- A slot that is taken is all that the assignment fails for.
      obtain ⟨-, r, -, -, slot, -, -, -, -, rfl⟩ := foldlM_claim_error claimed
      simp

theorem advances_declareGlobal (name : String) (entry : NameEntry) (pos : Position) :
    Advances ahead 0 room (declareGlobal name entry pos) := by
  refine advances_replace fun s => ?_
  dsimp only
  split
  · exact .inl ⟨_, _, by simp, rfl⟩
  · exact .inr ⟨_, ⟨⟩, rfl, .refl s⟩

end Parser

end ComputeShader
