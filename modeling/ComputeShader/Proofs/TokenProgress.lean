import ComputeShader.Proofs.ScopedParsing

/-! # Tokens taken

`Advances` says how many tokens a parser takes at least, all of them from the front and none from beyond
the end, and in front of how many tokens it has fuel enough. What a parser takes leaves the one that goes
on with fewer tokens, so that both parts compose; after a parser that only looks at the tokens, those in
front are known still. That is what `skip` needs, which moves on even where there is no token.
-/

namespace ComputeShader

/-- Whether a state is left when at least so many tokens are taken from another one, and the parser goes no
further beyond the end than it was. -/
def ParserState.Past (s : ParserState) (least : Nat) (s' : ParserState) : Prop :=
  ∃ taken, s.rest = taken ++ s'.rest ∧ least ≤ taken.length ∧ s'.beyond = s.beyond

namespace ParserState.Past

variable {s s' s'' : ParserState} {least least' : Nat}

theorem refl (s : ParserState) : s.Past 0 s := ⟨[], rfl, Nat.le_refl 0, rfl⟩

theorem trans (past : s.Past least s') (past' : s'.Past least' s'') : s.Past (least + least') s'' := by
  obtain ⟨taken, rest, enough, same⟩ := past
  obtain ⟨taken', rest', enough', same'⟩ := past'
  refine ⟨taken ++ taken', by rw [rest, rest', List.append_assoc], ?_, same'.trans same⟩
  rw [List.length_append]
  exact Nat.add_le_add enough enough'

theorem mono (past : s.Past least s') (le : least' ≤ least) : s.Past least' s' := by
  obtain ⟨taken, rest, enough, same⟩ := past
  exact ⟨taken, rest, Nat.le_trans le enough, same⟩

theorem length (past : s.Past least s') : s'.rest.length + least ≤ s.rest.length := by
  obtain ⟨taken, rest, enough, -⟩ := past
  rw [rest, List.length_append]
  omega

theorem one (s : ParserState) {t : Token} {rest : List Token} (front : s.rest = t :: rest) :
    s.Past 1 { s with rest } :=
  ⟨[t], front, Nat.le_refl 1, rfl⟩

end ParserState.Past

namespace Parser

variable {α β : Type} {x : Parser α} {k : α → Parser β} {ahead least least' room : Nat}

theorem exists_of_bind_error {s : ParserState} {e : SourceError} (failed : (x >>= k) s = .error e) :
    x s = .error e ∨ ∃ a s', x s = .ok (a, s') ∧ k a s' = .error e := by
  cases first : x s with
  | error e' =>
    rw [show (x >>= k) s = .error e' by simp only [bind, StateT.bind, first]; rfl] at failed
    cases failed
    exact .inl rfl
  | ok r =>
    rw [show (x >>= k) s = k r.1 r.2 by simp only [bind, StateT.bind, first]; rfl] at failed
    exact .inr ⟨r.1, r.2, rfl, failed⟩

/-! ## Parsers that advance -/

/-- Whether a parser, in front of at least `ahead` tokens, takes at least `least` of them where it succeeds,
and does not run out of fuel if they are fewer than `room`. -/
structure Advances (ahead least room : Nat) (x : Parser α) : Prop where
  passes : ∀ s a s', ahead ≤ s.rest.length → x s = .ok (a, s') → s.Past least s'
  settles : ∀ s e, ahead ≤ s.rest.length → s.rest.length < room → x s = .error e →
    e.fault ≠ .nestingLimit

/-- Whether a parser takes no tokens, changes nothing else and needs no fuel. -/
structure Looks (x : Parser α) : Prop where
  keeps : ∀ s a s', x s = .ok (a, s') → s' = s
  settles : ∀ s e, x s = .error e → e.fault ≠ .nestingLimit

theorem Advances.of_ahead {ahead' : Nat} (advances : Advances ahead least room x) (le : ahead ≤ ahead') :
    Advances ahead' least room x :=
  ⟨fun s a s' front => advances.passes s a s' (Nat.le_trans le front),
    fun s e front => advances.settles s e (Nat.le_trans le front)⟩

theorem Advances.mono (advances : Advances ahead least room x) (le : least' ≤ least) :
    Advances ahead least' room x :=
  ⟨fun s a s' front ran => (advances.passes s a s' front ran).mono le, advances.settles⟩

/-- How many tokens a parser takes may not matter. -/
theorem Advances.any (advances : Advances ahead least room x) : Advances ahead 0 room x :=
  advances.mono (Nat.zero_le _)

/-- What is taken first is not there for what follows. -/
theorem Advances.bind {first : Nat} (advances : Advances ahead first room x)
    (next : ∀ a, Advances 0 (least - first) (room - first) (k a)) : Advances ahead least room (x >>= k) := by
  constructor
  · intro s b s' front ran
    obtain ⟨a, s'', ran, ran'⟩ := exists_of_bind_ok ran
    have past := advances.passes s a s'' front ran
    exact (past.trans ((next a).passes s'' b s' (Nat.zero_le _) ran')).mono (by omega)
  · intro s e front short failed
    obtain failed | ⟨a, s'', ran, failed⟩ := exists_of_bind_error failed
    · exact advances.settles s e front short failed
    · have left := (advances.passes s a s'' front ran).length
      exact (next a).settles s'' e (Nat.zero_le _) (by omega) failed

/-- A parser that only looks leaves all tokens in front of what follows. -/
theorem Looks.then (looks : Looks x) (next : ∀ a, Advances ahead least room (k a)) :
    Advances ahead least room (x >>= k) := by
  constructor
  · intro s b s' front ran
    obtain ⟨a, s'', ran, ran'⟩ := exists_of_bind_ok ran
    rw [looks.keeps s a s'' ran] at ran'
    exact (next a).passes s b s' front ran'
  · intro s e front short failed
    obtain failed | ⟨a, s'', ran, failed⟩ := exists_of_bind_error failed
    · exact looks.settles s e failed
    · rw [looks.keeps s a s'' ran] at failed
      exact (next a).settles s e front short failed

theorem Looks.bind (looks : Looks x) (next : ∀ a, Looks (k a)) : Looks (x >>= k) := by
  constructor
  · intro s b s' ran
    obtain ⟨a, s'', ran, ran'⟩ := exists_of_bind_ok ran
    exact ((next a).keeps s'' b s' ran').trans (looks.keeps s a s'' ran)
  · intro s e failed
    obtain failed | ⟨a, s'', -, failed⟩ := exists_of_bind_error failed
    · exact looks.settles s e failed
    · exact (next a).settles s'' e failed

theorem Looks.advances (looks : Looks x) : Advances ahead 0 room x := by
  refine ⟨fun s a s' _ ran => ?_, fun s e _ _ => looks.settles s e⟩
  rw [looks.keeps s a s' ran]
  exact .refl s

theorem looks_pure (a : α) : Looks (pure a) := by
  refine ⟨?_, ?_⟩
  · rintro s _ _ ⟨⟩
    rfl
  · rintro s _ ⟨⟩

theorem advances_pure (a : α) : Advances ahead 0 room (pure a) := (looks_pure a).advances

theorem looks_throw {e : SourceError} (other : e.fault ≠ .nestingLimit) :
    Looks (throw e : Parser α) := by
  refine ⟨?_, ?_⟩
  · rintro s _ _ ⟨⟩
  · rintro s _ ⟨⟩
    exact other

theorem looks_fail (pos : Position) {fault : SourceFault} (other : fault ≠ .nestingLimit) :
    Looks (failAt pos fault : Parser α) :=
  looks_throw other

theorem advances_fail (pos : Position) {fault : SourceFault} (other : fault ≠ .nestingLimit) :
    Advances ahead least room (failAt pos fault : Parser α) := by
  refine ⟨?_, ?_⟩
  · rintro s _ _ - ⟨⟩
  · rintro s _ - - ⟨⟩
    exact other

theorem advances_fail_bind (pos : Position) {fault : SourceFault} (other : fault ≠ .nestingLimit) :
    Advances ahead least room (failAt pos fault >>= k) := by
  refine ⟨?_, ?_⟩
  · rintro s _ _ - ⟨⟩
  · rintro s _ - - ⟨⟩
    exact other

/-- Without fuel there is no room. -/
theorem advances_limit (none : room = 0) :
    Advances ahead least room (do failAt (← here) .nestingLimit : Parser α) := by
  subst none
  refine ⟨?_, fun s e _ short => absurd short (Nat.not_lt_zero _)⟩
  rintro s _ _ - ⟨⟩

/-- What begins by looking at the state knows how many tokens there are. -/
theorem advances_get {k : ParserState → Parser β} (next : ∀ s, ahead ≤ s.rest.length →
    Advances s.rest.length least (min room (s.rest.length + 1)) (k s)) :
    Advances ahead least room (get >>= k) := by
  constructor
  · intro s b s' front ran
    exact (next s front).passes s b s' (Nat.le_refl _) ran
  · intro s e front short failed
    exact (next s front).settles s e (Nat.le_refl _) (by omega) failed

theorem looks_get {k : ParserState → Parser β} (next : ∀ s, Looks (k s)) : Looks (get >>= k) :=
  ⟨fun s b s' => (next s).keeps s b s', fun s e => (next s).settles s e⟩

theorem advances_modify {f : ParserState → ParserState} (past : ∀ s : ParserState, s.Past 0 (f s)) :
    Advances ahead 0 room (modify f) := by
  refine ⟨?_, ?_⟩
  · rintro s _ _ - ⟨⟩
    exact past s
  · rintro s _ - - ⟨⟩

/-- What fails or replaces the state by another one at the same place takes nothing. -/
theorem advances_replace {k : ParserState → Parser β}
    (next : ∀ s, (∃ pos fault, fault ≠ .nestingLimit ∧ k s = failAt pos fault) ∨
      ∃ (s' : ParserState) (b : β), k s = (do set s'; return b) ∧ s.Past 0 s') :
    Advances ahead 0 room (get >>= k) := by
  constructor
  · intro s b s' front ran
    change k s s = .ok (b, s') at ran
    obtain ⟨pos, fault, -, other⟩ | ⟨s'', b', other, past⟩ := next s
    · rw [other] at ran
      cases ran
    · rw [other] at ran
      cases ran
      exact past
  · intro s e front short failed
    change k s s = .error e at failed
    obtain ⟨pos, fault, harmless, other⟩ | ⟨s'', b', other, -⟩ := next s
    · rw [other] at failed
      cases failed
      exact harmless
    · rw [other] at failed
      cases failed

theorem looks_ite {c : Prop} [Decidable c] {y : Parser α} (holds : Looks x) (fails : Looks y) :
    Looks (if c then x else y) := by
  split
  · exact holds
  · exact fails

theorem Advances.map (advances : Advances ahead least room x) (f : α → β) :
    Advances ahead least room (f <$> x) := by
  rw [← bind_pure_comp]
  refine advances.bind fun a => ?_
  rw [Nat.sub_self]
  exact advances_pure _

theorem looks_mapM {f : α → Parser β} (each : ∀ a, Looks (f a)) (as : List α) : Looks (as.mapM f) := by
  induction as with
  | nil => exact looks_pure []
  | cons a rest ih =>
    rw [List.mapM_cons]
    exact (each a).bind fun b => ih.bind fun bs => looks_pure _

theorem looks_foldlM {f : β → α → Parser β} (each : ∀ b a, Looks (f b a)) (as : List α) (b : β) :
    Looks (as.foldlM f b) := by
  induction as generalizing b with
  | nil => exact looks_pure b
  | cons a rest ih =>
    rw [List.foldlM_cons]
    exact (each b a).bind fun b' => ih b'

theorem advances_forM {f : α → Parser PUnit} (each : ∀ a, Advances 0 0 room (f a)) (as : List α) :
    Advances 0 0 room (as.forM f) := by
  induction as with
  | nil => exact advances_pure _
  | cons a rest ih => exact (each a).bind fun _ => ih

/-! ## Tokens -/

theorem advances_unmet (want : Unmet) : Advances ahead least room (failUnmet want : Parser α) :=
  advances_get fun _ _ => advances_fail _ (by simp)

theorem advances_unmet_bind (want : Unmet) : Advances ahead least room (failUnmet want >>= k) := by
  refine ⟨?_, ?_⟩
  · rintro s _ _ - ⟨⟩
  · rintro s _ - - ⟨⟩
    simp

theorem looks_here : Looks here := looks_get fun _ => looks_pure _

theorem looks_lookup? (name : String) : Looks (lookup? name) := looks_get fun _ => looks_pure _

/-- Whether a parser that only looks finds nothing where there is no token. -/
structure Sees (x : Parser (Option α)) : Prop extends Looks x where
  there : ∀ s a s', x s = .ok (some a, s') → 1 ≤ s.rest.length

/-- A token that is seen is there. -/
theorem Sees.front {x : Parser (Option α)} {s s' : ParserState} {found : Option α} (sees : Sees x)
    (ran : x s = .ok (found, s')) : found.toList.length ≤ s.rest.length := by
  cases found with
  | none => exact Nat.zero_le _
  | some a => exact sees.there s a s' ran

/-- What is seen stays in front of what follows. -/
theorem Sees.then {x : Parser (Option α)} {k : Option α → Parser β} (sees : Sees x)
    (next : ∀ found, Advances found.toList.length least room (k found)) :
    Advances ahead least room (x >>= k) := by
  constructor
  · intro s b s' front ran
    obtain ⟨found, s'', ran, ran'⟩ := exists_of_bind_ok ran
    rw [sees.keeps s found s'' ran] at ran'
    exact (next found).passes s b s' (sees.front ran) ran'
  · intro s e front short failed
    obtain failed | ⟨found, s'', ran, failed⟩ := exists_of_bind_error failed
    · exact sees.settles s e failed
    · rw [sees.keeps s found s'' ran] at failed
      exact (next found).settles s e (sees.front ran) short failed

/-- What is read off the next token is not found where there is none. -/
theorem sees_head {f : Option Token → Option α} (nothing : f none = none) :
    Sees (do return f (← get).rest.head?) := by
  refine ⟨looks_get fun s => looks_pure _, ?_⟩
  rintro ⟨_ | ⟨t, rest⟩, beyond, lastPos, names, buffers, locals⟩ a s' ran
  · have found : f none = some a := congrArg Prod.fst (Except.ok.inj ran)
    cases nothing.symm.trans found
  · exact Nat.succ_le_succ (Nat.zero_le _)

theorem sees_peek? : Sees peek? := sees_head (f := Option.map Token.kind) rfl

theorem sees_peekIdentifier? : Sees peekIdentifier? := sees_head (f := fun t => t.bind Token.identifier?) rfl

/-- A token is taken if there is one. -/
theorem advances_next {k : Option Token → Parser β} (none : ahead = 0 → Advances 0 least room (k none))
    (some : ∀ t, Advances 0 (least - 1) (room - 1) (k (some t))) :
    Advances ahead least room (next? >>= k) := by
  constructor
  · rintro ⟨_ | ⟨t, rest⟩, beyond, lastPos, names, buffers, locals⟩ b s' front ran
    · exact (none (Nat.eq_zero_of_le_zero front)).passes _ b s' (Nat.zero_le _) ran
    · have past := (some t).passes ⟨rest, beyond, lastPos, names, buffers, locals⟩ b s' (Nat.zero_le _) ran
      exact ((ParserState.Past.one _ rfl).trans past).mono (by omega)
  · rintro ⟨_ | ⟨t, rest⟩, beyond, lastPos, names, buffers, locals⟩ e front short failed
    · exact (none (Nat.eq_zero_of_le_zero front)).settles _ e (Nat.zero_le _) short failed
    · exact (some t).settles _ e (Nat.zero_le _) (Nat.lt_sub_of_add_lt short) failed

theorem advances_next? : Advances ahead 0 room next? := by
  have taken : Advances ahead 0 room (next? >>= pure) :=
    advances_next (fun _ => advances_pure none) fun t => advances_pure (some t)
  rwa [bind_pure] at taken

/-- Only in front of a token. -/
theorem advances_skip : Advances 1 1 room skip := by
  constructor
  · rintro ⟨_ | ⟨t, rest⟩, beyond, lastPos, names, buffers, locals⟩ _ _ front ⟨⟩
    · cases front
    · exact .one _ rfl
  · rintro ⟨_ | ⟨t, rest⟩, beyond, lastPos, names, buffers, locals⟩ e front short ⟨⟩

theorem advances_skipWhile (p : Token → Bool) : Advances ahead 0 room (skipWhile p) :=
  advances_modify fun s => ⟨s.rest.takeWhile p, List.takeWhile_append_dropWhile.symm, Nat.zero_le _, rfl⟩

theorem advances_consume (kind : TokenKind) : Advances ahead 0 room (consume kind) := by
  refine sees_peek?.then fun found => ?_
  split
  · next seen =>
    subst seen
    exact advances_skip.any.bind fun _ => advances_pure _
  · exact advances_pure _

theorem advances_consumeSymbol (s : Symbol) : Advances ahead 0 room (consumeSymbol s) :=
  advances_consume _

/-- Of tokens of other kinds the parser takes none. -/
theorem expect_cons (kind : TokenKind) (what : String) {t : Token} {rest : List Token} {s : ParserState}
    (front : s.rest = t :: rest) :
    expect kind what s =
      if t.kind = kind then .ok (t, { s with rest }) else failUnmet (.expected what) s := by
  obtain ⟨_, beyond, lastPos, names, buffers, locals⟩ := s
  cases front
  change (if t.kind = kind then _ else _ : Parser Token) _ = _
  rw [ite_apply]
  rfl

theorem advances_expect (kind : TokenKind) (what : String) : Advances ahead 1 room (expect kind what) := by
  constructor
  · rintro ⟨_ | ⟨t, rest⟩, beyond, lastPos, names, buffers, locals⟩ a s' front ran
    · cases ran
    · rw [expect_cons kind what rfl] at ran
      split at ran
      · cases ran
        exact .one _ rfl
      · cases ran
  · rintro ⟨_ | ⟨t, rest⟩, beyond, lastPos, names, buffers, locals⟩ e front short failed
    · cases failed
      simp
    · rw [expect_cons kind what rfl] at failed
      split at failed
      · cases failed
      · cases failed
        simp

theorem advances_expectSymbol (s : Symbol) : Advances ahead 1 room (expectSymbol s) :=
  (advances_expect _ _).bind fun _ => advances_pure _

theorem advances_expectKeyword (k : Keyword) : Advances ahead 1 room (expectKeyword k) :=
  (advances_expect _ _).bind fun _ => advances_pure _

theorem advances_expectIdentifier (what : String) : Advances ahead 1 room (expectIdentifier what) :=
  advances_expect _ _

theorem looks_integerLiteral (t : Token) : Looks (integerLiteral t) := by
  unfold integerLiteral
  split
  · exact looks_pure _
  · exact looks_fail _ (by simp)

theorem looks_floatLiteral (t : Token) : Looks (floatLiteral t) := by
  unfold floatLiteral
  dsimp only
  split
  · exact looks_pure _
  · exact looks_fail _ (by simp)

theorem advances_expectCount : Advances ahead 1 room expectCount := by
  refine (advances_expect _ _).bind fun t => (looks_integerLiteral t).then fun value => ?_
  split
  · exact advances_pure _
  · split
    · exact advances_fail _ (by simp)
    · exact advances_pure _
  · exact advances_fail _ (by simp)

end Parser

end ComputeShader
