import ComputeShader.Proofs.StoreCalls

/-! # Processes

A process is a program over cells that goes on by what it loads. It is run on the contents of the
cells alone; what it does to a store is the replay of its effects. Of two memories a process can only
tell apart what it exposes: the cells that it loads without having replaced them as a whole first.
-/

namespace ComputeShader

/-- A program over cells, without atomics. -/
inductive Process (α : Type) where
  | done (answer : α)
  | note (kind : ErrorKind) (message : String) (next : Process α)
  | load (place : Location) (next : List UInt32 → Process α)
  | store (place : Location) (patch : Patch) (next : Process α)

/-- The cells after effects. -/
def Memory.after (m : Memory) (effects : List Effect) : Memory :=
  effects.foldl (fun m e => e.apply m) m

/-- Whether effects load a cell that holds `count` components before all of it is replaced. -/
def Exposes (place : Location) (count : Nat) (effects : List Effect) : Prop :=
  ∃ before after, effects = before ++ .load place :: after ∧
    ∀ patch, .store place patch ∈ before → ¬ patch.Covers count

namespace Process

variable {α β : Type}

/-- What a process does when it finds the given cells. -/
def effects : Process α → Memory → List Effect
  | done _, _ => []
  | note kind message next, m => .note kind message :: next.effects m
  | load place next, m => .load place :: (next (m place)).effects m
  | store place patch next, m =>
    .store place patch :: next.effects ((Effect.store place patch).apply m)

/-- What a process ends with when it finds the given cells. -/
def answer : Process α → Memory → α
  | done answer, _ => answer
  | note _ _ next, m => next.answer m
  | load place next, m => (next (m place)).answer m
  | store place patch next, m => next.answer ((Effect.store place patch).apply m)

def bind : Process α → (α → Process β) → Process β
  | done answer, f => f answer
  | note kind message next, f => note kind message (next.bind f)
  | load place next, f => load place fun bits => (next bits).bind f
  | store place patch next, f => store place patch (next.bind f)

/-- Every effect that a process can have, whatever it loads, is allowed. -/
def Obeys (allowed : Effect → Prop) : Process α → Prop
  | done _ => True
  | note kind message next => allowed (.note kind message) ∧ next.Obeys allowed
  | load place next => allowed (.load place) ∧ ∀ bits, (next bits).Obeys allowed
  | store place patch next => allowed (.store place patch) ∧ next.Obeys allowed

variable {p : Process α} {f : α → Process β} {m m' : Memory} {allowed : Effect → Prop}

theorem effects_bind : (p.bind f).effects m =
    p.effects m ++ (f (p.answer m)).effects (m.after (p.effects m)) := by
  induction p generalizing m with
  | done a => rfl
  | note kind message next ih => exact congrArg _ ih
  | load place next ih => exact congrArg _ (ih _)
  | store place patch next ih => exact congrArg _ ih

theorem answer_bind : (p.bind f).answer m =
    (f (p.answer m)).answer (m.after (p.effects m)) := by
  induction p generalizing m with
  | done a => rfl
  | note kind message next ih => exact ih
  | load place next ih => exact ih _
  | store place patch next ih => exact ih

theorem Obeys.bind (first : p.Obeys allowed) (next : ∀ a, (f a).Obeys allowed) :
    (p.bind f).Obeys allowed := by
  induction p with
  | done a => exact next a
  | note kind message rest ih => exact ⟨first.1, ih first.2⟩
  | load place rest ih => exact ⟨first.1, fun bits => ih bits (first.2 bits)⟩
  | store place patch rest ih => exact ⟨first.1, ih first.2⟩

theorem Obeys.effects (obeys : p.Obeys allowed) {e : Effect} (member : e ∈ p.effects m) :
    allowed e := by
  induction p generalizing m with
  | done a => cases member
  | note kind message next ih =>
    rcases List.mem_cons.1 member with rfl | later
    · exact obeys.1
    · exact ih obeys.2 later
  | load place next ih =>
    rcases List.mem_cons.1 member with rfl | later
    · exact obeys.1
    · exact ih _ (obeys.2 _) later
  | store place patch next ih =>
    rcases List.mem_cons.1 member with rfl | later
    · exact obeys.1
    · exact ih obeys.2 later

theorem exposes_cons {place : Location} {count : Nat} {e : Effect} {effects : List Effect}
    (exposes : Exposes place count effects)
    (part : ∀ patch, e = .store place patch → ¬ patch.Covers count) :
    Exposes place count (e :: effects) := by
  obtain ⟨before, after, rfl, uncovered⟩ := exposes
  refine ⟨e :: before, after, rfl, fun patch member => ?_⟩
  rcases List.mem_cons.1 member with same | earlier
  · exact part patch same.symm
  · exact uncovered patch earlier

/-- A process does the same on memories that agree on all it exposes. -/
theorem effects_congr (lengths : ∀ place, (m place).length = (m' place).length)
    (agree : ∀ place, Exposes place (m place).length (p.effects m) → m place = m' place) :
    p.effects m = p.effects m' ∧ p.answer m = p.answer m' := by
  induction p generalizing m m' with
  | done a => exact ⟨rfl, rfl⟩
  | note kind message next ih =>
    have rest := ih lengths fun place exposes => agree place (exposes_cons exposes (by simp))
    exact ⟨congrArg (List.cons _) rest.1, rest.2⟩
  | load place next ih =>
    have loaded : m place = m' place := agree place ⟨[], _, rfl, by simp⟩
    have rest := ih (m place) lengths fun other exposes =>
      agree other (exposes_cons exposes (by simp))
    rw [effects, effects, answer, answer, ← loaded]
    exact ⟨congrArg (List.cons _) rest.1, rest.2⟩
  | store place patch next ih =>
    have rest : next.effects ((Effect.store place patch).apply m) =
          next.effects ((Effect.store place patch).apply m') ∧
        next.answer ((Effect.store place patch).apply m) =
          next.answer ((Effect.store place patch).apply m') := by
      refine ih (fun other => ?_) fun other exposes => ?_
      · by_cases here : other = place
        · subst here
          simp [Effect.apply, lengths]
        · simp [Effect.apply, here, lengths]
      · by_cases here : other = place
        · subst here
          simp only [Effect.apply, Function.update_self, Patch.length_apply] at exposes ⊢
          by_cases covers : patch.Covers (m other).length
          · exact Patch.apply_eq_of_covers covers (lengths other)
          · refine congrArg _ (agree other (exposes_cons exposes fun patch' same => ?_))
            obtain ⟨-, rfl⟩ := Effect.store.inj same
            exact covers
        · simp only [Effect.apply, Function.update_of_ne here] at exposes ⊢
          refine agree other (exposes_cons exposes fun patch' same => ?_)
          exact (here (Effect.store.inj same).1.symm).elim
    exact ⟨congrArg (List.cons _) rest.1, rest.2⟩

end Process

end ComputeShader
