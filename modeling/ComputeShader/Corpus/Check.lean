import ComputeShader.Corpus.Evaluation

/-! # Checking cases

A case passes if its results are the same under several schedules, meet its expectations and match
those observed elsewhere, as far as the case gives any.
-/

namespace ComputeShader

/-- The schedules under which every case must have the same results. -/
def crossCheckSchedules : List Schedule :=
  [.sequential, .parallel, .shuffled 0x5eed, .shuffled 0x10000000000]

/-- Whether other schedules than its own give a case the same results. -/
def checkSchedules (l : LoadedCase) (s : Snapshot) : Except CaseError Unit :=
  let own := l.case.engine.schedule
  (crossCheckSchedules.filter (· ≠ own)).forM fun schedule => do
    let again ← l.evaluate l.case.groups schedule
    if again ≠ s then throw (.nondeterministic own schedule s again)

def checkExpected (c : Case) (s : Snapshot) : Except CaseError Unit := do
  match checkExpectations c.compare.epsilon s c.expectations with
  | .error e => throw (.engine s.shader e)
  | .ok [] => pure ()
  | .ok divergences => throw (.unmetExpectations divergences s)

variable {m : Type → Type} [Monad m]

def checkObserved (fs : FileAccess m) (casePath : String) (c : Case) (s : Snapshot) :
    ExceptT CaseError m Unit := do
  match c.observed with
  | none => pure ()
  | some path =>
    let path := besideCase casePath path
    match compareSnapshots c.compare.epsilon s (← readSnapshot fs path) with
    | [] => pure ()
    | divergences => throw (.differingOutput divergences path s)

/-- Check the case of a file. A case that is marked to be skipped passes. -/
def checkCase (fs : FileAccess m) (casePath : String) : ExceptT CaseError m Unit := do
  let c ← readCase fs casePath
  if c.compare.skipped.isNone then
    let l ← loadCase fs casePath c
    let s ← ExceptT.mk (pure (l.evaluate c.groups c.engine.schedule))
    ExceptT.mk (pure (checkSchedules l s))
    ExceptT.mk (pure (checkExpected c s))
    checkObserved fs casePath c s

end ComputeShader
