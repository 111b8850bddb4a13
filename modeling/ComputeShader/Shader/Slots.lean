import ComputeShader.Shader.Fault

/-! # Assigning bindings and locations

Declarations ask for a run of consecutive slots, at a given start or anywhere. Given starts are
claimed first, in order of declaration; the others then take, in order, the lowest start whose whole
run is free.

Where a run ends is a 32-bit number. A given run is cut off at the last slot; the end of any other one
wraps around, and a run that ends where the slots do is found to hold nothing.
-/

namespace ComputeShader

/-- The last slot; slots are 32-bit numbers. -/
def slotLimit : Nat := 4294967295

/-- The slots from `start` up to but excluding `stop`. -/
structure SlotRange where
  start : Nat
  stop : Nat
  deriving DecidableEq, Repr

namespace SlotRange

/-- Whether two ranges share a slot. -/
def meets (a b : SlotRange) : Bool :=
  max a.start b.start < min a.stop b.stop

/-- The lowest slot of `a` that is in one of `taken`. -/
def lowestClash? (a : SlotRange) (taken : List SlotRange) : Option Nat :=
  ((taken.filter a.meets).map fun b => max a.start b.start).min?

/-- What a run that starts anywhere is found to hold. -/
def wrapped (start width : Nat) : SlotRange := ⟨start, (start + width) % (slotLimit + 1)⟩

/-- The lowest start of a free run of `width` slots: slot zero, the end of a taken range, or where the
run ends with the slots. -/
def firstFree (taken : List SlotRange) (width : Nat) : Nat :=
  let starts := 0 :: (slotLimit + 1 - width) :: taken.map SlotRange.stop
  let free := starts.filter fun s => !taken.any (wrapped s width).meets
  free.min?.getD 0

end SlotRange

/-- A declaration's need of slots. -/
structure SlotRequest where
  explicit : Option UInt32
  width : Nat
  pos : Position
  deriving DecidableEq, Repr

/-- The range a request claims by itself, cut off at the last slot. -/
def SlotRequest.claim? (r : SlotRequest) : Option SlotRange :=
  r.explicit.map fun start => ⟨start.toNat, min (start.toNat + r.width) slotLimit⟩

/-- Claim the given start of a request, if it has one. -/
def claim (owner : String) (taken : List SlotRange) (r : SlotRequest) :
    Except SourceError (List SlotRange) :=
  match r.claim? with
  | none => .ok taken
  | some range =>
    match range.lowestClash? taken with
    | some slot => .error ⟨r.pos, .slotTaken owner slot⟩
    | none => .ok (range :: taken)

/-- Claim the given starts in order, newest first in the result. -/
def claimExplicit (owner : String) (requests : List SlotRequest) :
    Except SourceError (List SlotRange) :=
  requests.foldlM (claim owner) []

/-- The start of every request, the implicit ones taking the lowest free run. -/
def placeImplicit : List SlotRange → List SlotRequest → List UInt32
  | _, [] => []
  | taken, r :: rest =>
    match r.explicit with
    | some start => start :: placeImplicit taken rest
    | none =>
      let start := SlotRange.firstFree taken r.width
      UInt32.ofNat start :: placeImplicit (.wrapped start r.width :: taken) rest

/-- The start of every request, or the first of the given ranges that meets an earlier one. -/
def assignSlots (owner : String) (requests : List SlotRequest) : Except SourceError (List UInt32) :=
  (claimExplicit owner requests).map fun taken => placeImplicit taken requests

end ComputeShader
