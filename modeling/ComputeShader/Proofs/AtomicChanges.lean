import Mathlib.Algebra.Group.Nat.Defs
import Mathlib.Data.List.Nodup
import Mathlib.Data.List.Range
import ComputeShader.Store.Access

/-! # What atomics make of a word

An atomic changes the one word of an integer element. Six of the operations combine it with an operand as
numbers of the element's kind do, or bit by bit, and then the order of the operands does not matter.
-/

namespace ComputeShader

/-! ## Combining two words -/

/-- The number that a word is in an integer kind. -/
def ScalarKind.number (kind : ScalarKind) (w : UInt32) : Int :=
  if kind = .int then w.toInt32.toInt else w.toNat

/-- What an operation combines two words to: their sum modulo 2 ^ 32, the lower or the greater number of
the kind, or their bits. Exchanges and swaps do not combine words. -/
def AtomicOp.combine? (kind : ScalarKind) : AtomicOp → Option (UInt32 → UInt32 → UInt32)
  | .add => some fun x y => .ofNat (x.toNat + y.toNat)
  | .min => some fun x y => if kind.number x ≤ kind.number y then x else y
  | .max => some fun x y => if kind.number x ≤ kind.number y then y else x
  | .and => some (· &&& ·)
  | .or => some (· ||| ·)
  | .xor => some (· ^^^ ·)
  | .exchange | .compSwap => none

/-- An atomic with the words of its operands. -/
structure AtomicRequest where
  op : AtomicOp
  compare? : Option UInt32
  data : UInt32
  deriving DecidableEq, Repr

/-- The word that an atomic leaves in place of another one. -/
def AtomicRequest.change (kind : ScalarKind) (r : AtomicRequest) (old : UInt32) : UInt32 :=
  match r.op.combine? kind with
  | some combine => combine old r.data
  | none => if r.op = .exchange ∨ r.compare? = some old then r.data else old

namespace ScalarKind

variable {kind : ScalarKind} {x y : UInt32}

theorem number_injective (kind : ScalarKind) : Function.Injective kind.number := by
  intro x y same
  unfold number at same
  split at same
  · have words := congrArg Int32.toUInt32 (Int32.toInt_inj.1 same)
    simpa using words
  · exact UInt32.toNat_inj.1 (by exact_mod_cast same)

theorem number_min : kind.number (if kind.number x ≤ kind.number y then x else y) =
    min (kind.number x) (kind.number y) := by
  split <;> omega

theorem number_max : kind.number (if kind.number x ≤ kind.number y then y else x) =
    max (kind.number x) (kind.number y) := by
  split <;> omega

end ScalarKind

namespace AtomicOp

variable {op : AtomicOp} {kind : ScalarKind} {combine : UInt32 → UInt32 → UInt32}

/-- Two operands may be combined in either order. -/
theorem combine_comm (combines : op.combine? kind = some combine) (w x y : UInt32) :
    combine (combine w x) y = combine (combine w y) x := by
  cases op with
  | exchange | compSwap => cases combines
  | add =>
    cases combines
    simp only [UInt32.ofNat_add, UInt32.ofNat_toNat]
    ac_rfl
  | min =>
    cases combines
    refine kind.number_injective ?_
    rw [ScalarKind.number_min, ScalarKind.number_min, ScalarKind.number_min, ScalarKind.number_min]
    omega
  | max =>
    cases combines
    refine kind.number_injective ?_
    rw [ScalarKind.number_max, ScalarKind.number_max, ScalarKind.number_max, ScalarKind.number_max]
    omega
  | and =>
    cases combines
    simp only [UInt32.and_assoc, UInt32.and_comm x y]
  | or =>
    cases combines
    simp only [UInt32.or_assoc, UInt32.or_comm x y]
  | xor =>
    cases combines
    simp only [UInt32.xor_assoc, UInt32.xor_comm x y]

end AtomicOp

namespace AtomicRequest

variable {kind : ScalarKind} {r : AtomicRequest}

/-- The change of a word is what the store computes. -/
theorem change_eq (integer : kind = .int ∨ kind = .uint) (r : AtomicRequest) (old : UInt32) :
    Store.atomicBits r.op (kind = .int) old r.compare? r.data = r.change kind old := by
  obtain ⟨op, compare?, data⟩ := r
  have lower : (if decide (kind = .int) then old.toInt32 < data.toInt32 else old < data) ↔
      kind.number old < kind.number data := by
    rcases integer with rfl | rfl
    · exact Int32.lt_iff_toInt_lt
    · exact UInt32.lt_iff_toNat_lt.trans Int.ofNat_lt.symm
  cases op with
  | add => simp only [Store.atomicBits, change, AtomicOp.combine?, UInt32.ofNat_add, UInt32.ofNat_toNat]
  | and | or | xor => rfl
  | exchange => simp [Store.atomicBits, change, AtomicOp.combine?]
  | compSwap => simp [Store.atomicBits, change, AtomicOp.combine?]
  | min =>
    simp only [Store.atomicBits, change, AtomicOp.combine?, lower]
    rcases Int.lt_trichotomy (kind.number old) (kind.number data) with below | same | above
    · rw [if_pos below, if_pos (by omega)]
    · rw [kind.number_injective same, if_pos (Int.le_refl _), ite_self]
    · rw [if_neg (by omega), if_neg (by omega)]
  | max =>
    simp only [Store.atomicBits, change, AtomicOp.combine?, lower]
    rcases Int.lt_trichotomy (kind.number old) (kind.number data) with below | same | above
    · rw [if_pos below, if_pos (by omega)]
    · rw [kind.number_injective same, if_pos (Int.le_refl _), ite_self]
    · rw [if_neg (by omega), if_neg (by omega)]

/-! ## Sequences of changes -/

variable {requests requests' : List AtomicRequest} {w : UInt32}

/-- The word that atomics leave, one after the other. -/
def changeAll (kind : ScalarKind) (w : UInt32) (requests : List AtomicRequest) : UInt32 :=
  requests.foldl (fun old r => r.change kind old) w

/-- The successive words under atomics, the first and the last one included. -/
def successive (kind : ScalarKind) (w : UInt32) (requests : List AtomicRequest) : List UInt32 :=
  requests.scanl (fun old r => r.change kind old) w

theorem last_of_successive {seen : List UInt32} {last : UInt32}
    (passes : seen ++ [last] = successive kind w requests) : last = changeAll kind w requests := by
  have ending := congrArg List.getLast? passes
  rw [successive, List.getLast?_scanl, List.getLast?_concat] at ending
  exact Option.some.inj ending

/-- Requests of one operation that combines words fold its operands. -/
theorem changeAll_combine {op : AtomicOp} {combine : UInt32 → UInt32 → UInt32}
    (combines : op.combine? kind = some combine) (data : List UInt32) :
    changeAll kind w (data.map (⟨op, none, ·⟩)) = data.foldl combine w := by
  rw [changeAll, List.foldl_map]
  congr 1
  funext old x
  simp only [change, combines]

/-- The order of requests of one operation that combines words does not matter. -/
theorem changeAll_perm {op : AtomicOp} {combine : UInt32 → UInt32 → UInt32}
    (combines : op.combine? kind = some combine) (uniform : ∀ r ∈ requests, r.op = op)
    (reordered : requests.Perm requests') : changeAll kind w requests = changeAll kind w requests' := by
  refine reordered.foldl_eq' (fun r member r' member' old => ?_) w
  simp only [change, uniform r member, uniform r' member', combines]
  exact AtomicOp.combine_comm combines old r.data r'.data

/-- Adding one again and again counts up from the word. -/
theorem successive_counting (n : Nat) : successive kind w (List.replicate n ⟨.add, none, 1⟩) =
    (List.range (n + 1)).map fun k => w + UInt32.ofNat k := by
  induction n generalizing w with
  | zero => simp [successive]
  | succ n ih =>
    have next : change kind ⟨.add, none, 1⟩ w = w + 1 := by
      simp only [change, AtomicOp.combine?, UInt32.ofNat_add, UInt32.ofNat_toNat]
    rw [List.replicate_succ, successive, List.scanl_cons, next, List.range_succ_eq_map, List.map_cons,
      List.map_map]
    refine congrArg₂ List.cons (by simp) (ih.trans ?_)
    refine List.map_congr_left fun k _ => ?_
    simp only [Function.comp_apply, Nat.succ_eq_add_one, UInt32.ofNat_add]
    rw [UInt32.add_assoc, UInt32.add_comm (UInt32.ofNat k)]
    rfl

theorem eq_of_counting {seen : List UInt32} {last : UInt32} {n : Nat}
    (passes : seen ++ [last] = successive kind w (List.replicate n ⟨.add, none, 1⟩)) :
    seen = (List.range n).map fun k => w + UInt32.ofNat k := by
  rw [successive_counting, List.range_succ, List.map_append] at passes
  exact (List.append_inj' passes rfl).1

/-- Only the first of equal swaps finds what it compares with. -/
theorem successive_swapping {a b : UInt32} (differ : a ≠ b) (n : Nat) :
    successive kind a (List.replicate (n + 1) ⟨.compSwap, some a, b⟩) =
      a :: List.replicate (n + 1) b := by
  have swap : change kind ⟨.compSwap, some a, b⟩ a = b := by simp [change, AtomicOp.combine?]
  have keep : change kind ⟨.compSwap, some a, b⟩ b = b := by simp [change, AtomicOp.combine?, differ]
  have settled (n : Nat) : successive kind b (List.replicate n ⟨.compSwap, some a, b⟩) =
      List.replicate (n + 1) b := by
    induction n with
    | zero => rfl
    | succ n ih =>
      rw [List.replicate_succ, successive, List.scanl_cons, keep]
      exact congrArg (b :: ·) ih
  rw [List.replicate_succ, successive, List.scanl_cons, swap]
  exact congrArg (a :: ·) (settled n)

theorem eq_of_swapping {seen : List UInt32} {last a b : UInt32} (differ : a ≠ b) {n : Nat}
    (passes : seen ++ [last] = successive kind a (List.replicate (n + 1) ⟨.compSwap, some a, b⟩)) :
    seen = a :: List.replicate n b := by
  rw [successive_swapping differ, List.replicate_succ', ← List.cons_append] at passes
  exact (List.append_inj' passes rfl).1

/-- As many numbers as there are words are distinct words. -/
theorem nodup_counting {n : Nat} (few : n ≤ 2 ^ 32) (w : UInt32) :
    ((List.range n).map fun k => w + UInt32.ofNat k).Nodup := by
  refine List.Nodup.map_on (fun j below k below' same => ?_) List.nodup_range
  have offsets : UInt32.ofNat j = UInt32.ofNat k := by simpa using same
  have numbers := congrArg UInt32.toNat offsets
  rw [List.mem_range] at below below'
  rwa [UInt32.toNat_ofNat_of_lt' (Nat.lt_of_lt_of_le below few),
    UInt32.toNat_ofNat_of_lt' (Nat.lt_of_lt_of_le below' few)] at numbers

end AtomicRequest

end ComputeShader
