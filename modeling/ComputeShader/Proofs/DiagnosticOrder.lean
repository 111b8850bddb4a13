import ComputeShader.Store.Diagnostics

/-! # The order of events

Diagnostics count events, and sorting them forgets in which order they were recorded: entries of the
same event add up the same in any order, and no two entries compare as equal.
-/

namespace ComputeShader

namespace Diagnostic

variable {a b c : Diagnostic}

theorem sameEvent_iff : a.sameEvent b ↔ a.kind = b.kind ∧ a.message = b.message := by
  simp [sameEvent]

theorem sameEvent_symm (same : a.sameEvent b) : b.sameEvent a := by
  rw [sameEvent_iff] at same ⊢
  exact ⟨same.1.symm, same.2.symm⟩

theorem sameEvent_trans (first : a.sameEvent b) (second : b.sameEvent c) : a.sameEvent c := by
  rw [sameEvent_iff] at first second ⊢
  exact ⟨first.1.trans second.1, first.2.trans second.2⟩

@[simp] theorem sameEvent_absorb_left : (a.absorb b).sameEvent c = a.sameEvent c := rfl

theorem absorb_comm (same : a.sameEvent b) : a.absorb b = b.absorb a := by
  obtain ⟨kind, message⟩ := sameEvent_iff.1 same
  simp [absorb, kind, message, Nat.add_comm, Nat.min_comm]

theorem absorb_right_comm : (a.absorb b).absorb c = (a.absorb c).absorb b := by
  simp [absorb, Nat.add_right_comm, Nat.min_comm b.firstInvocation c.firstInvocation]

end Diagnostic

theorem ErrorKind.rank_injective {k k' : ErrorKind} (same : k.rank = k'.rank) : k = k' := by
  revert same
  cases k <;> cases k' <;> decide

namespace Diagnostic

variable {a b c : Diagnostic}

theorem precedes_iff : a.precedes b ↔
    a.kind.rank < b.kind.rank ∨ a.kind = b.kind ∧ a.message ≤ b.message := by
  simp [precedes]

theorem precedes_trans (first : a.precedes b) (second : b.precedes c) : a.precedes c := by
  rw [precedes_iff] at *
  rcases first with below | ⟨kind, message⟩ <;> rcases second with below' | ⟨kind', message'⟩
  · exact .inl (Nat.lt_trans below below')
  · exact .inl (kind' ▸ below)
  · exact .inl (kind ▸ below')
  · exact .inr ⟨kind.trans kind', String.le_trans message message'⟩

theorem precedes_total : a.precedes b ∨ b.precedes a := by
  rw [precedes_iff, precedes_iff]
  rcases Nat.lt_trichotomy a.kind.rank b.kind.rank with below | same | above
  · exact .inl (.inl below)
  · have kind := ErrorKind.rank_injective same
    rcases String.le_total a.message b.message with le | le
    · exact .inl (.inr ⟨kind, le⟩)
    · exact .inr (.inr ⟨kind.symm, le⟩)
  · exact .inr (.inl above)

theorem sameEvent_of_precedes (first : a.precedes b) (second : b.precedes a) : a.sameEvent b := by
  rw [precedes_iff] at *
  rw [sameEvent_iff]
  rcases first with below | ⟨kind, message⟩ <;> rcases second with below' | ⟨kind', message'⟩
  · exact (Nat.lt_asymm below below').elim
  · exact (Nat.lt_irrefl _ (kind' ▸ below)).elim
  · exact (Nat.lt_irrefl _ (kind ▸ below')).elim
  · exact ⟨kind, String.le_antisymm message message'⟩

end Diagnostic

namespace Diagnostics

variable {ds ds' es es' : Diagnostics} {a b d : Diagnostic}

/-- Whether no two entries count the same event. -/
def Unique (ds : Diagnostics) : Prop := ds.Pairwise fun a b => ¬ a.sameEvent b

/-- The diagnostics without those of races. -/
def withoutRaces (ds : Diagnostics) : Diagnostics := ds.filter fun d => d.kind ≠ .raceDetected

/-! ## One more event -/

theorem exists_of_mem_add (member : a ∈ add d ds) : ∃ b ∈ d :: ds, a.sameEvent b := by
  induction ds with
  | nil => exact ⟨d, by simp, by simp_all [add, Diagnostic.sameEvent]⟩
  | cons head rest ih =>
    rw [add] at member
    split at member
    · rcases List.mem_cons.1 member with rfl | later
      · exact ⟨head, by simp, by simp [Diagnostic.sameEvent, Diagnostic.absorb]⟩
      · exact ⟨a, by simp [later], by simp [Diagnostic.sameEvent]⟩
    · rcases List.mem_cons.1 member with rfl | later
      · exact ⟨a, by simp, by simp [Diagnostic.sameEvent]⟩
      · obtain ⟨b, among, same⟩ := ih later
        refine ⟨b, ?_, same⟩
        rcases List.mem_cons.1 among with rfl | among <;> simp [*]

theorem Unique.add (unique : Unique ds) : Unique (add d ds) := by
  induction ds with
  | nil => simp [Unique, Diagnostics.add]
  | cons head rest ih =>
    obtain ⟨apart, later⟩ := List.pairwise_cons.1 unique
    rw [Diagnostics.add]
    split
    · exact List.pairwise_cons.2 ⟨apart, later⟩
    · next differ =>
      refine List.pairwise_cons.2 ⟨fun a member same => ?_, ih later⟩
      obtain ⟨b, among, alike⟩ := exists_of_mem_add member
      have reached : head.sameEvent b := Diagnostic.sameEvent_trans same alike
      rcases List.mem_cons.1 among with rfl | among
      · exact differ reached
      · exact apart b among reached

/-- Events in either order make the same entries. -/
theorem add_add_perm : (Diagnostics.add a (Diagnostics.add b ds)).Perm
    (Diagnostics.add b (Diagnostics.add a ds)) := by
  induction ds with
  | nil =>
    by_cases same : a.sameEvent b
    · have back := Diagnostic.sameEvent_symm same
      simp [Diagnostics.add, same, back, Diagnostic.absorb_comm same]
    · have back : ¬ b.sameEvent a := fun back => same (Diagnostic.sameEvent_symm back)
      simpa [Diagnostics.add, same, back] using List.Perm.swap a b []
  | cons head rest ih =>
    by_cases counts_a : head.sameEvent a <;> by_cases counts_b : head.sameEvent b
    · simp [Diagnostics.add, counts_a, counts_b, @Diagnostic.absorb_right_comm head a b]
    · simp [Diagnostics.add, counts_a, counts_b]
    · simp [Diagnostics.add, counts_a, counts_b]
    · simpa [Diagnostics.add, counts_a, counts_b] using ih

theorem Unique.perm (unique : Unique ds) (perm : ds.Perm ds') : Unique ds' :=
  List.Pairwise.perm unique perm fun differ same => differ (Diagnostic.sameEvent_symm same)

theorem Unique.add_perm (unique : Unique ds) (perm : ds.Perm ds') :
    (Diagnostics.add d ds).Perm (Diagnostics.add d ds') := by
  induction perm with
  | nil => exact .refl _
  | @cons head rest rest' perm ih =>
    have later := ih (List.pairwise_cons.1 unique).2
    by_cases same : head.sameEvent d
    · simpa [Diagnostics.add, same] using perm
    · simpa [Diagnostics.add, same] using later
  | swap x y rest =>
    have apart : ¬ y.sameEvent x := (List.pairwise_cons.1 unique).1 x List.mem_cons_self
    by_cases counts_y : y.sameEvent d
    · have counts_x : ¬ x.sameEvent d := fun same =>
        apart (Diagnostic.sameEvent_trans counts_y (Diagnostic.sameEvent_symm same))
      simpa [Diagnostics.add, counts_x, counts_y] using List.Perm.swap x (y.absorb d) rest
    · by_cases counts_x : x.sameEvent d
      · simpa [Diagnostics.add, counts_x, counts_y] using List.Perm.swap (x.absorb d) y rest
      · simpa [Diagnostics.add, counts_x, counts_y] using
          List.Perm.swap x y (Diagnostics.add d rest)
  | trans first _ ih ih' => exact (ih unique).trans (ih' (unique.perm first))

/-! ## Many events -/

theorem merge_append : ds.merge (es ++ es') = (ds.merge es).merge es' :=
  List.foldl_append

theorem Unique.merge (unique : Unique ds) : Unique (ds.merge es) := by
  induction es generalizing ds with
  | nil => exact unique
  | cons e rest ih => exact ih unique.add

theorem Unique.merge_perm (unique : Unique ds) (perm : ds.Perm ds') :
    (ds.merge es).Perm (ds'.merge es) := by
  induction es generalizing ds ds' with
  | nil => exact perm
  | cons e rest ih => exact ih unique.add (unique.add_perm perm)

/-- Events in any order make the same entries. -/
theorem merge_perm (unique : Unique ds) (perm : es.Perm es') : (ds.merge es).Perm (ds.merge es') := by
  induction perm generalizing ds with
  | nil => exact .refl _
  | cons e _ ih => exact ih unique.add
  | swap x y rest => exact unique.add.add.merge_perm add_add_perm
  | trans _ _ ih ih' => exact (ih unique).trans (ih' unique)

theorem withoutRaces_add : withoutRaces (Diagnostics.add d ds) =
    if d.kind = .raceDetected then withoutRaces ds else Diagnostics.add d (withoutRaces ds) := by
  induction ds with
  | nil => by_cases race : d.kind = .raceDetected <;> simp [Diagnostics.add, withoutRaces, race]
  | cons head rest ih =>
    rw [withoutRaces, withoutRaces] at ih ⊢
    by_cases same : head.sameEvent d
    · have kind := (Diagnostic.sameEvent_iff.1 same).1
      have kept : (head.absorb d).kind = d.kind := kind
      by_cases race : d.kind = .raceDetected
      · simp [Diagnostics.add, same, kept, kind, race]
      · simp [Diagnostics.add, same, kept, kind, race]
    · by_cases race : d.kind = .raceDetected <;> by_cases race' : head.kind = .raceDetected <;>
        simpa [Diagnostics.add, same, race, race'] using ih

theorem withoutRaces_merge :
    withoutRaces (ds.merge es) = (withoutRaces ds).merge (withoutRaces es) := by
  induction es generalizing ds with
  | nil => rfl
  | cons e rest ih =>
    refine (@ih (Diagnostics.add e ds)).trans ?_
    rw [withoutRaces_add]
    by_cases race : e.kind = .raceDetected
    · rw [if_pos race]
      simp [withoutRaces, race]
    · rw [if_neg race]
      simp [withoutRaces, race, merge]

/-! ## Sorted entries -/

theorem sorted_normalize : ds.normalize.Pairwise fun a b => a.precedes b :=
  @List.pairwise_mergeSort _ Diagnostic.precedes (fun _ _ _ => Diagnostic.precedes_trans)
    (fun _ _ => Bool.or_eq_true_iff.2 Diagnostic.precedes_total) ds

theorem Unique.eq_of_sameEvent (unique : Unique ds) (member : a ∈ ds) (member' : b ∈ ds)
    (same : a.sameEvent b) : a = b := by
  induction ds with
  | nil => cases member
  | cons head rest ih =>
    obtain ⟨apart, later⟩ := List.pairwise_cons.1 unique
    rcases List.mem_cons.1 member with rfl | among <;>
      rcases List.mem_cons.1 member' with rfl | among'
    · rfl
    · exact (apart b among' same).elim
    · exact (apart a among (Diagnostic.sameEvent_symm same)).elim
    · exact ih later among among'

/-- Entries of different events are sorted in one way. -/
theorem Unique.eq_of_sorted (unique : Unique ds) (perm : ds.Perm ds')
    (sorted : ds.Pairwise fun a b => a.precedes b) (sorted' : ds'.Pairwise fun a b => a.precedes b) :
    ds = ds' :=
  perm.eq_of_pairwise (fun _ _ member member' before after =>
    unique.eq_of_sameEvent member (perm.mem_iff.2 member')
      (Diagnostic.sameEvent_of_precedes before after)) sorted sorted'

theorem Unique.normalize_eq (unique : Unique ds) (perm : ds.Perm ds') :
    ds.normalize = ds'.normalize := by
  have sorting := List.mergeSort_perm ds Diagnostic.precedes
  refine (unique.perm sorting.symm).eq_of_sorted ?_ sorted_normalize sorted_normalize
  exact (sorting.trans perm).trans (List.mergeSort_perm ds' _).symm

/-- Sorting first or leaving the races out first is the same. -/
theorem withoutRaces_normalize (unique : Unique ds) :
    withoutRaces ds.normalize = (withoutRaces ds).normalize := by
  have sorting := List.mergeSort_perm ds Diagnostic.precedes
  have kept : (withoutRaces ds.normalize).Sublist ds.normalize := List.filter_sublist
  have apart : Unique (withoutRaces ds.normalize) := (unique.perm sorting.symm).sublist kept
  refine apart.eq_of_sorted ?_ (sorted_normalize.sublist kept) sorted_normalize
  exact (sorting.filter _).trans (List.mergeSort_perm _ _).symm

/-! ## Counting -/

/-- Whether an event of a kind was counted. -/
def Mentions (ds : Diagnostics) (kind : ErrorKind) : Prop := ∃ d ∈ ds, d.kind = kind

variable {kind : ErrorKind}

theorem mentions_cons : Mentions (d :: ds) kind ↔ d.kind = kind ∨ ds.Mentions kind := by
  simp [Mentions]

theorem mentions_add : Mentions (Diagnostics.add d ds) kind ↔ d.kind = kind ∨ ds.Mentions kind := by
  induction ds with
  | nil => exact mentions_cons
  | cons head rest ih =>
    rw [Diagnostics.add, mentions_cons]
    split
    · next same =>
      have alike : head.kind = d.kind := (Diagnostic.sameEvent_iff.1 same).1
      have kept : (head.absorb d).kind = head.kind := rfl
      rw [mentions_cons, kept, alike, ← or_assoc, or_self]
    · rw [mentions_cons, ih]
      exact or_left_comm

theorem mentions_normalize : ds.normalize.Mentions kind ↔ ds.Mentions kind := by
  have sorting := List.mergeSort_perm ds Diagnostic.precedes
  simp only [Mentions, normalize, sorting.mem_iff]

theorem count_cons : count (d :: ds) kind = (if d.kind = kind then d.occurrences else 0) + ds.count kind := by
  by_cases same : d.kind = kind <;> simp [count, same]

theorem count_add : count (Diagnostics.add d ds) kind =
    (if d.kind = kind then d.occurrences else 0) + ds.count kind := by
  induction ds with
  | nil => exact count_cons
  | cons head rest ih =>
    rw [Diagnostics.add]
    split
    · next same =>
      have alike : head.kind = d.kind := (Diagnostic.sameEvent_iff.1 same).1
      have kept : (head.absorb d).kind = d.kind := alike
      have total : (head.absorb d).occurrences = head.occurrences + d.occurrences := rfl
      rw [count_cons, count_cons, kept, alike, total]
      split <;> omega
    · rw [count_cons, count_cons, ih]
      omega

theorem count_normalize : ds.normalize.count kind = ds.count kind := by
  have sorting := List.mergeSort_perm ds Diagnostic.precedes
  exact ((sorting.filter _).map _).sum_nat

theorem mentions_of_count (counted : 0 < ds.count kind) : ds.Mentions kind := by
  induction ds with
  | nil => cases counted
  | cons head rest ih =>
    rw [count_cons] at counted
    by_cases here : head.kind = kind
    · exact ⟨head, List.mem_cons_self, here⟩
    · rw [if_neg here, Nat.zero_add] at counted
      obtain ⟨d, member, same⟩ := ih counted
      exact ⟨d, List.mem_cons_of_mem head member, same⟩

end Diagnostics

end ComputeShader
