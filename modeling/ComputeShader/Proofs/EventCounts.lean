import Mathlib.Data.List.Induction
import ComputeShader.Proofs.DiagnosticOrder

/-! # Counted events

Diagnostics recorded one event at a time come to a count of the events: one entry for each kind and message
that occurs, with the number of its events and the lowest invocation among them. Neither the order of the
events nor how they were spread over several lists shows in the sorted entries.
-/

namespace ComputeShader

/-- Something that an invocation reports. -/
structure Event where
  kind : ErrorKind
  message : String
  me : InvocationId
  deriving DecidableEq, Repr

/-- The entry of an event that happened once. -/
def Event.entry (e : Event) : Diagnostic := ⟨e.kind, e.message, 1, e.me⟩

namespace Diagnostic

/-- Whether an entry is about events like this one. -/
def counts (d : Diagnostic) (e : Event) : Bool := d.sameEvent e.entry

/-- Whether an entry says of events how many of them it is about, and which is the lowest invocation that
reported one. -/
structure Tallies (d : Diagnostic) (events : List Event) : Prop where
  occurrences : d.occurrences = events.countP d.counts
  reported : ∃ e ∈ events, d.counts e ∧ e.me = d.firstInvocation
  lowest : ∀ e ∈ events, d.counts e → d.firstInvocation ≤ e.me

/-- The order of entries about different events: by kind, then by message. -/
def Before (a b : Diagnostic) : Prop :=
  a.kind.rank < b.kind.rank ∨ a.kind = b.kind ∧ a.message < b.message

variable {a b d : Diagnostic} {e : Event} {events : List Event}

theorem before_of_precedes (precedes : a.precedes b) (differ : ¬ a.sameEvent b) : a.Before b := by
  rcases precedes_iff.1 precedes with below | ⟨kind, le⟩
  · exact .inl below
  · refine .inr ⟨kind, ?_⟩
    by_contra not_less
    have message := String.le_antisymm le (String.not_lt.1 not_less)
    exact differ (sameEvent_iff.2 ⟨kind, message⟩)

theorem counts_of_sameEvent (same : a.sameEvent b) : a.counts = b.counts := by
  obtain ⟨kind, message⟩ := sameEvent_iff.1 same
  funext e
  rw [counts, counts, sameEvent, sameEvent, kind, message]

theorem countP_snoc : (events ++ [e]).countP d.counts =
    events.countP d.counts + if d.counts e then 1 else 0 := by
  rw [List.countP_append, List.countP_singleton]

/-- An event of another kind or message makes no difference to an entry. -/
theorem Tallies.skip (before : d.Tallies events) (other : ¬ d.counts e) : d.Tallies (events ++ [e]) := by
  refine ⟨?_, ?_, fun e' member counted => ?_⟩
  · rw [countP_snoc, if_neg other, before.occurrences, Nat.add_zero]
  · obtain ⟨e', member, reported⟩ := before.reported
    exact ⟨e', List.mem_append_left _ member, reported⟩
  · rcases List.mem_append.1 member with earlier | last
    · exact before.lowest e' earlier counted
    · exact (other (List.mem_singleton.1 last ▸ counted)).elim

/-- One more event of its kind and message is counted in the entry that there is. -/
theorem Tallies.absorb (before : d.Tallies events) (counted : d.counts e) :
    (d.absorb e.entry).Tallies (events ++ [e]) := by
  have alike : (d.absorb e.entry).counts = d.counts := rfl
  refine ⟨?_, ?_, fun e' member counted' => ?_⟩
  · rw [alike, countP_snoc, if_pos counted, ← before.occurrences]
    rfl
  · obtain ⟨e', member, counted', first⟩ := before.reported
    rcases Nat.le_total d.firstInvocation e.me with le | le
    · exact ⟨e', List.mem_append_left _ member, counted', first.trans (Nat.min_eq_left le).symm⟩
    · exact ⟨e, List.mem_append_right _ (List.mem_singleton_self e), counted,
        (Nat.min_eq_right le).symm⟩
  · rcases List.mem_append.1 member with earlier | last
    · exact Nat.le_trans (Nat.min_le_left ..) (before.lowest e' earlier counted')
    · exact List.mem_singleton.1 last ▸ Nat.min_le_right ..

/-- The first event of its kind and message gets an entry of its own. -/
theorem tallies_entry (new : ∀ e' ∈ events, ¬ e.entry.counts e') : e.entry.Tallies (events ++ [e]) := by
  have counted : e.entry.counts e := sameEvent_iff.2 ⟨rfl, rfl⟩
  refine ⟨?_, ⟨e, List.mem_append_right _ (List.mem_singleton_self e), counted, rfl⟩, ?_⟩
  · rw [countP_snoc, if_pos counted, List.countP_eq_zero.2 new]
    rfl
  · intro e' member counted'
    rcases List.mem_append.1 member with earlier | last
    · exact (new e' earlier counted').elim
    · exact List.mem_singleton.1 last ▸ Nat.le_refl _

theorem absorb_assoc (c : Diagnostic) : (a.absorb b).absorb c = a.absorb (b.absorb c) := by
  simp [absorb, Nat.add_assoc, Nat.min_assoc]

/-- Entries of the same event that tally the same events are equal. -/
theorem Tallies.unique (tallies : a.Tallies events) (tallies' : b.Tallies events)
    (same : a.sameEvent b) : a = b := by
  have alike := counts_of_sameEvent same
  obtain ⟨kind, message⟩ := sameEvent_iff.1 same
  have occurrences : a.occurrences = b.occurrences := by
    rw [tallies.occurrences, tallies'.occurrences, alike]
  have first : a.firstInvocation = b.firstInvocation := by
    obtain ⟨e, member, counted, reported⟩ := tallies.reported
    obtain ⟨e', member', counted', reported'⟩ := tallies'.reported
    refine Nat.le_antisymm ?_ ?_
    · exact reported' ▸ tallies.lowest e' member' (alike ▸ counted')
    · exact reported ▸ tallies'.lowest e member (alike ▸ counted)
  cases a
  cases b
  cases kind
  cases message
  cases occurrences
  cases first
  rfl

end Diagnostic

namespace Diagnostics

variable {ds es es' : Diagnostics} {a d : Diagnostic} {e : Event} {events more : List Event}
  {kind : ErrorKind}

/-- The diagnostics of events recorded one by one. -/
def recorded (events : List Event) : Diagnostics :=
  events.foldl (fun ds e => ds.record e.kind e.message e.me) []

theorem recorded_eq_merge : recorded events = merge [] (events.map Event.entry) := by
  rw [recorded, merge, List.foldl_map]
  rfl

theorem recorded_snoc : recorded (events ++ [e]) = add e.entry (recorded events) := by
  rw [recorded, List.foldl_append]
  rfl

theorem unique_nil : Unique [] := List.Pairwise.nil

theorem unique_recorded : Unique (recorded events) := recorded_eq_merge ▸ unique_nil.merge

/-! ## The entries -/

/-- After an entry was added, each one is as before, has absorbed it or is the new one. -/
theorem Unique.of_mem_add (unique : Unique ds) (member : a ∈ Diagnostics.add d ds) :
    (a ∈ ds ∧ ¬ a.sameEvent d) ∨ (∃ b ∈ ds, b.sameEvent d ∧ a = b.absorb d) ∨
      (a = d ∧ ∀ b ∈ ds, ¬ b.sameEvent d) := by
  induction ds with
  | nil => exact .inr (.inr ⟨List.mem_singleton.1 member, fun b none => (List.not_mem_nil none).elim⟩)
  | cons head rest ih =>
    obtain ⟨apart, later⟩ := List.pairwise_cons.1 unique
    rw [Diagnostics.add] at member
    split at member
    · next counted =>
      rcases List.mem_cons.1 member with here | there
      · exact .inr (.inl ⟨head, List.mem_cons_self, counted, here⟩)
      · refine .inl ⟨List.mem_cons_of_mem _ there, fun same => apart a there ?_⟩
        exact Diagnostic.sameEvent_trans counted (Diagnostic.sameEvent_symm same)
    · next other =>
      rcases List.mem_cons.1 member with rfl | there
      · exact .inl ⟨List.mem_cons_self, other⟩
      · rcases ih later there with ⟨kept, differ⟩ | ⟨b, held, same, absorbed⟩ | ⟨new, none⟩
        · exact .inl ⟨List.mem_cons_of_mem _ kept, differ⟩
        · exact .inr (.inl ⟨b, List.mem_cons_of_mem _ held, same, absorbed⟩)
        · exact .inr (.inr ⟨new, List.forall_mem_cons.2 ⟨other, none⟩⟩)

/-- No event is lost when an entry is added. -/
theorem exists_mem_add (member : a ∈ d :: ds) : ∃ b ∈ add d ds, b.sameEvent a := by
  have refl (c : Diagnostic) : c.sameEvent c := Diagnostic.sameEvent_iff.2 ⟨rfl, rfl⟩
  induction ds with
  | nil => exact ⟨a, member, refl a⟩
  | cons head rest ih =>
    rw [add]
    split
    · next counted =>
      rcases List.mem_cons.1 member with rfl | held
      · exact ⟨head.absorb a, List.mem_cons_self, counted⟩
      · rcases List.mem_cons.1 held with rfl | there
        · exact ⟨a.absorb d, List.mem_cons_self, refl a⟩
        · exact ⟨a, List.mem_cons_of_mem _ there, refl a⟩
    · have elsewhere (among : a ∈ d :: rest) : ∃ b ∈ head :: add d rest, b.sameEvent a := by
        obtain ⟨b, held, same⟩ := ih among
        exact ⟨b, List.mem_cons_of_mem _ held, same⟩
      rcases List.mem_cons.1 member with rfl | held
      · exact elsewhere List.mem_cons_self
      · rcases List.mem_cons.1 held with rfl | there
        · exact ⟨a, List.mem_cons_self, refl a⟩
        · exact elsewhere (List.mem_cons_of_mem _ there)

theorem exists_mem_recorded (member : e ∈ events) : ∃ d ∈ recorded events, d.counts e := by
  induction events using List.reverseRecOn with
  | nil => cases member
  | append_singleton events e' ih =>
    rw [recorded_snoc]
    rcases List.mem_append.1 member with earlier | last
    · obtain ⟨d, held, counted⟩ := ih earlier
      obtain ⟨b, kept, same⟩ := exists_mem_add (List.mem_cons_of_mem e'.entry held)
      exact ⟨b, kept, Diagnostic.sameEvent_trans same counted⟩
    · obtain rfl := List.mem_singleton.1 last
      exact exists_mem_add List.mem_cons_self

theorem tallies_of_mem_recorded (member : d ∈ recorded events) : d.Tallies events := by
  induction events using List.reverseRecOn generalizing d with
  | nil => cases member
  | append_singleton events e ih =>
    rw [recorded_snoc] at member
    rcases unique_recorded.of_mem_add member with ⟨kept, other⟩ | ⟨b, held, same, rfl⟩ | ⟨rfl, none⟩
    · exact (ih kept).skip other
    · exact (ih held).absorb same
    · refine Diagnostic.tallies_entry fun e' earlier counted => ?_
      obtain ⟨b, held, counted'⟩ := exists_mem_recorded earlier
      exact none b held (Diagnostic.sameEvent_trans counted' (Diagnostic.sameEvent_symm counted))

/-- There is one entry for each kind and message that occurs, and it tallies the events. -/
theorem mem_recorded_iff : d ∈ recorded events ↔ d.Tallies events := by
  refine ⟨tallies_of_mem_recorded, fun tallies => ?_⟩
  obtain ⟨e, member, counted, -⟩ := tallies.reported
  obtain ⟨d', held, counted'⟩ := exists_mem_recorded member
  have same := Diagnostic.sameEvent_trans counted (Diagnostic.sameEvent_symm counted')
  exact tallies.unique (tallies_of_mem_recorded held) same ▸ held

/-- Sorted entries of different events follow each other strictly. -/
theorem Unique.before_normalize (unique : Unique ds) : ds.normalize.Pairwise Diagnostic.Before := by
  have sorting := List.mergeSort_perm ds Diagnostic.precedes
  have apart : Unique ds.normalize := unique.perm sorting.symm
  exact (sorted_normalize.and apart).imp fun both => Diagnostic.before_of_precedes both.1 both.2

theorem mem_normalize : d ∈ ds.normalize ↔ d ∈ ds := (List.mergeSort_perm ds _).mem_iff

/-! ## Counting -/

theorem count_merge : (ds.merge es).count kind = ds.count kind + es.count kind := by
  induction es generalizing ds with
  | nil => rfl
  | cons e rest ih =>
    refine (@ih (Diagnostics.add e ds)).trans ?_
    rw [count_add, count_cons]
    omega

theorem count_entries : count (events.map Event.entry) kind = events.countP (·.kind = kind) := by
  induction events with
  | nil => rfl
  | cons e rest ih =>
    rw [List.map_cons, count_cons, ih, List.countP_cons]
    by_cases same : e.kind = kind
    · simp [Event.entry, same, Nat.add_comm]
    · simp [Event.entry, same]

theorem count_recorded : (recorded events).count kind = events.countP (·.kind = kind) := by
  rw [recorded_eq_merge, count_merge, count_entries]
  exact Nat.zero_add _

/-! ## Merging -/

theorem add_add_of_sameEvent (same : a.sameEvent d) :
    Diagnostics.add d (Diagnostics.add a ds) = Diagnostics.add (a.absorb d) ds := by
  induction ds with
  | nil => simp [Diagnostics.add, same]
  | cons head rest ih =>
    by_cases counted : head.sameEvent a
    · have reached : head.sameEvent d := Diagnostic.sameEvent_trans counted same
      have reached' : head.sameEvent (a.absorb d) := counted
      simp [Diagnostics.add, counted, reached, reached', Diagnostic.absorb_assoc]
    · have other : ¬ head.sameEvent d := fun reached =>
        counted (Diagnostic.sameEvent_trans reached (Diagnostic.sameEvent_symm same))
      have other' : ¬ head.sameEvent (a.absorb d) := counted
      simp [Diagnostics.add, counted, other, other', ih]

/-- An entry may as well be merged last. -/
theorem Unique.add_merge (unique : Unique ds) :
    ((Diagnostics.add d ds).merge es).Perm (Diagnostics.add d (ds.merge es)) := by
  have last : (ds.merge (d :: es)).Perm (ds.merge (es ++ [d])) :=
    Diagnostics.merge_perm unique (List.perm_append_singleton d es).symm
  rw [merge_append] at last
  exact last

/-- An entry may be counted before or after a merge. -/
theorem Unique.merge_add (unique : Unique ds) :
    (ds.merge (Diagnostics.add d es)).Perm (Diagnostics.add d (ds.merge es)) := by
  induction es generalizing ds with
  | nil => exact .refl _
  | cons e rest ih =>
    by_cases same : e.sameEvent d
    · have counted : Diagnostics.add d (e :: rest) = e.absorb d :: rest := if_pos same
      have absorbed : ds.merge (e.absorb d :: rest) =
          (Diagnostics.add d (Diagnostics.add e ds)).merge rest := by
        rw [add_add_of_sameEvent same]
        rfl
      rw [counted, absorbed]
      exact unique.add.add_merge
    · have passed : Diagnostics.add d (e :: rest) = e :: Diagnostics.add d rest := if_neg same
      rw [passed]
      exact ih unique.add

/-- Merging lists one after the other is merging what they come to. -/
theorem Unique.merge_merge (unique : Unique ds) :
    (ds.merge (es.merge es')).Perm ((ds.merge es).merge es') := by
  induction es' generalizing es with
  | nil => exact .refl _
  | cons e rest ih => exact (@ih (Diagnostics.add e es)).trans (unique.merge.merge_perm unique.merge_add)

theorem merge_recorded_perm :
    ((recorded events).merge (recorded more)).Perm (recorded (events ++ more)) := by
  have appended : recorded (events ++ more) = (recorded events).merge (more.map Event.entry) := by
    rw [recorded_eq_merge, recorded_eq_merge, List.map_append, merge_append]
  rw [appended, @recorded_eq_merge more]
  exact unique_recorded.merge_merge

/-! ## The count of events -/

theorem recording_order_immaterial (events : List Event) :
    (∀ events', events.Perm events' → (recorded events').normalize = (recorded events).normalize) ∧
    (recorded events).normalize.Pairwise Diagnostic.Before ∧
    (∀ d, d ∈ (recorded events).normalize ↔ d.Tallies events) ∧
    (∀ kind, (recorded events).count kind = events.countP (·.kind = kind) ∧
      (recorded events).normalize.count kind = events.countP (·.kind = kind)) ∧
    ∀ more, ((recorded events).merge (recorded more)).normalize =
      (recorded (events ++ more)).normalize := by
  refine ⟨fun events' perm => ?_, unique_recorded.before_normalize, fun d => ?_, fun kind => ?_,
    fun more => ?_⟩
  · rw [recorded_eq_merge, recorded_eq_merge]
    exact unique_nil.merge.normalize_eq (merge_perm unique_nil (perm.symm.map _))
  · rw [mem_normalize, mem_recorded_iff]
  · exact ⟨count_recorded, count_normalize.trans count_recorded⟩
  · exact unique_recorded.merge.normalize_eq merge_recorded_perm

/-- Four events of two kinds and messages. -/
def clampedTwice : List Event :=
  [⟨.outOfBounds, "clamped", 7⟩, ⟨.stepBudgetExceeded, "budget", 1⟩, ⟨.outOfBounds, "clamped", 3⟩,
    ⟨.outOfBounds, "discarded", 5⟩]

theorem recording_order_immaterial_clamped :
    clampedTwice.Perm clampedTwice.reverse ∧
      (recorded clampedTwice.reverse).normalize = (recorded clampedTwice).normalize ∧
      (recorded clampedTwice).count .outOfBounds = 3 ∧
      (⟨.outOfBounds, "clamped", 2, 3⟩ : Diagnostic) ∈ (recorded clampedTwice).normalize := by
  have perm : clampedTwice.Perm clampedTwice.reverse := clampedTwice.reverse_perm.symm
  obtain ⟨immaterial, -, members, counts, -⟩ := recording_order_immaterial clampedTwice
  refine ⟨perm, immaterial _ perm, (counts .outOfBounds).1, (members _).2 ⟨?_, ?_, ?_⟩⟩
  · rfl
  · exact ⟨⟨.outOfBounds, "clamped", 3⟩, by decide, by decide, rfl⟩
  · decide

end Diagnostics

end ComputeShader
