import ComputeShader.Proofs.RaceDetection

/-! # What a conflict says

The first conflict of an element is told by its log, which up to then summarizes the history in full.
So the invocation that it names beside the current one made the access that it is blamed for. Only
for stores of different patterns this needs more than the summary, because the log keeps the last
pattern alone: until a store is reported, everyone who stored has stored that one.
-/

namespace ComputeShader

namespace ElementLog

variable {log : ElementLog} {me o : InvocationId} {t : Touch} {kind : RaceKind}

/-- What the log holds against another invocation at a touch that is reported. -/
def Blames (log : ElementLog) (me o : InvocationId) : Touch → RaceKind → Prop
  | .atomic, .mixed => o ∈ log.plain
  | .read, .mixed | .write _, .mixed => o ∈ log.atomic
  | .read, .readWrite => me ∉ log.writers ∧ o ∈ log.changers
  | .write bits, .writeWrite => (∃ last, log.written = some last ∧ last ≠ bits) ∧ o ∈ log.writers
  | .write bits, .readWrite => bits ≠ log.baseline ∧ o ∈ log.blindReaders
  | .atomic, _ | .read, .writeWrite => False

theorem ne_of_map_other? {ids : InvocationSet} {k : RaceKind}
    (found : (ids.other? me).map (·, k) = some (o, kind)) : o ≠ me ∧ o ∈ ids ∧ kind = k := by
  obtain ⟨rival, other, same⟩ := Option.map_eq_some_iff.1 found
  obtain ⟨rfl, rfl⟩ := Prod.mk.inj same
  exact ⟨(InvocationSet.other?_eq_some other).2, (InvocationSet.other?_eq_some other).1, rfl⟩

/-- A touch is reported with another invocation that the log holds something against. -/
theorem blames_of_observe (reported : (log.observe t me).2 = some (o, kind)) :
    o ≠ me ∧ log.Blames me o t kind := by
  cases t with
  | atomic =>
    obtain ⟨differ, plain, rfl⟩ := ne_of_map_other? reported
    exact ⟨differ, plain⟩
  | read =>
    simp only [observe] at reported
    split at reported
    · next rival other =>
      cases reported
      exact ⟨(InvocationSet.other?_eq_some other).2, (InvocationSet.other?_eq_some other).1⟩
    · split at reported
      · cases reported
      · next stranger =>
        obtain ⟨differ, changer, rfl⟩ := ne_of_map_other? reported
        exact ⟨differ, fun mine => stranger (List.contains_iff_mem.2 mine), changer⟩
  | write bits =>
    simp only [observe] at reported
    split at reported
    · next rival other =>
      cases reported
      exact ⟨(InvocationSet.other?_eq_some other).2, (InvocationSet.other?_eq_some other).1⟩
    · split at reported
      · next rival other =>
        cases reported
        split at other
        · next unlike =>
          obtain ⟨last, written, unlike⟩ := Option.any_eq_true _ _ |>.1 unlike
          have rival := InvocationSet.other?_eq_some other
          exact ⟨rival.2, ⟨last, written, by simpa using unlike⟩, rival.1⟩
        · cases other
      · split at reported
        · cases reported
        · next change =>
          obtain ⟨differ, reader, rfl⟩ := ne_of_map_other? reported
          exact ⟨differ, change, reader⟩

end ElementLog

namespace History

variable {h : History} {i j me o : InvocationId} {t : Touch} {kind : RaceKind}
  {baseline last : List UInt32}

/-- Whether one invocation and another one, in these roles, race on an element in a way. -/
def RaceOf (baseline : List UInt32) (h : History) (i j : InvocationId) : RaceKind → Prop
  | .mixed => h.Atomic i ∧ h.Plain j
  | .writeWrite => ∃ x y, (i, .write x) ∈ h ∧ (j, .write y) ∈ h ∧ x ≠ y
  | .readWrite => h.ReadsBlind i ∧ h.Changes baseline j

/-- Everyone who has stored to a settled element has stored the last pattern. -/
theorem Settled.stored_last (settled : h.Settled) (final : h.lastStore = some last)
    (wrote : h.Writes o) : (o, .write last) ∈ h := by
  obtain ⟨owner, alone, repeated, stored, own, same⟩ := settled
  have latest := lastStore_of_repeated stored same
  rw [final] at latest
  obtain ⟨x, member⟩ := writes_iff.1 wrote
  refine mem_stores.1 ?_
  rcases List.mem_append.1 (stored ▸ member) with early | late
  · -- The owner stored the last pattern of the part that is its own.
    obtain rfl : o = owner := own _ early
    obtain ⟨s, ending, pattern⟩ := Option.map_eq_some_iff.1 latest.symm
    have inside := List.mem_of_getLast? ending
    obtain rfl : s = (o, last) := Prod.ext (own s inside) pattern
    exact stored ▸ List.mem_append_left _ inside
  · obtain rfl : x = last := Option.some.inj ((same _ late).symm.trans latest.symm)
    exact member

/-- What the log of an unreported history is held against an invocation at the next touch makes the
two of them race. -/
theorem raceOf_of_blames (silent : (ElementLog.fresh baseline).Silent h)
    (blamed : ((ElementLog.fresh baseline).after h).Blames me o t kind) :
    RaceOf baseline (h ++ [(me, t)]) me o kind ∨ RaceOf baseline (h ++ [(me, t)]) o me kind := by
  have known := ElementLog.summarizes_of_silent silent
  have settled := (ElementLog.silent_iff.1 silent).2.2
  cases t with
  | atomic =>
    cases kind with
    | mixed =>
      have plain := (known.plain o).1 blamed
      exact .inl ⟨atomic_snoc.2 (.inr ⟨rfl, rfl⟩), plain_snoc.2 (.inl plain)⟩
    | writeWrite | readWrite => exact blamed.elim
  | read =>
    cases kind with
    | mixed =>
      have atomic := (known.atomic o).1 blamed
      exact .inr ⟨atomic_snoc.2 (.inl atomic), plain_snoc.2 (.inr ⟨rfl, nofun⟩)⟩
    | writeWrite => exact blamed.elim
    | readWrite =>
      have stranger : ¬ h.Writes me := fun wrote => blamed.1 ((known.writers me).2 wrote)
      have changes := (known.changers o).1 blamed.2
      exact .inl ⟨readsBlind_snoc.2 (.inr ⟨rfl, rfl, stranger⟩), changes_snoc.2 (.inl changes)⟩
  | write bits =>
    cases kind with
    | mixed =>
      have atomic := (known.atomic o).1 blamed
      exact .inr ⟨atomic_snoc.2 (.inl atomic), plain_snoc.2 (.inr ⟨rfl, nofun⟩)⟩
    | writeWrite =>
      obtain ⟨⟨last, written, unlike⟩, wrote⟩ := blamed
      have stored := settled.stored_last (known.written ▸ written) ((known.writers o).1 wrote)
      exact .inr ⟨last, bits, List.mem_append_left _ stored, by simp, unlike⟩
    | readWrite =>
      obtain ⟨change, reader⟩ := blamed
      have blind := (known.blindReaders o).1 reader
      exact .inr ⟨readsBlind_snoc.2 (.inl blind),
        changes_snoc.2 (.inr ⟨rfl, bits, rfl, known.baseline_eq ▸ change⟩)⟩

end History

/-- Whether the two invocations of a conflict, the lower one first, race in the way it says. -/
def Conflict.Genuine (baseline : List UInt32) (h : History) (c : Conflict) : Prop :=
  c.first < c.second ∧
    (h.RaceOf baseline c.first c.second c.kind ∨ h.RaceOf baseline c.second c.first c.kind)

namespace Observation

variable {place : Location} {a : Observation} {before rest : List Observation}

theorem history_snoc (same : a.place = place) :
    history place (before ++ [a]) = history place before ++ [(a.me, a.touch)] := by
  simp [history, same]

theorem baseline_snoc (same : a.place = place) : baseline place (before ++ [a]) =
    if history place before = [] then a.current else baseline place before := by
  simp only [baseline, history, List.find?_append, List.map_eq_nil_iff]
  split
  · next none =>
    rw [List.find?_eq_none.2 (by simpa [List.filter_eq_nil_iff] using none)]
    simp [same]
  · next some =>
    cases found : before.find? (fun b => b.place = place) with
    | none => exact (some (by simpa [List.filter_eq_nil_iff] using found)).elim
    | some b => rfl

/-- What comes after an access to an element does not move its baseline. -/
theorem baseline_of_reached (same : a.place = place) :
    baseline place (before ++ a :: rest) = baseline place (before ++ [a]) := by
  simp [baseline, List.find?_append, same]

end Observation

namespace AccessLog

variable {l : AccessLog} {place : Location} {accesses before : List Observation}
  {a b : Observation} {c : Conflict}

theorem observe_eq_some {current : List UInt32} {t : Touch} {me : InvocationId}
    (reported : (l.observe place current t me).2 = some c) :
    ∃ o kind, ((l.entry place current).observe t me).2 = some (o, kind) ∧
      c = ⟨place.resource, place.index, min o me, max o me, kind⟩ := by
  obtain ⟨⟨o, kind⟩, rival, rfl⟩ := Option.map_eq_some_iff.1 reported
  exact ⟨o, kind, rival, rfl⟩

/-- Whether an access that follows others is the first one of its element to be reported. -/
def FirstReport (l : AccessLog) (before : List Observation) (a : Observation) (c : Conflict) :
    Prop :=
  (∀ c ∈ l.conflicts before, c.place ≠ a.place) ∧
    ((l.after before).observe a.place a.current a.touch a.me).2 = some c

/-- An access that is not reported for its own element may come before. -/
theorem FirstReport.cons (reported : (l.observe a.place a.current a.touch a.me).1.FirstReport before b c)
    (quiet : ∀ c ∈ (l.observe a.place a.current a.touch a.me).2, c.place ≠ b.place) :
    l.FirstReport (a :: before) b c := by
  refine ⟨fun c member => ?_, reported.2⟩
  rcases List.mem_append.1 member with now | later
  · exact quiet c (Option.mem_toList.1 now)
  · exact reported.1 c later

/-- The first conflict of an element is the answer to one of the accesses to it. -/
theorem exists_firstReport
    (first : (l.conflicts accesses).find? (fun c => c.place = place) = some c) :
    ∃ before a rest, accesses = before ++ a :: rest ∧ a.place = place ∧ l.FirstReport before a c := by
  induction accesses generalizing l with
  | nil => cases first
  | cons a rest ih =>
    rw [conflicts, List.find?_append, Option.or_eq_some_iff] at first
    rcases first with now | ⟨quiet, later⟩
    · have reported := Option.mem_toList.1 (List.mem_of_find?_eq_some now)
      have here : c.place = place := by simpa using List.find?_some now
      exact ⟨[], a, rest, rfl, (mem_observe reported).symm.trans here, by simp [conflicts], reported⟩
    · obtain ⟨before, b, after, rfl, here, reported⟩ := ih later
      have elsewhere : ∀ c ∈ (l.observe a.place a.current a.touch a.me).2, c.place ≠ b.place := by
        simpa [List.find?_eq_none, here] using quiet
      exact ⟨a :: before, b, after, rfl, here, reported.cons elsewhere⟩

/-- What the log of an element holds when the next access to it comes. -/
theorem entry_after : (after {} before).entry a.place a.current =
    (ElementLog.fresh (Observation.baseline a.place (before ++ [a]))).after
      (Observation.history a.place before) := by
  rw [entry, get?_after, Observation.baseline_snoc rfl]
  split
  · next none => rw [none]; rfl
  · rfl

/-- As long as no access to an element is reported, its log is one of an unreported history. -/
theorem silent_of_firstReport (first : FirstReport {} before a c) :
    (ElementLog.fresh (Observation.baseline a.place (before ++ [a]))).Silent
      (Observation.history a.place before) := by
  rw [Observation.baseline_snoc rfl]
  split
  · next none =>
    rw [none]
    exact ElementLog.silent_nil
  · exact quiet_iff_silent.1 first.1

/-- The first conflict of an element names two invocations that race in the way it says, one of them
the one that makes the access. -/
theorem FirstReport.genuine (first : FirstReport {} before a c) :
    (c.first = a.me ∨ c.second = a.me) ∧
      c.Genuine (Observation.baseline a.place (before ++ [a]))
        (Observation.history a.place (before ++ [a])) := by
  obtain ⟨o, kind, reported, rfl⟩ := observe_eq_some first.2
  rw [entry_after] at reported
  obtain ⟨differ, blamed⟩ := ElementLog.blames_of_observe reported
  have raced := History.raceOf_of_blames (silent_of_firstReport first) blamed
  rw [← Observation.history_snoc rfl] at raced
  rcases Nat.lt_or_gt_of_ne differ with below | above
  · rw [Conflict.Genuine, Nat.min_eq_left (Nat.le_of_lt below), Nat.max_eq_right (Nat.le_of_lt below)]
    exact ⟨.inr rfl, below, raced.symm⟩
  · rw [Conflict.Genuine, Nat.min_eq_right (Nat.le_of_lt above), Nat.max_eq_left (Nat.le_of_lt above)]
    exact ⟨.inl rfl, above, raced⟩

/-- The first conflict of an element is a race of the two invocations that it names, one of which
makes the access that is reported; and stores of one pattern, with loads by those who have stored,
are reported in no order. -/
theorem first_conflict_genuine (place : Location) (accesses : List Observation) :
    (∀ c, (conflicts {} accesses).find? (fun c => c.place = place) = some c →
      ∃ before a rest, accesses = before ++ a :: rest ∧ a.place = place ∧
        FirstReport {} before a c ∧ (c.first = a.me ∨ c.second = a.me) ∧
        c.Genuine (Observation.baseline place accesses)
          (Observation.history place (before ++ [a]))) ∧
    ∀ bits, (∀ visit ∈ Observation.history place accesses,
        visit.2 = .read ∨ visit.2 = .write bits) →
      (∀ i, ¬ (Observation.history place accesses).ReadsBlind i) →
      ∀ c ∈ conflicts {} accesses, c.place ≠ place := by
  refine ⟨fun c found => ?_, fun bits plain sighted c member here => ?_⟩
  · obtain ⟨before, a, rest, rfl, rfl, first⟩ := exists_firstReport found
    rw [Observation.baseline_of_reached rfl]
    exact ⟨before, a, rest, rfl, rfl, first, first.genuine⟩
  · rcases reported_iff.1 ⟨c, member, here⟩ with mixed | readWrite | ⟨writeWrite, -⟩
    · obtain ⟨i, j, -, atomic, -⟩ := mixed
      exact (plain _ atomic).elim nofun nofun
    · obtain ⟨i, j, -, -, blind⟩ := readWrite
      exact sighted j blind
    · obtain ⟨i, j, x, y, -, first, second, unlike⟩ := writeWrite
      obtain rfl : x = bits := by simpa using plain _ first
      obtain rfl : y = x := by simpa using plain _ second
      exact unlike rfl

/-- Of three invocations the first two store one pattern and the third another one; the conflict names
the third and one that stored what it did not. Stores of one pattern stay unreported. -/
theorem first_conflict_genuine_third_store :
    let place : Location := ⟨.buffer 0, 0⟩
    let store (current bits : UInt32) (me : InvocationId) : Observation :=
      ⟨place, [current], .write [bits], me⟩
    let accesses := [store 0 1 4, store 1 1 2, store 1 3 7]
    let alike := [store 0 1 4, ⟨place, [1], .read, 4⟩, store 1 1 2]
    let c : Conflict := ⟨.buffer 0, 0, 2, 7, .writeWrite⟩
    ((conflicts {} accesses).find? (fun c => c.place = place) = some c ∧
      ∃ before a rest, accesses = before ++ a :: rest ∧ a.place = place ∧
        FirstReport {} before a c ∧ (c.first = a.me ∨ c.second = a.me) ∧
        c.Genuine (Observation.baseline place accesses)
          (Observation.history place (before ++ [a]))) ∧
    ∀ c ∈ conflicts {} alike, c.place ≠ place := by
  intro place store accesses alike c
  have found : (conflicts {} accesses).find? (fun c => c.place = place) = some c := by decide
  refine ⟨⟨found, (first_conflict_genuine place accesses).1 c found⟩, ?_⟩
  refine (first_conflict_genuine place alike).2 [1] (by decide) fun i blind => ?_
  have touches : Observation.history place alike =
      (([] ++ [(4, .write [1])]) ++ [(4, .read)]) ++ [(2, .write [1])] := by decide
  rw [touches, History.readsBlind_snoc, History.readsBlind_snoc, History.readsBlind_snoc] at blind
  simp [History.ReadsBlind, History.Writes] at blind

end AccessLog

end ComputeShader
