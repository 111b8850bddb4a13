import ComputeShader.Proofs.ElementHistory

/-! # What race detection reports

Of the three ways to race, mixing atomics with plain accesses and changing what another invocation
reads are reported in every order of accesses. Storing different patterns is not: the log keeps only
the pattern stored last, so the stores of one invocation that came before any other invocation's are
compared with nothing once it has overwritten them. `silent_iff` says what is left unreported.
-/

namespace ComputeShader

namespace History

/-- One invocation used atomics and another plain loads or stores. -/
def Mixed (h : History) : Prop := ∃ i j, i ≠ j ∧ h.Atomic i ∧ h.Plain j

/-- One invocation stored something other than the baseline and another read without having stored
first. -/
def ReadWrite (baseline : List UInt32) (h : History) : Prop :=
  ∃ i j, i ≠ j ∧ h.Changes baseline i ∧ h.ReadsBlind j

/-- Two invocations stored different patterns. -/
def WriteWrite (h : History) : Prop :=
  ∃ i j x y, i ≠ j ∧ (i, .write x) ∈ h ∧ (j, .write y) ∈ h ∧ x ≠ y

/-- One invocation stored alone, and after its last pattern nobody stored another one. -/
def Settled (h : History) : Prop :=
  ∃ owner alone repeated, h.stores = alone ++ repeated ∧ (∀ s ∈ alone, s.1 = owner) ∧
    ∀ s ∈ repeated, (alone.getLast?).map Prod.snd = some s.2

/-- Two histories in which every invocation makes the same touches in the same order. -/
def SameScripts (h h' : History) : Prop :=
  ∀ i, h.filter (fun visit => visit.1 = i) = h'.filter (fun visit => visit.1 = i)

variable {h h' : History} {i : InvocationId} {t : Touch} {baseline bits : List UInt32}

/-! ## One more touch -/

theorem not_mixed_snoc : ¬ Mixed (h ++ [(i, t)]) ↔ ¬ h.Mixed ∧
    (t = .atomic → ∀ o, h.Plain o → o = i) ∧ (t ≠ .atomic → ∀ o, h.Atomic o → o = i) := by
  constructor
  · refine fun unmixed => ⟨?_, ?_, ?_⟩
    · rintro ⟨a, b, differ, atomic, plain⟩
      exact unmixed ⟨a, b, differ, atomic_snoc.2 (.inl atomic), plain_snoc.2 (.inl plain)⟩
    · intro kind o plain
      by_contra differ
      exact unmixed ⟨i, o, Ne.symm differ, atomic_snoc.2 (.inr ⟨rfl, kind⟩),
        plain_snoc.2 (.inl plain)⟩
    · intro kind o atomic
      by_contra differ
      exact unmixed ⟨o, i, differ, atomic_snoc.2 (.inl atomic), plain_snoc.2 (.inr ⟨rfl, kind⟩)⟩
  · rintro ⟨unmixed, atomics, plains⟩ ⟨a, b, differ, used, touched⟩
    rcases atomic_snoc.1 used with atomic | ⟨rfl, rfl⟩ <;>
      rcases plain_snoc.1 touched with plain | ⟨rfl, kind⟩
    · exact unmixed ⟨a, b, differ, atomic, plain⟩
    · exact differ (plains kind a atomic)
    · exact differ (atomics rfl b plain).symm
    · exact kind rfl

theorem not_readWrite_snoc : ¬ ReadWrite baseline (h ++ [(i, t)]) ↔ ¬ h.ReadWrite baseline ∧
    (t = .read → h.Writes i ∨ ∀ o, h.Changes baseline o → o = i) ∧
    (∀ bits, t = .write bits → bits = baseline ∨ ∀ o, h.ReadsBlind o → o = i) := by
  constructor
  · refine fun unraced => ⟨?_, ?_, ?_⟩
    · rintro ⟨a, b, differ, changes, blind⟩
      exact unraced ⟨a, b, differ, changes_snoc.2 (.inl changes), readsBlind_snoc.2 (.inl blind)⟩
    · intro kind
      by_contra! racing
      obtain ⟨stranger, o, changes, differ⟩ := racing
      exact unraced ⟨o, i, differ, changes_snoc.2 (.inl changes),
        readsBlind_snoc.2 (.inr ⟨rfl, kind, stranger⟩)⟩
    · intro bits kind
      by_contra! racing
      obtain ⟨change, o, blind, differ⟩ := racing
      exact unraced ⟨i, o, Ne.symm differ, changes_snoc.2 (.inr ⟨rfl, bits, kind, change⟩),
        readsBlind_snoc.2 (.inl blind)⟩
  · rintro ⟨unraced, reads, stores⟩ ⟨a, b, differ, stored, read⟩
    rcases changes_snoc.1 stored with changes | ⟨rfl, bits, rfl, change⟩ <;>
      rcases readsBlind_snoc.1 read with blind | ⟨rfl, kind, stranger⟩
    · exact unraced ⟨a, b, differ, changes, blind⟩
    · exact differ ((reads kind).resolve_left stranger a changes)
    · exact differ ((stores bits rfl).resolve_left change b blind).symm
    · cases kind

/-- Repetitions of the owner's last pattern leave it the last one. -/
theorem lastStore_of_repeated {alone repeated : List (InvocationId × List UInt32)}
    (stored : h.stores = alone ++ repeated)
    (same : ∀ s ∈ repeated, (alone.getLast?).map Prod.snd = some s.2) :
    h.lastStore = (alone.getLast?).map Prod.snd := by
  rw [lastStore, stored, List.getLast?_append]
  cases ending : repeated.getLast? with
  | none => rw [Option.none_or]
  | some s => exact (same s (List.mem_of_getLast? ending)).symm

theorem Settled.of_snoc_write (settled : Settled (h ++ [(i, .write bits)])) :
    h.Settled ∧ ((∀ last, h.lastStore = some last → bits = last) ∨ ∀ o, h.Writes o → o = i) := by
  obtain ⟨owner, alone, repeated, split, own, same⟩ := settled
  rw [stores_append, stores_write] at split
  rcases List.eq_nil_or_concat repeated with rfl | ⟨before, final, rfl⟩
  · -- Every store so far is the owner's.
    rw [List.append_nil] at split
    subst split
    have own_all : ∀ s ∈ h.stores, s.1 = i := fun s member =>
      (own s (List.mem_append_left _ member)).trans (own (i, bits) (by simp)).symm
    refine ⟨⟨i, h.stores, [], by simp, own_all, by simp⟩, .inr fun o wrote => ?_⟩
    obtain ⟨x, member⟩ := writes_iff.1 wrote
    exact own_all _ member
  · -- The store repeats the owner's last one.
    rw [List.concat_eq_append, ← List.append_assoc] at split
    obtain ⟨stored, last⟩ := List.append_inj' split rfl
    obtain rfl : final = (i, bits) := by simpa using last.symm
    have earlier : ∀ s ∈ before, (alone.getLast?).map Prod.snd = some s.2 :=
      fun s member => same s (by simp [member])
    refine ⟨⟨owner, alone, before, stored, own, earlier⟩, .inl fun x found => ?_⟩
    have same_last := same (i, bits) (by simp)
    rw [lastStore_of_repeated stored earlier, same_last] at found
    exact Option.some.inj found

theorem Settled.snoc_write (settled : h.Settled)
    (harmless : (∀ last, h.lastStore = some last → bits = last) ∨ ∀ o, h.Writes o → o = i) :
    Settled (h ++ [(i, .write bits)]) := by
  obtain ⟨owner, alone, repeated, stored, own, same⟩ := settled
  rcases harmless with agree | lone
  · cases final : alone.getLast? with
    | none =>
      -- Nobody has stored yet.
      obtain rfl := List.getLast?_eq_none_iff.1 final
      obtain rfl : repeated = [] :=
        List.eq_nil_iff_forall_not_mem.2 fun s member => by simpa using same s member
      exact ⟨i, [(i, bits)], [], by simp [stored], by simp, by simp⟩
    | some s =>
      refine ⟨owner, alone, repeated ++ [(i, bits)], by simp [stored], own, fun r member => ?_⟩
      have last : h.lastStore = some s.2 := by rw [lastStore_of_repeated stored same, final]; rfl
      rcases List.mem_append.1 member with member | member
      · exact same r member
      · obtain rfl := List.mem_singleton.1 member
        exact final ▸ congrArg some (agree s.2 last).symm
  · refine ⟨i, h.stores ++ [(i, bits)], [], by simp, fun s member => ?_, by simp⟩
    rcases List.mem_append.1 member with member | member
    · exact lone s.1 (writes_iff.2 ⟨s.2, member⟩)
    · exact congrArg Prod.fst (List.mem_singleton.1 member)

theorem settled_snoc_write : Settled (h ++ [(i, .write bits)]) ↔ h.Settled ∧
    ((∀ last, h.lastStore = some last → bits = last) ∨ ∀ o, h.Writes o → o = i) :=
  ⟨Settled.of_snoc_write, fun both => both.1.snoc_write both.2⟩

@[simp] theorem settled_snoc_read : Settled (h ++ [(i, .read)]) ↔ h.Settled := by
  simp [Settled]

@[simp] theorem settled_snoc_atomic : Settled (h ++ [(i, .atomic)]) ↔ h.Settled := by
  simp [Settled]

/-- A history in which no two invocations stored different patterns is settled. -/
theorem settled_of_not_writeWrite (unraced : ¬ h.WriteWrite) : h.Settled := by
  induction h using List.reverseRecOn with
  | nil => exact ⟨0, [], [], rfl, by simp, by simp⟩
  | append_singleton before visit ih =>
    obtain ⟨i, t⟩ := visit
    have settled : Settled before := ih fun ⟨a, b, x, y, differ, first, second, unlike⟩ =>
      unraced ⟨a, b, x, y, differ, List.mem_append_left _ first, List.mem_append_left _ second, unlike⟩
    cases t with
    | write bits =>
      refine settled_snoc_write.2 ⟨settled, ?_⟩
      by_contra! racing
      obtain ⟨⟨last, found, unlike⟩, o, ⟨x, stored⟩, differ⟩ := racing
      have new : (i, .write bits) ∈ before ++ [(i, .write bits)] := by simp
      have old : ∀ visit ∈ before, visit ∈ before ++ [(i, .write bits)] :=
        fun _ => List.mem_append_left _
      -- `i` differs from whoever stored last, or `o` differs from one of the two patterns of `i`.
      obtain ⟨latest, member⟩ := exists_write_of_lastStore found
      by_cases own : latest = i
      · subst own
        by_cases repeats : x = bits
        · exact unraced ⟨o, latest, x, last, differ, old _ stored, old _ member, repeats ▸ unlike⟩
        · exact unraced ⟨o, latest, x, bits, differ, old _ stored, new, repeats⟩
      · exact unraced ⟨i, latest, bits, last, Ne.symm own, new, old _ member, unlike⟩
    | read | atomic => simpa [Settled] using settled

/-! ## Other orders of the same scripts -/

theorem SameScripts.symm (scripts : SameScripts h h') : SameScripts h' h :=
  fun i => (scripts i).symm

theorem SameScripts.mem (scripts : SameScripts h h') {visit : InvocationId × Touch}
    (member : visit ∈ h) : visit ∈ h' := by
  have own : visit ∈ h'.filter (fun other => other.1 = visit.1) :=
    scripts visit.1 ▸ List.mem_filter.2 ⟨member, by simp⟩
  exact (List.mem_filter.1 own).1

theorem writes_filter : Writes (h.filter fun visit => visit.1 = i) i ↔ h.Writes i := by
  simp [Writes]

theorem readsBlind_filter : ReadsBlind (h.filter fun visit => visit.1 = i) i ↔ h.ReadsBlind i := by
  induction h using List.reverseRecOn with
  | nil => rfl
  | append_singleton before visit ih =>
    obtain ⟨j, t⟩ := visit
    by_cases own : j = i
    · subst own
      rw [List.filter_append, List.filter_cons_of_pos (by simp), List.filter_nil, readsBlind_snoc,
        readsBlind_snoc, ih, writes_filter]
    · rw [List.filter_append, List.filter_cons_of_neg (by simpa using own), List.filter_nil,
        List.append_nil, ih, readsBlind_snoc]
      simp [Ne.symm own]

theorem SameScripts.readsBlind (scripts : SameScripts h h') (blind : h.ReadsBlind i) :
    h'.ReadsBlind i :=
  readsBlind_filter.1 (scripts i ▸ readsBlind_filter.2 blind)

theorem SameScripts.mixed (scripts : SameScripts h h') : h.Mixed → h'.Mixed := by
  rintro ⟨i, j, differ, atomic, plain⟩
  refine ⟨i, j, differ, scripts.mem atomic, plain.imp scripts.mem ?_⟩
  exact fun ⟨bits, stored⟩ => ⟨bits, scripts.mem stored⟩

theorem SameScripts.readWrite (scripts : SameScripts h h') :
    h.ReadWrite baseline → h'.ReadWrite baseline := by
  rintro ⟨i, j, differ, ⟨bits, stored, change⟩, blind⟩
  exact ⟨i, j, differ, ⟨bits, scripts.mem stored, change⟩, scripts.readsBlind blind⟩

theorem SameScripts.writeWrite (scripts : SameScripts h h') : h.WriteWrite → h'.WriteWrite := by
  rintro ⟨i, j, x, y, differ, first, second, unlike⟩
  exact ⟨i, j, x, y, differ, scripts.mem first, scripts.mem second, unlike⟩

end History

namespace ElementLog

variable {h : History} {baseline : List UInt32}

/-- What no report tells apart from a history without races. -/
theorem silent_iff : (fresh baseline).Silent h ↔
    ¬ h.Mixed ∧ ¬ h.ReadWrite baseline ∧ h.Settled := by
  induction h using List.reverseRecOn with
  | nil =>
    refine iff_of_true silent_nil ⟨?_, ?_, 0, [], [], rfl, by simp, by simp⟩
    · rintro ⟨a, b, _, atomic, _⟩
      cases atomic
    · rintro ⟨a, b, _, ⟨bits, member, _⟩, _⟩
      cases member
  | append_singleton before visit ih =>
    obtain ⟨i, t⟩ := visit
    rw [silent_snoc, ih, History.not_mixed_snoc, History.not_readWrite_snoc]
    cases t with
    | atomic =>
      simp only [History.Harmless, History.settled_snoc_atomic, ne_eq, not_true_eq_false,
        reduceCtorEq, forall_const, IsEmpty.forall_iff, and_true, and_self]
      tauto
    | read =>
      simp only [History.Harmless, History.settled_snoc_read, ne_eq, not_false_eq_true, reduceCtorEq,
        forall_const, IsEmpty.forall_iff, true_and, and_true]
      tauto
    | write bits =>
      simp only [History.Harmless, History.settled_snoc_write, ne_eq, not_false_eq_true, reduceCtorEq,
        forall_const, forall_eq', IsEmpty.forall_iff, true_and, Touch.write.injEq]
      tauto

end ElementLog

/-! ## Accesses to many elements -/

/-- One access as the tracker is told of it. -/
structure Observation where
  place : Location
  /-- The pattern of the element before the access. -/
  current : List UInt32
  touch : Touch
  me : InvocationId
  deriving DecidableEq, Repr

def Conflict.place (c : Conflict) : Location := ⟨c.resource, c.index⟩

namespace Observation

/-- The touches of one element. -/
def history (place : Location) (accesses : List Observation) : History :=
  (accesses.filter fun a => a.place = place).map fun a => (a.me, a.touch)

/-- The pattern of an element before its first access. -/
def baseline (place : Location) (accesses : List Observation) : List UInt32 :=
  ((accesses.find? fun a => a.place = place).map Observation.current).getD []

variable {place : Location} {a : Observation} {rest : List Observation}

theorem history_cons_of_eq (same : a.place = place) :
    history place (a :: rest) = (a.me, a.touch) :: history place rest := by
  simp [history, same]

theorem history_cons_of_ne (differ : a.place ≠ place) :
    history place (a :: rest) = history place rest := by
  simp [history, differ]

theorem baseline_cons_of_eq (same : a.place = place) : baseline place (a :: rest) = a.current := by
  simp [baseline, same]

theorem baseline_cons_of_ne (differ : a.place ≠ place) :
    baseline place (a :: rest) = baseline place rest := by
  simp [baseline, differ]

end Observation

namespace AccessLog

variable {l : AccessLog} {place other : Location} {accesses : List Observation}

theorem get?_set {log : ElementLog} :
    (l.set place log).get? other = if other = place then some log else l.get? other := by
  have entry (entries : List (Location × ElementLog)) :
      (setEntry place log entries).lookup other =
        if other = place then some log else entries.lookup other := by
    induction entries with
    | nil => grind [setEntry]
    | cons head rest ih => grind [setEntry]
  exact entry l.entries

/-- The log of an element, a fresh one if nobody has touched it. -/
def entry (l : AccessLog) (place : Location) (current : List UInt32) : ElementLog :=
  (l.get? place).getD (.fresh current)

/-- The log after further accesses. -/
def after (l : AccessLog) (accesses : List Observation) : AccessLog :=
  accesses.foldl (fun l a => (l.observe a.place a.current a.touch a.me).1) l

/-- The conflicts that accesses are reported with. -/
def conflicts (l : AccessLog) : List Observation → List Conflict
  | [] => []
  | a :: rest =>
    (l.observe a.place a.current a.touch a.me).2.toList ++
      conflicts (l.observe a.place a.current a.touch a.me).1 rest

theorem get?_observe {current : List UInt32} {t : Touch} {me : InvocationId} :
    (l.observe place current t me).1.get? other =
      if other = place then some ((l.entry place current).observe t me).1 else l.get? other :=
  get?_set

theorem mem_observe {current : List UInt32} {t : Touch} {me : InvocationId} {c : Conflict}
    (reported : (l.observe place current t me).2 = some c) : c.place = place := by
  simp only [observe, Option.map_eq_some_iff] at reported
  obtain ⟨_, _, rfl⟩ := reported
  rfl

theorem observe_eq_none_iff {current : List UInt32} {t : Touch} {me : InvocationId} :
    (l.observe place current t me).2 = none ↔ ((l.entry place current).observe t me).2 = none := by
  simp [observe, entry, ElementLog.fresh]

/-- An element is reported exactly when its own log reports it. -/
theorem quiet_iff_silent : (∀ c ∈ l.conflicts accesses, c.place ≠ place) ↔
    (l.entry place (Observation.baseline place accesses)).Silent
      (Observation.history place accesses) := by
  induction accesses generalizing l with
  | nil => simp [conflicts, Observation.history]
  | cons a rest ih =>
    simp only [conflicts, List.mem_append, or_imp, forall_and, ih]
    by_cases here : a.place = place
    · rw [Observation.history_cons_of_eq here, Observation.baseline_cons_of_eq here,
        ElementLog.silent_cons]
      refine and_congr ?_ ?_
      · rw [← here, ← observe_eq_none_iff]
        cases reported : (l.observe a.place a.current a.touch a.me).2 with
        | none => simp
        | some c => simpa using mem_observe reported
      · rw [entry, get?_observe, if_pos here.symm, here]
        rfl
    · rw [Observation.history_cons_of_ne here, Observation.baseline_cons_of_ne here]
      have elsewhere : ∀ c ∈ (l.observe a.place a.current a.touch a.me).2.toList,
          c.place ≠ place := fun c reported => by
        rw [mem_observe (Option.mem_toList.1 reported)]
        exact here
      rw [and_iff_right elsewhere, entry, get?_observe, if_neg (Ne.symm here)]
      rfl

/-- What the log holds of an element after accesses. -/
theorem get?_after : (l.after accesses).get? place =
    if Observation.history place accesses = [] then l.get? place
    else some ((l.entry place (Observation.baseline place accesses)).after
      (Observation.history place accesses)) := by
  induction accesses generalizing l with
  | nil => rfl
  | cons a rest ih =>
    have step := ih (l := (l.observe a.place a.current a.touch a.me).1)
    rw [get?_observe] at step
    refine step.trans ?_
    by_cases here : a.place = place
    · rw [Observation.history_cons_of_eq here, Observation.baseline_cons_of_eq here, here,
        if_pos rfl, if_neg (List.cons_ne_nil _ _)]
      split
      · next none => rw [none]; rfl
      · rw [entry, get?_observe, if_pos rfl]; rfl
    · rw [Observation.history_cons_of_ne here, Observation.baseline_cons_of_ne here,
        if_neg (Ne.symm here), entry, get?_observe, if_neg (Ne.symm here)]
      rfl

/-- A tracker that starts out empty reports an element for these races and no others. -/
theorem reported_iff : (∃ c ∈ conflicts {} accesses, c.place = place) ↔
    (Observation.history place accesses).Mixed ∨
    (Observation.history place accesses).ReadWrite (Observation.baseline place accesses) ∨
    ((Observation.history place accesses).WriteWrite ∧
      ¬ (Observation.history place accesses).Settled) := by
  have quiet := (@quiet_iff_silent {} place accesses).trans
    ElementLog.silent_iff
  rw [← not_iff_not]
  simp only [not_exists, not_and, not_or, not_not]
  refine quiet.trans (and_congr_right fun _ => and_congr_right fun _ => ?_)
  exact ⟨fun settled _ => settled, fun missed => by
    by_contra open_
    exact open_ (missed (by_contra fun unraced => open_ (History.settled_of_not_writeWrite unraced)))⟩

/-- Every race is reported but for stores of different patterns that are settled, and two orders of
the same scripts are reported alike unless they settle such stores differently. -/
theorem reported_unless_settled {others : List Observation}
    (scripts : (Observation.history place accesses).SameScripts (Observation.history place others))
    (start : Observation.baseline place accesses = Observation.baseline place others) :
    let h := Observation.history place accesses
    let h' := Observation.history place others
    let baseline := Observation.baseline place accesses
    let Reported (accesses : List Observation) : Prop :=
      ∃ c ∈ conflicts {} accesses, c.place = place
    (Reported accesses ↔
      h.Mixed ∨ h.ReadWrite baseline ∨ (h.WriteWrite ∧ ¬ h.Settled)) ∧
    ((Reported accesses ↔ Reported others) ↔
      h.Mixed ∨ h.ReadWrite baseline ∨ (h.WriteWrite → (h.Settled ↔ h'.Settled))) := by
  intro h h' baseline Reported
  have first : Reported accesses ↔
      h.Mixed ∨ h.ReadWrite baseline ∨ (h.WriteWrite ∧ ¬ h.Settled) := reported_iff
  have second : Reported others ↔
      h.Mixed ∨ h.ReadWrite baseline ∨ (h.WriteWrite ∧ ¬ h'.Settled) := by
    have mixed : h'.Mixed ↔ h.Mixed := ⟨scripts.symm.mixed, scripts.mixed⟩
    have readWrite : h'.ReadWrite baseline ↔ h.ReadWrite baseline :=
      ⟨scripts.symm.readWrite, scripts.readWrite⟩
    have writeWrite : h'.WriteWrite ↔ h.WriteWrite :=
      ⟨scripts.symm.writeWrite, scripts.writeWrite⟩
    rw [← mixed, ← readWrite, ← writeWrite, show baseline = _ from start]
    exact reported_iff
  refine ⟨first, ?_⟩
  rw [first, second, ← or_assoc, ← or_assoc, ← or_assoc]
  by_cases certain : h.Mixed ∨ h.ReadWrite baseline
  · simp only [certain, true_or]
  · by_cases raced : h.WriteWrite
    · simp only [certain, raced, false_or, true_and, true_imp_iff, not_iff_not]
    · simp only [certain, raced, false_or, false_and, false_imp_iff]

/-- Two invocations, one of which changes what the other reads, in both orders. -/
theorem reported_read_of_change :
    let place : Location := ⟨.buffer 0, 0⟩
    let change : Observation := ⟨place, [0], .write [1], 0⟩
    let read (current : UInt32) : Observation := ⟨place, [current], .read, 1⟩
    (∃ c ∈ conflicts {} [change, read 1], c.place = place) ∧
      ∃ c ∈ conflicts {} [read 0, change], c.place = place := by
  intro place change read
  have scripts : (Observation.history place [change, read 1]).SameScripts
      (Observation.history place [read 0, change]) := fun i => by
    rcases i with _ | _ | i <;> simp [Observation.history, change, read]
  have alike := (reported_unless_settled scripts rfl).2.2
  have raced : (Observation.history place [change, read 1]).ReadWrite [0] :=
    ⟨0, 1, by decide, ⟨[1], by decide, by decide⟩, [(0, .write [1])], [], by decide, by
      simp [History.Writes]⟩
  have first : ∃ c ∈ conflicts {} [change, read 1], c.place = place := by decide
  exact ⟨first, (alike (.inr (.inl raced))).1 first⟩

/-- An invocation that overwrites what it stored hides the race from one that repeats the new
pattern; when the other invocation comes first, the race is reported. -/
theorem overwritten_store_unreported :
    let place : Location := ⟨.buffer 0, 0⟩
    let store (current bits : UInt32) (me : InvocationId) : Observation :=
      ⟨place, [current], .write [bits], me⟩
    let accesses := [store 0 1 0, store 1 2 0, store 2 2 1]
    let others := [store 0 2 1, store 2 1 0, store 1 2 0]
    (Observation.history place accesses).WriteWrite ∧ conflicts {} accesses = [] ∧
      (Observation.history place accesses).SameScripts (Observation.history place others) ∧
      conflicts {} others ≠ [] := by
  intro place store accesses others
  refine ⟨⟨0, 1, [1], [2], by decide, by decide, by decide, by decide⟩, by decide, fun i => ?_,
    by decide⟩
  rcases i with _ | _ | i <;>
    simp [Observation.history, accesses, others, store]

end AccessLog

end ComputeShader
