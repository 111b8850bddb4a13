import Mathlib.Data.List.Induction
import ComputeShader.Store.Race

/-! # The history of an element

The log of an element is a summary of the touches made so far. `Summarizes` says what each of its
sets stands for; as long as no touch has been reported, every touch keeps it. `silent_append_iff`
then says of a further touch exactly when it is reported, in terms of the history alone: nothing in
it mentions the log.
-/

namespace ComputeShader

namespace InvocationSet

theorem mem_insert {id i : InvocationId} {ids : InvocationSet} :
    i ∈ insert id ids ↔ i = id ∨ i ∈ ids := by
  induction ids with
  | nil => simp [insert]
  | cons head rest ih =>
    simp only [insert]
    split
    · simp
    · split
      · next same => simp [same]
      · simp only [List.mem_cons, ih]
        tauto

theorem other?_eq_none_iff {ids : InvocationSet} {me : InvocationId} :
    ids.other? me = none ↔ ∀ o ∈ ids, o = me := by
  simp [other?, List.find?_eq_none]

theorem other?_eq_some {ids : InvocationSet} {me o : InvocationId} (found : ids.other? me = some o) :
    o ∈ ids ∧ o ≠ me :=
  ⟨List.mem_of_find?_eq_some found, by simpa using List.find?_some found⟩

end InvocationSet

/-- The touches of an element, the oldest first, each with the invocation that made it. -/
abbrev History := List (InvocationId × Touch)

namespace History

def Writes (h : History) (i : InvocationId) : Prop := ∃ bits, (i, .write bits) ∈ h

/-- Whether an invocation stored something other than the baseline. -/
def Changes (h : History) (baseline : List UInt32) (i : InvocationId) : Prop :=
  ∃ bits, (i, .write bits) ∈ h ∧ bits ≠ baseline

/-- Whether an invocation read the element without having stored to it first. -/
def ReadsBlind (h : History) (i : InvocationId) : Prop :=
  ∃ before after, h = before ++ (i, .read) :: after ∧ ¬ Writes before i

/-- Whether an invocation used plain loads or stores. -/
def Plain (h : History) (i : InvocationId) : Prop := (i, .read) ∈ h ∨ h.Writes i

def Atomic (h : History) (i : InvocationId) : Prop := (i, .atomic) ∈ h

/-- The store that a touch is, if it is one. -/
def store? : InvocationId × Touch → Option (InvocationId × List UInt32)
  | (i, .write bits) => some (i, bits)
  | _ => none

/-- The stores alone. -/
def stores (h : History) : List (InvocationId × List UInt32) := h.filterMap store?

/-- The pattern stored last. -/
def lastStore (h : History) : Option (List UInt32) := h.stores.getLast?.map Prod.snd

variable {h : History} {i j : InvocationId} {t : Touch} {baseline bits : List UInt32}

@[simp] theorem writes_nil : ¬ Writes [] i := by simp [Writes]

theorem writes_append {k : History} : Writes (h ++ k) i ↔ h.Writes i ∨ k.Writes i := by
  simp only [Writes, List.mem_append, exists_or]

theorem writes_snoc : Writes (h ++ [(j, t)]) i ↔ h.Writes i ∨ i = j ∧ ∃ bits, t = .write bits := by
  rw [writes_append]
  simp only [Writes, List.mem_singleton, Prod.mk.injEq, exists_and_left, eq_comm]

theorem changes_snoc : Changes (h ++ [(j, t)]) baseline i ↔
    h.Changes baseline i ∨ i = j ∧ ∃ bits, t = .write bits ∧ bits ≠ baseline := by
  simp only [Changes, List.mem_append, List.mem_singleton, Prod.mk.injEq, or_and_right, exists_or,
    and_assoc, exists_and_left, eq_comm]

theorem plain_snoc : Plain (h ++ [(j, t)]) i ↔ h.Plain i ∨ i = j ∧ t ≠ .atomic := by
  simp only [Plain, writes_snoc, List.mem_append, List.mem_singleton, Prod.mk.injEq]
  cases t <;> simp <;> tauto

theorem atomic_snoc : Atomic (h ++ [(j, t)]) i ↔ h.Atomic i ∨ i = j ∧ t = .atomic := by
  simp only [Atomic, List.mem_append, List.mem_singleton, Prod.mk.injEq, eq_comm]

theorem readsBlind_append_left {h' : History} (blind : h.ReadsBlind i) :
    ReadsBlind (h ++ h') i := by
  obtain ⟨before, after, rfl, fresh⟩ := blind
  exact ⟨before, after ++ h', by simp, fresh⟩

theorem readsBlind_snoc : ReadsBlind (h ++ [(j, t)]) i ↔
    h.ReadsBlind i ∨ i = j ∧ t = .read ∧ ¬ h.Writes j := by
  constructor
  · rintro ⟨before, after, split, fresh⟩
    -- The read is the last touch of all, or it lies in the history before it.
    rcases List.eq_nil_or_concat after with rfl | ⟨middle, last, rfl⟩
    · obtain ⟨rfl, same⟩ := List.append_inj' split rfl
      simp only [List.cons.injEq, Prod.mk.injEq, and_true] at same
      exact .inr ⟨same.1.symm, same.2, same.1 ▸ fresh⟩
    · rw [List.concat_eq_append, ← List.cons_append, ← List.append_assoc] at split
      exact .inl ⟨before, middle, (List.append_inj' split rfl).1, fresh⟩
  · rintro (blind | ⟨rfl, rfl, fresh⟩)
    · exact readsBlind_append_left blind
    · exact ⟨h, [], rfl, fresh⟩

@[simp] theorem stores_nil : stores [] = [] := rfl

@[simp] theorem stores_append {h' : History} : stores (h ++ h') = h.stores ++ h'.stores :=
  List.filterMap_append

@[simp] theorem stores_write : stores [(j, .write bits)] = [(j, bits)] := rfl

@[simp] theorem stores_read : stores [(j, .read)] = [] := rfl

@[simp] theorem stores_atomic : stores [(j, .atomic)] = [] := rfl

theorem mem_stores : (i, bits) ∈ h.stores ↔ (i, .write bits) ∈ h := by
  simp only [stores, List.mem_filterMap]
  constructor
  · rintro ⟨⟨j, t⟩, member, stored⟩
    cases t with
    | write other =>
      obtain ⟨rfl, rfl⟩ : j = i ∧ other = bits := by simpa [store?] using stored
      exact member
    | read | atomic => simp [store?] at stored
  · exact fun member => ⟨_, member, rfl⟩

theorem writes_iff : h.Writes i ↔ ∃ bits, (i, bits) ∈ h.stores := by
  simp only [Writes, mem_stores]

@[simp] theorem lastStore_snoc_write :
    lastStore (h ++ [(j, .write bits)]) = some bits := by
  simp [lastStore]

@[simp] theorem lastStore_snoc_read : lastStore (h ++ [(j, .read)]) = h.lastStore := by
  simp [lastStore]

@[simp] theorem lastStore_snoc_atomic : lastStore (h ++ [(j, .atomic)]) = h.lastStore := by
  simp [lastStore]

theorem exists_write_of_lastStore (last : h.lastStore = some bits) :
    ∃ i, (i, .write bits) ∈ h := by
  obtain ⟨⟨i, found⟩, final, rfl⟩ := Option.map_eq_some_iff.1 last
  exact ⟨i, mem_stores.1 (List.mem_of_getLast? final)⟩

theorem lastStore_eq_none_iff : h.lastStore = none ↔ ∀ i, ¬ h.Writes i := by
  simp only [lastStore, Option.map_eq_none_iff, List.getLast?_eq_none_iff, writes_iff, not_exists]
  exact ⟨fun none i bits member => by simp [none] at member,
    fun never => List.eq_nil_iff_forall_not_mem.2 fun ⟨i, bits⟩ => never i bits⟩

/-- Whether a touch after a history races with nobody: what it would take for it to be reported is
exactly what the history tells. -/
def Harmless (baseline : List UInt32) (h : History) (i : InvocationId) : Touch → Prop
  | .atomic => ∀ o, h.Plain o → o = i
  | .read => (∀ o, h.Atomic o → o = i) ∧ (h.Writes i ∨ ∀ o, h.Changes baseline o → o = i)
  | .write bits =>
    (∀ o, h.Atomic o → o = i) ∧
    ((∀ last, h.lastStore = some last → bits = last) ∨ ∀ o, h.Writes o → o = i) ∧
    (bits = baseline ∨ ∀ o, h.ReadsBlind o → o = i)

end History

namespace ElementLog

/-- The log after further touches. -/
def after (log : ElementLog) (h : History) : ElementLog :=
  h.foldl (fun log visit => (log.observe visit.2 visit.1).1) log

/-- What each touch of a history is reported with. -/
def reports (log : ElementLog) : History → List (Option (InvocationId × RaceKind))
  | [] => []
  | (i, t) :: rest => (log.observe t i).2 :: reports (log.observe t i).1 rest

/-- No touch of a history is reported. -/
def Silent (log : ElementLog) (h : History) : Prop := ∀ report ∈ log.reports h, report = none

/-- The log of an element that nobody has touched. -/
def fresh (baseline : List UInt32) : ElementLog := { baseline }

variable {log : ElementLog} {h h' : History} {i me : InvocationId} {t : Touch}
  {baseline : List UInt32}

theorem after_append : log.after (h ++ h') = (log.after h).after h' := List.foldl_append

theorem reports_append : log.reports (h ++ h') = log.reports h ++ (log.after h).reports h' := by
  induction h generalizing log with
  | nil => rfl
  | cons visit rest ih => simp only [List.cons_append, reports, ih, after, List.foldl_cons]

theorem silent_append : log.Silent (h ++ h') ↔ log.Silent h ∧ (log.after h).Silent h' := by
  simp only [Silent, reports_append, List.mem_append, or_imp, forall_and]

@[simp] theorem silent_nil : log.Silent [] := by simp [Silent, reports]

theorem silent_cons {rest : History} : log.Silent ((i, t) :: rest) ↔
    (log.observe t i).2 = none ∧ (log.observe t i).1.Silent rest := by
  simp [Silent, reports]

theorem silent_singleton : log.Silent [(i, t)] ↔ (log.observe t i).2 = none := by
  simp [Silent, reports]

/-! ## What a touch is reported for -/

theorem observe_atomic_eq_none_iff :
    (log.observe .atomic me).2 = none ↔ ∀ o ∈ log.plain, o = me := by
  simp [observe, InvocationSet.other?_eq_none_iff]

theorem observe_read_eq_none_iff : (log.observe .read me).2 = none ↔
    (∀ o ∈ log.atomic, o = me) ∧ (me ∈ log.writers ∨ ∀ o ∈ log.changers, o = me) := by
  simp only [observe]
  split
  · next o found =>
    have rival := InvocationSet.other?_eq_some found
    simp only [reduceCtorEq, false_iff, not_and]
    exact fun alone => (rival.2 (alone o rival.1)).elim
  · next alone =>
    have alone := InvocationSet.other?_eq_none_iff.1 alone
    split
    · next mine => simpa using ⟨alone, .inl (List.contains_iff_mem.1 mine)⟩
    · next stranger =>
      simp only [Option.map_eq_none_iff, InvocationSet.other?_eq_none_iff]
      have stranger : me ∉ log.writers := fun mine => stranger (List.contains_iff_mem.2 mine)
      tauto

theorem observe_write_eq_none_iff {bits : List UInt32} : (log.observe (.write bits) me).2 = none ↔
    (∀ o ∈ log.atomic, o = me) ∧
    ((∀ last, log.written = some last → bits = last) ∨ ∀ o ∈ log.writers, o = me) ∧
    (bits = log.baseline ∨ ∀ o ∈ log.blindReaders, o = me) := by
  simp only [observe]
  split
  · next o found =>
    have rival := InvocationSet.other?_eq_some found
    simp only [reduceCtorEq, false_iff, not_and]
    exact fun alone => (rival.2 (alone o rival.1)).elim
  · next alone =>
    have alone := InvocationSet.other?_eq_none_iff.1 alone
    have agrees : log.written.any (· != bits) = false ↔
        ∀ last, log.written = some last → bits = last := by
      cases log.written with
      | none => simp
      | some last =>
        simp only [Option.any_some, bne_eq_false_iff_eq, Option.some.injEq]
        exact ⟨fun same _ found => found ▸ same.symm, fun same => (same last rfl).symm⟩
    split
    · next o found =>
      simp only [reduceCtorEq, false_iff, not_and]
      rintro - (same | lone)
      · rw [if_neg (by rw [agrees.2 same]; exact Bool.false_ne_true)] at found
        cases found
      · split at found
        · have rival := InvocationSet.other?_eq_some found
          exact (rival.2 (lone o rival.1)).elim
        · cases found
    · next none =>
      have agreed : (∀ last, log.written = some last → bits = last) ∨ ∀ o ∈ log.writers, o = me := by
        split at none
        · exact .inr (InvocationSet.other?_eq_none_iff.1 none)
        · next same => exact .inl (agrees.1 (Bool.eq_false_iff.2 same))
      split
      · next same => simpa [same] using ⟨alone, by simpa [same] using agreed⟩
      · next change =>
        simp only [Option.map_eq_none_iff, InvocationSet.other?_eq_none_iff, change, false_or]
        tauto

/-! ## What an unreported touch leaves in the log -/

theorem observe_read_log (quiet : (log.observe .read me).2 = none) :
    (log.observe .read me).1 = { log with
      plain := log.plain.insert me
      blindReaders := if me ∈ log.writers then log.blindReaders else log.blindReaders.insert me } := by
  simp only [observe] at quiet ⊢
  split at quiet
  · cases quiet
  · simp only [List.contains_iff_mem]
    split <;> rfl

theorem observe_write_log {bits : List UInt32} (quiet : (log.observe (.write bits) me).2 = none) :
    (log.observe (.write bits) me).1 = { log with
      plain := log.plain.insert me
      written := some bits
      writers := log.writers.insert me
      changers := if bits = log.baseline then log.changers else log.changers.insert me } := by
  simp only [observe] at quiet ⊢
  split at quiet
  · cases quiet
  · split at quiet
    · cases quiet
    · split <;> rfl

/-! ## What the log knows -/

/-- What the log of an element says of the touches made so far. -/
structure Summarizes (baseline : List UInt32) (h : History) (log : ElementLog) : Prop where
  baseline_eq : log.baseline = baseline
  written : log.written = h.lastStore
  writers : ∀ i, i ∈ log.writers ↔ h.Writes i
  changers : ∀ i, i ∈ log.changers ↔ h.Changes baseline i
  blindReaders : ∀ i, i ∈ log.blindReaders ↔ h.ReadsBlind i
  plain : ∀ i, i ∈ log.plain ↔ h.Plain i
  atomic : ∀ i, i ∈ log.atomic ↔ h.Atomic i

theorem summarizes_fresh : Summarizes baseline [] (fresh baseline) where
  baseline_eq := rfl
  written := rfl
  writers i := by simp [fresh]
  changers i := by simp [fresh, History.Changes]
  blindReaders i := by simp [fresh, History.ReadsBlind]
  plain i := by simp [fresh, History.Plain]
  atomic i := by simp [fresh, History.Atomic]

theorem Summarizes.observe_eq_none_iff (known : Summarizes baseline h log) :
    (log.observe t me).2 = none ↔ h.Harmless baseline me t := by
  cases t with
  | atomic => simp only [observe_atomic_eq_none_iff, known.plain, History.Harmless]
  | read =>
    simp only [observe_read_eq_none_iff, known.atomic, known.writers, known.changers,
      History.Harmless]
  | write bits =>
    simp only [observe_write_eq_none_iff, known.atomic, known.written, known.writers,
      known.baseline_eq, known.blindReaders, History.Harmless]

/-- A touch that is not reported is entered in full. -/
theorem Summarizes.observe (known : Summarizes baseline h log)
    (quiet : (log.observe t me).2 = none) :
    Summarizes baseline (h ++ [(me, t)]) (log.observe t me).1 := by
  cases t with
  | atomic =>
    exact {
      baseline_eq := known.baseline_eq
      written := known.written.trans History.lastStore_snoc_atomic.symm
      writers := fun i => by simpa [History.writes_snoc, ElementLog.observe] using known.writers i
      changers := fun i => by simpa [History.changes_snoc, ElementLog.observe] using known.changers i
      blindReaders := fun i => by
        simpa [History.readsBlind_snoc, ElementLog.observe] using known.blindReaders i
      plain := fun i => by simpa [History.plain_snoc, ElementLog.observe] using known.plain i
      atomic := fun i => by
        simp [History.atomic_snoc, ElementLog.observe, InvocationSet.mem_insert, known.atomic,
          or_comm] }
  | read =>
    rw [observe_read_log quiet]
    exact {
      baseline_eq := known.baseline_eq
      written := by simpa using known.written
      writers := fun i => by simpa [History.writes_snoc] using known.writers i
      changers := fun i => by simpa [History.changes_snoc] using known.changers i
      blindReaders := fun i => by
        rw [History.readsBlind_snoc, ← known.blindReaders, ← known.writers]
        split
        · next mine => simp [mine]
        · next stranger => simp [InvocationSet.mem_insert, stranger, or_comm]
      plain := fun i => by
        simp [History.plain_snoc, InvocationSet.mem_insert, known.plain, or_comm]
      atomic := fun i => by simpa [History.atomic_snoc] using known.atomic i }
  | write bits =>
    rw [observe_write_log quiet]
    exact {
      baseline_eq := known.baseline_eq
      written := by simp
      writers := fun i => by
        simp [History.writes_snoc, InvocationSet.mem_insert, known.writers, or_comm]
      changers := fun i => by
        simp only [known.baseline_eq, History.changes_snoc]
        split
        · next same => simp [known.changers, same]
        · next change => simp [InvocationSet.mem_insert, known.changers, change, or_comm]
      blindReaders := fun i => by simpa [History.readsBlind_snoc] using known.blindReaders i
      plain := fun i => by
        simp [History.plain_snoc, InvocationSet.mem_insert, known.plain, or_comm]
      atomic := fun i => by simpa [History.atomic_snoc] using known.atomic i }

/-- As long as no touch is reported, the log tells the history. -/
theorem summarizes_of_silent (silent : (fresh baseline).Silent h) :
    Summarizes baseline h ((fresh baseline).after h) := by
  induction h using List.reverseRecOn with
  | nil => exact summarizes_fresh
  | append_singleton before visit ih =>
    obtain ⟨quiet, last⟩ := silent_append.1 silent
    rw [after_append]
    exact (ih quiet).observe (silent_singleton.1 last)

/-- When one more touch stays unreported, in terms of the history. -/
theorem silent_snoc : (fresh baseline).Silent (h ++ [(me, t)]) ↔
    (fresh baseline).Silent h ∧ h.Harmless baseline me t := by
  rw [silent_append, silent_singleton]
  exact and_congr_right fun quiet => (summarizes_of_silent quiet).observe_eq_none_iff

end ElementLog

end ComputeShader
