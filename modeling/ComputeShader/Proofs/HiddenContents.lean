import ComputeShader.Proofs.DispatchSteps
import ComputeShader.Proofs.Permissions

/-! # Contents that nothing loads

Two stores are alike up to some hidden resources if nothing distinguishes them but what hidden elements
hold that nobody has stored to. Effects that neither load hidden elements nor store to parts of them keep
stores alike. The log takes the contents of an element before the first access as its baseline, but what it
reports of elements that are only stored to does not depend on it.
-/

namespace ComputeShader

/-! ## Logs of stores alone -/

namespace ElementLog

/-- Whether two logs are of the same stores and of nothing else, up to the baseline and what follows from
it. -/
structure SameStores (log log' : ElementLog) : Prop where
  written : log'.written = log.written
  writers : log'.writers = log.writers
  plain : log'.plain = log.plain
  unread : log.blindReaders = [] ∧ log'.blindReaders = []
  unmixed : log.atomic = [] ∧ log'.atomic = []

variable {log log' : ElementLog} {bits : List UInt32} {me : InvocationId}

theorem sameStores_fresh (baseline baseline' : List UInt32) :
    SameStores (.fresh baseline) (.fresh baseline') :=
  ⟨rfl, rfl, rfl, ⟨rfl, rfl⟩, rfl, rfl⟩

theorem insert_ne_nil (ids : InvocationSet) : ids.insert me ≠ [] :=
  List.ne_nil_of_mem (InvocationSet.mem_insert.2 (.inl rfl))

/-- Where nobody uses atomics, a touch leaves a writer in the log if there is one or if it is a store,
reported or not. -/
theorem writers_observe {t : Touch} (unmixed : log.atomic = []) (plain : t ≠ .atomic)
    (me : InvocationId) : (log.observe t me).1.atomic = [] ∧
      ((log.observe t me).1.writers ≠ [] ↔ log.writers ≠ [] ∨ ∃ bits, t = .write bits) := by
  obtain ⟨baseline, written, writers, changers, blind, plain, atomic⟩ := log
  obtain rfl : atomic = [] := unmixed
  cases t with
  | atomic => exact (plain rfl).elim
  | read =>
    simp only [ElementLog.observe, InvocationSet.other?, List.find?_nil]
    split <;> simp
  | write bits =>
    simp only [ElementLog.observe, InvocationSet.other?, List.find?_nil]
    generalize search : (if written.any (· != bits) then writers.find? (· ≠ me) else none) = rival?
    cases rival? with
    | some o =>
      have listed : o ∈ writers := by
        split at search
        · exact List.mem_of_find?_eq_some search
        · cases search
      simp [List.ne_nil_of_mem listed]
    | none =>
      dsimp only
      split <;> simp [insert_ne_nil]

/-- Where nobody uses atomics, the log names a writer exactly if there was one or there has been a store. -/
theorem writers_after {h : History} (unmixed : log.atomic = []) (plain : ∀ i, ¬ h.Atomic i) :
    (log.after h).atomic = [] ∧
      ((log.after h).writers ≠ [] ↔ log.writers ≠ [] ∨ ∃ i, h.Writes i) := by
  induction h using List.reverseRecOn with
  | nil => simpa [ElementLog.after] using unmixed
  | append_singleton h visit ih =>
    obtain ⟨me, t⟩ := visit
    obtain ⟨unmixed', before⟩ := ih fun i used => plain i (History.atomic_snoc.2 (.inl used))
    have last : t ≠ .atomic := fun same => plain me (History.atomic_snoc.2 (.inr ⟨rfl, same⟩))
    obtain ⟨kept, named⟩ := writers_observe unmixed' last me
    rw [after_append]
    refine ⟨kept, named.trans ?_⟩
    rw [before, or_assoc]
    simp only [History.writes_snoc, exists_or, exists_eq_left]

/-- What a further store is reported as depends neither on the baseline nor on who has changed the
element. -/
theorem SameStores.observe (same : SameStores log log') (bits : List UInt32) (me : InvocationId) :
    SameStores (log.observe (.write bits) me).1 (log'.observe (.write bits) me).1 ∧
      (log'.observe (.write bits) me).2 = (log.observe (.write bits) me).2 := by
  obtain ⟨baseline, written, writers, changers, blind, plain, atomic⟩ := log
  obtain ⟨baseline', written', writers', changers', blind', plain', atomic'⟩ := log'
  obtain ⟨rfl, rfl, rfl, ⟨rfl, rfl⟩, rfl, rfl⟩ := same
  simp only [ElementLog.observe, InvocationSet.other?, List.find?_nil]
  generalize (if written'.any (· != bits) then writers'.find? (· ≠ me) else none) = rival?
  cases rival? with
  | some o => exact ⟨⟨rfl, rfl, rfl, ⟨rfl, rfl⟩, rfl, rfl⟩, rfl⟩
  | none =>
    -- Nobody has read the element, so that it makes no difference whether the baseline is stored.
    dsimp only
    split <;> split <;> exact ⟨⟨rfl, rfl, rfl, ⟨rfl, rfl⟩, rfl, rfl⟩, rfl⟩

end ElementLog

/-- A conflict names the place, the two invocations and the kind. -/
theorem AccessLog.snd_observe {l : AccessLog} {place : Location} {current : List UInt32} {t : Touch}
    {me : InvocationId} : (l.observe place current t me).2 =
      ((l.entry place current).observe t me).2.map fun (o, kind) =>
        ⟨place.resource, place.index, min o me, max o me, kind⟩ := rfl

/-! ## Stores that are alike -/

namespace Store

variable {hidden : Resource → Prop} {s s' : Store} {m m' : Memory} {place : Location}
  {me : InvocationId}

/-- Whether two stores still hold at a place what they began with, or the same since both have been stored
to there. -/
inductive StoredAlike (m m' : Memory) (s s' : Store) (place : Location) : Prop where
  | never (unlogged : s.log.get? place = none) (unlogged' : s'.log.get? place = none)
      (seed : s.cell place = m place) (seed' : s'.cell place = m' place)
  | stored {log log' : ElementLog} (logged : s.log.get? place = some log)
      (logged' : s'.log.get? place = some log') (same : log.SameStores log') (wrote : log.writers ≠ [])
      (cell : s'.cell place = s.cell place)

/-- Whether two stores differ in hidden elements alone, and there in what they began with. -/
structure Alike (hidden : Resource → Prop) (m m' : Memory) (s s' : Store) : Prop where
  proper : s.WellFormed
  retains : s.Retains (fun r => ¬ hidden r) s'
  conflicts : s'.conflicts = s.conflicts
  diagnostics : s'.diagnostics = s.diagnostics
  log : ∀ place : Location, ¬ hidden place.resource → s'.log.get? place = s.log.get? place
  stored : ∀ place : Location, hidden place.resource → StoredAlike m m' s s' place

/-- Cells are as long as the frame says. -/
theorem length_cell_of_frame (proper : s.WellFormed) (proper' : s'.WellFormed)
    (frame : s'.frame = s.frame) (place : Location) :
    (s'.cell place).length = (s.cell place).length := by
  obtain ⟨binding | binding, i⟩ := place
  · cases found : s.buffers.get? binding with
    | none => simp [cell, found, no_buffer_of_frame frame found]
    | some b =>
      obtain ⟨b', found', alike⟩ := buffer_of_frame frame found
      have length := Buffer.length_of_frame alike
      have element := Buffer.element_of_frame alike
      simp only [cell, found, found', Option.map_some, Option.getD_some]
      rcases Nat.lt_or_ge i b.length with inside | outside
      · rw [(proper.buffers binding b found i inside).1,
          (proper'.buffers binding b' found' i (length ▸ inside)).1, element]
      · rw [Buffer.bits_eq_nil outside, Buffer.bits_eq_nil (length.symm ▸ outside)]
  · cases found : s.images.get? binding with
    | none => simp [cell, found, no_image_of_frame frame found]
    | some image =>
      obtain ⟨image', found', alike⟩ := image_of_frame frame found
      have size : image'.texels.size = image.texels.size := by
        rw [(proper.images binding image found).1, (proper'.images binding image' found').1,
          Image.width_of_frame alike, Image.height_of_frame alike]
      simp only [cell, found, found', Option.map_some, Option.getD_some, LittleEndian.length_words]
      rcases Nat.lt_or_ge i image.texels.size with inside | outside
      · rw [(proper.images binding image found).2 i inside,
          (proper'.images binding image' found').2 i (size ▸ inside), Image.format_of_frame alike]
      · rw [Image.bytes_eq_nil outside, Image.bytes_eq_nil (size.symm ▸ outside)]

end Store

/-! ## Effects that keep stores alike -/

/-- Whether an effect neither loads hidden elements nor stores to parts of them. -/
def Effect.Discreet (hidden : Resource → Prop) (s : Store) : Effect → Prop
  | .note _ _ => True
  | .load place | .atomic place _ => ¬ hidden place.resource
  | .store place patch => hidden place.resource → patch.Covers (s.cell place).length

namespace Store

variable {hidden : Resource → Prop} {s s' : Store} {m m' : Memory} {place : Location}
  {me : InvocationId} {e : Effect} {t : Touch}

/-- Stores stay alike whatever becomes of their conflicts and diagnostics, if it is the same. -/
theorem Alike.of_contents (alike : s.Alike hidden m m' s') {t t' : Store}
    (same : t.contents = s.contents ∧ t.frame = s.frame ∧ t.log = s.log)
    (same' : t'.contents = s'.contents ∧ t'.frame = s'.frame ∧ t'.log = s'.log)
    (conflicts : t'.conflicts = t.conflicts) (diagnostics : t'.diagnostics = t.diagnostics) :
    t.Alike hidden m m' t' := by
  obtain ⟨contents, frame, log⟩ := same
  obtain ⟨contents', frame', log'⟩ := same'
  have cells : t.cell = s.cell := cell_of_contents contents
  have cells' : t'.cell = s'.cell := cell_of_contents contents'
  refine ⟨alike.proper.of_contents contents, ⟨alike.retains.wellFormed.of_contents contents', ?_, ?_⟩,
    conflicts, diagnostics, ?_, ?_⟩
  · rw [frame, frame', alike.retains.frame]
  · rw [cells, cells']
    exact alike.retains.cell
  · rw [log, log']
    exact alike.log
  · intro place member
    cases alike.stored place member with
    | never unlogged unlogged' seed seed' =>
      exact .never (log ▸ unlogged) (log' ▸ unlogged') (cells ▸ seed) (cells' ▸ seed')
    | stored logged logged' stores wrote cell =>
      exact .stored (log ▸ logged) (log' ▸ logged') stores wrote (by rw [cells, cells', cell])

theorem Alike.record (alike : s.Alike hidden m m' s') (kind : ErrorKind) (message : String)
    (me : InvocationId) : (s.record kind message me).Alike hidden m m' (s'.record kind message me) := by
  refine alike.of_contents ⟨rfl, rfl, rfl⟩ ⟨rfl, rfl, rfl⟩ alike.conflicts ?_
  exact congrArg (·.record kind message me) alike.diagnostics

/-- What one access to a place is reported as and what it leaves in the log. A hidden place is stored to
only. -/
theorem Alike.observe (alike : s.Alike hidden m m' s') (me : InvocationId)
    (stores : hidden place.resource → ∃ bits, t = .write bits) :
    let seen := (s.log.entry place (s.cell place)).observe t me
    let seen' := (s'.log.entry place (s'.cell place)).observe t me
    seen'.2 = seen.2 ∧ (¬ hidden place.resource → seen'.1 = seen.1) ∧
      (hidden place.resource → seen.1.SameStores seen'.1 ∧ seen.1.writers ≠ []) := by
  intro seen seen'
  by_cases member : hidden place.resource
  · obtain ⟨bits, rfl⟩ := stores member
    have before : (s.log.entry place (s.cell place)).SameStores
        (s'.log.entry place (s'.cell place)) := by
      unfold AccessLog.entry
      cases alike.stored place member with
      | never unlogged unlogged' =>
        rw [unlogged, unlogged']
        exact ElementLog.sameStores_fresh _ _
      | stored logged logged' same =>
        rw [logged, logged']
        exact same
    obtain ⟨same, reported⟩ := before.observe bits me
    have plain : Touch.write bits ≠ .atomic := nofun
    have wrote := (ElementLog.writers_observe before.unmixed.1 plain me).2.2 (.inr ⟨bits, rfl⟩)
    exact ⟨reported, fun visible => (visible member).elim, fun _ => ⟨same, wrote⟩⟩
  · have same : s'.log.entry place (s'.cell place) = s.log.entry place (s.cell place) := by
      rw [AccessLog.entry, AccessLog.entry, alike.log place member, alike.retains.cell place member]
    have equal : seen' = seen := congrArg (·.observe t me) same
    rw [equal]
    exact ⟨rfl, fun _ => rfl, fun other => (member other).elim⟩

/-- One access to a place, which leaves the same there. If the place is hidden, it is a store. -/
theorem Alike.access (alike : s.Alike hidden m m' s') (admitted : e.Admitted s)
    (seen : e.observation? s.cell me = some ⟨place, s.cell place, t, me⟩)
    (seen' : e.observation? s'.cell me = some ⟨place, s'.cell place, t, me⟩)
    (leaves : e.apply s'.cell place = e.apply s.cell place)
    (stores : hidden place.resource → ∃ bits, t = .write bits) :
    (s.perform me e).Alike hidden m m' (s'.perform me e) := by
  have frame := alike.retains.frame
  have admitted' : e.Admitted s' := (admitted_congr frame).2 admitted
  have unnoted : e.event? me = none := by
    cases e with
    | note kind message => cases seen
    | load | store | atomic => rfl
  have elsewhere {q : Location} (differ : q ≠ place) :
      (s.perform me e).cell q = s.cell q ∧ (s'.perform me e).cell q = s'.cell q := by
    rw [cell_perform, cell_perform]
    constructor
    · exact Effect.apply_of_ne me fun a told => by
        cases seen.symm.trans told
        exact differ.symm
    · exact Effect.apply_of_ne me fun a told => by
        cases seen'.symm.trans told
        exact differ.symm
  have here : (s'.perform me e).cell place = (s.perform me e).cell place := by
    rw [cell_perform, cell_perform, leaves]
  have logged (q : Location) : (s.perform me e).log.get? q =
      if q = place then some ((s.log.entry place (s.cell place)).observe t me).1 else s.log.get? q := by
    rw [log_perform, seen]
    exact AccessLog.get?_observe
  have logged' (q : Location) : (s'.perform me e).log.get? q =
      if q = place then some ((s'.log.entry place (s'.cell place)).observe t me).1
      else s'.log.get? q := by
    rw [log_perform, seen']
    exact AccessLog.get?_observe
  obtain ⟨reported, visible, concealed⟩ := alike.observe me stores
  refine ⟨alike.proper.perform admitted, ⟨alike.retains.wellFormed.perform admitted', ?_, ?_⟩, ?_, ?_,
    ?_, ?_⟩
  · rw [frame_perform, frame_perform, frame]
  · intro q member
    by_cases at_place : q = place
    · rw [at_place, here]
    · rw [(elsewhere at_place).1, (elsewhere at_place).2, alike.retains.cell q member]
  · rw [conflicts_perform, conflicts_perform, seen, seen', alike.conflicts]
    simp only [Option.toList_some, AccessLog.conflicts, AccessLog.snd_observe, reported]
  · rw [diagnostics_perform, diagnostics_perform, unnoted, alike.diagnostics]
  · intro q member
    rw [logged, logged']
    split
    · next at_place => rw [visible (at_place ▸ member)]
    · exact alike.log q member
  · intro q member
    by_cases at_place : q = place
    · obtain ⟨same, wrote⟩ := concealed (at_place ▸ member)
      refine .stored ((logged q).trans (if_pos at_place)) ((logged' q).trans (if_pos at_place)) same
        wrote ?_
      rw [at_place, here]
    · have kept := (logged q).trans (if_neg at_place)
      have kept' := (logged' q).trans (if_neg at_place)
      obtain ⟨cell, cell'⟩ := elsewhere at_place
      cases alike.stored q member with
      | never unlogged unlogged' seed seed' =>
        exact .never (kept.trans unlogged) (kept'.trans unlogged') (cell.trans seed) (cell'.trans seed')
      | stored written written' same wrote equal =>
        refine .stored (kept.trans written) (kept'.trans written') same wrote ?_
        rw [cell, cell', equal]

/-- A discreet effect keeps stores alike. -/
theorem Alike.perform (alike : s.Alike hidden m m' s') (admitted : e.Admitted s)
    (discreet : e.Discreet hidden s) : (s.perform me e).Alike hidden m m' (s'.perform me e) := by
  cases e with
  | note kind message => exact alike.record kind message me
  | load place =>
    exact alike.access admitted rfl rfl (alike.retains.cell place discreet) fun member =>
      (discreet member).elim
  | atomic place change =>
    have leaves : (Effect.atomic place change).apply s'.cell place =
        (Effect.atomic place change).apply s.cell place := by
      simp only [Effect.apply, Function.update_self, alike.retains.cell place discreet]
    exact alike.access admitted rfl rfl leaves fun member => (discreet member).elim
  | store place patch =>
    have bits : patch.apply (s'.cell place) = patch.apply (s.cell place) := by
      by_cases member : hidden place.resource
      · have length := length_cell_of_frame alike.proper alike.retains.wellFormed alike.retains.frame place
        exact (Patch.apply_eq_of_covers (discreet member) length.symm).symm
      · rw [alike.retains.cell place member]
    have leaves : (Effect.store place patch).apply s'.cell place =
        (Effect.store place patch).apply s.cell place := by
      simp only [Effect.apply, Function.update_self, bits]
    refine alike.access (t := .write (patch.apply (s.cell place))) admitted rfl ?_ leaves fun _ => ⟨_, rfl⟩
    rw [Effect.observation?, bits]

theorem Alike.notes (alike : s.Alike hidden m m' s') (me : InvocationId) (r : Resolution) :
    (s.performAll me r.notes).Alike hidden m m' (s'.performAll me r.notes) := by
  obtain ⟨answer, messages⟩ := r
  simp only [Resolution.notes]
  induction messages generalizing s s' with
  | nil => exact alike
  | cons message rest ih => exact ih (alike.record .outOfBounds message me)

end Store

end ComputeShader
