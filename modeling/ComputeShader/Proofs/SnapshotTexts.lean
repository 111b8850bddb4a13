import ComputeShader.Snapshot.Encoding
import ComputeShader.Proofs.WrittenValues

/-! # Reading written snapshots

The text of a snapshot holds all of it: decoding gives the snapshot back, whatever its strings, bindings
and contents are. So snapshots with equal texts are equal.
-/

namespace ComputeShader

namespace Json

variable {α : Type}

/-! ## Parts of documents -/

theorem lookup_of_nodup {members : List (String × Json)} (nodup : (members.map Prod.fst).Nodup)
    {m : String × Json} (member : m ∈ members) : members.lookup m.1 = some m.2 := by
  induction members with
  | nil => cases member
  | cons head rest ih =>
    rw [List.map_cons, List.nodup_cons] at nodup
    rcases List.mem_cons.1 member with rfl | later
    · exact List.lookup_cons_self
    · have other : (m.1 == head.1) = false :=
        beq_false_of_ne fun same => nodup.1 (same ▸ List.mem_map_of_mem later)
      rw [List.lookup_cons, other]
      exact ih nodup.2 later

/-- The fields of a record that has no others, in order. -/
theorem fields?_object (d : Dialect) (surplus : Surplus) {members : List (String × Json)}
    {names : List String} (named : members.map Prod.fst = names) (nodup : names.Nodup) :
    (object members).fields? d surplus names = some (members.map fun m => some m.2) := by
  subst named
  have once : ¬ (members.map Prod.fst).any fun name => 1 < (members.map Prod.fst).count name := by
    simp only [List.any_eq_true, not_exists, not_and, decide_eq_true_eq, Nat.not_lt]
    exact fun name _ => List.nodup_iff_count.1 nodup name
  have known : ¬ (surplus = .refused ∧
      (members.map Prod.fst).any fun key => !(members.map Prod.fst).contains key) := by
    simp
  rw [fields?, fieldsByName?, if_neg once, if_neg known, List.map_map]
  exact congrArg some (List.map_congr_left fun m member => lookup_of_nodup nodup member)

theorem asUInt32?_nat (n : UInt32) : asUInt32? (nat n.toNat) = some n := by
  have small : n.toNat < 4294967296 := n.toNat_lt
  change (if n.toNat < 4294967296 then some n.toNat else none).map UInt32.ofNat = some n
  rw [if_pos small, Option.map_some, UInt32.ofNat_toNat]

theorem asUInt64?_nat {n : Nat} (small : n < 18446744073709551616) : asUInt64? (nat n) = some n :=
  if_pos small

theorem listOf_array {read : Json → Option α} {write : α → Json} (items : List α)
    (each : ∀ a ∈ items, read (write a) = some a) : listOf read (array (items.map write)) = some items := by
  change (items.map write).mapM read = some items
  induction items with
  | nil => rfl
  | cons a items ih =>
    obtain ⟨first, later⟩ := List.forall_mem_cons.1 each
    rw [List.map_cons, List.mapM_cons, first, ih later]
    rfl

end Json

/-! ## Resources -/

theorem ValueType.ofJson?_name (ty : ValueType) : ofJson? (.string ty.name) = some ty := by
  cases ty with
  | scalar kind => cases kind <;> rfl
  | vector kind size => cases kind <;> cases size <;> rfl
  | mat3 => rfl

theorem ErrorKind.constant_name (k : ErrorKind) :
    Json.constant .json ErrorKind.all ErrorKind.name (.string k.name) = some k := by
  cases k <;> rfl

theorem TexelFormat.constant_name (f : TexelFormat) :
    Json.constant .json TexelFormat.all TexelFormat.name (.string f.name) = some f := by
  cases f <;> rfl

/-- Whether the counts of a diagnostic are 64-bit numbers. -/
structure Diagnostic.Fits (d : Diagnostic) : Prop where
  occurrences : d.occurrences < 18446744073709551616
  first : d.firstInvocation < 18446744073709551616

theorem Diagnostic.ofJson?_toJson {d : Diagnostic} (fits : d.Fits) : ofJson? d.toJson = some d := by
  rw [ofJson?, toJson, Json.fields?_object]
  · simp only [bind, Option.bind_some, List.map_cons, List.map_nil, Json.required,
      ErrorKind.constant_name, Json.asString?, Json.asUInt64?_nat fits.occurrences,
      Json.asUInt64?_nat fits.first]
  · rfl
  · decide

theorem BufferSnapshot.ofJson?_toJson (b : BufferSnapshot) : ofJson? b.toJson = some b := by
  have lanes : Json.listOf Json.asUInt32? (.nats (b.lanes.map UInt32.toNat)) = some b.lanes := by
    rw [Json.nats, List.map_map]
    exact Json.listOf_array b.lanes fun n _ => Json.asUInt32?_nat n
  rw [ofJson?, toJson, Json.fields?_object]
  · simp only [bind, Option.bind_some, List.map_cons, List.map_nil, Json.required,
      Json.asString?, ValueType.ofJson?_name, lanes]
  · rfl
  · decide

theorem ImageSnapshot.ofJson?_toJson (i : ImageSnapshot) : ofJson? i.toJson = some i := by
  have byte (n : UInt8) : ((Json.nat n.toNat).asNatBelow? 256).map UInt8.ofNat = some n := by
    change (if n.toNat < 256 then some n.toNat else none).map UInt8.ofNat = some n
    rw [if_pos n.toNat_lt, Option.map_some, UInt8.ofNat_toNat]
  have texels : Json.listOf (fun j => (j.asNatBelow? 256).map UInt8.ofNat)
      (.nats (i.texels.map UInt8.toNat)) = some i.texels := by
    rw [Json.nats, List.map_map]
    exact Json.listOf_array i.texels fun n _ => byte n
  rw [ofJson?, toJson, Json.fields?_object]
  · simp only [bind, Option.bind_some, List.map_cons, List.map_nil, Json.required,
      Json.asString?, TexelFormat.constant_name, Json.asUInt32?_nat, texels]
  · rfl
  · decide

/-! ## Maps from bindings -/

theorem bindingOfKey?_toString (key : Binding) : bindingOfKey? (toString key) = some key := by
  have text : (toString key).toList = Nat.toDigits 10 key.toNat ++ [] := by
    rw [List.append_nil]
    exact Nat.toList_repr
  have stop : Json.NoDigit [] := by
    rintro c ⟨⟩
  obtain ⟨digits, read, value⟩ := Json.wholeDigits?_toDigits key.toNat stop
  have small : key.toNat < 4294967296 := key.toNat_lt
  simp only [bindingOfKey?, text, read, value, if_pos small, UInt32.ofNat_toNat]

namespace Bindings

variable {α : Type}

theorem ofList_entries (b : Bindings α) : ofList b.entries = b := by
  refine ext_get? fun key => ?_
  cases listed : (ofList b.entries).get? key with
  | some value => exact (get?_eq_some_iff.2 (mem_of_get?_ofList listed)).symm
  | none =>
    cases held : b.get? key with
    | none => rfl
    | some value =>
      have member := List.mem_map_of_mem (f := Prod.fst) (get?_eq_some_iff.1 held)
      have present := isSome_get?_ofList.2 member
      rw [listed] at present
      cases present

theorem ofJson?_toJson {read : Json → Option α} {write : α → Json} (each : ∀ a, read (write a) = some a)
    (b : Bindings α) : ofJson? read (b.toJson write) = some b := by
  have all (entries : List (Binding × α)) :
      (entries.map fun e => (toString e.1, write e.2)).mapM
        (fun m => do some ((← bindingOfKey? m.1), (← read m.2))) = some entries := by
    induction entries with
    | nil => rfl
    | cons e entries ih =>
      rw [List.map_cons, List.mapM_cons, ih]
      simp [bindingOfKey?_toString, each]
  have map : ofJson? read (b.toJson write) = (some b.entries).map ofList :=
    congrArg (Option.map ofList) (all b.entries)
  rw [map, Option.map_some, ofList_entries]

end Bindings

/-! ## Snapshots -/

namespace Snapshot

/-- Whether the counts of the diagnostics are 64-bit numbers. -/
def Fits (s : Snapshot) : Prop := ∀ d ∈ s.diagnostics, d.Fits

theorem ofJson?_toJson {s : Snapshot} (fits : s.Fits) : ofJson? s.toJson = some s := by
  have diagnostics : Json.listOf Diagnostic.ofJson? (.array (s.diagnostics.map Diagnostic.toJson)) =
      some s.diagnostics :=
    Json.listOf_array s.diagnostics fun d member => Diagnostic.ofJson?_toJson (fits d member)
  rw [ofJson?, toJson, Json.fields?_object]
  · simp only [bind, Option.bind_some, List.map_cons, List.map_nil, Json.required,
      Json.optional, Json.asString?, Bindings.ofJson?_toJson BufferSnapshot.ofJson?_toJson,
      Bindings.ofJson?_toJson ImageSnapshot.ofJson?_toJson, diagnostics]
  · rfl
  · decide

end Snapshot

/-! ## Texts -/

theorem Json.readBack_nats {ns : List Nat} (small : ∀ n ∈ ns, n < Json.significandLimit) :
    Json.ReadBack (.nats ns) := by
  refine Json.readBack_array fun j member => ?_
  obtain ⟨n, listed, rfl⟩ := List.mem_map.1 member
  exact Json.readBack_nat (small n listed)

theorem Diagnostic.readBack_toJson {d : Diagnostic} (fits : d.Fits) : Json.ReadBack d.toJson := by
  refine Json.readBack_object ?_
  simp [Json.readBack_string, Json.readBack_nat fits.occurrences, Json.readBack_nat fits.first]

theorem readBack_word (n : UInt32) : Json.ReadBack (.nat n.toNat) :=
  Json.readBack_nat (Nat.lt_trans n.toNat_lt (by decide))

theorem BufferSnapshot.readBack_toJson (b : BufferSnapshot) : Json.ReadBack b.toJson := by
  have lanes : Json.ReadBack (.nats (b.lanes.map UInt32.toNat)) := by
    refine Json.readBack_nats fun n member => ?_
    obtain ⟨lane, -, rfl⟩ := List.mem_map.1 member
    exact Nat.lt_trans lane.toNat_lt (by decide)
  refine Json.readBack_object ?_
  simp [Json.readBack_string, lanes]

theorem ImageSnapshot.readBack_toJson (i : ImageSnapshot) : Json.ReadBack i.toJson := by
  have texels : Json.ReadBack (.nats (i.texels.map UInt8.toNat)) := by
    refine Json.readBack_nats fun n member => ?_
    obtain ⟨byte, -, rfl⟩ := List.mem_map.1 member
    exact Nat.lt_trans byte.toNat_lt (by decide)
  refine Json.readBack_object ?_
  simp [Json.readBack_string, readBack_word, texels]

theorem Bindings.readBack_toJson {α : Type} {item : α → Json} (each : ∀ a, Json.ReadBack (item a))
    (b : Bindings α) : Json.ReadBack (b.toJson item) := by
  refine Json.readBack_object fun m member => ?_
  obtain ⟨e, -, rfl⟩ := List.mem_map.1 member
  exact each e.2

namespace Snapshot

theorem readBack_toJson {s : Snapshot} (fits : s.Fits) : Json.ReadBack s.toJson := by
  have diagnostics : Json.ReadBack (.array (s.diagnostics.map Diagnostic.toJson)) := by
    refine Json.readBack_array fun j member => ?_
    obtain ⟨d, listed, rfl⟩ := List.mem_map.1 member
    exact Diagnostic.readBack_toJson (fits d listed)
  refine Json.readBack_object ?_
  simp [Json.readBack_string, Bindings.readBack_toJson BufferSnapshot.readBack_toJson,
    Bindings.readBack_toJson ImageSnapshot.readBack_toJson, diagnostics]

theorem decode?_encode {s : Snapshot} (fits : s.Fits) : decode? s.encode = some s := by
  rw [decode?, encode, Json.parse?_pretty (readBack_toJson fits), Option.bind_some, ofJson?_toJson fits]

/-- Decoding gives back every snapshot from its text, and only equal snapshots have equal bytes. -/
theorem encoding_lossless :
    (∀ s : Snapshot, s.Fits → decode? s.encode = some s) ∧
      ∀ s s' : Snapshot, s.Fits → s'.Fits → s.encode.toUTF8 = s'.encode.toUTF8 → s = s' := by
  refine ⟨fun s fits => decode?_encode fits, fun s s' fits fits' bytes => ?_⟩
  have texts : s.encode = s'.encode := String.toByteArray_inj.1 bytes
  have same : some s = some s' := by rw [← decode?_encode fits, texts, decode?_encode fits']
  exact Option.some.inj same

/-- Two buffers, at the last binding and at one that takes two digits. -/
def farBuffers : List (Binding × BufferSnapshot) :=
  [(4294967295, ⟨"größe 😀", .vector .bool .three, [1, 0, 4294967295]⟩), (10, ⟨"\\u0041", .mat3, []⟩)]

/-- A snapshot with quotes, controls and letters beyond ASCII in its strings, and the largest count. -/
def motley (buffers : List (Binding × BufferSnapshot)) : Snapshot where
  shader := "\"C:\\tmp\"\x01\t"
  buffers := .ofList buffers
  images := .ofList [(7, ⟨"dots", .r32ui, 2, 1, [255, 0, 0, 0, 1, 2, 3, 4]⟩), (0, ⟨"", .rgba8, 0, 0, []⟩)]
  diagnostics := [⟨.outOfBounds, "index -1\n", 18446744073709551615, 0⟩, ⟨.raceDetected, "/\x7f", 1, 12⟩]

/-- The text comes back from decoding, and does not show the order in which buffers were given. -/
theorem encoding_lossless_motley :
    (motley farBuffers).Fits ∧ (motley farBuffers.reverse).Fits ∧
      decode? (motley farBuffers).encode = some (motley farBuffers) ∧
      (motley farBuffers).encode.toUTF8 = (motley farBuffers.reverse).encode.toUTF8 ∧
      motley farBuffers = motley farBuffers.reverse := by
  have fits (buffers : List (Binding × BufferSnapshot)) : (motley buffers).Fits := by
    intro d member
    simp only [motley, List.mem_cons, List.not_mem_nil, or_false] at member
    rcases member with rfl | rfl
    · exact ⟨by decide, by decide⟩
    · exact ⟨by decide, by decide⟩
  have sorted : Bindings.ofList farBuffers = Bindings.ofList farBuffers.reverse := by decide
  have bytes : (motley farBuffers).encode.toUTF8 = (motley farBuffers.reverse).encode.toUTF8 := by
    rw [motley, motley, sorted]
  exact ⟨fits _, fits _, encoding_lossless.1 _ (fits _), bytes,
    encoding_lossless.2 _ _ (fits _) (fits _) bytes⟩

end Snapshot

end ComputeShader
