import ComputeShader.Proofs.ClosedShaders

/-! # Slots of loaded shaders

The declarations of a loaded shader hold slots of their own, as long as the last slot is spared: by all
uniforms, and by all but one of the buffers, images and samplers. Then a store that is created for the
shader holds one resource for each declaration.
-/

namespace ComputeShader

/-- A map made from a list with distinct keys holds the entries of the list. -/
theorem Bindings.perm_entries_ofList {α : Type} {items : List (Binding × α)}
    (distinct : (items.map Prod.fst).Nodup) : (Bindings.ofList items).entries.Perm items := by
  have nodup : (Bindings.ofList items).entries.Nodup := by
    refine (Bindings.ofList items).ascending.imp ?_
    rintro a _ less rfl
    exact UInt32.lt_irrefl _ less
  refine (List.perm_ext_iff_of_nodup nodup (.of_map _ distinct)).2 fun ⟨key, value⟩ => ?_
  rw [← Bindings.get?_eq_some_iff]
  refine ⟨Bindings.mem_of_get?_ofList, fun member => ?_⟩
  have found : (Bindings.ofList (items.map fun e => (e.1, e.2))).get? key = some value :=
    Bindings.get?_ofList_of_nodup distinct member
  rwa [List.map_id'] at found

/-- The binding of the last slot. -/
def lastBinding : Binding := .ofNat slotLimit

namespace Shader

variable {s : Shader}

/-- Whether the last slot is held by no uniform, and by no more than one resource of a kind. -/
structure SparesLast (s : Shader) : Prop where
  buffers : (s.buffers.map BufferDecl.binding).count lastBinding ≤ 1
  images : (s.images.map ImageDecl.binding).count lastBinding ≤ 1
  samplers : (s.samplers.map SamplerDecl.binding).count lastBinding ≤ 1
  uniforms : ∀ u ∈ s.uniforms, ¬ u.slots.Holds slotLimit

instance : Decidable s.SparesLast :=
  decidable_of_iff
    ((s.buffers.map BufferDecl.binding).count lastBinding ≤ 1 ∧
      (s.images.map ImageDecl.binding).count lastBinding ≤ 1 ∧
      (s.samplers.map SamplerDecl.binding).count lastBinding ≤ 1 ∧
      ∀ u ∈ s.uniforms, ¬ u.slots.Holds slotLimit)
    ⟨fun ⟨buffers, images, samplers, uniforms⟩ => ⟨buffers, images, samplers, uniforms⟩,
      fun ⟨buffers, images, samplers, uniforms⟩ => ⟨buffers, images, samplers, uniforms⟩⟩

/-- Whether no two declarations of a kind share a slot. -/
structure SlotsUnique (s : Shader) : Prop where
  buffers : (s.buffers.map BufferDecl.binding).Nodup
  images : (s.images.map ImageDecl.binding).Nodup
  samplers : (s.samplers.map SamplerDecl.binding).Nodup
  uniforms : s.uniforms.Pairwise fun u v => u.slots.Disjoint v.slots

end Shader

/-- Whether a store holds one buffer, image and texture for each declaration. -/
structure Store.HoldsEach (s : Store) (shader : Shader) : Prop where
  buffers : (s.buffers.entries.map fun (binding, b) => (binding, b.name, b.element)).Perm
    (shader.buffers.map fun b => (b.binding, b.displayName, b.element))
  images : (s.images.entries.map fun (binding, i) => (binding, i.name, i.format)).Perm
    (shader.images.map fun i => (i.binding, i.name, i.format))
  textures : s.textures.keys.Perm (shader.samplers.map SamplerDecl.binding)

theorem SlotRange.run_holds_iff {a : Binding} {slot : Nat} :
    (SlotRange.run a 1).Holds slot ↔ slot = a.toNat := by
  simp only [SlotRange.run, SlotRange.Holds]
  omega

/-- Bindings that are apart are distinct, if at most one of them is the last. -/
theorem nodup_of_apart {α : Type} {decls : List α} {binding : α → Binding}
    (apart : decls.Pairwise fun a b => (SlotRange.run (binding a) 1).Apart (.run (binding b) 1))
    (few : (decls.map binding).count lastBinding ≤ 1) : (decls.map binding).Nodup := by
  induction decls with
  | nil => exact .nil
  | cons a rest ih =>
    obtain ⟨first, later⟩ := List.pairwise_cons.1 apart
    rw [List.map_cons, List.count_cons] at few
    refine List.nodup_cons.2 ⟨fun member => ?_, ih later (by omega)⟩
    obtain ⟨b, held, same⟩ := List.mem_map.1 member
    have last : binding a = lastBinding := by
      have apart := first b held
      rw [same] at apart
      rcases apart with here | here | disjoint
      · exact UInt32.toNat_inj.1 (SlotRange.run_holds_iff.1 here).symm
      · exact UInt32.toNat_inj.1 (SlotRange.run_holds_iff.1 here).symm
      · exact absurd (SlotRange.run_holds_iff.2 rfl) (disjoint _ (SlotRange.run_holds_iff.2 rfl))
    have present := List.count_pos_iff.2 (last ▸ member)
    rw [last, if_pos (beq_self_eq_true _)] at few
    omega

namespace Store

variable {shader : Shader}

/-- A created store holds one resource for each declaration, if the slots are unique. -/
theorem holdsEach_create (config : EngineConfig) (unique : shader.SlotsUnique) :
    (create shader config).HoldsEach shader := by
  have held {α β γ : Type} {decls : List α} {binding : α → Binding} {value : α → β}
      (distinct : (decls.map binding).Nodup) (f : Binding × β → γ) :
      ((Bindings.ofList (decls.map fun a => (binding a, value a))).entries.map f).Perm
        (decls.map fun a => f (binding a, value a)) := by
    have keys : ((decls.map fun a => (binding a, value a)).map Prod.fst).Nodup := by rwa [List.map_map]
    have mapped := (Bindings.perm_entries_ofList keys).map f
    rwa [List.map_map] at mapped
  exact ⟨held unique.buffers _, held unique.images _, held unique.samplers _⟩

end Store

namespace Shader

variable {s : Shader}

theorem slotsApart_of_load {name source : String} (loaded : load name source = .ok s) :
    s.SlotsApart :=
  (scoped_of_parse (parsed_of_load loaded).1).2

/-- Declarations of a loaded shader share a slot only if one of them reaches the last slot. If that slot is
spared, no two declarations of a kind share a slot, and a store created for the shader holds one resource
for each declaration. -/
theorem slots_unique_of_load {name source : String} (loaded : load name source = .ok s) :
    s.SlotsApart ∧ (s.SparesLast →
      s.SlotsUnique ∧ ∀ config, (Store.create s config).HoldsEach s) := by
  have apart := slotsApart_of_load loaded
  refine ⟨apart, fun spares => ?_⟩
  have unique : s.SlotsUnique := by
    refine ⟨nodup_of_apart apart.buffers spares.buffers, nodup_of_apart apart.images spares.images,
      nodup_of_apart apart.samplers spares.samplers, ?_⟩
    refine List.Pairwise.imp_of_mem (fun {u v} inU inV apart => ?_) apart.uniforms
    rcases apart with last | last | disjoint
    · exact absurd last (spares.uniforms u inU)
    · exact absurd last (spares.uniforms v inV)
    · exact disjoint
  exact ⟨unique, fun config => Store.holdsEach_create config unique⟩

/-- Declarations with and without slots of their own, one at the last binding. -/
def mingled : String :=
  "#version 310 es\n" ++
  "layout(local_size_x = 1) in;\n" ++
  "buffer First \x7b int first[]; \x7d;\n" ++
  "layout(binding = 4294967295u) buffer Last \x7b int last[]; \x7d;\n" ++
  "layout(binding = 0) buffer Zero \x7b int zero[]; \x7d;\n" ++
  "uniform int wide[3];\n" ++
  "layout(location = 2) uniform int two;\n" ++
  "uniform int narrow;\n" ++
  "void main() \x7b\n" ++
  "\x7d\n"

theorem slots_unique_mingled : ∃ s : Shader, load "mingled" mingled = .ok s ∧
    s.buffers.map BufferDecl.binding = [1, lastBinding, 0] ∧ s.SparesLast ∧ s.SlotsUnique ∧
    (Store.create s {}).HoldsEach s := by
  have outcome : (load "mingled" mingled).toOption.any fun s =>
      s.buffers.map BufferDecl.binding == [1, lastBinding, 0] && decide s.SparesLast := by
    rw [Dispatcher.load_of_toList "mingled" (by
      delta mingled
      simp only [String.toList_append, String.reduceToList]
      rfl)]
    decide +kernel
  obtain ⟨s, loaded, outcome⟩ := exists_ok outcome
  obtain ⟨bindings, outcome⟩ := Bool.and_eq_true_iff.1 outcome
  have spares := of_decide_eq_true outcome
  obtain ⟨-, unique⟩ := slots_unique_of_load loaded
  exact ⟨s, loaded, eq_of_beq bindings, spares, (unique spares).1, (unique spares).2 {}⟩

/-- Two buffers at the last binding. -/
def colliding : String :=
  "#version 310 es\n" ++
  "layout(local_size_x = 1) in;\n" ++
  "layout(binding = 4294967295u) buffer A \x7b int a[]; \x7d;\n" ++
  "layout(binding = 4294967295u) buffer B \x7b int b[]; \x7d;\n" ++
  "void main() \x7b\n" ++
  "\x7d\n"

/-- A shader is loaded whose two buffers share the last binding, and a store created for it holds the
second one in place of the first. -/
theorem last_binding_shared : ∃ s : Shader, load "colliding" colliding = .ok s ∧ ¬ s.SlotsUnique ∧
    ¬ (Store.create s {}).HoldsEach s := by
  have outcome : (load "colliding" colliding).toOption.any fun s =>
      !decide (s.buffers.map BufferDecl.binding).Nodup &&
        (Store.create s {}).buffers.entries.length != s.buffers.length := by
    rw [Dispatcher.load_of_toList "colliding" (by
      delta colliding
      simp only [String.toList_append, String.reduceToList]
      rfl)]
    decide +kernel
  obtain ⟨s, loaded, outcome⟩ := exists_ok outcome
  obtain ⟨shared, fewer⟩ := Bool.and_eq_true_iff.1 outcome
  refine ⟨s, loaded, fun unique => ?_, fun each => ?_⟩
  · exact absurd unique.buffers (of_decide_eq_false (by simpa using shared))
  · have lengths := each.buffers.length_eq
    rw [List.length_map, List.length_map] at lengths
    exact absurd lengths (bne_iff_ne.1 fewer)

end Shader

end ComputeShader
