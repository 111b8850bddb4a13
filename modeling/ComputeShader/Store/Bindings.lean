import ComputeShader.Shader.Syntax

/-! # Maps from bindings

A finite map from binding points, kept in ascending order.
-/

namespace ComputeShader

/-- A finite map from bindings. -/
structure Bindings (α : Type) where
  entries : List (Binding × α)
  ascending : entries.Pairwise (fun a b => a.1 < b.1)

namespace Bindings

variable {α β : Type}

def empty : Bindings α := ⟨[], .nil⟩

instance : Inhabited (Bindings α) := ⟨empty⟩

instance [Repr α] : Repr (Bindings α) := ⟨fun b n => reprPrec b.entries n⟩

instance [DecidableEq α] : DecidableEq (Bindings α) := fun a b =>
  decidable_of_iff (a.entries = b.entries) (by cases a; cases b; simp)

def get? (b : Bindings α) (key : Binding) : Option α := b.entries.lookup key

def keys (b : Bindings α) : List Binding := b.entries.map Prod.fst

/-- Put a value into an ascending list, replacing one of the same key. -/
def insertEntry (key : Binding) (value : α) : List (Binding × α) → List (Binding × α)
  | [] => [(key, value)]
  | (k, v) :: rest =>
    if key < k then (key, value) :: (k, v) :: rest
    else if key = k then (key, value) :: rest
    else (k, v) :: insertEntry key value rest

theorem key_of_mem_insertEntry {key : Binding} {value : α} {entries : List (Binding × α)}
    {e : Binding × α} (h : e ∈ insertEntry key value entries) : e.1 = key ∨ e ∈ entries := by
  induction entries with
  | nil =>
    simp only [insertEntry, List.mem_singleton] at h
    exact .inl (h ▸ rfl)
  | cons head rest ih =>
    simp only [insertEntry] at h
    split at h
    · rcases List.mem_cons.1 h with rfl | h
      · exact .inl rfl
      · exact .inr h
    · split at h
      · rcases List.mem_cons.1 h with rfl | h
        · exact .inl rfl
        · exact .inr (List.mem_cons_of_mem _ h)
      · rcases List.mem_cons.1 h with rfl | h
        · exact .inr List.mem_cons_self
        · exact (ih h).imp_right (List.mem_cons_of_mem _)

theorem ascending_insertEntry {key : Binding} {value : α} {entries : List (Binding × α)}
    (h : entries.Pairwise (fun a b => a.1 < b.1)) :
    (insertEntry key value entries).Pairwise (fun a b => a.1 < b.1) := by
  induction entries with
  | nil => simp [insertEntry]
  | cons head rest ih =>
    obtain ⟨below, sorted⟩ := List.pairwise_cons.1 h
    simp only [insertEntry]
    split
    · next less =>
      refine List.pairwise_cons.2 ⟨fun e mem => ?_, h⟩
      rcases List.mem_cons.1 mem with rfl | mem
      · exact less
      · exact UInt32.lt_trans less (below e mem)
    · split
      · next same => exact List.pairwise_cons.2 ⟨fun e mem => same ▸ below e mem, sorted⟩
      · next notLess notSame =>
        refine List.pairwise_cons.2 ⟨fun e mem => ?_, ih sorted⟩
        rcases key_of_mem_insertEntry mem with same | mem
        · rw [same]
          exact UInt32.lt_of_le_of_ne (UInt32.not_lt.1 notLess) (Ne.symm notSame)
        · exact below e mem

/-- The map with a value put at a key. -/
def insert (b : Bindings α) (key : Binding) (value : α) : Bindings α :=
  ⟨insertEntry key value b.entries, ascending_insertEntry b.ascending⟩

/-- The map of a list, in which later values replace earlier ones. -/
def ofList (items : List (Binding × α)) : Bindings α :=
  items.foldl (fun b (key, value) => b.insert key value) empty

/-- Apply a function to every value. -/
def mapValues (b : Bindings α) (f : Binding → α → β) : Bindings β :=
  ⟨b.entries.map fun (key, value) => (key, f key value), List.pairwise_map.2 b.ascending⟩

/-- Apply a function to the value at a key, if there is one. -/
def modify (b : Bindings α) (key : Binding) (f : α → α) : Bindings α :=
  b.mapValues fun k value => if k = key then f value else value

/-! ## Looking up -/

@[simp] theorem get?_mapValues (b : Bindings α) (f : Binding → α → β) (key : Binding) :
    (b.mapValues f).get? key = (b.get? key).map (f key) := by
  have lookup (entries : List (Binding × α)) :
      (entries.map fun (k, value) => (k, f k value)).lookup key =
        (entries.lookup key).map (f key) := by
    induction entries with
    | nil => rfl
    | cons head rest ih => grind
  exact lookup b.entries

theorem get?_modify (b : Bindings α) (key other : Binding) (f : α → α) :
    (b.modify key f).get? other = if other = key then (b.get? other).map f else b.get? other := by
  rw [modify, get?_mapValues]
  split
  · next same => simp [same]
  · simp

theorem get?_eq_some_iff {b : Bindings α} {key : Binding} {value : α} :
    b.get? key = some value ↔ (key, value) ∈ b.entries := by
  obtain ⟨entries, ascending⟩ := b
  simp only [get?]
  induction entries with
  | nil => simp
  | cons head rest ih =>
    obtain ⟨k, v⟩ := head
    obtain ⟨below, sorted⟩ := List.pairwise_cons.1 ascending
    have absent : (k, value) ∉ rest := fun member => UInt32.lt_irrefl k (below _ member)
    rw [List.lookup_cons, List.mem_cons, Prod.mk.injEq]
    by_cases same : key = k
    · subst same
      simp [absent, eq_comm]
    · simp [same, beq_false_of_ne same, ih sorted]

theorem get?_insert (b : Bindings α) (key other : Binding) (value : α) :
    (b.insert key value).get? other = if other = key then some value else b.get? other := by
  have lookup (entries : List (Binding × α)) :
      (insertEntry key value entries).lookup other =
        if other = key then some value else entries.lookup other := by
    induction entries with
    | nil => grind [insertEntry]
    | cons head rest ih => grind [insertEntry]
  exact lookup b.entries

/-- A map made from a list holds only what the list holds. -/
theorem mem_of_get?_ofList {items : List (Binding × α)} {key : Binding} {value : α}
    (found : (ofList items).get? key = some value) : (key, value) ∈ items := by
  have origin (items : List (Binding × α)) (b : Bindings α)
      (found : (items.foldl (fun b (key, value) => b.insert key value) b).get? key = some value) :
      (key, value) ∈ items ∨ b.get? key = some value := by
    induction items generalizing b with
    | nil => exact .inr found
    | cons head rest ih =>
      rcases ih (b.insert head.1 head.2) found with later | before
      · exact .inl (List.mem_cons_of_mem _ later)
      · rw [get?_insert] at before
        split at before
        · next same =>
          obtain rfl := Option.some.inj before
          exact .inl (same ▸ List.mem_cons_self)
        · exact .inr before
  rcases origin items empty found with member | nothing
  · exact member
  · cases nothing

/-- A map made from a list has all keys of the list. -/
theorem isSome_get?_ofList {items : List (Binding × α)} {key : Binding} :
    ((ofList items).get? key).isSome ↔ key ∈ items.map Prod.fst := by
  have grown (items : List (Binding × α)) (b : Bindings α) :
      ((items.foldl (fun b (key, value) => b.insert key value) b).get? key).isSome ↔
        key ∈ items.map Prod.fst ∨ (b.get? key).isSome := by
    induction items generalizing b with
    | nil => simp
    | cons head rest ih =>
      rw [List.foldl_cons, ih, get?_insert, List.map_cons, List.mem_cons]
      split <;> simp_all
  rw [ofList, grown]
  simp [empty, get?]

/-- Maps with the same values at all keys are equal. -/
theorem ext_get? {a b : Bindings α} (same : ∀ key, a.get? key = b.get? key) : a = b := by
  have nodup (c : Bindings α) : c.entries.Nodup := by
    refine List.Pairwise.imp ?_ c.ascending
    rintro x y less rfl
    exact UInt32.lt_irrefl _ less
  have members (e : Binding × α) : e ∈ a.entries ↔ e ∈ b.entries := by
    rw [← get?_eq_some_iff, ← get?_eq_some_iff, same]
  have entries : a.entries = b.entries :=
    List.Perm.eq_of_pairwise
      (fun x y _ _ less greater => (UInt32.lt_irrefl _ (UInt32.lt_trans less greater)).elim)
      a.ascending b.ascending ((List.perm_ext_iff_of_nodup (nodup a) (nodup b)).2 members)
  cases a
  cases b
  cases entries
  rfl

end Bindings

end ComputeShader
