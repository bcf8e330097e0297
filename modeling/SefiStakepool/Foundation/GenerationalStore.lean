/-
  Foundation/GenerationalStore.lean --- the interface of a generational slot
  store, and the live entries of one.

  A generational store hands out an index for every inserted value and reuses
  the slots of removed ones.  The interface is a structure: the operations, and
  with them the laws a caller relies on, so a store that breaks its contract is
  not a value of the type.  Nothing is assumed about an index that is not live.
-/
import Mathlib.Data.List.Perm.Basic
import Mathlib.Data.List.Nodup
import Mathlib.Algebra.BigOperators.Group.List.Basic
import Mathlib.Algebra.GroupWithZero.Nat

set_option autoImplicit false

namespace SefiStakepool.Foundation

/-- What an iteration over the slots meets. -/
inductive Entry (α : Type) where
  | free
  | occupied (value : α)
  deriving DecidableEq, Repr

/-- The occupied slots among those visited, with their indices. -/
def occupied {ι α : Type} (slots : List (ι × Entry α)) : List (ι × α) :=
  slots.filterMap fun
    | (_, .free) => none
    | (i, .occupied value) => some (i, value)

/-- A generational store of `α`: operations and laws. -/
structure GenerationalStore (α : Type) where
  /-- The stored representation. -/
  Store : Type
  /-- What an insertion hands out. -/
  Index : Type
  /-- Indices can be compared. -/
  decIndex : DecidableEq Index
  /-- The store an `attach_or_create` finds where nothing was stored. -/
  empty : Store
  /-- The value a live index names. -/
  get : Store → Index → Option α
  /-- Store a value, handing out its index. -/
  insert : Store → α → Index × Store
  /-- Replace the value a live index names. -/
  update : Store → Index → α → Store
  /-- Free the slot a live index names. -/
  remove : Store → Index → Store
  /-- The slots in storage order. -/
  iter : Store → List (Index × Entry α)
  get_empty : ∀ i, get empty i = none
  get_insert_fresh : ∀ s a, get s (insert s a).1 = none
  get_insert_self : ∀ s a, get (insert s a).2 (insert s a).1 = some a
  get_insert_of_ne : ∀ s a i, i ≠ (insert s a).1 → get (insert s a).2 i = get s i
  get_update_self : ∀ s i a, (get s i).isSome → get (update s i a) i = some a
  get_update_of_ne : ∀ s i a j, (get s i).isSome → j ≠ i →
    get (update s i a) j = get s j
  get_remove_self : ∀ s i, (get s i).isSome → get (remove s i) i = none
  get_remove_of_ne : ∀ s i j, (get s i).isSome → j ≠ i →
    get (remove s i) j = get s j
  occupied_nodup : ∀ s, ((occupied (iter s)).map Prod.fst).Nodup
  mem_occupied : ∀ s i a, (i, a) ∈ occupied (iter s) ↔ get s i = some a

namespace GenerationalStore

variable {α : Type}

instance (G : GenerationalStore α) : DecidableEq G.Index := G.decIndex

variable (G : GenerationalStore α)

/-- The live entries: every index in use with the value it names. -/
def live (s : G.Store) : List (G.Index × α) := occupied (G.iter s)

/-- The live values in storage order. -/
def values (s : G.Store) : List α := (G.live s).map Prod.snd

variable {G}

theorem mem_live {s : G.Store} {i : G.Index} {a : α} :
    (i, a) ∈ G.live s ↔ G.get s i = some a :=
  G.mem_occupied s i a

theorem live_keys_nodup (s : G.Store) : ((G.live s).map Prod.fst).Nodup :=
  G.occupied_nodup s

theorem live_nodup (s : G.Store) : (G.live s).Nodup :=
  (live_keys_nodup s).of_map

theorem mem_values {s : G.Store} {a : α} :
    a ∈ G.values s ↔ ∃ i, G.get s i = some a := by
  unfold values
  simp only [List.mem_map, Prod.exists, exists_eq_right, mem_live]

/-! ## How the operations change the live entries -/

/-- A store that has one value more has one live entry more. -/
theorem live_perm_cons {s s' : G.Store} {i : G.Index} {a : α}
    (hnone : G.get s i = none) (hself : G.get s' i = some a)
    (hother : ∀ j, j ≠ i → G.get s' j = G.get s j) :
    (G.live s').Perm ((i, a) :: G.live s) := by
  have hnodup : ((i, a) :: G.live s).Nodup := by
    refine List.nodup_cons.mpr ⟨?_, live_nodup s⟩
    simp [mem_live, hnone]
  refine (List.perm_ext_iff_of_nodup (live_nodup s') hnodup).mpr ?_
  rintro ⟨j, b⟩
  rw [List.mem_cons, mem_live, mem_live]
  by_cases hj : j = i
  · subst hj
    simp [hself, hnone, eq_comm]
  · simp [hother j hj, hj]

/-- Inserting adds one live entry. -/
theorem live_insert (s : G.Store) (a : α) :
    (G.live (G.insert s a).2).Perm (((G.insert s a).1, a) :: G.live s) :=
  live_perm_cons (G.get_insert_fresh s a) (G.get_insert_self s a)
    fun j hj => G.get_insert_of_ne s a j hj

/-- The live entries before a removal are the removed one and those left. -/
theorem live_remove {s : G.Store} {i : G.Index} {a : α} (h : G.get s i = some a) :
    (G.live s).Perm ((i, a) :: G.live (G.remove s i)) := by
  have hsome : (G.get s i).isSome := by simp [h]
  refine live_perm_cons (G.get_remove_self s i hsome) h ?_
  intro j hj
  exact (G.get_remove_of_ne s i j hsome hj).symm

/-- An update leaves what a removal leaves, and the new value. -/
theorem live_update {s : G.Store} {i : G.Index} (b : α) (hsome : (G.get s i).isSome) :
    (G.live (G.update s i b)).Perm ((i, b) :: G.live (G.remove s i)) := by
  refine live_perm_cons (G.get_remove_self s i hsome) (G.get_update_self s i b hsome) ?_
  intro j hj
  rw [G.get_update_of_ne s i b j hsome hj, G.get_remove_of_ne s i j hsome hj]

/-- Total of `f` over the live values. -/
def total (f : α → Nat) (s : G.Store) : Nat := ((G.live s).map fun e => f e.2).sum

theorem sum_map_values (f : α → Nat) (s : G.Store) : ((G.values s).map f).sum = total f s := by
  unfold values total
  rw [List.map_map]
  rfl

/-- Values that count for nothing can be left out of a total. -/
theorem total_eq_filter (f : α → Nat) (s : G.Store) :
    total f s = (((G.live s).filter fun e => f e.2 ≠ 0).map fun e => f e.2).sum := by
  unfold total
  induction G.live s with
  | nil => rfl
  | cons e es ih =>
      by_cases he : f e.2 = 0
      · simpa [he] using ih
      · simpa [he] using ih

/-- Two stores have the same total when they agree on what counts in it. -/
theorem total_congr {f : α → Nat} {s s' : G.Store}
    (h : ∀ i a, f a ≠ 0 → (G.get s i = some a ↔ G.get s' i = some a)) :
    total f s = total f s' := by
  have hperm : ((G.live s).filter fun e => f e.2 ≠ 0).Perm
      ((G.live s').filter fun e => f e.2 ≠ 0) := by
    apply (List.perm_ext_iff_of_nodup ((live_nodup s).filter _)
      ((live_nodup s').filter _)).mpr
    rintro ⟨i, a⟩
    simp only [List.mem_filter, mem_live, decide_eq_true_eq]
    exact and_congr_left fun hne => h i a hne
  rw [total_eq_filter, total_eq_filter, (hperm.map _).sum_eq]

theorem total_add (f g : α → Nat) (s : G.Store) :
    total (fun a => f a + g a) s = total f s + total g s := by
  unfold total
  exact List.sum_map_add

theorem total_empty (f : α → Nat) : total f G.empty = 0 := by
  have hnil : G.live G.empty = [] := by
    apply List.eq_nil_iff_forall_not_mem.mpr
    rintro ⟨i, a⟩
    simp [mem_live, G.get_empty]
  simp [total, hnil]

theorem total_insert (f : α → Nat) (s : G.Store) (a : α) :
    total f (G.insert s a).2 = f a + total f s := by
  unfold total
  rw [((live_insert s a).map _).sum_eq, List.map_cons, List.sum_cons]

theorem total_remove (f : α → Nat) {s : G.Store} {i : G.Index} {a : α}
    (h : G.get s i = some a) : total f s = f a + total f (G.remove s i) := by
  unfold total
  rw [((live_remove h).map _).sum_eq, List.map_cons, List.sum_cons]

/-- A value is part of the total. -/
theorem le_total (f : α → Nat) {s : G.Store} {i : G.Index} {a : α}
    (h : G.get s i = some a) : f a ≤ total f s := by
  rw [total_remove f h]
  exact Nat.le_add_right _ _

/-- An update changes the total by the two values of the slot. -/
theorem total_update (f : α → Nat) {s : G.Store} {i : G.Index} {a : α} (b : α)
    (h : G.get s i = some a) : total f (G.update s i b) + f a = total f s + f b := by
  have hsome : (G.get s i).isSome := by simp [h]
  have hnew : total f (G.update s i b) = f b + total f (G.remove s i) := by
    unfold total
    rw [((live_update b hsome).map _).sum_eq, List.map_cons, List.sum_cons]
  have hold := total_remove f h
  omega

end GenerationalStore

end SefiStakepool.Foundation
