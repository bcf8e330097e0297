/-
  Foundation/Arena.lean --- a generational store that keeps its slots in a list.

  An insertion takes the first free slot, or a new one at the end; a removal
  frees the slot and starts a new generation, so the index of a removed value
  never names the slot's next occupant.  The arena shows that the laws of
  `GenerationalStore` can be met, and is the store runs are evaluated with.
-/
import Mathlib.Tactic.Common
import SefiStakepool.Foundation.GenerationalStore

set_option autoImplicit false

namespace SefiStakepool.Foundation

/-- Slots in storage order, an occupied one with the generation it was filled
in, and the current generation. -/
structure Arena (α : Type) where
  slots : List (Option (Nat × α))
  generation : Nat
  deriving DecidableEq, Repr

namespace Arena

variable {α : Type}

/-- An index is a slot number with the generation of its value. -/
abbrev Index : Type := Nat × Nat

/-- The first slot that is free, or the one past the end. -/
def firstFree (slots : List (Option (Nat × α))) : Nat :=
  slots.findIdx Option.isNone

/-- Write one slot; the slot past the end is appended. -/
def write (slots : List (Option (Nat × α))) (n : Nat) (slot : Option (Nat × α)) :
    List (Option (Nat × α)) :=
  if n < slots.length then slots.set n slot else slots ++ [slot]

/-- The value in a slot, if it is of the given generation. -/
def read (slots : List (Option (Nat × α))) (i : Index) : Option α :=
  match slots[i.1]? with
  | some (some (generation, a)) => if generation = i.2 then some a else none
  | _ => none

/-- The slots with their indices; a free slot has no generation to show. -/
def visit (slots : List (Option (Nat × α))) : List (Index × Entry α) :=
  slots.zipIdx.map fun
    | (none, n) => ((n, 0), .free)
    | (some (generation, a), n) => ((n, generation), .occupied a)

theorem firstFree_le (slots : List (Option (Nat × α))) :
    firstFree slots ≤ slots.length :=
  List.findIdx_le_length

theorem getElem?_firstFree (slots : List (Option (Nat × α))) (generation : Nat) (a : α) :
    slots[firstFree slots]? ≠ some (some (generation, a)) := by
  intro h
  obtain ⟨hlt, hget⟩ := List.getElem?_eq_some_iff.mp h
  have hnone : slots[firstFree slots].isNone = true := List.findIdx_getElem
  simp [hget] at hnone

theorem getElem?_write_self {slots : List (Option (Nat × α))} {n : Nat}
    (h : n ≤ slots.length) (slot : Option (Nat × α)) :
    (write slots n slot)[n]? = some slot := by
  unfold write
  split
  · rename_i hlt
    simp [hlt]
  · have hn : n = slots.length := by omega
    simp [hn]

theorem getElem?_write_of_ne {slots : List (Option (Nat × α))} {n m : Nat}
    (h : n ≤ slots.length) (hne : m ≠ n) (slot : Option (Nat × α)) :
    (write slots n slot)[m]? = slots[m]? := by
  unfold write
  split
  · rw [List.getElem?_set_ne (Ne.symm hne)]
  · have hn : n = slots.length := by omega
    by_cases hm : m < slots.length
    · rw [List.getElem?_append_left hm]
    · rw [List.getElem?_eq_none (by simp; omega), List.getElem?_eq_none (by omega)]

theorem read_eq_some {slots : List (Option (Nat × α))} {i : Index} {a : α} :
    read slots i = some a ↔ slots[i.1]? = some (some (i.2, a)) := by
  unfold read
  split
  · rename_i generation b h
    rw [h]
    by_cases hg : generation = i.2 <;> simp [hg]
  · rename_i h
    simp only [reduceCtorEq, false_iff]
    exact fun heq => h _ _ heq

/-- Two reads agree when their slots do. -/
theorem read_congr {slots slots' : List (Option (Nat × α))} {i : Index}
    (h : slots'[i.1]? = slots[i.1]?) : read slots' i = read slots i := by
  unfold read
  rw [h]

theorem le_length_of_isSome {slots : List (Option (Nat × α))} {i : Index}
    (h : (read slots i).isSome) : i.1 ≤ slots.length := by
  obtain ⟨a, ha⟩ := Option.isSome_iff_exists.mp h
  exact Nat.le_of_lt (List.getElem?_eq_some_iff.mp (read_eq_some.mp ha)).1

/-- Writing the slot of a value, of its generation or free, leaves every other
index alone. -/
theorem read_write_of_ne {slots : List (Option (Nat × α))} {i j : Index}
    (h : (read slots i).isSome) (hne : j ≠ i) {slot : Option (Nat × α)}
    (hslot : ∀ generation a, slot = some (generation, a) → generation = i.2) :
    read (write slots i.1 slot) j = read slots j := by
  by_cases hsame : j.1 = i.1
  · have hgen : i.2 ≠ j.2 := fun heq => hne (Prod.ext hsame heq.symm)
    obtain ⟨b, hb⟩ := Option.isSome_iff_exists.mp h
    have hold := read_eq_some.mp hb
    simp only [read, hsame]
    rw [getElem?_write_self (le_length_of_isSome h), hold]
    cases slot with
    | none => simp [hgen]
    | some p => simp [hgen, hslot p.1 p.2 rfl]
  · exact read_congr (getElem?_write_of_ne (le_length_of_isSome h) hsame _)

theorem mem_occupied_visit {slots : List (Option (Nat × α))} {i : Index} {a : α} :
    (i, a) ∈ occupied (visit slots) ↔ read slots i = some a := by
  rw [read_eq_some]
  unfold occupied visit
  simp only [List.mem_filterMap, List.mem_map]
  constructor
  · rintro ⟨e, ⟨⟨slot, n⟩, hmem, rfl⟩, he⟩
    have hslot := List.mem_zipIdx_iff_getElem?.mp hmem
    cases slot with
    | none => simp at he
    | some p =>
        simp only [Option.some.injEq, Prod.mk.injEq] at he
        obtain ⟨rfl, rfl⟩ := he
        exact hslot
  · intro h
    exact ⟨(i, .occupied a),
      ⟨(some (i.2, a), i.1), List.mem_zipIdx_iff_getElem?.mpr h, rfl⟩, rfl⟩

theorem occupied_visit_nodup (slots : List (Option (Nat × α))) :
    ((occupied (visit slots)).map Prod.fst).Nodup := by
  have hslots : (slots.zipIdx.map Prod.snd).Nodup := by
    rw [List.zipIdx_map_snd]
    exact List.nodup_range'
  have hvisit : (visit slots).Pairwise fun p q => p.1.1 ≠ q.1.1 := by
    unfold visit
    rw [List.pairwise_map]
    refine (List.pairwise_map.mp hslots).imp ?_
    rintro ⟨s, n⟩ ⟨t, m⟩ hne
    cases s <;> cases t <;> exact hne
  unfold occupied List.Nodup
  rw [List.pairwise_map, List.pairwise_filterMap]
  refine hvisit.imp ?_
  rintro ⟨i, s⟩ ⟨j, t⟩ hne p hp q hq
  cases s with
  | free => simp at hp
  | occupied a =>
      cases t with
      | free => simp at hq
      | occupied b =>
          simp only [Option.some.injEq] at hp hq
          subst hp hq
          exact fun heq => hne (congrArg Prod.fst heq)

/-- The arena as a generational store. -/
def store (α : Type) : GenerationalStore α where
  Store := Arena α
  Index := Index
  decIndex := inferInstance
  empty := ⟨[], 0⟩
  get s i := read s.slots i
  insert s a :=
    let n := firstFree s.slots
    ((n, s.generation), { s with slots := write s.slots n (some (s.generation, a)) })
  update s i a := { s with slots := write s.slots i.1 (some (i.2, a)) }
  remove s i := ⟨write s.slots i.1 none, s.generation + 1⟩
  iter s := visit s.slots
  get_empty i := by simp [read]
  get_insert_fresh s a := by
    rw [Option.eq_none_iff_forall_not_mem]
    intro b hb
    exact getElem?_firstFree s.slots s.generation b (read_eq_some.mp hb)
  get_insert_self s a :=
    read_eq_some.mpr (getElem?_write_self (firstFree_le s.slots) _)
  get_insert_of_ne s a i hne := by
    by_cases hslot : i.1 = firstFree s.slots
    · have hold : read s.slots i = none := by
        rw [Option.eq_none_iff_forall_not_mem]
        intro b hb
        exact getElem?_firstFree s.slots i.2 b (hslot ▸ read_eq_some.mp hb)
      have hgen : s.generation ≠ i.2 := fun h =>
        hne (Prod.ext hslot h.symm)
      rw [hold]
      simp only [read]
      rw [hslot, getElem?_write_self (firstFree_le s.slots)]
      simp [hgen]
    · exact read_congr (getElem?_write_of_ne (firstFree_le s.slots) hslot _)
  get_update_self s i a h :=
    read_eq_some.mpr (getElem?_write_self (le_length_of_isSome h) _)
  get_update_of_ne s i a j h hne := by
    refine read_write_of_ne h hne ?_
    rintro generation b ⟨⟩
    rfl
  get_remove_self s i h := by
    simp only [read]
    rw [getElem?_write_self (le_length_of_isSome h)]
  get_remove_of_ne s i j h hne := by
    refine read_write_of_ne h hne ?_
    rintro generation b ⟨⟩
  occupied_nodup s := occupied_visit_nodup s.slots
  mem_occupied _ _ _ := mem_occupied_visit

end Arena

end SefiStakepool.Foundation
