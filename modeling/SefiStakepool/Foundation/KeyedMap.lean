/-
  Foundation/KeyedMap.lean --- finite key-value maps, and the total of a
  quantity over all the values of one.

  A map is a Mathlib `AList`: an association list without repeated keys.  A read
  of a missing key answers a default, as a store does that is read with
  `unwrap_or`.
-/
import Mathlib.Algebra.GroupWithZero.Nat
import Mathlib.Data.List.AList

set_option autoImplicit false

namespace SefiStakepool.Foundation

/-- A finite map from `κ` to `ν`. -/
abbrev KeyedMap (κ ν : Type) : Type := AList fun _ : κ => ν

namespace KeyedMap

variable {κ ν : Type}

/-- The total of `f` over the values of the map. -/
def total (f : ν → Nat) (m : KeyedMap κ ν) : Nat :=
  (m.entries.map fun e => f e.2).sum

@[simp] theorem total_empty (f : ν → Nat) : total f (∅ : KeyedMap κ ν) = 0 := rfl

variable [DecidableEq κ]

/-- The value at a key, or the default when the key is missing. -/
def getD (m : KeyedMap κ ν) (d : ν) (k : κ) : ν := (m.lookup k).getD d

@[simp] theorem getD_empty (d : ν) (k : κ) : getD (∅ : KeyedMap κ ν) d k = d := rfl

@[simp] theorem getD_insert_self (m : KeyedMap κ ν) (d v : ν) (k : κ) :
    getD (m.insert k v) d k = v := by
  simp [getD]

theorem getD_insert_of_ne (m : KeyedMap κ ν) (d v : ν) {k k' : κ} (h : k' ≠ k) :
    getD (m.insert k v) d k' = getD m d k' := by
  simp [getD, AList.lookup_insert_ne h]

theorem getD_of_lookup {m : KeyedMap κ ν} {d v : ν} {k : κ} (h : m.lookup k = some v) :
    getD m d k = v := by
  simp [getD, h]

/-- The entry at a key can be taken out of the total. -/
theorem sum_kerase (f : ν → Nat) {es : List (Sigma fun _ : κ => ν)}
    (hn : es.NodupKeys) (d : ν) (hd : f d = 0) (k : κ) :
    (es.map fun e => f e.2).sum =
      f ((es.dlookup k).getD d) + ((es.kerase k).map fun e => f e.2).sum := by
  induction es with
  | nil => simp [hd]
  | cons e es ih =>
      obtain ⟨k', v⟩ := e
      have hn' := (List.nodupKeys_cons.mp hn).2
      by_cases hk : k = k'
      · subst hk
        simp
      · rw [List.dlookup_cons_ne _ _ hk, List.kerase_cons_ne hk]
        simp only [List.map_cons, List.sum_cons, ih hn']
        omega

/-- Writing a key replaces its share of the total. -/
theorem total_insert (f : ν → Nat) (m : KeyedMap κ ν) (d v : ν) (hd : f d = 0)
    (k : κ) : total f (m.insert k v) + f (getD m d k) = total f m + f v := by
  have hsplit := sum_kerase f m.nodupKeys d hd k
  have hentries : (m.insert k v).entries = ⟨k, v⟩ :: m.entries.kerase k :=
    AList.entries_insert
  unfold total getD AList.lookup
  rw [hsplit, hentries, List.map_cons, List.sum_cons]
  simp only
  omega

/-- No single value exceeds the total. -/
theorem le_total (f : ν → Nat) (m : KeyedMap κ ν) (d : ν) (hd : f d = 0) (k : κ) :
    f (getD m d k) ≤ total f m := by
  have hsplit := sum_kerase f m.nodupKeys d hd k
  unfold total getD AList.lookup
  omega

end KeyedMap

end SefiStakepool.Foundation
