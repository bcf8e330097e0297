/-
  Contract/Unstake.lean --- what the loop of `trigger_withdraw` takes, exactly.

  A user's record reads as a queue of entries, oldest first.  `takeOldest` says
  what is left of such a queue; the loop, which walks a copy of the indices while
  it removes from the indices and from the store, leaves exactly that.
-/
import SefiStakepool.Contract.Entries

set_option autoImplicit false

namespace SefiStakepool.Contract

open SefiStakepool.Foundation

variable {X : Crates}

/-! ## Queues of entries -/

/-- The amounts of a queue together. -/
def amounts {ι : Type} (es : List (ι × LotteryEntries)) : Nat :=
  (es.map fun e => e.2.amount).sum

/-- An entry that has less in it. -/
def LotteryEntries.less (entry : LotteryEntries) (taken : Nat) : LotteryEntries :=
  { entry with amount := entry.amount - taken }

/-- What is left of a queue when `asked` is taken out of it, oldest first. -/
def takeOldest {ι : Type} : List (ι × LotteryEntries) → Nat → List (ι × LotteryEntries)
  | [], _ => []
  | (i, entry) :: es, asked =>
      if entry.amount ≤ asked then takeOldest es (asked - entry.amount)
      else (i, entry.less asked) :: es

/-- `k` is how many of the entries are used up. -/
structure UsesUp {ι : Type} (es : List (ι × LotteryEntries)) (asked k : Nat) : Prop where
  le_length : k ≤ es.length
  sum_le : amounts (es.take k) ≤ asked
  lt_next : ∀ e, es[k]? = some e → asked < amounts (es.take k) + e.2.amount

theorem usesUp_cons {ι : Type} {e : ι × LotteryEntries} {es : List (ι × LotteryEntries)}
    {asked k : Nat} (h : UsesUp (e :: es) asked k) (hle : e.2.amount ≤ asked) :
    ∃ l, k = l + 1 ∧ UsesUp es (asked - e.2.amount) l := by
  cases k with
  | zero =>
      have hlt := h.lt_next e rfl
      simp only [amounts, List.take_zero, List.map_nil, List.sum_nil] at hlt
      omega
  | succ l =>
      have hsum := h.sum_le
      simp only [amounts, List.take_succ_cons, List.map_cons, List.sum_cons] at hsum
      refine ⟨l, rfl, Nat.le_of_succ_le_succ h.le_length, ?_, ?_⟩
      · simp only [amounts]
        omega
      · intro next hnext
        have hlt := h.lt_next next hnext
        simp only [amounts, List.take_succ_cons, List.map_cons, List.sum_cons] at hlt ⊢
        omega

theorem usesUp_zero {ι : Type} {e : ι × LotteryEntries} {es : List (ι × LotteryEntries)}
    {asked k : Nat} (h : UsesUp (e :: es) asked k) (hlt : asked < e.2.amount) : k = 0 := by
  cases k with
  | zero => rfl
  | succ l =>
      have hsum := h.sum_le
      simp only [amounts, List.take_succ_cons, List.map_cons, List.sum_cons] at hsum
      omega

/-- The first `k` entries are gone and the next one is smaller by the rest. -/
theorem takeOldest_eq {ι : Type} {es : List (ι × LotteryEntries)} {asked k : Nat}
    (h : UsesUp es asked k) :
    takeOldest es asked = (es.drop k).modifyHead
      (Prod.map id fun entry => entry.less (asked - amounts (es.take k))) := by
  induction es generalizing asked k with
  | nil => simp [takeOldest]
  | cons e es ih =>
      by_cases hle : e.2.amount ≤ asked
      · obtain ⟨l, rfl, hrest⟩ := usesUp_cons h hle
        simp only [takeOldest, if_pos hle, ih hrest, List.drop_succ_cons, amounts,
          List.take_succ_cons, List.map_cons, List.sum_cons, Nat.sub_add_eq]
      · obtain rfl := usesUp_zero h (by omega)
        simp [takeOldest, hle, amounts, Prod.map]

/-! ## Queues in the store -/

/-- The queue is in the store: its indices are distinct and live, and name its
entries, none of which is empty. -/
structure Reads (entries : X.store.Store) (es : List (X.store.Index × LotteryEntries)) :
    Prop where
  nodup : (es.map Prod.fst).Nodup
  live : ∀ e ∈ es, X.store.get entries e.1 = some e.2
  positive : ∀ e ∈ es, 0 < e.2.amount

section
variable {entries : X.store.Store} {i : X.store.Index} {entry : LotteryEntries}
  {es : List (X.store.Index × LotteryEntries)}

/-- The indices of a user read as a queue. -/
theorem Tracks.reads {u : HumanAddr} {indices : List X.store.Index}
    (h : Tracks entries u indices) :
    ∃ es : List (X.store.Index × LotteryEntries), es.map Prod.fst = indices ∧
      Reads entries es := by
  let value (j : X.store.Index) : X.store.Index × LotteryEntries :=
    (j, (X.store.get entries j).getD ⟨u, 0, 0⟩)
  have hfst : (indices.map value).map Prod.fst = indices := by
    rw [List.map_map]
    exact List.map_id _
  refine ⟨indices.map value, hfst, by rw [hfst]; exact h.nodup, ?_, ?_⟩
  · intro e he
    obtain ⟨j, hj, rfl⟩ := List.mem_map.mp he
    obtain ⟨entry, hget, _⟩ := h.live j hj
    simp [value, hget]
  · intro e he
    obtain ⟨j, hj, rfl⟩ := List.mem_map.mp he
    obtain ⟨entry, hget, _, hpositive⟩ := h.live j hj
    simpa [value, hget] using hpositive

theorem Reads.not_mem_tail (h : Reads entries ((i, entry) :: es)) : i ∉ es.map Prod.fst :=
  (List.nodup_cons.mp h.nodup).1

theorem Reads.get_head (h : Reads entries ((i, entry) :: es)) :
    X.store.get entries i = some entry :=
  h.live _ (List.mem_cons_self ..)

theorem Reads.isSome_head (h : Reads entries ((i, entry) :: es)) :
    (X.store.get entries i).isSome := by
  simp [h.get_head]

/-- Removing the oldest entry leaves the rest of the queue. -/
theorem Reads.remove_head (h : Reads entries ((i, entry) :: es)) :
    Reads (X.store.remove entries i) es := by
  refine ⟨(List.nodup_cons.mp h.nodup).2, ?_, ?_⟩
  · intro e he
    have hne : e.1 ≠ i := fun heq => h.not_mem_tail (heq ▸ List.mem_map_of_mem he)
    rw [X.store.get_remove_of_ne _ _ _ h.isSome_head hne]
    exact h.live e (List.mem_cons_of_mem _ he)
  · exact fun e he => h.positive e (List.mem_cons_of_mem _ he)

/-- Lowering the oldest entry to a positive amount keeps the queue. -/
theorem Reads.update_head (h : Reads entries ((i, entry) :: es)) {amount : Nat}
    (hpositive : 0 < amount) :
    Reads (X.store.update entries i { entry with amount })
      ((i, { entry with amount }) :: es) := by
  refine ⟨h.nodup, ?_, ?_⟩
  · intro e he
    rcases List.mem_cons.mp he with rfl | htail
    · exact X.store.get_update_self _ _ _ h.isSome_head
    · have hne : e.1 ≠ i := fun heq => h.not_mem_tail (heq ▸ List.mem_map_of_mem htail)
      rw [X.store.get_update_of_ne _ _ _ _ h.isSome_head hne]
      exact h.live e (List.mem_cons_of_mem _ htail)
  · intro e he
    rcases List.mem_cons.mp he with rfl | htail
    · exact hpositive
    · exact h.positive e (List.mem_cons_of_mem _ htail)

end

/-! ## The loop -/

/-- Of the queue `es`, `left` is left; nothing else in the store changed. -/
structure Leaves (entries entries' : X.store.Store)
    (es left : List (X.store.Index × LotteryEntries)) : Prop where
  reads : Reads entries' left
  vacated : ∀ e ∈ es, e.1 ∉ left.map Prod.fst → X.store.get entries' e.1 = none
  others : ∀ i, i ∉ es.map Prod.fst → X.store.get entries' i = X.store.get entries i

section
variable {entries entries' : X.store.Store} {i : X.store.Index} {entry : LotteryEntries}
  {es left : List (X.store.Index × LotteryEntries)}

/-- What is taken after the oldest entry was removed. -/
theorem Leaves.cons (h : Reads entries ((i, entry) :: es))
    (hrest : Leaves (X.store.remove entries i) entries' es left) :
    Leaves entries entries' ((i, entry) :: es) left := by
  have hnew := h.not_mem_tail
  refine ⟨hrest.reads, ?_, ?_⟩
  · intro e he hleft
    rcases List.mem_cons.mp he with rfl | htail
    · rw [hrest.others _ hnew, X.store.get_remove_self _ _ h.isSome_head]
    · exact hrest.vacated e htail hleft
  · intro j hj
    rw [List.map_cons, List.mem_cons, not_or] at hj
    rw [hrest.others j hj.2, X.store.get_remove_of_ne _ _ _ h.isSome_head hj.1]

/-- What is taken from the oldest entry alone. -/
theorem Leaves.of_update (h : Reads entries ((i, entry) :: es)) {amount : Nat}
    (hpositive : 0 < amount) :
    Leaves entries (X.store.update entries i { entry with amount }) ((i, entry) :: es)
      ((i, { entry with amount }) :: es) := by
  refine ⟨h.update_head hpositive, ?_, ?_⟩
  · intro e he hleft
    exact absurd (List.mem_map_of_mem (f := Prod.fst) he) hleft
  · intro j hj
    rw [List.map_cons, List.mem_cons, not_or] at hj
    exact X.store.get_update_of_ne _ _ _ _ h.isSome_head hj.1

/-- Run over a queue, the loop returns, and leaves what `takeOldest` does. -/
theorem consumeEntries_leaves (h : Reads entries es) (asked : Nat) :
    ∃ entries', consumeEntries X (es.map Prod.fst) entries (es.map Prod.fst) asked =
        .ok (entries', (takeOldest es asked).map Prod.fst) ∧
      Leaves entries entries' es (takeOldest es asked) := by
  induction es generalizing entries asked with
  | nil =>
      exact ⟨entries, rfl, h, fun e he => absurd he (List.not_mem_nil), fun _ _ => rfl⟩
  | cons e es ih =>
      obtain ⟨i, entry⟩ := e
      have hfilter := filter_ne_head h.nodup
      simp only [List.map_cons] at hfilter ⊢
      by_cases hle : entry.amount ≤ asked
      · obtain ⟨entries', hrun, hleaves⟩ := ih h.remove_head (asked - entry.amount)
        simp only [takeOldest, if_pos hle]
        refine ⟨entries', consumeEntries_cons_eq_ok.mpr ⟨entry, h.get_head, Or.inl ⟨hle, ?_⟩⟩,
          hleaves.cons h⟩
        rw [hfilter]
        exact hrun
      · simp only [takeOldest, if_neg hle]
        exact ⟨_, consumeEntries_cons_eq_ok.mpr ⟨entry, h.get_head, Or.inr ⟨by omega, rfl⟩⟩,
          Leaves.of_update h (by omega)⟩

/-- No amount makes the loop over a user's own indices fail. -/
theorem Tracks.consumeEntries_ok {u : HumanAddr} {indices : List X.store.Index}
    (h : Tracks entries u indices) (asked : Nat) :
    ∃ consumed, consumeEntries X indices entries indices asked = .ok consumed := by
  obtain ⟨es, rfl, hreads⟩ := h.reads
  obtain ⟨entries', hrun, _⟩ := consumeEntries_leaves hreads asked
  exact ⟨_, hrun⟩

/-- The loop keeps the order of the indices. -/
theorem consumeEntries_sublist {inds entryIndex entryIndex' : List X.store.Index}
    {asked : Nat}
    (hrun : consumeEntries X inds entries entryIndex asked = .ok (entries', entryIndex')) :
    entryIndex'.Sublist entryIndex := by
  induction inds generalizing entries entryIndex asked with
  | nil =>
      cases hrun
      exact List.Sublist.refl _
  | cons j inds ih =>
      obtain ⟨_, _, hround⟩ := consumeEntries_cons_eq_ok.mp hrun
      rcases hround with ⟨_, hrun⟩ | ⟨_, hresult⟩
      · exact (ih hrun).trans List.filter_sublist
      · cases hresult
        exact List.Sublist.refl _

end

end SefiStakepool.Contract
