/-
  Contract/Entries.lean --- the lottery entries behind the users' records.

  A user's record keeps the indices of the user's entries.  `Tracks` says that it
  keeps exactly the live ones, each once; every message preserves it, and the
  loop of `trigger_withdraw` takes exactly what was asked for out of the entries.
-/
import SefiStakepool.Contract.Effect

set_option autoImplicit false

namespace SefiStakepool.Contract

open SefiStakepool.Foundation
open SefiStakepool.Foundation.GenerationalStore

variable {X : Crates}

/-- The amount of an entry, if it is one of `u`'s. -/
def LotteryEntries.amountOf (u : HumanAddr) (entry : LotteryEntries) : Nat :=
  if entry.userAddress = u then entry.amount else 0

/-- The amounts of `u`'s live entries. -/
def entryTotal (u : HumanAddr) (entries : X.store.Store) : Nat :=
  total (LotteryEntries.amountOf u) entries

/-- `indices` are the indices of `u`'s live entries, which are not empty. -/
structure Tracks (entries : X.store.Store) (u : HumanAddr)
    (indices : List X.store.Index) : Prop where
  nodup : indices.Nodup
  live : ∀ i ∈ indices, ∃ entry, X.store.get entries i = some entry ∧
    entry.userAddress = u ∧ 0 < entry.amount
  complete : ∀ i entry, X.store.get entries i = some entry → entry.userAddress = u →
    i ∈ indices

/-- The entries of everyone but `u` are the same. -/
def AgreesBut (u : HumanAddr) (entries entries' : X.store.Store) : Prop :=
  ∀ i entry, entry.userAddress ≠ u →
    (X.store.get entries' i = some entry ↔ X.store.get entries i = some entry)

theorem AgreesBut.refl (u : HumanAddr) (entries : X.store.Store) :
    AgreesBut u entries entries := fun _ _ _ => Iff.rfl

theorem AgreesBut.trans {u : HumanAddr} {entries entries' entries'' : X.store.Store}
    (h : AgreesBut u entries entries') (h' : AgreesBut u entries' entries'') :
    AgreesBut u entries entries'' :=
  fun i entry hne => (h' i entry hne).trans (h i entry hne)

/-- What is the same for the others keeps their records right. -/
theorem Tracks.of_agreesBut {u v : HumanAddr} {entries entries' : X.store.Store}
    {indices : List X.store.Index} (h : Tracks entries v indices) (hne : v ≠ u)
    (hagrees : AgreesBut u entries entries') : Tracks entries' v indices where
  nodup := h.nodup
  live i hi := by
    obtain ⟨entry, hget, howner, hpositive⟩ := h.live i hi
    exact ⟨entry, (hagrees i entry (howner ▸ hne)).mpr hget, howner, hpositive⟩
  complete i entry hget howner :=
    h.complete i entry ((hagrees i entry (howner ▸ hne)).mp hget) howner

theorem AgreesBut.entryTotal_eq {u v : HumanAddr} {entries entries' : X.store.Store}
    (h : AgreesBut u entries entries') (hne : v ≠ u) :
    entryTotal v entries' = entryTotal v entries := by
  refine total_congr fun i entry hcounts => h i entry ?_
  intro howner
  unfold LotteryEntries.amountOf at hcounts
  rw [howner, if_neg (Ne.symm hne)] at hcounts
  exact hcounts rfl

/-! ## The operations on the store -/

section
variable {entries : X.store.Store} {u : HumanAddr} {i : X.store.Index}
  {indices : List X.store.Index} {entry : LotteryEntries}

/-- A new entry of `u` concerns nobody else. -/
theorem agreesBut_insert (howner : entry.userAddress = u) :
    AgreesBut u entries (X.store.insert entries entry).2 := by
  intro j other hne
  by_cases hj : j = (X.store.insert entries entry).1
  · subst hj
    rw [X.store.get_insert_self, X.store.get_insert_fresh]
    simp only [Option.some.injEq, reduceCtorEq, iff_false]
    intro heq
    exact hne (heq ▸ howner)
  · rw [X.store.get_insert_of_ne _ _ _ hj]

theorem agreesBut_remove (hget : X.store.get entries i = some entry)
    (howner : entry.userAddress = u) : AgreesBut u entries (X.store.remove entries i) := by
  have hsome : (X.store.get entries i).isSome := by simp [hget]
  intro j other hne
  by_cases hj : j = i
  · subst hj
    rw [X.store.get_remove_self _ _ hsome, hget]
    simp only [Option.some.injEq, reduceCtorEq, false_iff]
    intro heq
    exact hne (heq ▸ howner)
  · rw [X.store.get_remove_of_ne _ _ _ hsome hj]

theorem agreesBut_update (hget : X.store.get entries i = some entry)
    (howner : entry.userAddress = u) (amount : Nat) :
    AgreesBut u entries (X.store.update entries i { entry with amount }) := by
  have hsome : (X.store.get entries i).isSome := by simp [hget]
  intro j other hne
  by_cases hj : j = i
  · subst hj
    rw [X.store.get_update_self _ _ _ hsome, hget]
    simp only [Option.some.injEq]
    constructor
    · intro heq
      exact absurd (heq ▸ howner) hne
    · intro heq
      exact absurd (heq ▸ howner) hne
  · rw [X.store.get_update_of_ne _ _ _ _ hsome hj]

/-- The index of a new entry is added to those of its owner. -/
theorem Tracks.insert (h : Tracks entries u indices) (howner : entry.userAddress = u)
    (hpositive : 0 < entry.amount) :
    Tracks (X.store.insert entries entry).2 u
      (indices ++ [(X.store.insert entries entry).1]) := by
  have hfresh := X.store.get_insert_fresh entries entry
  have hnew : (X.store.insert entries entry).1 ∉ indices := by
    intro hmem
    obtain ⟨other, hget, _⟩ := h.live _ hmem
    rw [hfresh] at hget
    cases hget
  refine ⟨?_, ?_, ?_⟩
  · exact List.nodup_append.mpr ⟨h.nodup, List.nodup_singleton _, by
      intro j hj k hk
      rw [List.mem_singleton] at hk
      subst hk
      exact fun heq => hnew (heq ▸ hj)⟩
  · intro j hj
    rcases List.mem_append.mp hj with hold | hlast
    · obtain ⟨other, hget, hother⟩ := h.live j hold
      have hne : j ≠ (X.store.insert entries entry).1 := fun heq => hnew (heq ▸ hold)
      exact ⟨other, by rw [X.store.get_insert_of_ne _ _ _ hne, hget], hother⟩
    · rw [List.mem_singleton] at hlast
      subst hlast
      exact ⟨entry, X.store.get_insert_self _ _, howner, hpositive⟩
  · intro j other hget hother
    by_cases hj : j = (X.store.insert entries entry).1
    · simp [hj]
    · rw [X.store.get_insert_of_ne _ _ _ hj] at hget
      exact List.mem_append_left _ (h.complete j other hget hother)

/-- The first index goes with its entry. -/
theorem Tracks.remove_head (h : Tracks entries u (i :: indices)) :
    Tracks (X.store.remove entries i) u indices := by
  obtain ⟨hnew, hnodup⟩ := List.nodup_cons.mp h.nodup
  obtain ⟨entry, hentry, _⟩ := h.live i (List.mem_cons_self ..)
  have hsome : (X.store.get entries i).isSome := by simp [hentry]
  refine ⟨hnodup, ?_, ?_⟩
  · intro j hj
    obtain ⟨other, hget, hother⟩ := h.live j (List.mem_cons_of_mem _ hj)
    have hne : j ≠ i := fun heq => hnew (heq ▸ hj)
    exact ⟨other, by rw [X.store.get_remove_of_ne _ _ _ hsome hne, hget], hother⟩
  · intro j other hget hother
    have hne : j ≠ i := by
      intro heq
      rw [heq, X.store.get_remove_self _ _ hsome] at hget
      cases hget
    rw [X.store.get_remove_of_ne _ _ _ hsome hne] at hget
    exact (List.mem_cons.mp (h.complete j other hget hother)).resolve_left hne

/-- Lowering an entry to a positive amount keeps its index. -/
theorem Tracks.update (h : Tracks entries u indices)
    (hget : X.store.get entries i = some entry) (howner : entry.userAddress = u)
    {amount : Nat} (hpositive : 0 < amount) :
    Tracks (X.store.update entries i { entry with amount }) u indices := by
  have hsome : (X.store.get entries i).isSome := by simp [hget]
  refine ⟨h.nodup, ?_, ?_⟩
  · intro j hj
    by_cases hji : j = i
    · subst hji
      exact ⟨_, X.store.get_update_self _ _ _ hsome, howner, hpositive⟩
    · obtain ⟨other, hold, hother⟩ := h.live j hj
      exact ⟨other, by rw [X.store.get_update_of_ne _ _ _ _ hsome hji, hold], hother⟩
  · intro j other hnew hother
    by_cases hji : j = i
    · subst hji
      exact h.complete j entry hget howner
    · rw [X.store.get_update_of_ne _ _ _ _ hsome hji] at hnew
      exact h.complete j other hnew hother

/-! ## Totals -/

theorem amountOf_self (howner : entry.userAddress = u) :
    entry.amountOf u = entry.amount := if_pos howner

/-- A user without indices has no entries. -/
theorem Tracks.entryTotal_nil (h : Tracks entries u []) : entryTotal u entries = 0 := by
  have hempty : entryTotal u entries = entryTotal u X.store.empty := by
    refine total_congr fun i other hcounts => ?_
    rw [X.store.get_empty]
    simp only [reduceCtorEq, iff_false]
    intro hget
    have howner : other.userAddress = u := by
      by_contra hne
      exact hcounts (if_neg hne)
    exact absurd (h.complete i other hget howner) (List.not_mem_nil)
  rw [hempty]
  exact total_empty _

theorem entryTotal_insert (howner : entry.userAddress = u) :
    entryTotal u (X.store.insert entries entry).2 = entryTotal u entries + entry.amount := by
  unfold entryTotal
  rw [total_insert, amountOf_self howner, Nat.add_comm]

theorem entryTotal_remove (hget : X.store.get entries i = some entry)
    (howner : entry.userAddress = u) :
    entryTotal u (X.store.remove entries i) + entry.amount = entryTotal u entries := by
  unfold entryTotal
  rw [total_remove _ hget, amountOf_self howner, Nat.add_comm]

theorem entryTotal_update (hget : X.store.get entries i = some entry)
    (howner : entry.userAddress = u) (amount : Nat) :
    entryTotal u (X.store.update entries i { entry with amount }) + entry.amount =
      entryTotal u entries + amount := by
  have hupdate := total_update (LotteryEntries.amountOf u) { entry with amount } hget
  have hself : LotteryEntries.amountOf u { entry with amount } = amount := if_pos howner
  rw [amountOf_self howner, hself] at hupdate
  exact hupdate

/-- What is the same for the others changes the whole amount by what it changes `u`'s. -/
theorem AgreesBut.total_eq {entries' : X.store.Store} (h : AgreesBut u entries entries') :
    total LotteryEntries.amount entries' + entryTotal u entries =
      total LotteryEntries.amount entries + entryTotal u entries' := by
  let others (entry : LotteryEntries) : Nat := if entry.userAddress = u then 0 else entry.amount
  have hsplit : ∀ store : X.store.Store,
      total LotteryEntries.amount store = entryTotal u store + total others store := by
    intro store
    unfold entryTotal
    rw [← total_add]
    congr 1
    funext entry
    unfold LotteryEntries.amountOf
    by_cases howner : entry.userAddress = u <;> simp [others, howner]
  have hothers : total others entries' = total others entries := by
    refine total_congr fun i entry hcounts => h i entry ?_
    intro howner
    exact hcounts (if_pos howner)
  rw [hsplit, hsplit, hothers]
  omega

/-! ## The loop of `trigger_withdraw` -/

/-- The indices without the first one are the rest of them. -/
theorem filter_ne_head (h : (i :: indices).Nodup) :
    (i :: indices).filter (fun index => index ≠ i) = indices := by
  obtain ⟨hnew, _⟩ := List.nodup_cons.mp h
  rw [List.filter_cons_of_neg (by simp), List.filter_eq_self]
  intro j hj
  simp only [ne_eq, decide_not, Bool.not_eq_true', decide_eq_false_iff_not]
  exact fun heq => hnew (heq ▸ hj)

end

/-- A round of the loop uses the entry up or lowers it; an exact match uses it up and
goes on with nothing left to take. -/
theorem consumeEntries_cons_eq_ok {i : X.store.Index} {inds entryIndex : List X.store.Index}
    {entries : X.store.Store} {asked : Nat} {result : X.store.Store × List X.store.Index} :
    consumeEntries X (i :: inds) entries entryIndex asked = .ok result ↔
      ∃ entry, X.store.get entries i = some entry ∧
        ((entry.amount ≤ asked ∧ consumeEntries X inds (X.store.remove entries i)
            (entryIndex.filter fun index => index ≠ i) (asked - entry.amount) = .ok result) ∨
          (asked < entry.amount ∧ (X.store.update entries i
            { entry with amount := entry.amount - asked }, entryIndex) = result)) := by
  simp only [consumeEntries, bind_eq_ok, unwrap_eq_ok]
  refine exists_congr fun entry => and_congr_right fun _ => ?_
  by_cases heq : entry.amount = asked
  · rw [if_pos heq, heq, Nat.sub_self]
    simp
  · by_cases hlt : entry.amount < asked
    · have hle : entry.amount ≤ asked := hlt.le
      rw [if_neg heq, if_pos hlt]
      simp [subU_eq_ok, bind_eq_ok, hle, hlt.not_gt]
    · have hgt : asked < entry.amount := by omega
      rw [if_neg heq, if_neg hlt]
      simp [subU_eq_ok, bind_eq_ok, hgt, hgt.le, hgt.not_ge]

/-- Run over the indices of `u`, the loop takes what is asked for out of `u`'s
entries and leaves those of the others alone; the indices it returns are again
those of `u`'s live entries. -/
theorem consumeEntries_spec {u : HumanAddr} {indices indices' : List X.store.Index}
    {entries entries' : X.store.Store} {asked : Nat} (h : Tracks entries u indices)
    (hle : asked ≤ entryTotal u entries)
    (hrun : consumeEntries X indices entries indices asked = .ok (entries', indices')) :
    Tracks entries' u indices' ∧
      entryTotal u entries' + asked = entryTotal u entries ∧
      AgreesBut u entries entries' := by
  -- the loop's list and the record's list are the same at every round, because
  -- the entry a round removes is the first of both
  induction indices generalizing entries asked with
  | nil =>
      cases hrun
      have hzero := h.entryTotal_nil
      exact ⟨h, by omega, AgreesBut.refl u _⟩
  | cons i indices ih =>
      obtain ⟨entry, hget, howner, _⟩ := h.live i (List.mem_cons_self ..)
      obtain ⟨entry', hget', hround⟩ := consumeEntries_cons_eq_ok.mp hrun
      obtain rfl : entry = entry' := Option.some.inj (hget.symm.trans hget')
      rcases hround with ⟨hused, hrun⟩ | ⟨hless, hresult⟩
      · have hremove := entryTotal_remove hget howner
        rw [filter_ne_head h.nodup] at hrun
        obtain ⟨htracks, htotal, hagrees⟩ := ih h.remove_head (by omega) hrun
        exact ⟨htracks, by omega, (agreesBut_remove hget howner).trans hagrees⟩
      · cases hresult
        have hupdate := entryTotal_update hget howner (entry.amount - asked)
        exact ⟨h.update hget howner (by omega), by omega, agreesBut_update hget howner _⟩

/-- The loop makes no entry older or newer, and makes no new one. -/
theorem consumeEntries_entryTime {inds entryIndex entryIndex' : List X.store.Index}
    {entries entries' : X.store.Store} {asked : Nat}
    (hrun : consumeEntries X inds entries entryIndex asked = .ok (entries', entryIndex'))
    {i : X.store.Index} {entry' : LotteryEntries}
    (hget : X.store.get entries' i = some entry') :
    ∃ entry, X.store.get entries i = some entry ∧ entry.entryTime = entry'.entryTime := by
  induction inds generalizing entries entryIndex asked with
  | nil =>
      cases hrun
      exact ⟨entry', hget, rfl⟩
  | cons j inds ih =>
      obtain ⟨entry, hentry, hround⟩ := consumeEntries_cons_eq_ok.mp hrun
      have hsome : (X.store.get entries j).isSome := by simp [hentry]
      rcases hround with ⟨_, hrun⟩ | ⟨_, hresult⟩
      · obtain ⟨old, hold, htime⟩ := ih hrun
        have hne : i ≠ j := by
          intro heq
          rw [heq, X.store.get_remove_self _ _ hsome] at hold
          cases hold
        rw [X.store.get_remove_of_ne _ _ _ hsome hne] at hold
        exact ⟨old, hold, htime⟩
      · cases hresult
        by_cases hij : i = j
        · subst hij
          rw [X.store.get_update_self _ _ _ hsome] at hget
          cases hget
          exact ⟨entry, hentry, rfl⟩
        · rw [X.store.get_update_of_ne _ _ _ _ hsome hij] at hget
          exact ⟨entry', hget, rfl⟩

end SefiStakepool.Contract
