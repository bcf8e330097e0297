/-
  Chain/Registry.lean --- the entry store and the users' index lists agree.

  Ownership of an entry is kept in its slot and in its owner's list.  The two agree
  in every state a run leads to, and so the two lookups the source does not check
  cannot fail.  Read through a list, a user's entries are in the order they came.
-/
import SefiStakepool.Contract.Unstake
import SefiStakepool.Chain.Weights

set_option autoImplicit false

namespace SefiStakepool.Chain

open SefiStakepool.Foundation
open SefiStakepool.Contract

variable {X : Crates}

/-! ## Ownership -/

/-- A winner is the owner of an entry that was drawn from. -/
theorem drawWinner_owner {prngSeed : List UInt8} {lottery : Lottery}
    {entries : List LotteryEntries} {winner : HumanAddr}
    (h : drawWinner X prngSeed lottery entries = .ok (some winner)) :
    ∃ entry ∈ entries, entry.userAddress = winner := by
  simp only [drawWinner, bind_eq_ok] at h
  obtain ⟨weights, _, dist, _, h⟩ := h
  cases dist with
  | none => cases h
  | some dist =>
      simp only [bind_eq_ok, unwrap_eq_ok] at h
      obtain ⟨entry, hentry, h⟩ := h
      cases h
      exact ⟨entry, List.mem_of_getElem? hentry, rfl⟩

/-- A user with an index has a record. -/
theorem lookup_isSome_of_entryIndex {s : Storage X} {u : HumanAddr} {i : X.store.Index}
    (h : i ∈ (s.user u).entryIndex) : (s.userInfo.lookup u).isSome := by
  unfold Storage.user KeyedMap.getD at h
  cases hlookup : s.userInfo.lookup u with
  | none =>
      rw [hlookup] at h
      exact absurd h (List.not_mem_nil)
  | some user => rfl

/-- The slots and the lists agree, and the unchecked lookups find something. -/
structure Consistent (s : Storage X) : Prop where
  /-- no entry is empty -/
  positive : ∀ i entry, X.store.get s.entries i = some entry → 0 < entry.amount
  /-- the owner of an entry has a record -/
  stored : ∀ i entry, X.store.get s.entries i = some entry →
    (s.userInfo.lookup entry.userAddress).isSome
  /-- which lists the entry once -/
  once : ∀ i entry, X.store.get s.entries i = some entry →
    (s.user entry.userAddress).entryIndex.count i = 1
  /-- nobody else lists it -/
  unshared : ∀ i entry, X.store.get s.entries i = some entry →
    ∀ u, u ≠ entry.userAddress → i ∉ (s.user u).entryIndex
  /-- what is listed is live, and the lister's -/
  live : ∀ u, ∀ i ∈ (s.user u).entryIndex,
    ∃ entry, X.store.get s.entries i = some entry ∧ entry.userAddress = u
  /-- the loop of `trigger_withdraw` finds every entry it looks up -/
  consumed : ∀ u asked, ∃ consumed, consumeEntries X (s.user u).entryIndex s.entries
    (s.user u).entryIndex asked = .ok consumed
  /-- `claim_rewards` finds the record of the winner -/
  winner : ∀ prngSeed lottery winner,
    drawWinner X prngSeed lottery (X.store.values s.entries) = .ok (some winner) →
      (s.userInfo.lookup winner).isSome

theorem Registered.stored {s : Storage X} (h : Registered s) {i : X.store.Index}
    {entry : LotteryEntries} (hget : X.store.get s.entries i = some entry) :
    (s.userInfo.lookup entry.userAddress).isSome :=
  lookup_isSome_of_entryIndex ((h entry.userAddress).complete i entry hget rfl)

/-- Nobody lists an entry of somebody else. -/
theorem Registered.owner_eq {s : Storage X} (h : Registered s) {i : X.store.Index}
    {entry : LotteryEntries} (hget : X.store.get s.entries i = some entry) {u : HumanAddr}
    (hlisted : i ∈ (s.user u).entryIndex) : u = entry.userAddress := by
  obtain ⟨other, hother, howner, _⟩ := (h u).live i hlisted
  obtain rfl : other = entry := Option.some.inj (hother.symm.trans hget)
  exact howner.symm

theorem Registered.consistent {s : Storage X} (h : Registered s) : Consistent s where
  positive _ _ hget := h.positive hget
  stored _ _ hget := h.stored hget
  once i entry hget := by
    have htracks := h entry.userAddress
    exact List.count_eq_one_of_mem htracks.nodup (htracks.complete i entry hget rfl)
  unshared _ _ hget _ hne hlisted := hne (h.owner_eq hget hlisted)
  live u i hi := by
    obtain ⟨entry, hget, howner, _⟩ := (h u).live i hi
    exact ⟨entry, hget, howner⟩
  consumed u asked := (h u).consumeEntries_ok asked
  winner _ _ winner hdrawn := by
    obtain ⟨entry, hmem, rfl⟩ := drawWinner_owner hdrawn
    obtain ⟨i, hget⟩ := GenerationalStore.mem_values.mp hmem
    exact h.stored hget

/-! ## Order -/

/-- Read through the indices, no entry comes after a younger one. -/
def Chronological (entries : X.store.Store) (indices : List X.store.Index) : Prop :=
  indices.Pairwise fun i j => ∀ a b, X.store.get entries i = some a →
    X.store.get entries j = some b → a.entryTime ≤ b.entryTime

/-- Dropping indices and entries, and changing amounts, keeps the order. -/
theorem Chronological.of_sublist {entries entries' : X.store.Store}
    {indices indices' : List X.store.Index} (h : Chronological entries indices)
    (hsublist : indices'.Sublist indices)
    (htimes : ∀ i ∈ indices', ∀ entry', X.store.get entries' i = some entry' →
      ∃ entry, X.store.get entries i = some entry ∧ entry.entryTime = entry'.entryTime) :
    Chronological entries' indices' := by
  refine (List.Pairwise.sublist hsublist h).imp_of_mem ?_
  intro i j hi hj hle a b ha hb
  obtain ⟨a', ha', htime⟩ := htimes i hi a ha
  obtain ⟨b', hb', htime'⟩ := htimes j hj b hb
  have hold := hle a' b' ha' hb'
  omega

/-- A new entry that is not older than any other goes to the end. -/
theorem Chronological.append {entries : X.store.Store} {indices : List X.store.Index}
    {i : X.store.Index} {entry : LotteryEntries} (h : Chronological entries indices)
    (hget : X.store.get entries i = some entry)
    (hlast : ∀ j ∈ indices, ∀ old, X.store.get entries j = some old →
      old.entryTime ≤ entry.entryTime) : Chronological entries (indices ++ [i]) := by
  refine List.pairwise_append.mpr ⟨h, List.pairwise_singleton _ _, ?_⟩
  intro j hj k hk a b ha hb
  rw [List.mem_singleton] at hk
  subst hk
  obtain rfl : entry = b := Option.some.inj (hget.symm.trans hb)
  exact hlast j hj a ha

/-- At `now`, the records are right and every user's entries are in order. -/
structure OrderedBy (now : Nat) (w : World X) : Prop where
  entered : Entered w
  noneAfter : NoneAfter now w
  chronological : ∀ u, Chronological w.storage.entries (w.storage.user u).entryIndex

theorem OrderedBy.later {now later : Nat} {w : World X} (h : OrderedBy now w)
    (hle : now ≤ later) : OrderedBy later w where
  entered := h.entered
  noneAfter i entry hget := le_trans (h.noneAfter i entry hget) hle
  chronological := h.chronological

/-- A message sent later leaves every user's entries in order. -/
theorem chronological_effect {now : Nat} {w : World X} {tx : Tx} {s : Storage X}
    {response : HandleResponse} (hw : OrderedBy now w)
    (htime : now ≤ tx.env.block.time)
    (h : Effect tx.querier w.storage tx.env tx.msg s response) :
    ∀ u, Chronological s.entries (s.user u).entryIndex := by
  have hregistered := hw.entered.registered
  have hold := hw.chronological
  obtain ⟨env, msg, querier⟩ := tx
  dsimp only at h htime
  intro u
  cases h with
  | deposit running token decoded minimum query =>
      rename_i sender from_ amount rewards payload
      let entry := depositEntry env from_ amount
      let inserted := X.store.insert w.storage.entries entry
      -- the indices that were there name the entries they named before
      have hkept : Chronological inserted.2 (w.storage.user u).entryIndex := by
        refine (hold u).of_sublist (List.Sublist.refl _) ?_
        intro i hi entry' hget
        have hne : i ≠ inserted.1 := by
          intro heq
          obtain ⟨live, hlive, _⟩ := (hregistered u).live i hi
          rw [heq, X.store.get_insert_fresh] at hlive
          cases hlive
        rw [X.store.get_insert_of_ne _ _ _ hne] at hget
        exact ⟨entry', hget, rfl⟩
      rw [user_insert (s := w.storage) rfl u]
      by_cases hu : from_ = u
      · subst hu
        rw [if_pos rfl]
        refine hkept.append (X.store.get_insert_self _ _) ?_
        intro j hj old hget
        by_cases hnew : j = inserted.1
        · rw [hnew, X.store.get_insert_self] at hget
          cases hget
          exact le_refl _
        · rw [X.store.get_insert_of_ne _ _ _ hnew] at hget
          exact le_trans (hw.noneAfter j old hget) htime
      · rw [if_neg hu]
        exact hkept
  | unstake running amount_eq positive delegated staked consumed query =>
      have hsublist := consumeEntries_sublist consumed
      have htimes := @consumeEntries_entryTime X _ _ _ _ _ _ consumed
      rw [user_insert (s := w.storage) rfl u]
      by_cases hu : env.message.sender = u
      · subst hu
        rw [if_pos rfl]
        exact (hold _).of_sublist hsublist fun i _ entry' hget => htimes hget
      · rw [if_neg hu]
        exact (hold u).of_sublist (List.Sublist.refl _) fun i _ entry' hget => htimes hget
  | payout open_ amount_eq positive available delegated allowed =>
      rw [user_insert (s := w.storage) rfl u]
      split
      · rename_i hu
        subst hu
        exact hold _
      · exact hold u
  | draw running triggerer ended restart entries drawn query share_eq share_lt found =>
      rename_i winner user lottery data rewards share
      rw [user_insert (s := w.storage) rfl u]
      split
      · have hwinner := hold winner
        rename_i hu
        subst hu
        rw [user_of_lookup found] at hwinner
        exact hwinner
      · exact hold u
  | _ => exact hold u

theorem OrderedBy.step {w : World X} (tx : Tx) (hw : OrderedBy tx.env.block.time w) :
    OrderedBy tx.env.block.time (w.step tx) := by
  refine ⟨hw.entered.step tx, noneAfter_step hw.noneAfter (le_refl _), ?_⟩
  rcases World.step_cases w tx with ⟨response, h⟩ | ⟨_, hstep⟩
  · exact chronological_effect hw (le_refl _) (World.exec_effect h)
  · rw [hstep]
    exact hw.chronological

theorem orderedBy_of_initial {w : World X} (h : w.Initial) (now : Nat) :
    OrderedBy now w where
  entered := entered_of_initial h
  noneAfter i entry hget := by
    rw [entries_of_initial h, X.store.get_empty] at hget
    cases hget
  chronological u := by
    rw [user_of_initial h]
    exact List.Pairwise.nil

/-- After any run from a new pool the slots and the lists agree, so that neither
unchecked lookup fails; and when the messages come in the order of their times, so
do the entries of every user. -/
theorem consistent_of_run {w : World X} (hw : w.Initial) (txs : List Tx) :
    Consistent (w.run txs).storage ∧
      ((txs.map fun tx => tx.env.block.time).Pairwise (· ≤ ·) →
        ∀ u, Chronological (w.run txs).storage.entries
          ((w.run txs).storage.user u).entryIndex) := by
  have hentered : Entered (w.run txs) :=
    run_invariant (fun _ tx h => h.step tx) (entered_of_initial hw) txs
  refine ⟨hentered.registered.consistent, ?_⟩
  intro horder
  obtain ⟨later, hordered⟩ := run_invariant_clock (I := OrderedBy)
    (fun _ _ _ hle h => h.later hle) (fun _ tx h => h.step tx) (orderedBy_of_initial hw 0)
    (fun _ _ => Nat.zero_le _) horder
  exact hordered.chronological

/-- Batman's first entry is used up and its slot is Superman's; what is left of the
second comes before the third. -/
def registryRun : List Tx :=
  [.depositAt 10 0 batman 1000000, .depositAt 20 0 batman 3000000,
    .at 30 0 batman (.triggerWithdraw (some 1500000)),
    .depositAt 40 0 superman 2000000, .depositAt 50 0 batman 1000000]

theorem consistent_of_run_registryRun :
    reference.store.values (testPool.run registryRun).storage.entries =
      [⟨superman, 2000000, 40⟩, ⟨batman, 2500000, 20⟩, ⟨batman, 1000000, 50⟩] ∧
    Consistent (testPool.run registryRun).storage ∧
    Chronological (testPool.run registryRun).storage.entries
      ((testPool.run registryRun).storage.user batman).entryIndex := by
  obtain ⟨hconsistent, hordered⟩ := consistent_of_run testPool_initial registryRun
  exact ⟨by decide, hconsistent, hordered (by decide) batman⟩

end SefiStakepool.Chain
