/-
  Chain/Backing.lean --- the lottery entries of a user and the user's stake.

  A user is drawn with the amounts of the user's live entries.  These are what
  the user has delegated for as long as nobody withdraws delegated tokens from a
  stopped contract: that withdrawal leaves the entries alone.
-/
import SefiStakepool.Contract.Entries
import SefiStakepool.Chain.Aggregate

set_option autoImplicit false

namespace SefiStakepool.Chain

open SefiStakepool.Foundation
open SefiStakepool.Contract
open SefiStakepool.Accounting

variable {X : Crates}

/-- Every user's record lists exactly the user's live entries. -/
def Registered (s : Storage X) : Prop :=
  ∀ u, Tracks s.entries u (s.user u).entryIndex

/-- Then no live entry is of amount zero. -/
theorem Registered.positive {s : Storage X} (h : Registered s) {i : X.store.Index}
    {entry : LotteryEntries} (hget : X.store.get s.entries i = some entry) :
    0 < entry.amount := by
  have htracks := h entry.userAddress
  obtain ⟨live, hlive, _, hpositive⟩ := htracks.live i (htracks.complete i entry hget rfl)
  obtain rfl : live = entry := Option.some.inj (hlive.symm.trans hget)
  exact hpositive

/-- The amounts of `u`'s live entries. -/
def World.entered (u : HumanAddr) (w : World X) : Nat := entryTotal u w.storage.entries

/-- Every record is right, and no entries are missing. -/
structure Entered (w : World X) : Prop where
  registered : Registered w.storage
  delegated_le : ∀ u, (w.storage.user u).amountDelegated ≤ w.entered u

/-- A new pool has an empty entry store. -/
theorem entries_of_initial {w : World X} (h : w.Initial) :
    w.storage.entries = X.store.empty := by
  obtain ⟨⟨env, msg, response, hinit⟩, _⟩ := h
  simp only [Storage.entries, (init_fresh hinit).lotteryEntries_eq, Option.getD_none]

theorem stakes_of_initial {w : World X} (h : w.Initial) (u : HumanAddr) :
    w.entered u = 0 ∧ (w.storage.user u).amountDelegated = 0 := by
  rw [World.entered, entries_of_initial h, user_of_initial h]
  exact ⟨GenerationalStore.total_empty _, rfl⟩

theorem entered_of_initial {w : World X} (h : w.Initial) : Entered w := by
  refine ⟨?_, ?_⟩
  · intro u
    rw [user_of_initial h, entries_of_initial h]
    refine ⟨List.nodup_nil, fun i hi => absurd hi (List.not_mem_nil), ?_⟩
    intro i entry hget
    rw [X.store.get_empty] at hget
    cases hget
  · intro u
    rw [user_of_initial h]
    exact Nat.zero_le _

/-! ## One transaction -/

/-- What a message does to the entries, in terms of what it posts. -/
structure Enters (s s' : Storage X) (p : Posting HumanAddr) : Prop where
  registered : Registered s'
  entered : ∀ u, entryTotal u s'.entries + p.unstaked u =
    entryTotal u s.entries + p.paidIn u

/-- A message that writes neither entries nor their indices. -/
theorem Enters.of_same {s s' : Storage X} {p : Posting HumanAddr} (h : Registered s)
    (hentries : s'.lotteryEntries = s.lotteryEntries)
    (hindex : ∀ u, (s'.user u).entryIndex = (s.user u).entryIndex)
    (hquiet : ∀ u, p.unstaked u = 0 ∧ p.paidIn u = 0) : Enters s s' p := by
  have hsame : s'.entries = s.entries := by
    unfold Storage.entries
    rw [hentries]
  refine ⟨?_, ?_⟩
  · intro u
    rw [hsame, hindex u]
    exact h u
  · intro u
    obtain ⟨hunstaked, hpaid⟩ := hquiet u
    rw [hsame, hunstaked, hpaid]

/-- A message that writes the entries of one user and their indices. -/
theorem Enters.of_insert {s s' : Storage X} {p : Posting HumanAddr} {addr : HumanAddr}
    {user : UserInfo X.store.Index} {entries : X.store.Store} (h : Registered s)
    (written : s'.userInfo = s.userInfo.insert addr user)
    (stored : s'.lotteryEntries = some entries) (holder : p.holder = some addr)
    (htracks : Tracks entries addr user.entryIndex)
    (hagrees : AgreesBut addr s.entries entries)
    (htotal : entryTotal addr entries + p.unstaked addr =
      entryTotal addr s.entries + p.paidIn addr) : Enters s s' p := by
  have hentries : s'.entries = entries := by
    unfold Storage.entries
    rw [stored]
    rfl
  refine ⟨?_, ?_⟩
  · intro u
    rw [user_insert written u, hentries]
    by_cases hu : addr = u
    · subst hu
      simpa using htracks
    · rw [if_neg hu]
      exact (h u).of_agreesBut (Ne.symm hu) hagrees
  · intro u
    rw [hentries]
    by_cases hu : addr = u
    · subst hu
      exact htotal
    · obtain ⟨hpaid, hunstaked, _⟩ :=
        Posting.untouched_of_holder_ne (p := p) (u := u) (by simpa [holder] using hu)
      rw [hpaid, hunstaked, hagrees.entryTotal_eq (Ne.symm hu)]

/-- Writing a record with the old indices writes no indices. -/
theorem entryIndex_insert {s s' : Storage X} {addr : HumanAddr}
    {user : UserInfo X.store.Index} (h : s'.userInfo = s.userInfo.insert addr user)
    (hindex : user.entryIndex = (s.user addr).entryIndex) (u : HumanAddr) :
    (s'.user u).entryIndex = (s.user u).entryIndex := by
  rw [user_insert h u]
  by_cases hu : addr = u
  · subst hu
    simpa using hindex
  · rw [if_neg hu]

theorem effect_enters {w : World X} {tx : Tx} {s : Storage X} {response : HandleResponse}
    (h : Effect tx.querier w.storage tx.env tx.msg s response) (hw : Entered w) :
    Enters w.storage s (w.postingOf tx response) := by
  have hregistered := hw.registered
  obtain ⟨env, msg, querier⟩ := tx
  dsimp only at h
  cases h with
  | deposit running token decoded minimum query =>
      rename_i sender from_ amount rewards payload
      have howner : (depositEntry env from_ amount).userAddress = from_ := rfl
      have hpositive : 0 < (depositEntry env from_ amount).amount :=
        Nat.lt_of_lt_of_le (by omega) minimum
      refine Enters.of_insert hregistered rfl rfl rfl
        ((hregistered from_).insert howner hpositive) (agreesBut_insert howner) ?_
      rw [entryTotal_insert howner]
      simp [World.postingOf, depositEntry]
  | unstake running amount_eq positive delegated staked consumed query =>
      rename_i amount withdrawAmount rewards entries entryIndex
      have hle := le_trans delegated (hw.delegated_le env.message.sender)
      obtain ⟨htracks, htotal, hagrees⟩ :=
        consumeEntries_spec (hregistered env.message.sender) hle consumed
      refine Enters.of_insert hregistered rfl rfl rfl htracks hagrees ?_
      simpa [World.postingOf, ← amount_eq] using htotal
  | payout open_ amount_eq positive available delegated allowed =>
      exact Enters.of_same hregistered rfl (entryIndex_insert rfl rfl)
        fun u => by simp [World.postingOf]
  | noWinner running triggerer ended restart quiet =>
      exact Enters.of_same hregistered rfl (fun _ => rfl)
        fun u => by simp [World.postingOf, quiet]
  | draw running triggerer ended restart entries drawn query share_eq share_lt found =>
      have huser := user_of_lookup found
      exact Enters.of_same hregistered rfl (entryIndex_insert rfl (by rw [huser]))
        fun u => by simp [World.postingOf]
  | reconfigure running isAdmin change =>
      rcases change with ⟨_, rfl, rfl⟩ | ⟨_, rfl, rfl⟩ | ⟨_, rfl, rfl⟩ <;>
        exact Enters.of_same hregistered rfl (fun _ => rfl)
          fun u => by simp [World.postingOf]
  | viewingKey msg_eq =>
      rcases msg_eq with ⟨_, _, rfl, _⟩ | ⟨_, rfl⟩ <;>
        exact Enters.of_same hregistered rfl (fun _ => rfl)
          fun u => by simp [World.postingOf]
  | _ =>
      exact Enters.of_same hregistered rfl (fun _ => rfl)
        fun u => by simp [World.postingOf]

/-- A step keeps the records right; what it adds to the entries of a user and to
the delegated amount differs by what it pays out of the latter. -/
theorem entered_step {w : World X} (tx : Tx) (hw : Entered w) :
    Registered (w.step tx).storage ∧
      ∀ u, (w.step tx).entered u + (w.storage.user u).amountDelegated =
        w.entered u + ((w.step tx).storage.user u).amountDelegated +
          (w.posting tx).unbackedPaid u := by
  have hposts := step_posts w tx
  have henters : Enters w.storage (w.step tx).storage (w.posting tx) := by
    rcases World.step_cases w tx with ⟨response, h⟩ | ⟨h, hstep⟩
    · rw [World.posting_of_exec h]
      exact effect_enters (World.exec_effect h) hw
    · rw [hstep, World.posting_of_none h]
      exact Enters.of_same hw.registered rfl (fun _ => rfl) fun u => by simp
  refine ⟨henters.registered, ?_⟩
  intro u
  have hentered := henters.entered u
  have hdelegated := Posting.delegated_balance u _ _ (hposts.covered u)
  rw [← hposts.account u] at hdelegated
  simp only [account] at hdelegated
  unfold World.entered
  omega

theorem Entered.step {w : World X} (tx : Tx) (hw : Entered w) : Entered (w.step tx) := by
  obtain ⟨hregistered, hbalance⟩ := entered_step tx hw
  refine ⟨hregistered, ?_⟩
  intro u
  have hu := hbalance u
  have hle := hw.delegated_le u
  omega

/-! ## A run -/

theorem entered_of_reachable {w : World X} (hw : w.Reachable) : Entered w :=
  Reachable.invariant hw (fun _ => entered_of_initial) fun _ tx h => h.step tx

/-- Nothing is paid out of anyone's delegated amount unless it is taken from the stake. -/
theorem unbackedPaid_eq_zero_iff (w : World X) (tx : Tx) :
    (∀ u, (w.posting tx).unbackedPaid u = 0) ↔ ¬ w.TakesFromStake tx := by
  rw [← unbacked_eq_zero_iff]
  cases w.posting tx with
  | payout user liquid unbacked =>
      constructor
      · intro h
        simpa using h user
      · intro h u
        simp only [Posting.unbacked] at h
        simp [h]
  | _ => simp

/-- After any run from a new pool, every user's live entries sum to what the user
has delegated exactly when no withdrawal was taken out of the stake. -/
theorem entered_eq_delegated_iff {w : World X} (hw : w.Initial) (txs : List Tx) :
    (∀ u, (w.run txs).entered u = ((w.run txs).storage.user u).amountDelegated) ↔
      Along World.step (fun w tx => ¬ w.TakesFromStake tx) w txs := by
  have hentered := entered_of_initial hw
  have hstart := stakes_of_initial hw
  have hgap : ∀ u, (w.run txs).entered u =
      ((w.run txs).storage.user u).amountDelegated +
        sumAlong World.step (fun w tx => (w.posting tx).unbackedPaid u) w txs := by
    intro u
    have hbalance := @run_balance_of_invariant (World X) Tx World.step Entered
      (World.entered u) (fun w => (w.storage.user u).amountDelegated)
      (fun w tx => (w.posting tx).unbackedPaid u) (fun _ _ => 0)
      (fun w tx h => h.step tx) (fun w tx h => (entered_step tx h).2 u) w hentered txs
    rw [sumAlong_zero] at hbalance
    obtain ⟨hzero, hzero'⟩ := hstart u
    unfold World.run
    omega
  have hsum : (∀ u, sumAlong World.step (fun w tx => (w.posting tx).unbackedPaid u) w txs = 0) ↔
      Along World.step (fun w tx => ¬ w.TakesFromStake tx) w txs := by
    simp only [sumAlong_eq_zero_iff]
    rw [← along_forall]
    exact along_congr (I := fun _ => True) (fun _ _ _ => trivial)
      (fun w tx _ => unbackedPaid_eq_zero_iff w tx) trivial txs
  rw [← hsum]
  refine forall_congr' fun u => ?_
  have hu := hgap u
  omega

theorem entered_eq_delegated_iff_backedRun :
    (testPool.run backedRun).entered batman = 2000000 :=
  ((entered_eq_delegated_iff testPool_initial backedRun).mpr (by decide) batman).trans
    (by decide)

/-- The entry of a deposit that was withdrawn from the stopped contract is still
there: its owner can win with tokens that are gone. -/
theorem entered_ne_delegated_unbackedRun :
    (testPool.run unbackedRun).Reachable ∧
      (testPool.run unbackedRun).entered batman = 1000000 ∧
      ((testPool.run unbackedRun).storage.user batman).amountDelegated = 0 :=
  ⟨testPool_reachable _, by decide, by decide⟩

end SefiStakepool.Chain
