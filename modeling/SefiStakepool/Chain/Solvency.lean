/-
  Chain/Solvency.lean --- what the pool owes is covered.

  In every reachable state the tokens in hand and at stake cover the accounts,
  the pot and the fee.  As long as the contract is not stopped more is true: the
  stake is what the counters say, everything payable is in hand, and so every
  message a handler emits goes through.
-/
import SefiStakepool.Chain.Refinement
import SefiStakepool.Chain.Reference

set_option autoImplicit false

namespace SefiStakepool.Chain

open SefiStakepool.Foundation
open SefiStakepool.Contract
open SefiStakepool.Accounting

variable {X : Crates}

/-- The two stakes of the books are the whole stake. -/
theorem books_stake (w : World X) : w.books.current + w.books.elsewhere = w.totalStake := by
  have hle := World.stakeAt_le_totalStake w w.stakingAddr
  simp only [World.books, booksOver]
  omega

/-! ## Solvency -/

theorem solvent_of_initial {w : World X} (h : w.Initial) : w.books.Solvent := by
  rw [books_of_initial h]
  exact Nat.zero_le _

/-- A transaction keeps the pool solvent. -/
theorem solvent_step (w : World X) (tx : Tx) (h : w.books.Solvent) :
    (w.step tx).books.Solvent := by
  have hposts := step_posts w tx
  rw [hposts.books]
  exact h.apply _ hposts.admissible

theorem books_solvent_of_reachable {w : World X} (h : w.Reachable) : w.books.Solvent :=
  Reachable.invariant (I := fun w => w.books.Solvent) h (fun _ => solvent_of_initial) solvent_step

/-- What a reachable pool owes, it has. -/
theorem owed_le_of_reachable {w : World X} (h : w.Reachable) :
    w.totalDelegated + w.totalAvailable + w.storage.supplyPool.totalRewardsRestaked +
        w.storage.supplyPool.pendingStakingRewards + w.storage.supplyPool.triggeringCost ≤
      w.held + w.totalStake := by
  rw [← books_stake w]
  exact books_solvent_of_reachable h

/-- Whatever messages were sent, by whom and in which order, the tokens held and
staked cover the users' balances, the pot and the fee; where nothing is staked,
the tokens held cover the users' balances. -/
theorem solvent_of_reachable {w : World X} (h : w.Reachable) :
    w.totalDelegated + w.totalAvailable + w.storage.supplyPool.totalRewardsRestaked +
        w.storage.supplyPool.pendingStakingRewards + w.storage.supplyPool.triggeringCost ≤
      w.held + w.totalStake ∧
    (w.totalStake = 0 → w.totalDelegated + w.totalAvailable ≤ w.held) := by
  have hsolvent : w.books.Solvent :=
    Reachable.invariant (I := fun w => w.books.Solvent) h
      (fun _ => solvent_of_initial) solvent_step
  have hcovered : w.books.owed ≤ w.held + w.totalStake := by
    rw [← books_stake w]
    exact hsolvent
  have howed : w.books.owed = w.totalDelegated + w.totalAvailable +
      w.storage.supplyPool.totalRewardsRestaked +
      w.storage.supplyPool.pendingStakingRewards + w.storage.supplyPool.triggeringCost := rfl
  constructor
  · omega
  · intro hnone
    omega

/-- Two users, a draw, an emergency redemption and a withdrawal while stopped. -/
def stoppedRun : List Tx :=
  [.depositAt 10 0 batman 3000000, .depositAt 20 70 superman 2000000,
    .at 30 50 batman (.triggerWithdraw (some 1000000)),
    .at 86400 400 triggerer .claimRewards,
    .at 86500 0 admin .stopContract, .at 86510 9 admin .emergencyRedeemFromStaking,
    .at 86520 0 admin .allowWithdrawWhenStopped,
    .at 86530 0 superman (.withdraw (some 2000000))]

theorem solvent_of_reachable_stoppedRun :
    (testPool.run stoppedRun).totalStake = 0 ∧
    (testPool.run stoppedRun).totalDelegated +
      (testPool.run stoppedRun).totalAvailable ≤ (testPool.run stoppedRun).held :=
  have hnone : (testPool.run stoppedRun).totalStake = 0 := by decide
  ⟨hnone, (solvent_of_reachable (testPool_reachable stoppedRun)).2 hnone⟩

/-! ## Undisturbed operation -/

namespace World

/-- The transaction stops the contract. -/
def Stops (w : World X) (tx : Tx) : Prop := tx.msg = .stopContract ∧ (w.exec tx).isSome

instance (w : World X) (tx : Tx) : Decidable (w.Stops tx) :=
  inferInstanceAs (Decidable (_ ∧ _))

/-- A message whose handler succeeds goes through with all it emits. -/
def Honours (w : World X) (tx : Tx) : Prop :=
  ∀ s response, handle tx.querier w.storage tx.env tx.msg = .ok (s, response) →
    (w.exec tx).isSome

end World

/-- A contract that was never stopped. -/
structure Undisturbed (w : World X) : Prop where
  running : w.storage.config.isStopped = false
  noWithdraw : w.storage.config.isStoppedCanWithdraw = false
  regular : w.books.Regular

theorem undisturbed_of_initial {w : World X} (h : w.Initial) : Undisturbed w := by
  have hbooks := books_of_initial h
  obtain ⟨⟨env, msg, response, hinit⟩, _⟩ := h
  have hfresh := init_fresh hinit
  refine ⟨hfresh.running, hfresh.noWithdraw, ?_⟩
  rw [hbooks]
  exact ⟨rfl, rfl, rfl, Nat.zero_le _⟩

/-- What a running contract does is ordinary. -/
theorem ordinary_of_running {w : World X} {tx : Tx} {s : Storage X}
    {response : HandleResponse}
    (h : Effect tx.querier w.storage tx.env tx.msg s response)
    (hrunning : w.storage.config.isStopped = false)
    (hno : w.storage.config.isStoppedCanWithdraw = false) :
    (w.postingOf tx response).Ordinary := by
  have hnotStopped : w.storage.config.isStopped ≠ true := by simp [hrunning]
  obtain ⟨env, msg, querier⟩ := tx
  dsimp only at h
  cases h with
  | payout open_ amount_eq positive available delegated allowed =>
      rename_i amount liquid unbacked
      have hzero : unbacked = 0 := by
        by_contra hne
        have hcan := (allowed hne).1
        rw [hno] at hcan
        cases hcan
      simp only [World.postingOf, Posting.Ordinary]
      omega
  | noWinner running triggerer ended restart quiet =>
      simp only [World.postingOf, quiet, Posting.Ordinary]
  | excessPayout stopped | redeemAll stopped | restake stopped | relocate stopped =>
      exact absurd stopped hnotStopped
  | reconfigure running isAdmin change =>
      rcases change with ⟨_, rfl, _⟩ | ⟨_, rfl, _⟩ | ⟨_, rfl, _⟩ <;> trivial
  | viewingKey msg_eq =>
      rcases msg_eq with ⟨_, _, rfl, _⟩ | ⟨_, rfl⟩ <;> trivial
  | _ => trivial

/-- A transaction that does not stop the contract leaves it undisturbed. -/
theorem Undisturbed.step {w : World X} (h : Undisturbed w) (tx : Tx)
    (hstop : ¬ w.Stops tx) : Undisturbed (w.step tx) := by
  rcases World.step_cases w tx with ⟨response, hexec⟩ | ⟨_, hstep⟩
  · have heffect := World.exec_effect hexec
    have hposts := exec_posts hexec
    rw [World.posting_of_exec hexec] at hposts
    have hrunning : (w.step tx).storage.config.isStopped = false :=
      heffect.running h.running fun hmsg => hstop ⟨hmsg, by simp [hexec]⟩
    refine ⟨hrunning, ?_, ?_⟩
    · cases hcan : (w.step tx).storage.config.isStoppedCanWithdraw with
      | false => rfl
      | true =>
          have hstopped := heffect.stopped_of_withdraw (by simp [h.noWithdraw]) hcan
          rw [hrunning] at hstopped
          cases hstopped
    · rw [hposts.books]
      exact h.regular.apply _ hposts.admissible
        (ordinary_of_running heffect h.running h.noWithdraw)
  · rw [hstep]
    exact h

theorem undisturbed_of_run {w : World X} (hw : w.Initial) {txs : List Tx}
    (hrun : Along World.step (fun w tx => ¬ w.Stops tx) w txs) :
    Undisturbed (w.run txs) :=
  run_invariant_along (fun _ tx h hstop => h.step tx hstop) (undisturbed_of_initial hw) hrun

/-! ## Every emitted message is covered -/

/-- An undisturbed contract honours every message it accepts. -/
theorem honours_of_undisturbed {w : World X} (h : Undisturbed w) (tx : Tx) :
    w.Honours tx := by
  intro s response hhandle
  have heffect := handle_effect hhandle
  exact (exec_isSome_iff_funded hhandle).mpr (h.regular.funded (effect_backed heffect)
    (ordinary_of_running heffect h.running h.noWithdraw))

/-- Stopping changes nothing in the books. -/
theorem books_of_stop {w : World X} {stop : Tx} (hmsg : stop.msg = .stopContract) :
    (w.step stop).books = w.books := by
  have hposts := step_posts w stop
  have hidle : w.posting stop = .idle := by
    unfold World.posting World.postingOf
    rw [hmsg]
    split <;> rfl
  rw [hposts.books, hidle]
  rfl

/-- Right after an undisturbed contract was stopped, the redemption of the whole
stake goes through. -/
theorem honours_redeem_of_undisturbed {w : World X} (h : Undisturbed w) {stop redeem : Tx}
    (hstop : stop.msg = .stopContract) (hredeem : redeem.msg = .emergencyRedeemFromStaking) :
    (w.step stop).Honours redeem := by
  intro s response hhandle
  have hregular : (w.step stop).books.Regular := by
    rw [books_of_stop hstop]
    exact h.regular
  have hposting : (w.step stop).postingOf redeem response =
      .redeemAll ((w.step stop).reported redeem) := by
    unfold World.postingOf
    rw [hredeem]
  rw [exec_isSome_iff_funded hhandle, hposting]
  exact (hregular.redeemAll _).1

/-- After any run in which the contract is never stopped: the stake is the two
staked counters, what is payable is in hand, whatever message is handled next
goes through, and so does the first emergency redemption after a stop. -/
theorem covered_of_run {w : World X} (hw : w.Initial) (txs : List Tx)
    (hrun : Along World.step (fun w tx => ¬ w.Stops tx) w txs) :
    (w.run txs).totalStake = (w.run txs).storage.supplyPool.totalTokensStaked +
        (w.run txs).storage.supplyPool.totalRewardsRestaked ∧
      (w.run txs).stakeAt (w.run txs).stakingAddr = (w.run txs).totalStake ∧
      (w.run txs).totalAvailable + (w.run txs).storage.supplyPool.pendingStakingRewards +
        (w.run txs).storage.supplyPool.triggeringCost ≤ (w.run txs).held ∧
      (∀ tx, (w.run txs).Honours tx) ∧
      ∀ stop redeem, stop.msg = .stopContract →
        redeem.msg = .emergencyRedeemFromStaking →
        ((w.run txs).step stop).Honours redeem := by
  have h := undisturbed_of_run hw hrun
  have hstake := books_stake (w.run txs)
  have hregular := h.regular
  refine ⟨?_, ?_, hregular.payable_le, honours_of_undisturbed h,
    fun stop redeem => honours_redeem_of_undisturbed h⟩
  · rw [← hstake, hregular.elsewhere_eq, hregular.current_eq]
    rfl
  · rw [← hstake, hregular.elsewhere_eq]
    rfl

/-- Deposits, an unstaking, a draw and both kinds of payout. -/
def undisturbedRun : List Tx :=
  [.depositAt 10 0 batman 3000000, .depositAt 20 70 superman 2000000,
    .at 30 50 batman (.triggerWithdraw (some 1000000)),
    .at 86400 400 triggerer .claimRewards,
    .at 86500 0 admin .triggeringCostWithdraw, .at 86510 0 batman (.withdraw none)]

theorem covered_of_run_undisturbedRun :
    (testPool.run undisturbedRun).totalStake = 4000000 ∧
    (testPool.run undisturbedRun).Honours
      (.at 86600 30 superman (.triggerWithdraw (some 2000000))) := by
  have h := covered_of_run testPool_initial undisturbedRun (by decide)
  obtain ⟨hstake, _, _, hhonours, _⟩ := h
  exact ⟨hstake.trans (by decide), hhonours _⟩

end SefiStakepool.Chain
