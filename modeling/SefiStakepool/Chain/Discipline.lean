/-
  Chain/Discipline.lean --- which histories keep the pool in order.

  Redeeming, naming another staking contract, staking again, paying out the pot and
  resuming are separate messages that the contract takes in any order.  What keeps the
  books in order is a condition on each message by itself: the stake is redeemed as a
  whole, and nothing is done that belongs to the other state.  A run keeps the condition
  exactly when everything the contract accepts on the way goes through and leaves its
  books settled.
-/
import SefiStakepool.Chain.Backing
import SefiStakepool.Chain.Migration
import SefiStakepool.Chain.Recovery

set_option autoImplicit false

namespace SefiStakepool.Chain

open SefiStakepool.Foundation
open SefiStakepool.Contract
open SefiStakepool.Accounting

variable {X : Crates}

namespace World

/-- A message that fits what is staked: a withdrawal of available tokens, a redemption
or a resumption where everything is staked, a delegation where nothing is, a payout of
the pot where none of it is, and a staking contract at which the whole stake is already. -/
def Fits (w : World X) (sender : HumanAddr) : HandleMsg → Prop
  | .withdraw amount =>
      amount.getD (w.storage.user sender).availableTokensForWithdraw ≤
        (w.storage.user sender).availableTokensForWithdraw
  | .withdrawExcess => w.storage.supplyPool.totalRewardsRestaked = 0 ∨ w.totalStake = 0
  | .emergencyRedeemFromStaking | .resumeContract =>
      w.totalStake = w.storage.supplyPool.totalTokensStaked +
        w.storage.supplyPool.totalRewardsRestaked
  | .changeStakingContract address _ => w.stakeAt address = w.totalStake
  | .redelegateToNewContract => w.totalStake = 0
  | _ => True

instance (w : World X) (sender : HumanAddr) (msg : HandleMsg) : Decidable (w.Fits sender msg) :=
  match msg with
  | .withdraw _ => inferInstanceAs (Decidable (_ ≤ _))
  | .withdrawExcess => inferInstanceAs (Decidable (_ ∨ _))
  | .emergencyRedeemFromStaking | .resumeContract | .changeStakingContract _ _
  | .redelegateToNewContract => inferInstanceAs (Decidable (_ = _))
  | .receive _ _ _ _ | .deposit | .triggerWithdraw _ | .redelegate _ | .createViewingKey _ _
  | .setViewingKey _ _ | .claimRewards | .triggeringCostWithdraw | .changeAdmin _
  | .changeTriggerer _ | .changeTriggererShare _ | .changeLotteryDuration _ | .stopContract
  | .allowWithdrawWhenStopped => inferInstanceAs (Decidable True)

/-- A message that, if the contract accepts it, fits what is staked. -/
def Orderly (w : World X) (tx : Tx) : Prop :=
  (handle tx.querier w.storage tx.env tx.msg).isOk = true →
    w.Fits tx.env.message.sender tx.msg

instance (w : World X) (tx : Tx) : Decidable (w.Orderly tx) :=
  inferInstanceAs (Decidable (_ → _))

end World

/-- A pool with everything staked or, while it is stopped, with everything in hand. -/
structure Settled (w : World X) : Prop where
  books : w.books.Settled
  running : w.storage.config.isStopped = false →
    w.storage.config.isStoppedCanWithdraw = false ∧ w.books.Regular

theorem Undisturbed.settled {w : World X} (h : Undisturbed w) : Settled w :=
  ⟨Or.inl h.regular, fun _ => ⟨h.noWithdraw, h.regular⟩⟩

/-- The whole stake is at the staking contract. -/
theorem Settled.current_eq {w : World X} (h : Settled w) : w.books.current = w.totalStake := by
  have hstake := books_stake w
  have helsewhere := h.books.elsewhere_eq
  omega

/-! ## One message -/

section
variable {w : World X} {tx : Tx} {s : Storage X} {response : HandleResponse}

/-- What an accepted message posts is in order exactly when the message is, but for a
resumption. -/
theorem orderly_iff_inOrder (h : Settled w)
    (hhandle : handle tx.querier w.storage tx.env tx.msg = .ok (s, response)) :
    w.Orderly tx ↔ (w.postingOf tx response).InOrder w.books ∧
      (tx.msg = .resumeContract → w.books.Regular) := by
  have hcurrent := h.current_eq
  have hok : (handle tx.querier w.storage tx.env tx.msg).isOk = true := by rw [hhandle]; rfl
  have heffect := handle_effect hhandle
  clear hhandle
  unfold World.Orderly
  obtain ⟨env, msg, querier⟩ := tx
  dsimp only at heffect hok ⊢
  rw [forall_prop_of_true hok]
  cases heffect with
  | payout open_ amount_eq positive available delegated allowed =>
      rename_i amount liquid unbacked
      rw [World.postingOf_withdraw amount_eq available allowed]
      simp only [World.Fits, Posting.InOrder, reduceCtorEq, IsEmpty.forall_iff, and_true,
        ← amount_eq]
      constructor
      · intro hle
        by_contra hne
        have hall := (allowed hne).2.1
        omega
      · intro hzero
        omega
  | noWinner running triggerer ended restart quiet =>
      simp [World.Fits, World.postingOf, quiet, Posting.InOrder]
  | excessPayout stopped admin | redeemAll stopped admin query =>
      simp only [World.Fits, World.postingOf, Posting.InOrder, hcurrent, reduceCtorEq,
        IsEmpty.forall_iff, and_true]
      exact Iff.rfl
  | restake stopped admin query | relocate stopped admin =>
      simp only [World.Fits, World.postingOf, Posting.InOrder, hcurrent, reduceCtorEq,
        IsEmpty.forall_iff, and_true]
  | resume stopped admin =>
      simp only [World.Fits, World.postingOf, Posting.InOrder, true_and, forall_const]
      rw [← hcurrent]
      refine ⟨fun hall => ?_, Books.Regular.current_eq⟩
      exact h.books.elim id fun hredeemed => Books.regular_of_redeemed hredeemed hall
  | reconfigure running isAdmin change =>
      rcases change with ⟨_, rfl, _⟩ | ⟨_, rfl, _⟩ | ⟨_, rfl, _⟩ <;>
        simp [World.Fits, World.postingOf, Posting.InOrder]
  | viewingKey msg_eq =>
      rcases msg_eq with ⟨_, _, rfl, _⟩ | ⟨_, rfl⟩ <;>
        simp [World.Fits, World.postingOf, Posting.InOrder]
  | _ => simp [World.Fits, World.postingOf, Posting.InOrder]

/-- From settled books, what is in order is what goes through and leaves them settled. -/
theorem inOrder_iff_of_settled (h : Settled w)
    (heffect : Effect tx.querier w.storage tx.env tx.msg s response) :
    (w.postingOf tx response).InOrder w.books ↔ (w.postingOf tx response).Funded w.books ∧
      ((w.postingOf tx response).apply w.books).Settled := by
  have hbacked := effect_backed heffect
  cases hmode : w.storage.config.isStopped with
  | false => exact (h.running hmode).2.inOrder_iff hbacked
  | true =>
      rcases h.books with hregular | hredeemed
      · exact hregular.inOrder_iff hbacked
      · exact hredeemed.inOrder_iff hbacked (quiet_of_stopped hmode heffect)

/-- A contract that runs after an accepted message ran before and has regular books,
unless the message resumed it. -/
theorem running_iff_of_effect (h : Settled w)
    (heffect : Effect tx.querier w.storage tx.env tx.msg s response)
    (hadmissible : (w.postingOf tx response).Admissible w.books) :
    (s.config.isStopped = false → s.config.isStoppedCanWithdraw = false ∧
        ((w.postingOf tx response).apply w.books).Regular) ↔
      (tx.msg = .resumeContract → w.books.Regular) := by
  by_cases hmsg : tx.msg = .resumeContract
  · have hidle : w.postingOf tx response = .idle := by
      unfold World.postingOf
      rw [hmsg]
    rw [hidle]
    rw [hmsg] at heffect
    cases heffect with
    | resume stopped admin => simp [hmsg, Posting.apply]
    | reconfigure running isAdmin change =>
        rcases change with ⟨_, hchange, _⟩ | ⟨_, hchange, _⟩ | ⟨_, hchange, _⟩ <;> cases hchange
    | viewingKey msg_eq =>
        rcases msg_eq with ⟨_, _, hset, _⟩ | ⟨_, hset⟩ <;> cases hset
  · refine iff_of_true ?_ fun heq => absurd heq hmsg
    intro hrunning
    obtain ⟨hbefore, hkept⟩ := heffect.still_running hmsg hrunning
    obtain ⟨hno, hregular⟩ := h.running hbefore
    exact ⟨hkept.trans hno,
      hregular.apply _ hadmissible (ordinary_of_running heffect hbefore hno)⟩

/-- From a settled pool, a message is in order exactly when it goes through, if it is
accepted at all, and leaves the pool settled. -/
theorem orderly_iff_settled (h : Settled w) (tx : Tx) :
    w.Orderly tx ↔ w.Honours tx ∧ Settled (w.step tx) := by
  cases hhandle : handle tx.querier w.storage tx.env tx.msg with
  | error fault =>
      have hstep : w.step tx = w := by simp [World.step, World.exec, hhandle]
      refine iff_of_true ?_ ⟨?_, ?_⟩
      · intro hok
        rw [hhandle] at hok
        cases hok
      · intro s response hok
        rw [hhandle] at hok
        cases hok
      · rw [hstep]
        exact h
  | ok result =>
      obtain ⟨s, response⟩ := result
      have heffect := handle_effect hhandle
      have hbacked := effect_backed heffect
      have hhonours : w.Honours tx ↔ (w.postingOf tx response).Funded w.books := by
        rw [← exec_isSome_iff_funded hhandle]
        refine ⟨fun hgoes => hgoes s response hhandle, fun hgoes _ _ _ => hgoes⟩
      rw [orderly_iff_inOrder h hhandle, inOrder_iff_of_settled h heffect, hhonours, and_assoc]
      refine and_congr_right fun hfunded => ?_
      obtain ⟨_, hstorage, hbooks⟩ := step_of_handle hhandle hfunded
      rw [← running_iff_of_effect h heffect ⟨hbacked, hfunded⟩, ← hstorage, ← hbooks]
      constructor
      · rintro ⟨hsettled, hmode⟩
        exact ⟨hsettled, hmode⟩
      · intro hsettled
        exact ⟨hsettled.books, hsettled.running⟩

end

/-! ## A run -/

/-- Whatever was sent to a new pool, by anyone, with any number of stops, redemptions,
migrations and payouts on the way: every message was in order exactly when all the
accepted ones went through and left the pool settled each time. -/
theorem orderly_iff_settled_along {w : World X} (hw : w.Initial) (txs : List Tx) :
    Along World.step World.Orderly w txs ↔
      Along World.step (fun w tx => w.Honours tx ∧ Settled (w.step tx)) w txs :=
  along_iff_kept (I := Settled) (fun _ tx h => orderly_iff_settled h tx)
    (undisturbed_of_initial hw).settled txs

/-- Two migrations, with users paid on the way, and the pot paid out in the second. -/
def twoMigrationsRun : List Tx :=
  [.depositAt 10 0 batman 3000000, .depositAt 20 70 superman 2000000,
    .at 30 9 batman (.triggerWithdraw (some 1000000)), .at 40 0 admin .stopContract,
    .at 50 0 superman .allowWithdrawWhenStopped, .at 60 30 admin .emergencyRedeemFromStaking,
    .at 70 0 batman (.withdraw none),
    .at 80 0 admin (.changeStakingContract ⟨"new_staking_contract"⟩ ""),
    .at 90 0 admin .redelegateToNewContract, .at 100 0 admin .resumeContract,
    .depositAt 110 5 batman 1000000, .at 86400 400 triggerer .claimRewards,
    .at 86410 0 admin .stopContract, .at 86420 8 admin .emergencyRedeemFromStaking,
    .at 86430 0 admin .withdrawExcess,
    .at 86440 0 admin (.changeStakingContract ⟨"staking_contract"⟩ ""),
    .at 86450 0 admin .redelegateToNewContract, .at 86460 0 admin .resumeContract]

theorem orderly_iff_settled_along_twoMigrationsRun :
    Along World.step (fun w tx => w.Honours tx ∧ Settled (w.step tx)) testPool
      twoMigrationsRun ∧
    ¬ Along World.step (fun w tx => w.Honours tx ∧ Settled (w.step tx)) testPool
      (restakedRun ++ [.at 70 0 admin .withdrawExcess]) :=
  ⟨(orderly_iff_settled_along testPool_initial _).mp (by decide),
    (orderly_iff_settled_along testPool_initial _).not.mp (by decide)⟩

/-! ## What an orderly run leaves -/

/-- What leads from a settled pool to a settled pool takes nothing out of the stake. -/
theorem Settled.not_takesFromStake {w : World X} {tx : Tx} (h : Settled w)
    (hafter : Settled (w.step tx)) : ¬ w.TakesFromStake tx := by
  have hposts := step_posts w tx
  have hdrift := Books.staked_drift w.books (w.posting tx) hposts.admissible.backed
  have hbefore := h.books.staked_eq
  have hstaked := hafter.books.staked_eq
  rw [hposts.books] at hstaked
  exact (unbacked_eq_zero_iff w tx).mp (by omega)

theorem settled_of_orderly {w : World X} (hw : w.Initial) {txs : List Tx}
    (horderly : Along World.step World.Orderly w txs) :
    Settled (w.run txs) ∧ Along World.step (fun w tx => ¬ w.TakesFromStake tx) w txs := by
  have hstart := (undisturbed_of_initial hw).settled
  have hkept := (along_iff_kept (I := Settled) (fun _ tx h => orderly_iff_settled h tx)
    hstart txs).mp horderly
  clear hw horderly
  induction txs generalizing w with
  | nil => exact ⟨hstart, trivial⟩
  | cons tx txs ih =>
      obtain ⟨⟨_, hsettled⟩, hrest⟩ := hkept
      obtain ⟨hend, htakes⟩ := ih hsettled hrest
      exact ⟨hend, hstart.not_takesFromStake hsettled, htakes⟩

/-- Where nothing is taken out of the stake, the entries of every user are what the user
has delegated. -/
theorem entered_of_backed {w : World X} (hw : w.Initial) {txs : List Tx}
    (htakes : Along World.step (fun w tx => ¬ w.TakesFromStake tx) w txs) (u : HumanAddr) :
    (w.run txs).entered u = ((w.run txs).storage.user u).amountDelegated := by
  have hkept : Entered (w.run txs) ∧
      (w.run txs).entered u = ((w.run txs).storage.user u).amountDelegated := by
    refine run_invariant_along (I := fun w : World X =>
      Entered w ∧ w.entered u = (w.storage.user u).amountDelegated) ?_ ?_ htakes
    · rintro w tx ⟨hentered, heq⟩ htakes
      have hstep := (entered_step tx hentered).2 u
      have hzero := (unbackedPaid_eq_zero_iff w tx).mpr htakes u
      exact ⟨hentered.step tx, by omega⟩
    · obtain ⟨hzero, hzero'⟩ := stakes_of_initial hw u
      exact ⟨entered_of_initial hw, by omega⟩
  exact hkept.2

/-- After an orderly run the counter of staked tokens and the entries that are drawn from
are what the users have delegated; the whole stake is at one contract; and it is all that
should be staked, with what is payable in hand, or the contract is stopped and everything
is in hand. -/
theorem covered_of_orderly {w : World X} (hw : w.Initial) (txs : List Tx)
    (horderly : Along World.step World.Orderly w txs) :
    (w.run txs).storage.supplyPool.totalTokensStaked = (w.run txs).totalDelegated ∧
    (∀ u, (w.run txs).entered u = ((w.run txs).storage.user u).amountDelegated) ∧
    (w.run txs).stakeAt (w.run txs).stakingAddr = (w.run txs).totalStake ∧
    ((w.run txs).totalStake = (w.run txs).storage.supplyPool.totalTokensStaked +
          (w.run txs).storage.supplyPool.totalRewardsRestaked ∧
        (w.run txs).totalAvailable + (w.run txs).storage.supplyPool.pendingStakingRewards +
          (w.run txs).storage.supplyPool.triggeringCost ≤ (w.run txs).held ∨
      (w.run txs).storage.config.isStopped = true ∧ (w.run txs).totalStake = 0 ∧
        (w.run txs).totalAvailable + (w.run txs).storage.supplyPool.pendingStakingRewards +
          (w.run txs).storage.supplyPool.triggeringCost +
          ((w.run txs).storage.supplyPool.totalTokensStaked +
            (w.run txs).storage.supplyPool.totalRewardsRestaked) ≤ (w.run txs).held) := by
  obtain ⟨hsettled, htakes⟩ := settled_of_orderly hw horderly
  have hcurrent := hsettled.current_eq
  refine ⟨hsettled.books.staked_eq, entered_of_backed hw htakes, hcurrent, ?_⟩
  have hregular (h : (w.run txs).books.Regular) :
      (w.run txs).totalStake = (w.run txs).storage.supplyPool.totalTokensStaked +
          (w.run txs).storage.supplyPool.totalRewardsRestaked ∧
        (w.run txs).totalAvailable + (w.run txs).storage.supplyPool.pendingStakingRewards +
          (w.run txs).storage.supplyPool.triggeringCost ≤ (w.run txs).held :=
    ⟨hcurrent.symm.trans h.current_eq, h.payable_le⟩
  cases hmode : (w.run txs).storage.config.isStopped with
  | false => exact Or.inl (hregular (hsettled.running hmode).2)
  | true =>
      refine hsettled.books.imp hregular fun hredeemed => ⟨rfl, ?_, hredeemed.payable_le⟩
      exact hcurrent.symm.trans hredeemed.current_eq

theorem covered_of_orderly_twoMigrationsRun :
    (testPool.run twoMigrationsRun).storage.supplyPool.totalTokensStaked = 5000000 ∧
    (testPool.run twoMigrationsRun).entered batman = 3000000 := by
  obtain ⟨hstaked, hentered, _⟩ := covered_of_orderly testPool_initial twoMigrationsRun
    (by decide)
  exact ⟨hstaked.trans (by decide), (hentered batman).trans (by decide)⟩

end SefiStakepool.Chain
