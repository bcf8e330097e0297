/-
  Chain/Recovery.lean --- what the admin's recovery messages leave to the users.

  Whether the pot and the depositors' part of the stake are in hand or at stake is
  not recorded, and the messages may come in any order.  Two of them never touch
  what is payable.  The other two spend what they believe is in hand, and it is there
  once the stake was redeemed: since everything owed is covered, what is not staked
  is held.
-/
import SefiStakepool.Chain.Solvency

set_option autoImplicit false

namespace SefiStakepool.Chain

open SefiStakepool.Foundation
open SefiStakepool.Contract
open SefiStakepool.Accounting

variable {X : Crates}

/-- The tokens in hand cover the users' available amounts and the fee. -/
def World.Payable (w : World X) : Prop :=
  w.totalAvailable + w.storage.supplyPool.triggeringCost ≤ w.held

instance (w : World X) : Decidable w.Payable := inferInstanceAs (Decidable (_ ≤ _))

/-- The same for the books. -/
theorem payable_iff_books (w : World X) : w.Payable ↔ w.books.Payable := Iff.rfl

/-! ## One recovery message -/

/-- In any reachable state, a recovery message leaves the users' available amounts and the
fee covered: always, if it pays out the fee or redeems the stake; if it pays out the pot,
when no more is staked than the users have delegated; and if it stakes again, when nothing
is staked and the counter of staked tokens is what they have delegated. -/
theorem payable_of_recovery {w : World X} (hw : w.Reachable) (tx : Tx)
    (hpayable : w.Payable) :
    (tx.msg = .triggeringCostWithdraw → (w.step tx).Payable) ∧
    (tx.msg = .emergencyRedeemFromStaking → (w.step tx).Payable) ∧
    (tx.msg = .withdrawExcess → w.totalStake ≤ w.totalDelegated → (w.step tx).Payable) ∧
    (tx.msg = .redelegateToNewContract → w.totalStake = 0 →
      w.storage.supplyPool.totalTokensStaked = w.totalDelegated → (w.step tx).Payable) := by
  have hsolvent := books_solvent_of_reachable hw
  have hstake := books_stake w
  rcases World.step_cases w tx with ⟨response, hexec⟩ | ⟨_, hstep⟩
  · have hposts := step_posts w tx
    rw [World.posting_of_exec hexec] at hposts
    rw [payable_iff_books] at hpayable ⊢
    rw [hposts.books]
    unfold World.postingOf
    refine ⟨?_, ?_, ?_, ?_⟩
    · intro hmsg
      simp only [hmsg, Books.Payable, Posting.apply] at hpayable ⊢
      omega
    · intro hmsg
      simp only [hmsg, Books.Payable, Posting.apply] at hpayable ⊢
      omega
    · intro hmsg hdelegated
      rw [hmsg]
      exact hsolvent.payable_excessPayout (hstake.trans_le hdelegated)
    · intro hmsg hnone hstaked
      rw [hmsg]
      exact hsolvent.payable_restake (hstake.trans hnone) hstaked _
  · rw [hstep]
    exact ⟨fun _ => hpayable, fun _ => hpayable, fun _ _ => hpayable, fun _ _ _ => hpayable⟩

/-- A pool with 70 tokens of the pot staked and 1000000 payable to a user, stopped. -/
def restakedRun : List Tx :=
  [.depositAt 10 0 batman 3000000, .depositAt 20 70 superman 2000000,
    .depositAt 30 0 batman 1000000, .at 40 0 batman (.triggerWithdraw (some 1000000)),
    .at 50 0 admin .stopContract]

/-- The same pool after its stake was redeemed. -/
def redeemedRun : List Tx :=
  restakedRun ++ [.at 60 0 admin .emergencyRedeemFromStaking]

/-- After the redemption the pot can be paid out, or staked again with everything else. -/
theorem payable_of_recovery_redeemedRun :
    ((testPool.run redeemedRun).exec (.at 70 0 admin .withdrawExcess)).isSome ∧
    ((testPool.run redeemedRun).step (.at 70 0 admin .withdrawExcess)).Payable ∧
    ((testPool.run redeemedRun).exec (.at 70 0 admin .redelegateToNewContract)).isSome ∧
    ((testPool.run redeemedRun).step (.at 70 0 admin .redelegateToNewContract)).Payable := by
  obtain ⟨_, _, hexcess, _⟩ := payable_of_recovery (testPool_reachable redeemedRun)
    (.at 70 0 admin .withdrawExcess) (by decide)
  obtain ⟨_, _, _, hrestake⟩ := payable_of_recovery (testPool_reachable redeemedRun)
    (.at 70 0 admin .redelegateToNewContract) (by decide)
  exact ⟨by decide, hexcess rfl (by decide), by decide, hrestake rfl (by decide) (by decide)⟩

/-- Before it, the pot is paid out of what is owed to the user. -/
theorem not_payable_of_withdrawExcess :
    (testPool.run restakedRun).Reachable ∧
    (testPool.run restakedRun).storage.config.isStopped = true ∧
    (testPool.run restakedRun).Payable ∧
    ((testPool.run restakedRun).exec (.at 70 0 admin .withdrawExcess)).isSome ∧
    ¬ ((testPool.run restakedRun).step (.at 70 0 admin .withdrawExcess)).Payable :=
  ⟨testPool_reachable _, by decide, by decide, by decide, by decide⟩

/-! ## Any order after the redemption -/

section
variable {w : World X} {tx : Tx} {s : Storage X} {response : HandleResponse}

/-- A stopped contract takes no deposit, unstaking or draw. -/
theorem quiet_of_stopped (hstopped : w.storage.config.isStopped = true)
    (h : Effect tx.querier w.storage tx.env tx.msg s response) (user : HumanAddr)
    (amount rewards : Nat) :
    w.postingOf tx response ≠ .deposit user amount rewards ∧
      w.postingOf tx response ≠ .unstake user amount rewards ∧
      ∀ share, w.postingOf tx response ≠ .draw user amount share rewards := by
  have hrunning : w.storage.config.isStopped ≠ false := by simp [hstopped]
  obtain ⟨env, msg, querier⟩ := tx
  dsimp only at h
  cases h with
  | deposit running => exact absurd running hrunning
  | unstake running => exact absurd running hrunning
  | noWinner running => exact absurd running hrunning
  | draw running => exact absurd running hrunning
  | reconfigure running => exact absurd running hrunning
  | viewingKey msg_eq =>
      rcases msg_eq with ⟨_, _, rfl, _⟩ | ⟨_, rfl⟩ <;> simp [World.postingOf]
  | _ => simp [World.postingOf]

/-- Only `RedelegateToNewContract` stakes everything again. -/
theorem postingOf_ne_restake (hmsg : tx.msg ≠ .redelegateToNewContract) (rewards : Nat) :
    w.postingOf tx response ≠ .restake rewards := by
  unfold World.postingOf
  split <;> first | exact absurd ‹_› hmsg | simp

/-- A stopped contract does not stake unless it is told to stake again. -/
theorem totalStake_le_of_exec {w' : World X} (hstopped : w.storage.config.isStopped = true)
    (hmsg : tx.msg ≠ .redelegateToNewContract) (hexec : w.exec tx = some (w', response)) :
    w'.totalStake ≤ w.totalStake := by
  have hposts := exec_posts hexec
  rw [World.posting_of_exec hexec] at hposts
  rw [← books_stake w, ← books_stake w', hposts.books]
  exact Books.stake_le hposts.admissible.backed
    (fun user amount rewards =>
      (quiet_of_stopped hstopped (World.exec_effect hexec) user amount rewards).1)
    (postingOf_ne_restake hmsg)

/-- Stopped, with everything in hand. -/
structure InHand (w : World X) : Prop where
  stopped : w.storage.config.isStopped = true
  unstaked : w.totalStake = 0

/-- It stays so until the contract is resumed or told to stake again. -/
theorem InHand.step (h : InHand w) (hrestake : tx.msg ≠ .redelegateToNewContract)
    (hresume : tx.msg ≠ .resumeContract) : InHand (w.step tx) := by
  rcases World.step_cases w tx with ⟨response, hexec⟩ | ⟨_, hstep⟩
  · have hstake := totalStake_le_of_exec h.stopped hrestake hexec
    rw [h.unstaked] at hstake
    exact ⟨((World.exec_effect hexec).still_stopped hresume h.stopped).1, Nat.le_zero.mp hstake⟩
  · rw [hstep]
    exact h

/-- A contract that is told to stop, and does, is stopped. -/
theorem stopped_of_stops (h : w.Stops tx) : (w.step tx).storage.config.isStopped = true := by
  obtain ⟨hmsg, hsome⟩ := h
  obtain ⟨⟨w', response⟩, hexec⟩ := Option.isSome_iff_exists.mp hsome
  have heffect := World.exec_effect hexec
  rw [hmsg] at heffect
  rw [World.step_of_exec hexec, heffect.stopContract.2]

/-- The redemption of a stopped contract whose stake is what its books say takes out all
of it. -/
theorem inHand_of_redeem (hregular : w.books.Regular)
    (hstopped : w.storage.config.isStopped = true) (hmsg : tx.msg = .emergencyRedeemFromStaking)
    (hexec : (w.exec tx).isSome) : InHand (w.step tx) := by
  obtain ⟨⟨w', response⟩, hexec⟩ := Option.isSome_iff_exists.mp hexec
  have hposts := exec_posts hexec
  have hresume : tx.msg ≠ .resumeContract := by simp [hmsg]
  have hmode := ((World.exec_effect hexec).still_stopped hresume hstopped).1
  have hposting : w.posting tx = .redeemAll (w.reported tx) := by
    rw [World.posting_of_exec hexec]
    unfold World.postingOf
    rw [hmsg]
  rw [hposting] at hposts
  obtain ⟨_, hredeemed⟩ := hregular.redeemAll (U := HumanAddr) (w.reported tx)
  rw [← hposts.books] at hredeemed
  rw [World.step_of_exec hexec]
  refine ⟨hmode, ?_⟩
  rw [← books_stake, hredeemed.current_eq, hredeemed.elsewhere_eq]

/-- Where everything owed is covered and nothing is staked, what is payable is in hand. -/
theorem InHand.payable (h : InHand w) (hw : w.Reachable) : w.Payable := by
  have hcovered := owed_le_of_reachable hw
  have hnone := h.unstaked
  unfold World.Payable
  omega

end

/-- A contract that was never stopped is stopped, and its stake is redeemed.  Whatever is
sent then, by anyone and in any order, nothing is staked, and so what is payable is in hand,
until the contract is resumed or told to stake again. -/
theorem inHand_of_redeemed {w : World X} (hw : w.Initial) {before after : List Tx}
    {stop redeem : Tx} (hbefore : Along World.step (fun w tx => ¬ w.Stops tx) w before)
    (hstop : (w.run before).Stops stop) (hredeem : redeem.msg = .emergencyRedeemFromStaking)
    (hexec : (((w.run before).step stop).exec redeem).isSome)
    (hafter : ∀ tx ∈ after, tx.msg ≠ .redelegateToNewContract ∧ tx.msg ≠ .resumeContract) :
    InHand (w.run (before ++ stop :: redeem :: after)) ∧
      (w.run (before ++ stop :: redeem :: after)).Payable := by
  have hregular : ((w.run before).step stop).books.Regular := by
    rw [books_of_stop hstop.1]
    exact (undisturbed_of_run hw hbefore).regular
  have hredeemed := inHand_of_redeem hregular (stopped_of_stops hstop) hredeem hexec
  have hrun : w.run (before ++ stop :: redeem :: after) =
      (((w.run before).step stop).step redeem).run after := by
    unfold World.run
    rw [run_append, run_cons, run_cons]
  have hinHand : InHand (w.run (before ++ stop :: redeem :: after)) := by
    rw [hrun]
    exact run_invariant_along (fun _ _ h hmsg => h.step hmsg.1 hmsg.2) hredeemed
      (along_of_forall_mem (fun _ _ hmsg => hmsg) _ hafter)
  exact ⟨hinHand, hinHand.payable ⟨w, _, hw, rfl⟩⟩

end SefiStakepool.Chain
