/-
  Chain/Handling.lean --- which messages abort.

  Every handler but one checks what it subtracts from, looks up what is there, and adds
  amounts of tokens the pool has or is told of.  The exception is the draw, which works
  with parameters nobody checks.  So `handle` aborts on a draw that does not survive, and
  on nothing else.
-/
import SefiStakepool.Chain.Draw
import SefiStakepool.Chain.Panics
import SefiStakepool.Chain.Unstaking

set_option autoImplicit false

namespace SefiStakepool.Chain

open SefiStakepool.Foundation
open SefiStakepool.Contract

variable {X : Crates}

/-- The amounts of a storage leave room for the sums that handlers make of them, with
`incoming` tokens coming in. -/
structure Room (querier : Querier) (env : Env) (s : Storage X) (incoming : Nat) : Prop where
  user : ∀ u, (s.user u).amountDelegated + (s.user u).availableTokensForWithdraw + incoming
    < 2 ^ 128
  counters : s.supplyPool.totalTokensStaked + s.supplyPool.totalRewardsRestaked +
    s.supplyPool.pendingStakingRewards + incoming < 2 ^ 128
  rewards : ∀ response, queryPendingRewards querier env s.config = .ok response →
    s.supplyPool.pendingStakingRewards + response.rewards.rewards < 2 ^ 128

/-! ## The handlers -/

section
variable {querier : Querier} {s : Storage X} {env : Env} {incoming : Nat}

theorem noPanic_queryPendingRewards (config : Config) :
    NoPanic (queryPendingRewards querier env config) :=
  noPanic_liftStd _

/-- A message that needs room is answered within it. -/
theorem noPanic_deposit {from_ : HumanAddr} {amount : Nat}
    (h : env.message.sender = s.config.token.address → Room querier env s amount) :
    NoPanic (deposit querier s env from_ amount) := by
  unfold deposit
  refine noPanic_bind.mpr ⟨noPanic_ensure_err, fun _ htoken => ?_⟩
  have hroom := h (ensure_eq_ok.mp htoken)
  have huser := hroom.user from_
  have hcounters := hroom.counters
  refine noPanic_bind.mpr ⟨noPanic_ensure_err, fun _ _ => ?_⟩
  refine noPanic_bind.mpr ⟨noPanic_addU.mpr (by omega), fun _ _ => ?_⟩
  refine noPanic_bind.mpr ⟨noPanic_queryPendingRewards _, fun _ _ => ?_⟩
  refine noPanic_bind.mpr ⟨noPanic_addU.mpr (by omega), fun _ _ => ?_⟩
  refine noPanic_bind.mpr ⟨noPanic_addU.mpr (by omega), fun _ _ => ?_⟩
  exact noPanic_bind.mpr ⟨noPanic_addU.mpr (by omega), fun _ _ => noPanic_ok _⟩

theorem noPanic_receive {from_ : HumanAddr} {amount : Nat} {msg : Binary}
    (h : env.message.sender = s.config.token.address → Room querier env s amount) :
    NoPanic (receive querier s env from_ amount msg) := by
  unfold receive
  refine noPanic_bind.mpr ⟨noPanic_liftStd _, fun decoded _ => ?_⟩
  cases decoded with
  | deposit => exact noPanic_deposit h
  | _ => exact noPanic_err _

theorem noPanic_collectRewards {pending rewards : Nat} (h : pending + rewards < 2 ^ 128) :
    NoPanic (collectRewards pending rewards) := by
  unfold collectRewards
  split
  · exact noPanic_addU.mpr h
  · exact noPanic_ok _

theorem noPanic_triggerWithdraw {amount : Option Nat} (h : Room querier env s incoming)
    (hstaked : (s.user env.message.sender).amountDelegated ≤ s.supplyPool.totalTokensStaked)
    (hconsumed : ∀ asked, ∃ consumed, consumeEntries X (s.user env.message.sender).entryIndex
      s.entries (s.user env.message.sender).entryIndex asked = .ok consumed) :
    NoPanic (triggerWithdraw querier s env amount) := by
  have huser := h.user env.message.sender
  unfold triggerWithdraw
  refine noPanic_bind.mpr ⟨noPanic_ensure_err, fun _ _ => ?_⟩
  refine noPanic_bind.mpr ⟨noPanic_ensure_err, fun _ hdelegated => ?_⟩
  have hdelegated := ensure_eq_ok.mp hdelegated
  refine noPanic_bind.mpr ⟨noPanic_subU.mpr hdelegated, fun _ _ => ?_⟩
  refine noPanic_bind.mpr ⟨noPanic_addU.mpr (by omega), fun _ _ => ?_⟩
  obtain ⟨consumed, hconsumed⟩ :=
    hconsumed (amount.getD (s.user env.message.sender).amountDelegated)
  rw [noPanic_bind_of_ok hconsumed]
  refine noPanic_bind.mpr ⟨noPanic_queryPendingRewards _, fun response hquery => ?_⟩
  refine noPanic_bind.mpr ⟨noPanic_collectRewards (h.rewards response hquery), fun _ _ => ?_⟩
  exact noPanic_bind.mpr ⟨noPanic_subU.mpr (le_trans hdelegated hstaked), fun _ _ => noPanic_ok _⟩

theorem noPanic_withdrawFrom {config : Config} {user : UserInfo X.store.Index} {asked : Nat}
    (h : user.amountDelegated + user.availableTokensForWithdraw < 2 ^ 128) :
    NoPanic (withdrawFrom config user asked) := by
  unfold withdrawFrom
  split
  · refine noPanic_bind.mpr ⟨noPanic_ensure_err, fun _ hle => ?_⟩
    exact noPanic_bind.mpr ⟨noPanic_subU.mpr (ensure_eq_ok.mp hle), fun _ _ => noPanic_ok _⟩
  · rw [noPanic_bind_of_ok (addU_eq_ok.mpr ⟨h, rfl⟩)]
    refine noPanic_bind.mpr ⟨noPanic_ensure_err, fun _ hle => ?_⟩
    have hle := ensure_eq_ok.mp hle
    split
    · -- what is taken out of the delegated amount is no more than that
      rename_i hexceeds
      rw [noPanic_bind_of_ok (subU_eq_ok.mpr ⟨hexceeds.le, rfl⟩)]
      exact noPanic_bind.mpr ⟨noPanic_subU.mpr (by omega), fun _ _ => noPanic_ok _⟩
    · exact noPanic_bind.mpr ⟨noPanic_subU.mpr (by omega), fun _ _ => noPanic_ok _⟩

theorem noPanic_withdraw {amount : Option Nat} (h : Room querier env s incoming) :
    NoPanic (withdraw s env amount) := by
  have huser := h.user env.message.sender
  unfold withdraw
  refine noPanic_bind.mpr ⟨noPanic_ensure_err, fun _ _ => ?_⟩
  refine noPanic_bind.mpr ⟨noPanic_ensure_err, fun _ _ => ?_⟩
  exact noPanic_bind.mpr ⟨noPanic_withdrawFrom (by omega), fun _ _ => noPanic_ok _⟩

theorem noPanic_updateConfig {update : Config → Config} {data : HandleAnswer} :
    NoPanic (updateConfig update data s env) :=
  noPanic_bind.mpr ⟨noPanic_ensure_err, fun _ _ => noPanic_ok _⟩

theorem noPanic_changeLotteryDuration {duration : Nat} :
    NoPanic (changeLotteryDuration s env duration) :=
  noPanic_bind.mpr ⟨noPanic_ensure_err, fun _ _ => noPanic_ok _⟩

theorem noPanic_stopContract : NoPanic (stopContract s env) :=
  noPanic_bind.mpr ⟨noPanic_ensure_err, fun _ _ =>
    noPanic_bind.mpr ⟨noPanic_ensure_err, fun _ _ => noPanic_ok _⟩⟩

theorem noPanic_triggeringCostWithdraw : NoPanic (triggeringCostWithdraw s env) :=
  noPanic_bind.mpr ⟨noPanic_ensure_err, fun _ _ =>
    noPanic_bind.mpr ⟨noPanic_ensure_err, fun _ _ => noPanic_ok _⟩⟩

theorem noPanic_withdrawExcess (h : Room querier env s incoming) :
    NoPanic (withdrawExcess s env) := by
  have hcounters := h.counters
  unfold withdrawExcess
  refine noPanic_bind.mpr ⟨noPanic_ensure_err, fun _ _ => ?_⟩
  refine noPanic_bind.mpr ⟨noPanic_addU.mpr (by omega), fun _ _ => ?_⟩
  exact noPanic_bind.mpr ⟨noPanic_ensure_err, fun _ _ => noPanic_ok _⟩

theorem noPanic_emergencyRedeemFromStaking (h : Room querier env s incoming) :
    NoPanic (emergencyRedeemFromStaking querier s env) := by
  have hcounters := h.counters
  unfold emergencyRedeemFromStaking
  refine noPanic_bind.mpr ⟨noPanic_ensure_err, fun _ _ => ?_⟩
  refine noPanic_bind.mpr ⟨noPanic_queryPendingRewards _, fun response hquery => ?_⟩
  refine noPanic_bind.mpr ⟨noPanic_addU.mpr (by omega), fun _ _ => ?_⟩
  exact noPanic_bind.mpr ⟨noPanic_addU.mpr (h.rewards response hquery), fun _ _ => noPanic_ok _⟩

theorem noPanic_redelegateToContract (h : Room querier env s incoming) :
    NoPanic (redelegateToContract querier s env) := by
  have hcounters := h.counters
  unfold redelegateToContract
  refine noPanic_bind.mpr ⟨noPanic_ensure_err, fun _ _ => ?_⟩
  refine noPanic_bind.mpr ⟨noPanic_queryPendingRewards _, fun _ _ => ?_⟩
  dsimp only
  rw [noPanic_bind_of_ok (addU_eq_ok.mpr ⟨by omega, rfl⟩)]
  refine noPanic_bind.mpr ⟨noPanic_addU.mpr (by omega), fun _ _ => ?_⟩
  exact noPanic_bind.mpr ⟨noPanic_addU.mpr (by omega), fun _ _ => noPanic_ok _⟩

/-- Only from the triggerer, at the end of a round, does `ClaimRewards` get further than
its checks. -/
theorem noPanic_claimRewards_of_refused (h : ¬ (s.config.triggerer = env.message.sender ∧
    s.lottery.endTime ≤ env.block.time)) : NoPanic (claimRewards querier s env) := by
  unfold claimRewards
  refine noPanic_bind.mpr ⟨noPanic_ensure_err, fun _ htriggerer => ?_⟩
  refine noPanic_bind.mpr ⟨noPanic_ensure_err, fun _ hended => ?_⟩
  exact absurd ⟨ensure_eq_ok.mp htriggerer, ensure_eq_ok.mp hended⟩ h

end

/-! ## Reachable states -/

/-- The message is a draw that gets further than its checks. -/
def World.Draws (w : World X) (tx : Tx) : Prop :=
  tx.msg = .claimRewards ∧ w.storage.config.isStopped = false ∧
    w.storage.config.triggerer = tx.env.message.sender ∧
    w.storage.lottery.endTime ≤ tx.env.block.time

instance (w : World X) (tx : Tx) : Decidable (w.Draws tx) :=
  inferInstanceAs (Decidable (_ ∧ _ ∧ _ ∧ _))

/-- What the pool has, is sent and is told of leaves room for the sums of a message. -/
theorem room_of_reachable {w : World X} (hw : w.Reachable) {tx : Tx} {incoming supply : Nat}
    (hsupply : w.held + w.totalStake + incoming + w.reported tx ≤ supply)
    (hstaked : w.storage.supplyPool.totalTokensStaked ≤ supply)
    (hfits : supply * 10 ^ 10 < 2 ^ 128) : Room tx.querier tx.env w.storage incoming := by
  have hsolvent := owed_le_of_reachable hw
  refine ⟨?_, by omega, ?_⟩
  · intro u
    have hdelegated : (w.storage.user u).amountDelegated ≤ w.totalDelegated :=
      le_total_user UserInfo.amountDelegated rfl w.storage u
    have havailable : (w.storage.user u).availableTokensForWithdraw ≤ w.totalAvailable :=
      le_total_user UserInfo.availableTokensForWithdraw rfl w.storage u
    omega
  · rintro ⟨⟨rewards⟩⟩ hquery
    rw [World.reported_of_query hquery] at hsupply
    dsimp only
    omega

/-- What comes with a deposit is what it deposits. -/
theorem incoming_of_receive {w : World X} {tx : Tx} {sender from_ : HumanAddr} {amount : Nat}
    {payload : Binary} (hmsg : tx.msg = .receive sender from_ amount payload)
    (htoken : tx.env.message.sender = w.storage.config.token.address) :
    w.incoming tx = amount := by
  unfold World.incoming
  rw [hmsg]
  exact if_pos htoken

theorem noPanic_handleStopped {querier : Querier} {s : Storage X} {env : Env} {incoming : Nat}
    (h : Room querier env s incoming) (msg : HandleMsg) :
    NoPanic (handleStopped querier s env msg) := by
  cases msg with
  | withdraw amount => exact noPanic_withdraw h
  | createViewingKey entropy padding => exact noPanic_ok _
  | setViewingKey key padding => exact noPanic_ok _
  | allowWithdrawWhenStopped => exact noPanic_ok _
  | triggeringCostWithdraw => exact noPanic_triggeringCostWithdraw
  | withdrawExcess => exact noPanic_withdrawExcess h
  | resumeContract =>
      show NoPanic (resumeContract s env)
      exact noPanic_updateConfig
  | emergencyRedeemFromStaking => exact noPanic_emergencyRedeemFromStaking h
  | changeStakingContract address contractHash =>
      show NoPanic (changeStakingContract s env address contractHash)
      exact noPanic_updateConfig
  | redelegateToNewContract => exact noPanic_redelegateToContract h
  | _ => exact noPanic_err _

/-- In every reachable state, stopped or running, every message from every sender is
answered or refused exactly when it is not a draw that fails to survive: provided the
tokens the pool has, is sent and is told of, and the tokens it counts as staked, are part
of a supply that is ten orders of magnitude below a `u128`, and a draw gets an answer
to its reward query. -/
theorem handle_noPanic_iff {w : World X} (hw : w.Reachable) {tx : Tx} {supply : Nat}
    (hsupply : w.held + w.totalStake + w.incoming tx + w.reported tx ≤ supply)
    (hstaked : w.storage.supplyPool.totalTokensStaked ≤ supply)
    (hfits : supply * 10 ^ 10 < 2 ^ 128)
    (hquery : w.Draws tx →
      ∃ response, queryPendingRewards tx.querier tx.env w.storage.config = .ok response) :
    NoPanic (handle tx.querier w.storage tx.env tx.msg) ↔ (w.Draws tx → w.Survives tx) := by
  have hroom := room_of_reachable hw hsupply hstaked hfits
  by_cases hdraws : w.Draws tx
  · obtain ⟨hmsg, hrunning, htriggerer, hended⟩ := hdraws
    have hdraws : w.Draws tx := ⟨hmsg, hrunning, htriggerer, hended⟩
    have hcovered : w.held + w.totalStake + w.reported tx ≤ supply := by omega
    have hcounted := counted_of_reachable hw
    have hpays := fun x hx => noPanic_payOwner hw (nextRound w.storage.lottery tx.env.block)
      (hquery hdraws) hcovered hfits (x := x) hx
    rw [handle_of_running hrunning, hmsg]
    show NoPanic (claimRewards tx.querier w.storage tx.env) ↔ _
    rw [noPanic_claimRewards htriggerer hended (le_trans hcounted.round_le hended)
      hcounted.amounts_lt]
    constructor
    · rintro ⟨hnext, hweighable, hpaid⟩ _
      exact ⟨hnext, hweighable, fun x hx => (hpays x (mem_of_drawnEntry hx)).mp (hpaid x hx)⟩
    · intro h
      obtain ⟨hnext, hweighable, hsplits⟩ := h hdraws
      exact ⟨hnext, hweighable, fun x hx => (hpays x (mem_of_drawnEntry hx)).mpr (hsplits x hx)⟩
  · refine iff_of_true ?_ fun h => absurd h hdraws
    by_cases hstopped : w.storage.config.isStopped = true
    · rw [handle_of_stopped hstopped]
      exact noPanic_handleStopped hroom tx.msg
    · rw [handle_of_running (by simpa using hstopped)]
      cases hmsg : tx.msg with
      | claimRewards =>
          refine noPanic_claimRewards_of_refused fun h => hdraws ⟨hmsg, by simpa using hstopped, h⟩
      | receive sender from_ amount payload =>
          refine noPanic_receive fun htoken => ?_
          rw [← incoming_of_receive hmsg htoken]
          exact hroom
      | triggerWithdraw amount =>
          have hdelegated := le_total_user UserInfo.amountDelegated rfl w.storage
            tx.env.message.sender
          exact noPanic_triggerWithdraw hroom (le_trans hdelegated (delegated_le_staked hw))
            ((entered_of_reachable hw).registered tx.env.message.sender).consumeEntries_ok
      | withdraw amount => exact noPanic_withdraw hroom
      | createViewingKey entropy padding => exact noPanic_ok _
      | setViewingKey key padding => exact noPanic_ok _
      | changeAdmin admin =>
          show NoPanic (changeAdmin w.storage tx.env admin)
          exact noPanic_updateConfig
      | changeTriggerer admin =>
          show NoPanic (changeTriggerer w.storage tx.env admin)
          exact noPanic_updateConfig
      | changeTriggererShare percentage =>
          show NoPanic (changeTriggererShare w.storage tx.env percentage)
          exact noPanic_updateConfig
      | changeLotteryDuration duration => exact noPanic_changeLotteryDuration
      | triggeringCostWithdraw => exact noPanic_triggeringCostWithdraw
      | stopContract => exact noPanic_stopContract
      | _ => exact noPanic_err _

/-- A stopped pool that is redeemed once more, and the draw of a pool with no rounds. -/
theorem handle_noPanic_iff_stoppedRun :
    (∀ tx ∈ [Tx.at 86540 7 admin .emergencyRedeemFromStaking, .at 86540 7 batman (.withdraw none)],
      NoPanic (handle tx.querier (testPool.run stoppedRun).storage tx.env tx.msg)) ∧
    ¬ NoPanic (handle firstClaim.querier (testPool.run zeroDurationRun).storage firstClaim.env
      firstClaim.msg) := by
  constructor
  · intro tx htx
    have hw := testPool_reachable stoppedRun
    have hstaked : (testPool.run stoppedRun).storage.supplyPool.totalTokensStaked ≤ 10000000 := by
      decide
    rcases List.mem_pair.mp htx with rfl | rfl
    · exact (handle_noPanic_iff hw (by decide) hstaked (by decide) fun _ => ⟨_, rfl⟩).mpr
        fun hdraws => absurd hdraws.1 (by decide)
    · exact (handle_noPanic_iff hw (by decide) hstaked (by decide) fun _ => ⟨_, rfl⟩).mpr
        fun hdraws => absurd hdraws.1 (by decide)
  · have hw := testPool_reachable zeroDurationRun
    have hstaked :
        (testPool.run zeroDurationRun).storage.supplyPool.totalTokensStaked ≤ 10000000 := by
      decide
    rw [handle_noPanic_iff hw (by decide) hstaked (by decide) fun _ => ⟨_, rfl⟩]
    intro h
    have hsurvives := h (by decide)
    exact absurd hsurvives.weighable (by decide)

end SefiStakepool.Chain
