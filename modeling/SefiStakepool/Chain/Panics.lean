/-
  Chain/Panics.lean --- which queries abort.

  A query that is not public goes through `get_validation_params` and then through the
  match of `authenticated_queries`, and both end in `panic!`.  Three variants fall
  through: two that are declared and answered nowhere, and `Rewards`, which the first
  of them knows and the second does not.  Behind them no answer aborts: the records
  are read inside their stores, and every sum is of tokens the pool has.
-/
import SefiStakepool.Chain.Privacy
import SefiStakepool.Chain.Solvency

set_option autoImplicit false

namespace SefiStakepool.Chain

open SefiStakepool.Foundation
open SefiStakepool.Contract

variable {X : Crates}

/-- The variants that nothing answers, `Rewards` once its key was accepted. -/
def Unanswered (s : Storage X) : QueryMsg → Prop
  | .tokenInfo | .incentivizedToken => True
  | .rewards address key _ => Opens s address key
  | _ => False

instance (s : Storage X) (msg : QueryMsg) : Decidable (Unanswered s msg) :=
  match msg with
  | .tokenInfo | .incentivizedToken => inferInstanceAs (Decidable True)
  | .rewards address key _ => inferInstanceAs (Decidable (Opens s address key))
  | .totalRewards _ | .totalDeposits | .lotteryInfo | .balance _ _
  | .availableTokensForWithdrawl _ _ | .userPastRecords _ _ | .userAllPastRecords _ _
  | .pastRecords | .pastAllRecords => inferInstanceAs (Decidable False)

/-- The rewards a query is told by the staking contract. -/
def World.told (w : World X) (querier : Querier) : QueryMsg → Nat
  | .totalRewards height =>
      match querier w.storage.config.stakingContract
        (.rewards w.storage.config.ownAddr STAKING_VK (asU64 height)) with
      | .ok response => response.rewards.rewards
      | .error _ => 0
  | _ => 0

/-! ## The answers -/

section
variable {querier : Querier} {s : Storage X} {u : HumanAddr} {key : String} {msg : QueryMsg}

theorem noPanic_liftStd {α : Type} (x : Except StdError α) : NoPanic (liftStd x) := by
  cases x with
  | ok a => exact noPanic_ok a
  | error e => exact noPanic_err e

/-- An authenticated query aborts when its key is the stored one and its answer does. -/
theorem noPanic_query_iff (hparams : msg.getValidationParams = .ok (u, ⟨key⟩)) :
    NoPanic (query querier s msg) ↔ (Opens s u key → NoPanic (authenticatedAnswer s msg)) := by
  by_cases hopens : Opens s u key
  · rw [query_of_key hparams hopens]
    exact ⟨fun h _ => h, fun h => h hopens⟩
  · rw [query_of_not_opens hparams hopens]
    exact iff_of_true (noPanic_ok _) fun h => absurd h hopens

theorem noPanic_queryAvailableFunds
    (hfits : (s.user u).availableTokensForWithdraw + (s.user u).amountDelegated < 2 ^ 128) :
    NoPanic (queryAvailableFunds s u) := by
  unfold queryAvailableFunds
  by_cases hcan : s.config.isStoppedCanWithdraw = true
  · simp only [if_pos hcan]
    exact noPanic_bind.mpr ⟨noPanic_addU.mpr hfits, fun _ _ => noPanic_ok _⟩
  · simp only [if_neg hcan]
    exact noPanic_ok _

theorem noPanic_queryTotalRewards {height : Nat}
    (hfits : ∀ response, querier s.config.stakingContract
        (.rewards s.config.ownAddr STAKING_VK (asU64 height)) = .ok response →
      s.supplyPool.pot response.rewards.rewards < 2 ^ 128) :
    NoPanic (queryTotalRewards querier s height) := by
  unfold queryTotalRewards
  refine noPanic_bind.mpr ⟨noPanic_liftStd _, fun response hresponse => ?_⟩
  have hpot := hfits response (liftStd_eq_ok.mp hresponse)
  unfold SupplyPool.pot at hpot
  refine noPanic_bind.mpr ⟨noPanic_addU.mpr (by omega), fun own hown => ?_⟩
  obtain ⟨_, rfl⟩ := addU_eq_ok.mp hown
  exact noPanic_bind.mpr ⟨noPanic_addU.mpr (by omega), fun _ _ => noPanic_ok _⟩

end

/-! ## Reachable states -/

/-- In every reachable state, whoever asks, and as long as the tokens the pool has and
is told of fit in a `u128`, a query returns or refuses exactly when its variant is one
that is answered. -/
theorem query_noPanic_iff {w : World X} (hw : w.Reachable) (querier : Querier)
    (msg : QueryMsg) (hfits : w.held + w.totalStake + w.told querier msg < 2 ^ 128) :
    NoPanic (query querier w.storage msg) ↔ ¬ Unanswered w.storage msg := by
  have hsolvent := owed_le_of_reachable hw
  cases msg with
  | totalRewards height =>
      refine iff_of_true (noPanic_queryTotalRewards fun response hresponse => ?_) id
      simp only [World.told, hresponse] at hfits
      unfold SupplyPool.pot
      omega
  | totalDeposits | lotteryInfo => exact iff_of_true (noPanic_ok _) id
  | tokenInfo | incentivizedToken => exact iff_of_false (fun h => h rfl) fun h => h trivial
  | rewards address key height =>
      rw [noPanic_query_iff rfl]
      exact ⟨fun h hopens => h hopens rfl, fun h hopens => absurd hopens h⟩
  | balance address key =>
      exact iff_of_true ((noPanic_query_iff rfl).mpr fun _ => noPanic_ok _) id
  | availableTokensForWithdrawl address key =>
      refine iff_of_true ((noPanic_query_iff rfl).mpr fun _ => ?_) id
      have hdelegated : (w.storage.user address).amountDelegated ≤ w.totalDelegated :=
        le_total_user UserInfo.amountDelegated rfl w.storage address
      have havailable :
          (w.storage.user address).availableTokensForWithdraw ≤ w.totalAvailable :=
        le_total_user UserInfo.availableTokensForWithdraw rfl w.storage address
      exact noPanic_queryAvailableFunds (by omega)
  | userPastRecords address key =>
      exact iff_of_true
        ((noPanic_query_iff rfl).mpr fun _ => noPanic_of_eq_ok queryUserPastRecords_eq) id
  | userAllPastRecords address key =>
      exact iff_of_true
        ((noPanic_query_iff rfl).mpr fun _ => noPanic_of_eq_ok queryUserAllPastRecords_eq) id
  | pastRecords => exact iff_of_true (noPanic_of_eq_ok queryPastResults_eq) id
  | pastAllRecords => exact iff_of_true (noPanic_of_eq_ok queryAllPastResults_eq) id

/-- What Batman can ask for with his key once he has unstaked, and `Rewards` with a key
that is not his. -/
theorem query_noPanic_iff_keyedRun :
    let w := testPool.run (keyedRun ++ [.at 20 70 batman (.triggerWithdraw (some 1000000))])
    NoPanic (query (fun _ _ => .ok ⟨⟨0⟩⟩) w.storage (.availableTokensForWithdrawl batman "key")) ∧
    NoPanic (query (fun _ _ => .ok ⟨⟨0⟩⟩) w.storage (.totalRewards 5)) ∧
    NoPanic (query (fun _ _ => .ok ⟨⟨0⟩⟩) w.storage (.rewards superman "key" 5)) := by
  refine ⟨?_, ?_, ?_⟩
  · exact (query_noPanic_iff (testPool_reachable _) _ _ (by decide)).mpr (by decide)
  · exact (query_noPanic_iff (testPool_reachable _) _ _ (by decide)).mpr (by decide)
  · exact (query_noPanic_iff (testPool_reachable _) _ _ (by decide)).mpr (by decide)

/-- `Rewards` aborts for the one user who has the key, two other queries for anyone. -/
theorem query_panics_keyedRun :
    (testPool.run keyedRun).Reachable ∧
    (testPool.run keyedRun).held + (testPool.run keyedRun).totalStake = 3000000 ∧
    query (fun _ _ => .ok ⟨⟨0⟩⟩) (testPool.run keyedRun).storage (.rewards batman "key" 5) =
      .error .panic ∧
    query (fun _ _ => .ok ⟨⟨0⟩⟩) (testPool.run keyedRun).storage .tokenInfo =
      .error .panic ∧
    query (fun _ _ => .ok ⟨⟨0⟩⟩) (testPool.run keyedRun).storage .incentivizedToken =
      .error .panic := by
  have hanswer : query (fun _ _ => .ok ⟨⟨0⟩⟩) (testPool.run keyedRun).storage
      (.rewards batman "key" 5) =
        authenticatedAnswer (testPool.run keyedRun).storage (.rewards batman "key" 5) :=
    query_of_key rfl rfl
  exact ⟨testPool_reachable _, by decide, hanswer, rfl, rfl⟩

end SefiStakepool.Chain
