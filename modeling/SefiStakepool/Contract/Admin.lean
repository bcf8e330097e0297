/-
  Contract/Admin.lean --- the admin's messages.

  Five of them check the sender and write one change of the configuration; they
  are `updateConfig` at their own change.  The others do something of their own
  and are written out.
-/
import SefiStakepool.Contract.Deps

set_option autoImplicit false

namespace SefiStakepool.Contract

open SefiStakepool.Foundation

variable {X : Crates}

/-! ## Payouts -/

def triggeringCostWithdraw (s : Storage X) (env : Env) :
    StdResult (Storage X × HandleResponse) := do
  let config := s.config
  checkIfAdmin config env.message.sender
  let supplyPool := s.supplyPool
  ensure (supplyPool.triggeringCost ≠ 0) (genericErr "Triggerer share not sufficient")
  .ok ({ s with supplyPool := { supplyPool with triggeringCost := 0 } },
    { messages := [.transfer config.admin supplyPool.triggeringCost config.token]
      data := .triggeringCostWithdraw .success })

def withdrawExcess (s : Storage X) (env : Env) :
    StdResult (Storage X × HandleResponse) := do
  let config := s.config
  checkIfAdmin config env.message.sender
  let supplyPool := s.supplyPool
  let excessAmount ←
    addU 128 supplyPool.pendingStakingRewards supplyPool.totalRewardsRestaked
  ensure (0 < excessAmount) (genericErr "Triggerer share not sufficient")
  .ok ({ s with supplyPool := { supplyPool with
        pendingStakingRewards := 0, totalRewardsRestaked := 0 } },
    { messages := [.transfer config.admin excessAmount config.token]
      data := .withdrawExcess .success })

/-! ## Configuration -/

/-- Check the sender and write a changed configuration. -/
def updateConfig (update : Config → Config) (data : HandleAnswer) (s : Storage X)
    (env : Env) : StdResult (Storage X × HandleResponse) := do
  checkIfAdmin s.config env.message.sender
  .ok ({ s with config := update s.config }, { messages := [], data })

def changeAdmin (s : Storage X) (env : Env) (address : HumanAddr) :
    StdResult (Storage X × HandleResponse) :=
  updateConfig (fun config => { config with admin := address })
    (.changeAdmin .success) s env

def changeTriggerer (s : Storage X) (env : Env) (address : HumanAddr) :
    StdResult (Storage X × HandleResponse) :=
  updateConfig (fun config => { config with triggerer := address })
    (.changeTriggerer .success) s env

def changeTriggererShare (s : Storage X) (env : Env) (percentage : Nat) :
    StdResult (Storage X × HandleResponse) :=
  updateConfig (fun config => { config with triggererSharePercentage := percentage })
    (.changeTriggererShare .success) s env

def changeStakingContract (s : Storage X) (env : Env) (address : HumanAddr)
    (contractHash : String) : StdResult (Storage X × HandleResponse) :=
  updateConfig (fun config => { config with stakingContract := ⟨address, contractHash⟩ })
    (.changeStakingContract .success) s env

def resumeContract (s : Storage X) (env : Env) :
    StdResult (Storage X × HandleResponse) :=
  updateConfig (fun config => { config with
      isStopped := false, isStoppedCanWithdraw := false })
    (.resumeContract .success) s env

def changeLotteryDuration (s : Storage X) (env : Env) (duration : Nat) :
    StdResult (Storage X × HandleResponse) := do
  checkIfAdmin s.config env.message.sender
  .ok ({ s with lottery := { s.lottery with duration } },
    { messages := [], data := .changeLotteryDuration .success })

def stopContract (s : Storage X) (env : Env) :
    StdResult (Storage X × HandleResponse) := do
  checkIfAdmin s.config env.message.sender
  ensure (¬ s.config.isStopped) (genericErr "Contract is already stopped.")
  .ok ({ s with config := { s.config with isStopped := true } },
    { messages := [], data := .stopContract .success })

/-- The source computes the admin check and drops its result
(`let _ = check_if_admin(..)`), so nothing here depends on the sender. -/
def allowWithdrawWhenStopped (s : Storage X) (_env : Env) :
    StdResult (Storage X × HandleResponse) :=
  .ok ({ s with config := { s.config with isStoppedCanWithdraw := true } },
    { messages := [], data := .allowWithdrawWhenStopped .success })

/-! ## Changing the staking contract -/

def emergencyRedeemFromStaking (querier : Querier) (s : Storage X) (env : Env) :
    StdResult (Storage X × HandleResponse) := do
  let config := s.config
  checkIfAdmin config env.message.sender
  let response ← queryPendingRewards querier env config
  let supplyPool := s.supplyPool
  let amountToRedeem ← addU 128 supplyPool.totalRewardsRestaked supplyPool.totalTokensStaked
  let pendingStakingRewards ←
    addU 128 supplyPool.pendingStakingRewards response.rewards.rewards
  .ok ({ s with supplyPool := { supplyPool with pendingStakingRewards } },
    { messages := [.execute config.stakingContract.address
        config.stakingContract.contractHash (.redeem amountToRedeem)]
      data := .emergencyRedeemFromStaking .success })

def redelegateToContract (querier : Querier) (s : Storage X) (env : Env) :
    StdResult (Storage X × HandleResponse) := do
  let config := s.config
  checkIfAdmin config env.message.sender
  let response ← queryPendingRewards querier env config
  let sefiPendingStakingRewards :=
    if 0 < response.rewards.rewards then response.rewards.rewards else 0
  let supplyPool := s.supplyPool
  let restaked ← addU 128 supplyPool.totalTokensStaked supplyPool.totalRewardsRestaked
  let amountToRestake ← addU 128 restaked supplyPool.pendingStakingRewards
  let totalRewardsRestaked ←
    addU 128 supplyPool.totalRewardsRestaked supplyPool.pendingStakingRewards
  .ok ({ s with supplyPool := { supplyPool with
        totalRewardsRestaked, pendingStakingRewards := sefiPendingStakingRewards } },
    { messages := [.send config.stakingContract.address amountToRestake .deposit config.token]
      data := .redelegateToContract .success })

end SefiStakepool.Contract
