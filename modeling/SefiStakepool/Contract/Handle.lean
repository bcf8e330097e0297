/-
  Contract/Handle.lean --- the entry points `init` and `handle`.
-/
import SefiStakepool.Contract.User
import SefiStakepool.Contract.Lottery
import SefiStakepool.Contract.Admin

set_option autoImplicit false

namespace SefiStakepool.Contract

open SefiStakepool.Foundation

variable {X : Crates}

/-- The storage and the messages of a new pool. -/
def init (X : Crates) (env : Env) (msg : InitMsg) :
    StdResult (Storage X × InitResponse) := do
  let prngSeedHashed := X.sha256 msg.prngSeed
  let time := env.block.time
  let duration := 86400
  let endTime ← addU 64 time duration
  .ok ({
      config := {
        admin := msg.admin.getD env.message.sender
        triggerer := msg.triggerer.getD env.message.sender
        triggererSharePercentage := msg.triggererSharePercentage
        token := msg.token
        stakingContract := msg.stakingContract
        viewingKey := msg.viewingKey
        prngSeed := prngSeedHashed
        isStopped := false
        isStoppedCanWithdraw := false
        ownAddr := env.contract.address }
      supplyPool := {
        totalTokensStaked := 0, totalRewardsRestaked := 0
        pendingStakingRewards := 0, triggeringCost := 0 }
      lottery := {
        entropy := prngSeedHashed, startTime := time, endTime
        seed := prngSeedHashed, duration }
      userInfo := ∅
      lotteryEntries := none
      viewingKeys := ∅
      userWinningHistory := ∅
      lastLotteryResults := [] },
    { messages := [
        .registerReceive env.contractCodeHash msg.token,
        .setViewingKey msg.viewingKey msg.token,
        .setViewingKey STAKING_VK msg.stakingContract] })

/-- The messages of a stopped contract. -/
def handleStopped (querier : Querier) (s : Storage X) (env : Env) :
    HandleMsg → StdResult (Storage X × HandleResponse)
  | .createViewingKey entropy _ => createViewingKey s env entropy
  | .setViewingKey key _ => setViewingKey s env key
  | .emergencyRedeemFromStaking => emergencyRedeemFromStaking querier s env
  | .allowWithdrawWhenStopped => allowWithdrawWhenStopped s env
  | .withdrawExcess => withdrawExcess s env
  | .changeStakingContract address contractHash =>
      changeStakingContract s env address contractHash
  | .redelegateToNewContract => redelegateToContract querier s env
  | .resumeContract => resumeContract s env
  | .triggeringCostWithdraw => triggeringCostWithdraw s env
  | .withdraw amount => withdraw s env amount
  | _ => .error (genericErr "This contract is stopped and this action is not allowed")

/-- The messages of a running contract. -/
def handleRunning (querier : Querier) (s : Storage X) (env : Env) :
    HandleMsg → StdResult (Storage X × HandleResponse)
  | .claimRewards => claimRewards querier s env
  | .receive _ from_ amount msg => receive querier s env from_ amount msg
  | .withdraw amount => withdraw s env amount
  | .triggerWithdraw amount => triggerWithdraw querier s env amount
  | .createViewingKey entropy _ => createViewingKey s env entropy
  | .setViewingKey key _ => setViewingKey s env key
  | .changeAdmin admin => changeAdmin s env admin
  | .changeTriggerer admin => changeTriggerer s env admin
  | .changeTriggererShare percentage => changeTriggererShare s env percentage
  | .changeLotteryDuration duration => changeLotteryDuration s env duration
  | .triggeringCostWithdraw => triggeringCostWithdraw s env
  | .stopContract => stopContract s env
  | _ => .error (genericErr "Unavailable or unknown handle message")

def handle (querier : Querier) (s : Storage X) (env : Env) (msg : HandleMsg) :
    StdResult (Storage X × HandleResponse) :=
  if s.config.isStopped then handleStopped querier s env msg
  else handleRunning querier s env msg

end SefiStakepool.Contract
