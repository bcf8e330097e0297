/-
  Contract/Lottery.lean --- the draw (`claim_rewards`).

  The handler is long and is cut where the source has its own comments: the
  round is restarted, the entries are weighed, one of them is drawn, and the
  winner is paid.  Every part keeps the source's order of reads and checks.
-/
import SefiStakepool.Contract.Deps

set_option autoImplicit false

namespace SefiStakepool.Contract

open SefiStakepool.Foundation

variable {X : Crates}

/-! ## The round -/

/-- The round that starts in this block. -/
def restartLottery (lottery : Lottery) (block : BlockInfo) : StdResult Lottery := do
  let endTime ← addU 64 block.time lottery.duration
  .ok { lottery with
    entropy := lottery.entropy ++ toBeBytes block.height ++ toBeBytes block.time
    startTime := block.time
    endTime }

/-! ## Weights -/

/-- The weight an entry is drawn with, in the restarted round. -/
def entryWeight (lottery : Lottery) (entry : LotteryEntries) : StdResult Nat :=
  if lottery.endTime ≤ entry.entryTime then .ok 0
  else do
    let remaining ← subU lottery.endTime entry.entryTime
    let rounds ← divU remaining lottery.duration
    if 1 ≤ rounds then .ok entry.amount
    else do
      let scaled ← mulU 64 remaining 1000000
      let part ← divU scaled lottery.duration
      mulU 128 (entry.amount / 1000000) part

/-- The weights of the entries, in order. -/
def entryWeights (lottery : Lottery) : List LotteryEntries → StdResult (List Nat)
  | [] => .ok []
  | entry :: entries => do
      let weight ← entryWeight lottery entry
      let weights ← entryWeights lottery entries
      .ok (weight :: weights)

/-- `WeightedIndex::new`: the running total is a `u128`, and there is no
distribution over no entries or over entries of total weight zero. -/
def weightedIndex (weights : List Nat) : StdResult (Option (List Nat)) := do
  let total ← narrow 128 weights.sum
  .ok (if total = 0 then none else some weights)

/-- What `hasher` is updated with: the seed of the pool and the entropy of the round. -/
def hasherInput (prngSeed : List UInt8) (lottery : Lottery) : List UInt8 :=
  prngSeed ++ lottery.entropy

/-- The owner of the drawn entry, if the weights admit a draw. -/
def drawWinner (X : Crates) (prngSeed : List UInt8) (lottery : Lottery)
    (entries : List LotteryEntries) : StdResult (Option HumanAddr) := do
  let weights ← entryWeights lottery entries
  match ← weightedIndex weights with
  | none => .ok none
  | some dist => do
      let entry ← unwrap (entries[X.sample (X.sha256 (hasherInput prngSeed lottery)) dist]?)
      .ok (some entry.userAddress)

/-! ## The prize -/

/-- `winning_amount.0 * ((trigger_percentage * 1000000) as u128) / 10000000000`. -/
def triggerShare (winningAmount triggerPercentage : Nat) : StdResult Nat := do
  let percentage ← mulU 64 triggerPercentage 1000000
  let scaled ← mulU 128 winningAmount percentage
  .ok (scaled / 10000000000)

/-- A `u128` as a `u64`. -/
def asU64 (n : Nat) : Nat := n % 2 ^ 64

/-- From the winner on: the pot is split and credited. -/
def payWinner (querier : Querier) (s : Storage X) (env : Env) (winner : HumanAddr) :
    StdResult (Storage X × HandleResponse) := do
  let config := s.config
  let response ← queryPendingRewards querier env config
  let supplyPool := s.supplyPool
  let own ← addU 128 supplyPool.totalRewardsRestaked supplyPool.pendingStakingRewards
  let pot ← addU 128 own response.rewards.rewards
  let share ← triggerShare pot config.triggererSharePercentage
  let winningAmount ← subU pot share
  ensure (winningAmount ≠ 0) (genericErr "No rewards available")
  let user ← unwrap (s.userInfo.lookup winner)
  let totalWon ← addU 128 user.totalWon winningAmount
  let availableTokensForWithdraw ← addU 128 user.availableTokensForWithdraw winningAmount
  let history := s.userWinningHistory.getD [] winner
  .ok ({ s with
      supplyPool := { supplyPool with
        triggeringCost := share, pendingStakingRewards := 0, totalRewardsRestaked := 0 }
      userInfo := s.userInfo.insert winner { user with totalWon, availableTokensForWithdraw }
      userWinningHistory := s.userWinningHistory.insert winner
        (history ++ [⟨asU64 winningAmount, env.block.time⟩])
      lastLotteryResults := s.lastLotteryResults ++
        [⟨asU64 winningAmount, env.block.time⟩] },
    { messages := [.execute config.stakingContract.address
        config.stakingContract.contractHash (.redeem supplyPool.totalRewardsRestaked)]
      data := .claimRewards .success winner })

/-- The answer when there is nothing to draw from. -/
def noEntriesResponse : HandleResponse :=
  { messages := []
    data := .claimRewards .failure ⟨"Lottery Restarted. Error due to no entries "⟩ }

/-- The answer when no entry can be drawn. -/
def zeroWeightResponse : HandleResponse :=
  { messages := []
    data := .claimRewards .success
      ⟨"NONE!!! All entries had weight zero. Lottery restarted"⟩ }

def claimRewards (querier : Querier) (s : Storage X) (env : Env) :
    StdResult (Storage X × HandleResponse) := do
  let config := s.config
  checkIfTriggerer config env.message.sender
  validateEndTime s.lottery.endTime env.block.time
  validateStartTime s.lottery.startTime env.block.time
  let lottery ← restartLottery s.lottery env.block
  let s := { s with lottery }
  match s.lotteryEntries with
  | none => .ok (s, noEntriesResponse)
  | some data =>
      if (X.store.iter data).length = 0 then .ok (s, noEntriesResponse)
      else do
        match ← drawWinner X config.prngSeed lottery (X.store.values data) with
        | none => .ok (s, zeroWeightResponse)
        | some winner => payWinner querier s env winner

end SefiStakepool.Contract
