/-
  Contract/State.lean --- what the contract stores (`state.rs`).

  Amounts (`Uint128`) and times (`u64`) are naturals; the operations on them are
  the checked ones of `Foundation/Exec.lean`.
-/
import Mathlib.Tactic.Common

set_option autoImplicit false

namespace SefiStakepool.Contract

/-- A human readable address. -/
structure HumanAddr where
  value : String
  deriving DecidableEq, Repr, Inhabited

/-- An address together with the code hash of the contract that lives there. -/
structure SecretContract where
  address : HumanAddr
  contractHash : String
  deriving DecidableEq, Repr

/-- The configuration of the pool. -/
structure Config where
  admin : HumanAddr
  triggerer : HumanAddr
  triggererSharePercentage : Nat
  token : SecretContract
  stakingContract : SecretContract
  viewingKey : String
  prngSeed : List UInt8
  isStopped : Bool
  isStoppedCanWithdraw : Bool
  ownAddr : HumanAddr
  deriving DecidableEq, Repr

/-- The round that is being played. -/
structure Lottery where
  entropy : List UInt8
  seed : List UInt8
  duration : Nat
  startTime : Nat
  endTime : Nat
  deriving DecidableEq, Repr

/-- One line of the public list of results. -/
structure LastLotteryResults where
  winningAmount : Nat
  time : Nat
  deriving DecidableEq, Repr

/-- The four counters of the pool. -/
structure SupplyPool where
  totalTokensStaked : Nat
  totalRewardsRestaked : Nat
  pendingStakingRewards : Nat
  triggeringCost : Nat
  deriving DecidableEq, Repr

/-- One user's record; `Index` is what the lottery entry store hands out.  The
source's field `entries` is written as the empty vector and never read, and is
left out. -/
structure UserInfo (Index : Type) where
  amountDelegated : Nat
  availableTokensForWithdraw : Nat
  totalWon : Nat
  entryIndex : List Index
  deriving DecidableEq, Repr

/-- The record of a user nothing is stored for. -/
def UserInfo.empty {Index : Type} : UserInfo Index :=
  { amountDelegated := 0, availableTokensForWithdraw := 0, totalWon := 0, entryIndex := [] }

/-- One line of a user's winning history. -/
structure UserWinningHistory where
  winningAmount : Nat
  time : Nat
  deriving DecidableEq, Repr

/-- One lottery entry. -/
structure LotteryEntries where
  userAddress : HumanAddr
  amount : Nat
  entryTime : Nat
  deriving DecidableEq, Repr

end SefiStakepool.Contract
