/-
  Contract/Msg.lean --- the messages the contract takes, answers and emits
  (`msg.rs`), and the environment a message is executed in.

  The padding of messages and answers carries no information and is left out;
  the `log` of a response is always empty and is left out as well.
-/
import SefiStakepool.Contract.State

set_option autoImplicit false

namespace SefiStakepool.Contract

/-- The errors of the standard library of contracts. -/
inductive StdError where
  | genericErr (msg : String)
  | notFound (kind : String)
  | parseErr (target msg : String)
  deriving DecidableEq, Repr

/-- Raw bytes of a message. -/
abbrev Binary : Type := List UInt8

structure BlockInfo where
  height : Nat
  time : Nat
  deriving DecidableEq, Repr

structure MessageInfo where
  sender : HumanAddr
  deriving DecidableEq, Repr

structure ContractInfo where
  address : HumanAddr
  deriving DecidableEq, Repr

/-- The environment of one message. -/
structure Env where
  block : BlockInfo
  message : MessageInfo
  contract : ContractInfo
  contractCodeHash : String
  deriving DecidableEq, Repr

structure InitMsg where
  admin : Option HumanAddr
  triggerer : Option HumanAddr
  token : SecretContract
  stakingContract : SecretContract
  viewingKey : String
  prngSeed : Binary
  triggererSharePercentage : Nat
  deriving DecidableEq, Repr

inductive HandleMsg where
  -- registered commands
  | receive (sender from_ : HumanAddr) (amount : Nat) (msg : Binary)
  -- user
  | deposit
  | triggerWithdraw (amount : Option Nat)
  | withdraw (amount : Option Nat)
  | redelegate (amount : Option Nat)
  | createViewingKey (entropy : String) (padding : Option String)
  | setViewingKey (key : String) (padding : Option String)
  -- triggerer
  | claimRewards
  -- admin
  | triggeringCostWithdraw
  | withdrawExcess
  | changeAdmin (admin : HumanAddr)
  | changeTriggerer (admin : HumanAddr)
  | changeTriggererShare (percentage : Nat)
  | changeLotteryDuration (duration : Nat)
  | stopContract
  | allowWithdrawWhenStopped
  | resumeContract
  -- admin, changing the staking contract
  | emergencyRedeemFromStaking
  | changeStakingContract (address : HumanAddr) (contractHash : String)
  | redelegateToNewContract
  deriving DecidableEq, Repr

inductive ResponseStatus where
  | success
  | failure
  deriving DecidableEq, Repr

/-- A viewing key as the user keeps it. -/
structure ViewingKey where
  value : String
  deriving DecidableEq, Repr

inductive HandleAnswer where
  | createViewingKey (key : ViewingKey)
  | setViewingKey (status : ResponseStatus)
  | stopContract (status : ResponseStatus)
  | allowWithdrawWhenStopped (status : ResponseStatus)
  | resumeContract (status : ResponseStatus)
  | changeAdmin (status : ResponseStatus)
  | changeTriggerer (status : ResponseStatus)
  | changeTriggererShare (status : ResponseStatus)
  | changeStakingContract (status : ResponseStatus)
  | changeLotteryDuration (status : ResponseStatus)
  | triggeringCostWithdraw (status : ResponseStatus)
  | withdrawExcess (status : ResponseStatus)
  | claimRewards (status : ResponseStatus) (winner : HumanAddr)
  | emergencyRedeemFromStaking (status : ResponseStatus)
  | deposit (status : ResponseStatus)
  | redelegateToContract (status : ResponseStatus)
  | triggerWithdraw (status : ResponseStatus)
  | withdraw (status : ResponseStatus)
  deriving DecidableEq, Repr

/-! ## Queries -/

inductive QueryMsg where
  -- public
  | totalRewards (height : Nat)
  | totalDeposits
  | tokenInfo
  | incentivizedToken
  | lotteryInfo
  -- authenticated
  | rewards (address : HumanAddr) (key : String) (height : Nat)
  | balance (address : HumanAddr) (key : String)
  | availableTokensForWithdrawl (address : HumanAddr) (key : String)
  | userPastRecords (address : HumanAddr) (key : String)
  | userAllPastRecords (address : HumanAddr) (key : String)
  | pastRecords
  | pastAllRecords
  deriving DecidableEq, Repr

/-- The answers the contract gives; a record is its amount and its time.  The
source declares a few more variants, which nothing constructs. -/
inductive QueryAnswer where
  | totalDeposits (deposits : Nat)
  | totalRewards (rewards : Nat)
  | balance (amount : Nat)
  | availableTokensForWithdrawl (amount : Nat)
  | viewingKeyError (msg : String)
  | userPastRecords (winningHistory : List (Nat × Nat))
  | userAllPastRecords (winningHistory : List (Nat × Nat))
  | lotteryInfo (startTime endTime duration : Nat) (isStopped isStoppedWithWithdraw : Bool)
  | pastRecords (pastRewards : List (Nat × Nat))
  | pastAllRecords (pastRewards : List (Nat × Nat))
  deriving DecidableEq, Repr

/-! ## The staking contract's messages -/

inductive LPStakingHandleMsg where
  | redeem (amount : Nat)
  | deposit
  deriving DecidableEq, Repr

inductive LPStakingQueryMsg where
  | rewards (address : HumanAddr) (key : String) (height : Nat)
  deriving DecidableEq, Repr

structure RewardsInfo where
  rewards : Nat
  deriving DecidableEq, Repr

structure LPStakingRewardsResponse where
  rewards : RewardsInfo
  deriving DecidableEq, Repr

/-! ## Emitted messages -/

/-- A message the contract hands to the chain.  The first four are the token
messages of `snip20` (`set_viewing_key` goes to the staking contract too), the
last one is a plain `WasmMsg::Execute`. -/
inductive CosmosMsg where
  | registerReceive (codeHash : String) (contract : SecretContract)
  | setViewingKey (viewingKey : String) (contract : SecretContract)
  | transfer (recipient : HumanAddr) (amount : Nat) (token : SecretContract)
  | send (recipient : HumanAddr) (amount : Nat) (msg : LPStakingHandleMsg)
      (token : SecretContract)
  | execute (contractAddr : HumanAddr) (callbackCodeHash : String)
      (msg : LPStakingHandleMsg)
  deriving DecidableEq, Repr

structure InitResponse where
  messages : List CosmosMsg
  deriving DecidableEq, Repr

structure HandleResponse where
  messages : List CosmosMsg
  data : HandleAnswer
  deriving DecidableEq, Repr

end SefiStakepool.Contract
