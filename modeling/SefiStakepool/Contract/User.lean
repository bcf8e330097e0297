/-
  Contract/User.lean --- the messages of users: viewing keys, deposits, unstaking
  and withdrawals (`contract.rs`, `viewing_keys.rs`, `utils.rs`).
-/
import SefiStakepool.Contract.Deps

set_option autoImplicit false

namespace SefiStakepool.Contract

open SefiStakepool.Foundation

variable {X : Crates}

/-! ## Viewing keys -/

def VIEWING_KEY_PREFIX : String := "api_key_"

def createHashedPassword (X : Crates) (s1 : String) : List UInt8 :=
  X.sha256 s1.toUTF8.toList

def ViewingKey.toHashed (X : Crates) (key : ViewingKey) : List UInt8 :=
  createHashedPassword X key.value

/-- `Prng::new(seed, entropy).rand_bytes()`. -/
def prngRandBytes (X : Crates) (seed entropy : List UInt8) : List UInt8 :=
  X.randBytes (X.sha256 (seed ++ entropy))

def ViewingKey.new (X : Crates) (env : Env) (seed entropy : List UInt8) : ViewingKey :=
  let rngEntropy := toBeBytes env.block.height ++ toBeBytes env.block.time ++
    env.message.sender.value.toUTF8.toList ++ entropy
  let key := X.sha256 (prngRandBytes X seed rngEntropy)
  ⟨VIEWING_KEY_PREFIX ++ X.base64Encode key⟩

def createViewingKey (s : Storage X) (env : Env) (entropy : String) :
    StdResult (Storage X × HandleResponse) :=
  let key := ViewingKey.new X env s.config.prngSeed entropy.toUTF8.toList
  .ok ({ s with viewingKeys := s.viewingKeys.insert env.message.sender (key.toHashed X) },
    { messages := [], data := .createViewingKey key })

def setViewingKey (s : Storage X) (env : Env) (key : String) :
    StdResult (Storage X × HandleResponse) :=
  let vk : ViewingKey := ⟨key⟩
  .ok ({ s with viewingKeys := s.viewingKeys.insert env.message.sender (vk.toHashed X) },
    { messages := [], data := .setViewingKey .success })

/-! ## Deposits -/

def validAmount (amt : Nat) : Prop := 1000000 ≤ amt

instance (amt : Nat) : Decidable (validAmount amt) := inferInstanceAs (Decidable (_ ≤ _))

def deposit (querier : Querier) (s : Storage X) (env : Env) (from_ : HumanAddr)
    (amountToDeposit : Nat) : StdResult (Storage X × HandleResponse) := do
  let config := s.config
  let supported := config.token.address.value
  let given := env.message.sender.value
  ensure (env.message.sender = config.token.address) (genericErr
    s!"This token is not supported. Supported: {supported}, given: {given}")
  ensure (validAmount amountToDeposit) (genericErr
    "Must deposit a minimum of 1000000 usefi, or 1 sefi")
  let user := s.user from_
  let amountDelegated ← addU 128 user.amountDelegated amountToDeposit
  let inserted := X.store.insert s.entries
    { userAddress := from_, amount := amountToDeposit, entryTime := env.block.time }
  let user := { user with
    amountDelegated, entryIndex := user.entryIndex ++ [inserted.1] }
  let response ← queryPendingRewards querier env config
  let supplyPool := s.supplyPool
  let amountToStake ← addU 128 amountToDeposit supplyPool.pendingStakingRewards
  let totalTokensStaked ← addU 128 supplyPool.totalTokensStaked amountToDeposit
  let totalRewardsRestaked ←
    addU 128 supplyPool.totalRewardsRestaked supplyPool.pendingStakingRewards
  let pendingStakingRewards :=
    if 0 < response.rewards.rewards then response.rewards.rewards else 0
  .ok ({ s with
      userInfo := s.userInfo.insert from_ user
      lotteryEntries := some inserted.2
      supplyPool := { supplyPool with
        totalTokensStaked, totalRewardsRestaked, pendingStakingRewards } },
    { messages := [.send config.stakingContract.address amountToStake .deposit config.token]
      data := .deposit .success })

/-- The token contract's callback. -/
def receive (querier : Querier) (s : Storage X) (env : Env) (from_ : HumanAddr)
    (amount : Nat) (msg : Binary) : StdResult (Storage X × HandleResponse) := do
  match ← liftStd (X.fromBinary msg) with
  | .deposit => deposit querier s env from_ amount
  | _ => .error (genericErr "Handle msg not correct")

/-! ## Unstaking -/

/-- The loop of `trigger_withdraw` over the (cloned) index list `inds`: the entry
store, the user's remaining index list and the amount still to take.  An entry
matched exactly does not end the loop; the next one is then updated by zero. -/
def consumeEntries (X : Crates) : List X.store.Index → X.store.Store →
    List X.store.Index → Nat → StdResult (X.store.Store × List X.store.Index)
  | [], entries, entryIndex, _ => .ok (entries, entryIndex)
  | ind :: inds, entries, entryIndex, tempWithdrawAmount => do
      let entry ← unwrap (X.store.get entries ind)
      if entry.amount = tempWithdrawAmount then
        consumeEntries X inds (X.store.remove entries ind)
          (entryIndex.filter fun index => index ≠ ind) 0
      else if entry.amount < tempWithdrawAmount then do
        let tempWithdrawAmount ← subU tempWithdrawAmount entry.amount
        consumeEntries X inds (X.store.remove entries ind)
          (entryIndex.filter fun index => index ≠ ind) tempWithdrawAmount
      else do
        let amount ← subU entry.amount tempWithdrawAmount
        .ok (X.store.update entries ind { entry with amount }, entryIndex)

/-- The pending rewards after a report: rewards are added when there are some. -/
def collectRewards (pendingStakingRewards rewards : Nat) : StdResult Nat :=
  if 0 < rewards then addU 128 pendingStakingRewards rewards
  else .ok pendingStakingRewards

def triggerWithdraw (querier : Querier) (s : Storage X) (env : Env)
    (amount : Option Nat) : StdResult (Storage X × HandleResponse) := do
  let user := s.user env.message.sender
  let withdrawAmount := amount.getD user.amountDelegated
  ensure (0 < withdrawAmount) (genericErr "No sefi staked")
  ensure (withdrawAmount ≤ user.amountDelegated) (genericErr
    "Trying to withdrawing more amount than staked")
  let amountDelegated ← subU user.amountDelegated withdrawAmount
  let availableTokensForWithdraw ← addU 128 user.availableTokensForWithdraw withdrawAmount
  let consumed ←
    consumeEntries X user.entryIndex s.entries user.entryIndex withdrawAmount
  let user := { user with
    amountDelegated, availableTokensForWithdraw, entryIndex := consumed.2 }
  let config := s.config
  let response ← queryPendingRewards querier env config
  let supplyPool := s.supplyPool
  let pendingStakingRewards ←
    collectRewards supplyPool.pendingStakingRewards response.rewards.rewards
  let totalTokensStaked ← subU supplyPool.totalTokensStaked withdrawAmount
  .ok ({ s with
      userInfo := s.userInfo.insert env.message.sender user
      lotteryEntries := some consumed.1
      supplyPool := { supplyPool with totalTokensStaked, pendingStakingRewards } },
    { messages := [.execute config.stakingContract.address
        config.stakingContract.contractHash (.redeem withdrawAmount)]
      data := .triggerWithdraw .success })

/-! ## Withdrawals -/

/-- The user's record after `withdraw` has taken the amount out of it. -/
def withdrawFrom (config : Config) (user : UserInfo X.store.Index) (withdrawAmount : Nat) :
    StdResult (UserInfo X.store.Index) := do
  if ¬ config.isStoppedCanWithdraw then do
    ensure (withdrawAmount ≤ user.availableTokensForWithdraw) (genericErr
      "Withdrawing more amount than Available tokens for withdraw")
    let availableTokensForWithdraw ← subU user.availableTokensForWithdraw withdrawAmount
    .ok { user with availableTokensForWithdraw }
  else do
    let total ← addU 128 user.amountDelegated user.availableTokensForWithdraw
    ensure (withdrawAmount ≤ total) (genericErr
      "Withdrawing more amount than Total Delegated and Reduced Staked tokens")
    if user.availableTokensForWithdraw < withdrawAmount then do
      -- the part that is not available comes out of the delegated amount
      let tempVariable ← subU withdrawAmount user.availableTokensForWithdraw
      let amountDelegated ← subU user.amountDelegated tempVariable
      .ok { user with availableTokensForWithdraw := 0, amountDelegated }
    else do
      let availableTokensForWithdraw ←
        subU user.availableTokensForWithdraw withdrawAmount
      .ok { user with availableTokensForWithdraw }

def withdraw (s : Storage X) (env : Env) (amount : Option Nat) :
    StdResult (Storage X × HandleResponse) := do
  let config := s.config
  ensure (¬ (config.isStopped ∧ ¬ config.isStoppedCanWithdraw)) (genericErr
    "This contract is stopped and this action is not allowed")
  let user := s.user env.message.sender
  let withdrawAmount := amount.getD user.availableTokensForWithdraw
  ensure (0 < withdrawAmount) (genericErr "No tokens available for withdraw")
  let user ← withdrawFrom config user withdrawAmount
  .ok ({ s with userInfo := s.userInfo.insert env.message.sender user },
    { messages := [.transfer env.message.sender withdrawAmount config.token]
      data := .withdraw .success })

end SefiStakepool.Contract
