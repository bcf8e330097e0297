/-
  Contract/Deps.lean --- what a handler works on: the storage of the contract,
  the querier, and the crates the source builds on.

  The crates are not part of the repository.  They are the fields of `Crates`,
  with the documented behaviour the contract relies on as laws, and everything
  below is stated for an arbitrary value of that structure.
-/
import SefiStakepool.Foundation.Exec
import SefiStakepool.Foundation.KeyedMap
import SefiStakepool.Foundation.GenerationalStore
import SefiStakepool.Contract.Msg

set_option autoImplicit false

namespace SefiStakepool.Contract

open SefiStakepool.Foundation

/-- A result of the contract: a value, a `StdError`, or a panic. -/
abbrev StdResult (α : Type) : Type := Exec StdError α

/-- `Err(StdError::generic_err(msg))` as a failure. -/
def genericErr (msg : String) : Fault StdError := .err (.genericErr msg)

/-- The code outside the repository. -/
structure Crates where
  /-- `secret_toolkit::incubator::GenerationalStore` at the lottery entries. -/
  store : GenerationalStore LotteryEntries
  /-- `sha2::Sha256`. -/
  sha256 : List UInt8 → List UInt8
  /-- The first 32 bytes of a `ChaChaRng` with the given seed. -/
  randBytes : List UInt8 → List UInt8
  /-- `base64::encode`. -/
  base64Encode : List UInt8 → String
  /-- A sample of a `WeightedIndex` over the weights by a seeded `ChaChaRng`. -/
  sample : List UInt8 → List Nat → Nat
  /-- `cosmwasm_std::from_binary` at `HandleMsg`. -/
  fromBinary : Binary → Except StdError HandleMsg
  /-- A sample is the position of an item that can be drawn. -/
  sample_spec : ∀ seed weights, 0 < weights.sum →
    ∃ w, weights[sample seed weights]? = some w ∧ 0 < w

/-- The storage of the contract, by prefix.  An append store that nothing was
pushed to is the empty list. -/
structure Storage (X : Crates) where
  config : Config
  supplyPool : SupplyPool
  lottery : Lottery
  userInfo : KeyedMap HumanAddr (UserInfo X.store.Index)
  lotteryEntries : Option X.store.Store
  viewingKeys : KeyedMap HumanAddr (List UInt8)
  userWinningHistory : KeyedMap HumanAddr (List UserWinningHistory)
  lastLotteryResults : List LastLotteryResults

variable {X : Crates}

namespace Storage

/-- `user_store.load(..).unwrap_or(..)`. -/
def user (s : Storage X) (addr : HumanAddr) : UserInfo X.store.Index :=
  s.userInfo.getD .empty addr

/-- `GenerationalStoreMut::attach_or_create`. -/
def entries (s : Storage X) : X.store.Store := s.lotteryEntries.getD X.store.empty

end Storage

/-- What a query to another contract answers. -/
abbrev Querier : Type :=
  SecretContract → LPStakingQueryMsg → Except StdError LPStakingRewardsResponse

/-- A third-party result used with `?`. -/
def liftStd {α : Type} : Except StdError α → StdResult α
  | .ok a => .ok a
  | .error e => .error (.err e)

theorem liftStd_eq_ok {α : Type} {x : Except StdError α} {a : α} :
    liftStd x = .ok a ↔ x = .ok a := by
  cases x <;> simp [liftStd]

/-! ## Constants -/

def STAKING_VK : String := "sefi_stakepool_VK"

/-- `query_pending_rewards`. -/
def queryPendingRewards (querier : Querier) (env : Env) (config : Config) :
    StdResult LPStakingRewardsResponse :=
  liftStd (querier config.stakingContract
    (.rewards env.contract.address STAKING_VK env.block.height))

/-! ## Helper functions -/

def isAdmin (config : Config) (account : HumanAddr) : Prop := config.admin = account

instance (config : Config) (account : HumanAddr) : Decidable (isAdmin config account) :=
  inferInstanceAs (Decidable (_ = _))

def checkIfAdmin (config : Config) (account : HumanAddr) : StdResult Unit :=
  ensure (isAdmin config account) (genericErr
    "This is an admin command. Admin commands can only be run from admin address")

def isTriggerer (config : Config) (account : HumanAddr) : Prop :=
  config.triggerer = account

instance (config : Config) (account : HumanAddr) :
    Decidable (isTriggerer config account) :=
  inferInstanceAs (Decidable (_ = _))

def checkIfTriggerer (config : Config) (account : HumanAddr) : StdResult Unit :=
  ensure (isTriggerer config account) (genericErr
    "This is an admin command. Admin commands can only be run from admin address and triggerer address")

/-- The round must have started. -/
def validateStartTime (startTime currentTime : Nat) : StdResult Unit :=
  ensure (startTime ≤ currentTime) (genericErr "Lottery start height is in the future")

/-- The round must be over. -/
def validateEndTime (endTime currentTime : Nat) : StdResult Unit :=
  ensure (endTime ≤ currentTime) (genericErr "Lottery end height is in the future")

/-- The eight bytes of a `u64`, most significant first. -/
def toBeBytes (n : Nat) : List UInt8 :=
  (List.range 8).reverse.map fun i => UInt8.ofNat (n / 256 ^ i)

end SefiStakepool.Contract
