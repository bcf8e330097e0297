/-
  Contract/Query.lean --- the entry point `query`.

  The four record queries read an append store by position and differ in the
  positions, in how many they read, and in the variants they answer with; they
  are `queryRecords` at their own values.
-/
import SefiStakepool.Contract.User
import SefiStakepool.Contract.Lottery

set_option autoImplicit false

namespace SefiStakepool.Contract

open SefiStakepool.Foundation

variable {X : Crates}

/-! ## Public -/

def queryTotalRewards (querier : Querier) (s : Storage X) (height : Nat) :
    StdResult QueryAnswer := do
  let config := s.config
  let response ← liftStd (querier config.stakingContract
    (.rewards config.ownAddr STAKING_VK (asU64 height)))
  let supplyPool := s.supplyPool
  let own ← addU 128 response.rewards.rewards supplyPool.totalRewardsRestaked
  let totalRewards ← addU 128 own supplyPool.pendingStakingRewards
  .ok (.totalRewards totalRewards)

def queryTotalDeposit (s : Storage X) : StdResult QueryAnswer :=
  .ok (.totalDeposits s.supplyPool.totalTokensStaked)

def queryLotteryInfo (s : Storage X) : StdResult QueryAnswer :=
  .ok (.lotteryInfo s.lottery.startTime s.lottery.endTime s.lottery.duration
    s.config.isStopped s.config.isStoppedCanWithdraw)

/-! ## One user's balances -/

def queryDeposit (s : Storage X) (address : HumanAddr) : StdResult QueryAnswer :=
  .ok (.balance (s.user address).amountDelegated)

def queryAvailableFunds (s : Storage X) (address : HumanAddr) : StdResult QueryAnswer := do
  let user := s.user address
  let config := s.config
  if config.isStoppedCanWithdraw then do
    let amount ← addU 128 user.availableTokensForWithdraw user.amountDelegated
    .ok (.availableTokensForWithdrawl amount)
  else .ok (.availableTokensForWithdrawl user.availableTokensForWithdraw)

/-! ## Records -/

/-- `AppendStore::attach`: there is a store once something was pushed. -/
def attach {α : Type} : List α → Option (List α)
  | [] => none
  | items => some items

/-- `data.len() - i - 1`. -/
def fromEnd (len i : Nat) : StdResult Nat := do
  let rest ← subU len i
  subU rest 1

/-- Answer `count len` records, the `i`-th one read at `position len i`. -/
def queryRecords {α : Type} (items : List α) (record : α → Nat × Nat)
    (empty full : List (Nat × Nat) → QueryAnswer) (count : Nat → Nat)
    (position : Nat → Nat → StdResult Nat) : StdResult QueryAnswer :=
  match attach items with
  | none => .ok (empty [])
  | some data => do
      let resultsVec ← (List.range (count data.length)).mapM fun i => do
        let pos ← position data.length i
        let item ← unwrap data[pos]?
        .ok (record item)
      .ok (full resultsVec)

def UserWinningHistory.record (item : UserWinningHistory) : Nat × Nat :=
  (item.winningAmount, item.time)

def LastLotteryResults.record (item : LastLotteryResults) : Nat × Nat :=
  (item.winningAmount, item.time)

def queryUserPastRecords (s : Storage X) (address : HumanAddr) : StdResult QueryAnswer :=
  queryRecords (s.userWinningHistory.getD [] address) UserWinningHistory.record
    .userPastRecords .userPastRecords (fun len => if 5 < len then 5 else len) fromEnd

def queryUserAllPastRecords (s : Storage X) (address : HumanAddr) : StdResult QueryAnswer :=
  queryRecords (s.userWinningHistory.getD [] address) UserWinningHistory.record
    .userPastRecords .userAllPastRecords id fun _ i => .ok i

def queryAllPastResults (s : Storage X) : StdResult QueryAnswer :=
  queryRecords s.lastLotteryResults LastLotteryResults.record
    .pastRecords .pastAllRecords id fun _ i => .ok i

def queryPastResults (s : Storage X) : StdResult QueryAnswer :=
  queryRecords s.lastLotteryResults LastLotteryResults.record
    .pastRecords .pastRecords id fromEnd

/-! ## Dispatch -/

def VIEWING_KEY_SIZE : Nat := 32

def ViewingKey.checkViewingKey (X : Crates) (key : ViewingKey) (hashedPw : List UInt8) :
    Bool :=
  createHashedPassword X key.value = hashedPw

/-- The address and the key an authenticated query comes with. -/
def QueryMsg.getValidationParams : QueryMsg → StdResult (HumanAddr × ViewingKey)
  | .rewards address key _ => .ok (address, ⟨key⟩)
  | .balance address key => .ok (address, ⟨key⟩)
  | .availableTokensForWithdrawl address key => .ok (address, ⟨key⟩)
  | .userPastRecords address key => .ok (address, ⟨key⟩)
  | .userAllPastRecords address key => .ok (address, ⟨key⟩)
  | _ => .error .panic

/-- What a user is told whose key is the stored one. -/
def authenticatedAnswer (s : Storage X) : QueryMsg → StdResult QueryAnswer
  | .balance address _ => queryDeposit s address
  | .availableTokensForWithdrawl address _ => queryAvailableFunds s address
  | .userPastRecords address _ => queryUserPastRecords s address
  | .userAllPastRecords address _ => queryUserAllPastRecords s address
  | _ => .error .panic

def viewingKeyError : QueryAnswer :=
  .viewingKeyError "Wrong viewing key for this address or viewing key not set"

def authenticatedQueries (s : Storage X) (msg : QueryMsg) : StdResult QueryAnswer := do
  let (address, key) ← msg.getValidationParams
  match s.viewingKeys.lookup address with
  | none =>
      -- the comparison with zeros is for the time it takes; its result is not used
      let _ := key.checkViewingKey X (List.replicate VIEWING_KEY_SIZE 0)
      .ok viewingKeyError
  | some expectedKey =>
      if key.checkViewingKey X expectedKey then authenticatedAnswer s msg
      else .ok viewingKeyError

def query (querier : Querier) (s : Storage X) : QueryMsg → StdResult QueryAnswer
  | .lotteryInfo => queryLotteryInfo s
  | .totalRewards height => queryTotalRewards querier s height
  | .totalDeposits => queryTotalDeposit s
  | .pastAllRecords => queryAllPastResults s
  | .pastRecords => queryPastResults s
  | msg => authenticatedQueries s msg

/-! ## What the queries answer -/

section
variable {querier : Querier} {s : Storage X} {u : HumanAddr} {key : String}

/-- A user who gives the stored key is told the answer. -/
theorem query_of_key {msg : QueryMsg} (hparams : msg.getValidationParams = .ok (u, ⟨key⟩))
    (hkey : s.viewingKeys.lookup u = some (ViewingKey.toHashed X ⟨key⟩)) :
    query querier s msg = authenticatedAnswer s msg := by
  have hcheck : ViewingKey.checkViewingKey X ⟨key⟩ (ViewingKey.toHashed X ⟨key⟩) = true :=
    decide_eq_true rfl
  have hqueries : authenticatedQueries s msg = authenticatedAnswer s msg := by
    simp only [authenticatedQueries, hparams, Bind.bind, Except.bind, hkey, hcheck, if_true]
  cases msg with
  | totalRewards | totalDeposits | lotteryInfo | pastRecords | pastAllRecords =>
      cases hparams
  | _ => exact hqueries

/-- A loop whose every round returns returns what the rounds do. -/
theorem mapM_eq_ok {α β : Type} {f : α → StdResult β} {g : α → β} {xs : List α}
    (h : ∀ x ∈ xs, f x = .ok (g x)) : xs.mapM f = .ok (xs.map g) := by
  induction xs with
  | nil => rfl
  | cons x xs ih =>
      have htail := ih fun y hy => h y (List.mem_cons_of_mem _ hy)
      rw [List.mapM_cons, h x (List.mem_cons_self ..), htail]
      rfl

/-- A position counted from the end is inside the list. -/
theorem fromEnd_eq_ok {len i : Nat} (h : i < len) : fromEnd len i = .ok (len - i - 1) := by
  simp only [fromEnd, bind_eq_ok, subU_eq_ok]
  exact ⟨_, ⟨by omega, rfl⟩, by omega, rfl⟩

end

/-! ## What the record queries answer -/

section
variable {α : Type} {items : List α} {record : α → Nat × Nat}
  {empty full : List (Nat × Nat) → QueryAnswer} {count : Nat → Nat}
  {position : Nat → Nat → StdResult Nat}

/-- The answer of a query whose positions are all inside the store. -/
theorem queryRecords_of_ne_nil (hne : items ≠ []) {answers : List (Nat × Nat)}
    (hlength : answers.length = count items.length)
    (hread : ∀ i < count items.length, ∃ pos item, position items.length i = .ok pos ∧
      items[pos]? = some item ∧ answers[i]? = some (record item)) :
    queryRecords items record empty full count position = .ok (full answers) := by
  have hattach : attach items = some items := by
    cases items with
    | nil => exact absurd rfl hne
    | cons item rest => rfl
  have hrounds : ∀ i ∈ List.range (count items.length),
      (position items.length i >>= fun pos => unwrap items[pos]? >>= fun item =>
        .ok (record item)) = (.ok ((answers[i]?).getD (0, 0)) : StdResult (Nat × Nat)) := by
    intro i hi
    obtain ⟨pos, item, hposition, hitem, hanswer⟩ := hread i (List.mem_range.mp hi)
    rw [hposition, hanswer]
    simp only [bind_eq_ok, Except.ok.injEq, exists_eq_left', unwrap_eq_ok, hitem,
      Option.some.injEq, Option.getD_some]
  have hanswers : (List.range (count items.length)).map (fun i => (answers[i]?).getD (0, 0)) =
      answers := by
    refine List.ext_getElem (by simp [hlength]) ?_
    intro i hi hi'
    simp [hi']
  simp only [queryRecords, hattach, bind_eq_ok]
  exact ⟨_, mapM_eq_ok hrounds, by rw [hanswers]⟩

/-- Reading forwards answers all records in order. -/
theorem queryRecords_forwards (hne : items ≠ []) :
    queryRecords items record empty full id (fun _ i => .ok i) =
      .ok (full (items.map record)) := by
  refine queryRecords_of_ne_nil hne (List.length_map _) ?_
  intro i hi
  have hitem : items[i]? = some items[i] := List.getElem?_eq_getElem hi
  exact ⟨i, items[i], rfl, hitem, by rw [List.getElem?_map, hitem, Option.map_some]⟩

/-- Reading from the end answers the last records, the last one first. -/
theorem queryRecords_backwards (hne : items ≠ []) (hcount : count items.length ≤ items.length) :
    queryRecords items record empty full count fromEnd =
      .ok (full ((items.map record).reverse.take (count items.length))) := by
  refine queryRecords_of_ne_nil hne ?_ ?_
  · rw [List.length_take, List.length_reverse, List.length_map]
    omega
  · intro i hi
    have hlt : items.length - i - 1 < items.length := by omega
    have hitem : items[items.length - i - 1]? = some items[items.length - i - 1] :=
      List.getElem?_eq_getElem hlt
    refine ⟨_, _, fromEnd_eq_ok (by omega), hitem, ?_⟩
    have hmirror : (items.map record).length - 1 - i = items.length - i - 1 := by
      rw [List.length_map]
      omega
    rw [List.getElem?_take_of_lt hi, List.getElem?_reverse (by rw [List.length_map]; omega),
      hmirror, List.getElem?_map, hitem, Option.map_some]

end

end SefiStakepool.Contract
