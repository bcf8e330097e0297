/-
  Chain/Refinement.lean --- every transaction is one posting to the books.

  `World.books` reads the books off a world and `World.posting` names the
  posting a transaction makes.  `step_posts` is the refinement: the books after
  a transaction are the posting applied to the books before it, and the posting
  moved only tokens that were there.
-/
import SefiStakepool.Accounting
import SefiStakepool.Contract.Effect
import SefiStakepool.Chain.World

set_option autoImplicit false

namespace SefiStakepool.Chain

open SefiStakepool.Foundation
open SefiStakepool.Contract
open SefiStakepool.Accounting

variable {X : Crates}

/-- The account a user's record keeps. -/
def account (user : UserInfo X.store.Index) : Account where
  delegated := user.amountDelegated
  available := user.availableTokensForWithdraw
  won := user.totalWon

/-- The books a storage keeps, over the given tokens. -/
def booksOver (s : Storage X) (held current elsewhere : Nat) : Books where
  delegated := s.userInfo.total UserInfo.amountDelegated
  available := s.userInfo.total UserInfo.availableTokensForWithdraw
  staked := s.supplyPool.totalTokensStaked
  restaked := s.supplyPool.totalRewardsRestaked
  pending := s.supplyPool.pendingStakingRewards
  fee := s.supplyPool.triggeringCost
  held
  current
  elsewhere

namespace World

/-- The staking contract the pool uses now. -/
def stakingAddr (w : World X) : HumanAddr := w.storage.config.stakingContract.address

/-- The books of a world. -/
def books (w : World X) : Books :=
  booksOver w.storage w.held (w.stakeAt w.stakingAddr)
    (w.totalStake - w.stakeAt w.stakingAddr)

/-- The fee of a draw from the given pot. -/
def feeOf (w : World X) (pot : Nat) : Nat :=
  pot * w.storage.config.triggererSharePercentage / 10000

/-- The posting a successful message makes. -/
def postingOf (w : World X) (tx : Tx) (response : HandleResponse) : Posting HumanAddr :=
  let user := w.storage.user tx.env.message.sender
  let pot := w.storage.supplyPool.pot (w.reported tx)
  match tx.msg, response.messages, response.data with
  | .receive _ from_ amount _, _, _ => .deposit from_ amount (w.reported tx)
  | .triggerWithdraw amount, _, _ =>
      .unstake tx.env.message.sender (amount.getD user.amountDelegated) (w.reported tx)
  | .withdraw amount, _, _ =>
      let withdrawAmount := amount.getD user.availableTokensForWithdraw
      .payout tx.env.message.sender (min withdrawAmount user.availableTokensForWithdraw)
        (withdrawAmount - user.availableTokensForWithdraw)
  | .claimRewards, _ :: _, .claimRewards _ winner =>
      .draw winner (pot - w.feeOf pot) (w.feeOf pot) (w.reported tx)
  | .triggeringCostWithdraw, _, _ => .feePayout
  | .withdrawExcess, _, _ => .excessPayout
  | .emergencyRedeemFromStaking, _, _ => .redeemAll (w.reported tx)
  | .redelegateToNewContract, _, _ => .restake (w.reported tx)
  | .changeStakingContract address _, _, _ => .relocate (w.stakeAt address)
  | _, _, _ => .idle

/-- The posting of a transaction; a reverted one makes none. -/
def posting (w : World X) (tx : Tx) : Posting HumanAddr :=
  match w.exec tx with
  | some (_, response) => w.postingOf tx response
  | none => .idle

theorem posting_of_exec {w w' : World X} {tx : Tx} {response : HandleResponse}
    (h : w.exec tx = some (w', response)) : w.posting tx = w.postingOf tx response := by
  simp [posting, h]

theorem posting_of_none {w : World X} {tx : Tx} (h : w.exec tx = none) :
    w.posting tx = .idle := by
  simp [posting, h]

/-! ## Emitted messages -/

@[simp] theorem handled_held (w : World X) (tx : Tx) (s : Storage X) :
    (w.handled tx s).held = w.held + w.incoming tx := rfl

theorem dispatchAll_nil {w w' : World X} {rewards : Nat} :
    w.dispatchAll rewards [] = some w' ↔ w = w' := by
  simp [dispatchAll]

/-- A transfer takes its amount out of hand. -/
theorem dispatchAll_transfer {w w' : World X} {rewards amount : Nat}
    {recipient : HumanAddr} {token : SecretContract} :
    w.dispatchAll rewards [.transfer recipient amount token] = some w' ↔
      amount ≤ w.held ∧ { w with held := w.held - amount } = w' := by
  unfold dispatchAll dispatch
  split <;> simp_all [dispatchAll]

/-- A deposit moves its amount from hand to the stake and brings the rewards. -/
theorem dispatchAll_deposit {w w' : World X} {rewards amount : Nat}
    {recipient : HumanAddr} {token : SecretContract} :
    w.dispatchAll rewards [.send recipient amount .deposit token] = some w' ↔
      amount ≤ w.held ∧ { w with
        held := w.held - amount + rewards
        stakes := w.stakes.insert recipient (w.stakeAt recipient + amount) } = w' := by
  unfold dispatchAll dispatch
  split <;> simp_all [dispatchAll]

/-- A redemption moves its amount from the stake to hand and brings the rewards. -/
theorem dispatchAll_redeem {w w' : World X} {rewards amount : Nat}
    {contractAddr : HumanAddr} {codeHash : String} :
    w.dispatchAll rewards [.execute contractAddr codeHash (.redeem amount)] = some w' ↔
      amount ≤ w.stakeAt contractAddr ∧ { w with
        held := w.held + amount + rewards
        stakes := w.stakes.insert contractAddr (w.stakeAt contractAddr - amount) } = w' := by
  unfold dispatchAll dispatch
  split <;> simp_all [dispatchAll]

/-- Emitted messages move tokens; they do not write the pool's storage. -/
theorem dispatch_storage {w w' : World X} {rewards : Nat} {msg : CosmosMsg}
    (h : w.dispatch rewards msg = some w') : w'.storage = w.storage := by
  unfold dispatch at h
  split at h
  all_goals try split at h
  all_goals cases h
  all_goals rfl

theorem dispatchAll_storage {w w' : World X} {rewards : Nat} {msgs : List CosmosMsg}
    (h : w.dispatchAll rewards msgs = some w') : w'.storage = w.storage := by
  induction msgs generalizing w with
  | nil => rw [dispatchAll_nil.mp h]
  | cons msg msgs ih =>
      obtain ⟨v, hdispatch, hrest⟩ := Option.bind_eq_some_iff.mp h
      rw [ih hrest, dispatch_storage hdispatch]

/-- A transaction that goes through has one of the listed effects. -/
theorem exec_effect {w w' : World X} {tx : Tx} {response : HandleResponse}
    (h : w.exec tx = some (w', response)) :
    Effect tx.querier w.storage tx.env tx.msg w'.storage response := by
  obtain ⟨storage, hhandle, hdispatch⟩ := exec_eq_some.mp h
  rw [dispatchAll_storage hdispatch]
  exact handle_effect hhandle

end World

/-! ## A new pool -/

/-- A new pool owes nothing and has nothing staked. -/
theorem books_of_initial {w : World X} (h : w.Initial) :
    w.books = ⟨0, 0, 0, 0, 0, 0, w.held, 0, 0⟩ := by
  obtain ⟨⟨env, msg, response, hinit⟩, hstakes⟩ := h
  have hfresh := init_fresh hinit
  simp only [World.books, booksOver, World.stakingAddr, World.stakeAt, World.totalStake,
    hfresh.supplyPool_eq, hfresh.userInfo_eq, hstakes, KeyedMap.total_empty,
    KeyedMap.getD_empty]

/-- Every user's record in it is empty. -/
theorem user_of_initial {w : World X} (h : w.Initial) (u : HumanAddr) :
    w.storage.user u = .empty := by
  obtain ⟨⟨env, msg, response, hinit⟩, _⟩ := h
  simp only [Storage.user, (init_fresh hinit).userInfo_eq, KeyedMap.getD_empty]

/-! ## Totals after one write -/

/-- Writing a user's record replaces its share of a total. -/
theorem total_user_insert (f : UserInfo X.store.Index → Nat) (hf : f .empty = 0)
    (s : Storage X) (addr : HumanAddr) (user : UserInfo X.store.Index) :
    KeyedMap.total f (s.userInfo.insert addr user) + f (s.user addr) =
      s.userInfo.total f + f user :=
  KeyedMap.total_insert f s.userInfo .empty user hf addr

/-- No user's share exceeds a total. -/
theorem le_total_user (f : UserInfo X.store.Index → Nat) (hf : f .empty = 0)
    (s : Storage X) (addr : HumanAddr) : f (s.user addr) ≤ s.userInfo.total f :=
  KeyedMap.le_total f s.userInfo .empty hf addr

/-- Where the stake is left alone and the staking contract kept, the books change
with the storage and the tokens in hand. -/
theorem books_of_hand (w : World X) (s : Storage X) (held : Nat)
    (hs : s.config.stakingContract = w.storage.config.stakingContract) :
    World.books ⟨s, held, w.stakes⟩ =
      booksOver s held w.books.current w.books.elsewhere := by
  simp only [World.books, booksOver, World.stakingAddr, World.totalStake, World.stakeAt, hs]

/-- Where the stake at the pool's staking contract is written, the stake
elsewhere stays what it was. -/
theorem books_of_stake (w : World X) (s : Storage X) (held amount : Nat)
    (hs : s.config.stakingContract = w.storage.config.stakingContract) :
    World.books ⟨s, held, w.stakes.insert w.stakingAddr amount⟩ =
      booksOver s held amount w.books.elsewhere := by
  have htotal : KeyedMap.total id (w.stakes.insert w.stakingAddr amount) +
      w.stakeAt w.stakingAddr = w.totalStake + amount :=
    KeyedMap.total_insert id w.stakes 0 amount rfl w.stakingAddr
  have hle := World.stakeAt_le_totalStake w w.stakingAddr
  have hself : KeyedMap.getD (w.stakes.insert w.stakingAddr amount) 0 w.stakingAddr =
      amount := KeyedMap.getD_insert_self w.stakes 0 amount w.stakingAddr
  simp only [World.stakingAddr] at *
  simp only [World.books, booksOver, World.stakingAddr, hs, Books.mk.injEq, true_and]
  refine ⟨hself, ?_⟩
  simp only [World.totalStake, World.stakeAt, hself] at *
  omega

/-- What is stored, and the books, after a message that emitted one transfer. -/
theorem books_of_transfer {w w' : World X} {tx : Tx} {s : Storage X} {rewards amount : Nat}
    {recipient : HumanAddr} {token : SecretContract}
    (hdispatch : (w.handled tx s).dispatchAll rewards [.transfer recipient amount token] = some w')
    (hs : s.config.stakingContract = w.storage.config.stakingContract) :
    w'.storage = s ∧ w'.books = booksOver s (w.held + w.incoming tx - amount)
      w.books.current w.books.elsewhere := by
  obtain ⟨_, rfl⟩ := World.dispatchAll_transfer.mp hdispatch
  exact ⟨rfl, books_of_hand w s _ hs⟩

/-- After one that emitted a deposit at the pool's staking contract. -/
theorem books_of_deposit {w w' : World X} {tx : Tx} {s : Storage X} {rewards amount : Nat}
    {token : SecretContract}
    (hdispatch : (w.handled tx s).dispatchAll rewards
      [.send w.stakingAddr amount .deposit token] = some w')
    (hs : s.config.stakingContract = w.storage.config.stakingContract) :
    w'.storage = s ∧ w'.books = booksOver s (w.held + w.incoming tx - amount + rewards)
      (w.books.current + amount) w.books.elsewhere := by
  obtain ⟨_, rfl⟩ := World.dispatchAll_deposit.mp hdispatch
  exact ⟨rfl, books_of_stake w s _ _ hs⟩

/-- After one that emitted a redemption from it. -/
theorem books_of_redeem {w w' : World X} {tx : Tx} {s : Storage X} {rewards amount : Nat}
    {codeHash : String}
    (hdispatch : (w.handled tx s).dispatchAll rewards
      [.execute w.stakingAddr codeHash (.redeem amount)] = some w')
    (hs : s.config.stakingContract = w.storage.config.stakingContract) :
    w'.storage = s ∧ w'.books = booksOver s (w.held + w.incoming tx + amount + rewards)
      (w.books.current - amount) w.books.elsewhere := by
  obtain ⟨_, rfl⟩ := World.dispatchAll_redeem.mp hdispatch
  exact ⟨rfl, books_of_stake w s _ _ hs⟩

/-- The records after one user's was written. -/
theorem user_insert {s s' : Storage X} {addr : HumanAddr} {user : UserInfo X.store.Index}
    (h : s'.userInfo = s.userInfo.insert addr user) (u : HumanAddr) :
    s'.user u = if addr = u then user else s.user u := by
  unfold Storage.user
  rw [h]
  split
  · rename_i heq
    subst heq
    exact KeyedMap.getD_insert_self s.userInfo .empty user addr
  · rename_i hne
    exact KeyedMap.getD_insert_of_ne s.userInfo .empty user (Ne.symm hne)

theorem user_of_lookup {s : Storage X} {addr : HumanAddr} {user : UserInfo X.store.Index}
    (h : s.userInfo.lookup addr = some user) : s.user addr = user :=
  KeyedMap.getD_of_lookup h

/-- Writing a user's record changes the two totals by that record alone. -/
theorem totals_insert {s s' : Storage X} {addr : HumanAddr}
    {user : UserInfo X.store.Index} (h : s'.userInfo = s.userInfo.insert addr user) :
    s'.userInfo.total UserInfo.amountDelegated + (s.user addr).amountDelegated =
        s.userInfo.total UserInfo.amountDelegated + user.amountDelegated ∧
      s'.userInfo.total UserInfo.availableTokensForWithdraw +
          (s.user addr).availableTokensForWithdraw =
        s.userInfo.total UserInfo.availableTokensForWithdraw +
          user.availableTokensForWithdraw := by
  rw [h]
  exact ⟨total_user_insert UserInfo.amountDelegated rfl s addr user,
    total_user_insert UserInfo.availableTokensForWithdraw rfl s addr user⟩

/-! ## The refinement -/

/-- A transaction from `w` to `w'` makes the posting `p`. -/
structure Posts (w w' : World X) (p : Posting HumanAddr) : Prop where
  admissible : p.Admissible w.books
  books : w'.books = p.apply w.books
  covered : ∀ u, p.Covered u (account (w.storage.user u))
  account : ∀ u, account (w'.storage.user u) = p.account u (account (w.storage.user u))

/-- Where one user's record is written, that user is the holder, whose account makes the
change of the totals. -/
theorem Posts.of_insert {w w' : World X} {p : Posting HumanAddr} {addr : HumanAddr}
    {user : UserInfo X.store.Index} {s : Storage X} {books : Books}
    (stored : w'.storage = s ∧ w'.books = books)
    (written : s.userInfo = w.storage.userInfo.insert addr user)
    (holder : p.holder = some addr)
    (admissible : p.Admissible w.books)
    (covered : p.Covered addr (Chain.account (w.storage.user addr)))
    (account : p.account addr (Chain.account (w.storage.user addr)) = Chain.account user)
    (rest : books = { p.apply w.books with
      delegated := s.userInfo.total UserInfo.amountDelegated
      available := s.userInfo.total UserInfo.availableTokensForWithdraw }) :
    Posts w w' p where
  admissible := admissible
  books := by
    obtain ⟨hdelegated, havailable⟩ := totals_insert written
    obtain ⟨hdelegated', havailable'⟩ := Posting.apply_totals holder covered
      (b := w.books) (le_total_user UserInfo.amountDelegated rfl w.storage addr)
      (le_total_user UserInfo.availableTokensForWithdraw rfl w.storage addr)
    rw [account] at hdelegated' havailable'
    simp only [Chain.account, World.books, booksOver] at hdelegated' havailable'
    rw [stored.2, rest]
    apply Books.ext <;> simp only [World.books, booksOver]
    · omega
    · omega
  covered u := by
    by_cases hu : addr = u
    · subst hu
      exact covered
    · exact Posting.covered_of_holder_ne _ (by simpa [holder] using hu)
  account u := by
    rw [stored.1, user_insert written u]
    by_cases hu : addr = u
    · subst hu
      simpa using account.symm
    · rw [if_neg hu, Posting.account_of_holder_ne _ (by simpa [holder] using hu)]

/-- Where no record is written, there is no holder. -/
theorem Posts.of_same {w w' : World X} {p : Posting HumanAddr} {s : Storage X} {books : Books}
    (stored : w'.storage = s ∧ w'.books = books)
    (same : s.userInfo = w.storage.userInfo) (holder : p.holder = none)
    (admissible : p.Admissible w.books) (applied : books = p.apply w.books) :
    Posts w w' p where
  admissible := admissible
  books := stored.2.trans applied
  covered u := Posting.covered_of_holder_ne _ (by simp [holder])
  account u := by
    rw [Posting.account_of_holder_ne _ (by simp [holder])]
    unfold Storage.user
    rw [stored.1, same]

/-- A message that emits nothing and writes none of what the books record. -/
theorem Posts.idle {w w' : World X} {tx : Tx} {rewards : Nat} {s : Storage X}
    (hdispatch : (w.handled tx s).dispatchAll rewards [] = some w')
    (hincoming : w.incoming tx = 0) (huserInfo : s.userInfo = w.storage.userInfo)
    (hsupplyPool : s.supplyPool = w.storage.supplyPool)
    (hstaking : s.config.stakingContract = w.storage.config.stakingContract) :
    Posts w w' .idle := by
  obtain rfl := World.dispatchAll_nil.mp hdispatch
  refine Posts.of_same ⟨rfl, books_of_hand w s _ hstaking⟩ huserInfo rfl ⟨trivial, trivial⟩ ?_
  simp only [World.books, booksOver, Posting.apply, huserInfo, hsupplyPool, hincoming,
    Nat.add_zero]

/-- The two parts of a payout can be read off its amount. -/
theorem World.postingOf_withdraw {w : World X} {env : Env} {querier : Querier}
    {amount : Option Nat} {response : HandleResponse} {liquid unbacked : Nat} {P Q : Prop}
    (amount_eq : liquid + unbacked =
      amount.getD (w.storage.user env.message.sender).availableTokensForWithdraw)
    (available : liquid ≤ (w.storage.user env.message.sender).availableTokensForWithdraw)
    (allowed : unbacked ≠ 0 →
      P ∧ liquid = (w.storage.user env.message.sender).availableTokensForWithdraw ∧ Q) :
    w.postingOf ⟨env, .withdraw amount, querier⟩ response =
      .payout env.message.sender liquid unbacked := by
  simp only [World.postingOf, ← amount_eq, Posting.payout.injEq, true_and]
  by_cases hzero : unbacked = 0
  · omega
  · have hall := (allowed hzero).2.1
    omega

/-- The accounts and the counters cover every posting. -/
theorem effect_backed {w : World X} {tx : Tx} {s : Storage X} {response : HandleResponse}
    (h : Effect tx.querier w.storage tx.env tx.msg s response) :
    (w.postingOf tx response).Backed w.books := by
  obtain ⟨env, msg, querier⟩ := tx
  dsimp only at h
  have hdelegated := le_total_user UserInfo.amountDelegated rfl w.storage
    env.message.sender
  have havailable := le_total_user UserInfo.availableTokensForWithdraw rfl w.storage
    env.message.sender
  cases h with
  | unstake running amount_eq positive delegated staked consumed query =>
      subst amount_eq
      exact ⟨le_trans delegated hdelegated, staked⟩
  | payout open_ amount_eq positive available delegated allowed =>
      rw [World.postingOf_withdraw amount_eq available allowed]
      exact ⟨le_trans available havailable, le_trans delegated hdelegated⟩
  | noWinner running triggerer ended restart quiet =>
      simp only [World.postingOf, quiet, Posting.Backed]
  | draw running triggerer ended restart entries drawn query share_eq share_lt found =>
      rename_i winner user lottery data rewards share
      have hreported : w.reported ⟨env, .claimRewards, querier⟩ = rewards :=
        World.reported_of_query query
      have hshare : w.feeOf (w.storage.supplyPool.pot rewards) = share := share_eq.symm
      simp only [World.postingOf, hreported, hshare, Posting.Backed, World.books, booksOver]
      unfold SupplyPool.pot at share_lt ⊢
      omega
  | relocate stopped admin =>
      rename_i address contractHash
      have hstake := World.stakeAt_le_totalStake w w.stakingAddr
      have haddress := World.stakeAt_le_totalStake w address
      simp only [World.postingOf, Posting.Backed, World.books, booksOver]
      omega
  | reconfigure running isAdmin change =>
      rcases change with ⟨_, rfl, _⟩ | ⟨_, rfl, _⟩ | ⟨_, rfl, _⟩ <;> trivial
  | viewingKey msg_eq =>
      rcases msg_eq with ⟨_, _, rfl, _⟩ | ⟨_, rfl⟩ <;> trivial
  | _ => trivial

/-- A handled message goes through when the tokens its posting moves are there,
and only then. -/
theorem exec_isSome_iff_funded {w : World X} {tx : Tx} {s : Storage X}
    {response : HandleResponse}
    (hhandle : handle tx.querier w.storage tx.env tx.msg = .ok (s, response)) :
    (w.exec tx).isSome ↔ (w.postingOf tx response).Funded w.books := by
  have hdispatch : (w.exec tx).isSome ↔ ∃ w', (w.handled tx s).dispatchAll
      (w.reported tx) response.messages = some w' := by
    simp only [World.exec, hhandle, Option.isSome_map, Option.isSome_iff_exists]
  rw [hdispatch]
  have heffect := handle_effect hhandle
  clear hhandle hdispatch
  obtain ⟨env, msg, querier⟩ := tx
  dsimp only at heffect
  cases heffect with
  | deposit running token decoded minimum query =>
      rename_i sender from_ amount rewards payload
      have hincoming : w.incoming ⟨env, .receive sender from_ amount payload, querier⟩ =
        amount := by simp [World.incoming, token]
      simp only [World.dispatchAll_deposit, exists_and_left, exists_eq', and_true,
        World.handled_held, hincoming, World.postingOf, Posting.Funded, World.books,
        booksOver]
      omega
  | unstake running amount_eq positive delegated staked consumed query =>
      subst amount_eq
      simp only [World.dispatchAll_redeem, exists_and_left, exists_eq', and_true]
      exact Iff.rfl
  | payout open_ amount_eq positive available delegated allowed =>
      rw [World.postingOf_withdraw amount_eq available allowed]
      simp only [World.dispatchAll_transfer, exists_and_left, exists_eq', and_true]
      exact Iff.rfl
  | noWinner running triggerer ended restart quiet =>
      simp only [quiet, World.dispatchAll_nil, exists_eq', World.postingOf, Posting.Funded]
  | draw running triggerer ended restart entries drawn query share_eq share_lt found =>
      simp only [World.dispatchAll_redeem, exists_and_left, exists_eq', and_true]
      exact Iff.rfl
  | feePayout admin positive =>
      simp only [World.dispatchAll_transfer, exists_and_left, exists_eq', and_true]
      exact Iff.rfl
  | excessPayout stopped admin =>
      simp only [World.dispatchAll_transfer, exists_and_left, exists_eq', and_true]
      exact Iff.rfl
  | redeemAll stopped admin query =>
      simp only [World.dispatchAll_redeem, exists_and_left, exists_eq', and_true]
      exact Iff.rfl
  | restake stopped admin query =>
      simp only [World.dispatchAll_deposit, exists_and_left, exists_eq', and_true]
      exact Iff.rfl
  | reconfigure running isAdmin change =>
      rcases change with ⟨_, rfl, _⟩ | ⟨_, rfl, _⟩ | ⟨_, rfl, _⟩ <;>
        simp only [World.dispatchAll_nil, exists_eq', World.postingOf, Posting.Funded]
  | viewingKey msg_eq =>
      rcases msg_eq with ⟨_, _, rfl, _⟩ | ⟨_, rfl⟩ <;>
        simp only [World.dispatchAll_nil, exists_eq', World.postingOf, Posting.Funded]
  | _ => simp only [World.dispatchAll_nil, exists_eq', World.postingOf, Posting.Funded]

/-- A transaction posts what `World.posting` says. -/
theorem exec_posts {w w' : World X} {tx : Tx} {response : HandleResponse}
    (h : w.exec tx = some (w', response)) : Posts w w' (w.posting tx) := by
  rw [World.posting_of_exec h]
  obtain ⟨storage, hhandle, hdispatch⟩ := World.exec_eq_some.mp h
  have heffect := handle_effect hhandle
  have hadmissible : (w.postingOf tx response).Admissible w.books :=
    ⟨effect_backed heffect, (exec_isSome_iff_funded hhandle).mp (by simp [h])⟩
  clear h hhandle
  obtain ⟨env, msg, querier⟩ := tx
  dsimp only at heffect
  cases heffect with
  | deposit running token decoded minimum query =>
      rename_i sender from_ amount rewards payload
      obtain rfl : w.reported ⟨env, .receive sender from_ amount payload, querier⟩ = rewards :=
        World.reported_of_query query
      have hincoming : w.incoming ⟨env, .receive sender from_ amount payload, querier⟩ =
        amount := if_pos token
      refine Posts.of_insert (books_of_deposit hdispatch rfl) rfl rfl hadmissible
        (Posting.covered_deposit ..) (Posting.account_deposit ..) ?_
      -- what comes in with the message goes into the stake
      rw [hincoming, Nat.add_comm w.held, Nat.add_sub_add_left]
      rfl
  | unstake running amount_eq positive delegated staked consumed query =>
      rename_i amount withdrawAmount rewards entries entryIndex
      subst amount_eq
      obtain rfl : w.reported ⟨env, .triggerWithdraw amount, querier⟩ = rewards :=
        World.reported_of_query query
      exact Posts.of_insert (books_of_redeem hdispatch rfl) rfl rfl hadmissible
        ((Posting.covered_unstake ..).mpr delegated) (Posting.account_unstake ..) rfl
  | payout open_ amount_eq positive available delegated allowed =>
      rw [World.postingOf_withdraw amount_eq available allowed] at hadmissible ⊢
      exact Posts.of_insert (books_of_transfer hdispatch rfl) rfl rfl hadmissible
        ((Posting.covered_payout ..).mpr ⟨delegated, available⟩)
        (Posting.account_payout ..) rfl
  | noWinner running triggerer ended restart quiet =>
      rw [quiet] at hdispatch
      simp only [World.postingOf, quiet]
      exact Posts.idle hdispatch rfl rfl rfl rfl
  | draw running triggerer ended restart entries drawn query share_eq share_lt found =>
      rename_i winner user lottery data rewards share
      subst share_eq
      obtain rfl : w.reported ⟨env, .claimRewards, querier⟩ = rewards :=
        World.reported_of_query query
      obtain rfl := user_of_lookup found
      exact Posts.of_insert (books_of_redeem hdispatch rfl) rfl rfl hadmissible
        (Posting.covered_draw ..) (Posting.account_draw ..) rfl
  | feePayout admin positive =>
      exact Posts.of_same (books_of_transfer hdispatch rfl) rfl rfl hadmissible rfl
  | excessPayout stopped admin =>
      exact Posts.of_same (books_of_transfer hdispatch rfl) rfl rfl hadmissible rfl
  | redeemAll stopped admin query =>
      rename_i rewards
      obtain rfl : w.reported ⟨env, .emergencyRedeemFromStaking, querier⟩ = rewards :=
        World.reported_of_query query
      exact Posts.of_same (books_of_redeem hdispatch rfl) rfl rfl hadmissible rfl
  | restake stopped admin query =>
      rename_i rewards
      obtain rfl : w.reported ⟨env, .redelegateToNewContract, querier⟩ = rewards :=
        World.reported_of_query query
      exact Posts.of_same (books_of_deposit hdispatch rfl) rfl rfl hadmissible rfl
  | relocate stopped admin =>
      rename_i address contractHash
      obtain rfl := World.dispatchAll_nil.mp hdispatch
      have hstake := World.stakeAt_le_totalStake w w.stakingAddr
      have haddress := World.stakeAt_le_totalStake w address
      have helsewhere : w.totalStake - w.stakeAt address = w.stakeAt w.stakingAddr +
          (w.totalStake - w.stakeAt w.stakingAddr) - w.stakeAt address := by omega
      exact Posts.of_same ⟨rfl, rfl⟩ rfl rfl hadmissible
        (Books.ext rfl rfl rfl rfl rfl rfl rfl rfl helsewhere)
  | reconfigure running isAdmin change =>
      rcases change with ⟨admin, rfl, rfl⟩ | ⟨triggerer, rfl, rfl⟩ | ⟨percentage, rfl, rfl⟩ <;>
        exact Posts.idle hdispatch rfl rfl rfl rfl
  | viewingKey msg_eq =>
      rcases msg_eq with ⟨entropy, padding, rfl, _⟩ | ⟨padding, rfl⟩ <;>
        exact Posts.idle hdispatch rfl rfl rfl rfl
  | _ => exact Posts.idle hdispatch rfl rfl rfl rfl

/-- A handled message whose tokens are there is executed: the step keeps what the
handler stored and makes its posting. -/
theorem step_of_handle {w : World X} {tx : Tx} {s : Storage X} {response : HandleResponse}
    (hhandle : handle tx.querier w.storage tx.env tx.msg = .ok (s, response))
    (hfunded : (w.postingOf tx response).Funded w.books) :
    (w.exec tx).isSome ∧ (w.step tx).storage = s ∧
      (w.step tx).books = (w.postingOf tx response).apply w.books := by
  have hsome := (exec_isSome_iff_funded hhandle).mpr hfunded
  obtain ⟨⟨w', response'⟩, hexec⟩ := Option.isSome_iff_exists.mp hsome
  obtain ⟨s', hhandle', hdispatch⟩ := World.exec_eq_some.mp hexec
  rw [hhandle] at hhandle'
  cases hhandle'
  have hposts := exec_posts hexec
  rw [World.posting_of_exec hexec] at hposts
  rw [World.step_of_exec hexec]
  exact ⟨hsome, World.dispatchAll_storage hdispatch, hposts.books⟩

/-- A step posts what `World.posting` says, whether the transaction succeeds or not. -/
theorem step_posts (w : World X) (tx : Tx) : Posts w (w.step tx) (w.posting tx) := by
  rcases World.step_cases w tx with ⟨response, h⟩ | ⟨h, hstep⟩
  · exact exec_posts h
  · rw [hstep, World.posting_of_none h]
    exact Posts.of_same ⟨rfl, rfl⟩ rfl rfl ⟨trivial, trivial⟩ rfl

end SefiStakepool.Chain
