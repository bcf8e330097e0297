/-
  Chain/World.lean --- the contract in its surroundings: the tokens it holds,
  what it has staked, and transactions.

  A transaction runs one handle message and then the messages the handler
  emits.  The token and staking contracts are outside the repository; of them
  the model has what the pool can see:

  * a transfer or a send of more than the pool holds, and a redemption of more
    than it has staked at that contract, fail;
  * every deposit at the staking contract and every redemption from it pays the
    pool the rewards its reward query has just reported;
  * a `Receive` from the token contract comes with its amount of tokens.

  A failure anywhere reverts the whole transaction.  The recipient of a
  transfer is always the sender of the message, and the pool, which sends
  itself no message, is not one.
-/
import SefiStakepool.Foundation.Machine
import SefiStakepool.Contract.Handle

set_option autoImplicit false

namespace SefiStakepool.Chain

open SefiStakepool.Foundation
open SefiStakepool.Contract

/-- The pool and its surroundings. -/
structure World (X : Crates) where
  storage : Storage X
  /-- tokens the pool holds -/
  held : Nat
  /-- tokens of the pool at each staking contract it ever used -/
  stakes : KeyedMap HumanAddr Nat

/-- A handle message with its environment, and what other contracts answer to
queries while it is executed. -/
structure Tx where
  env : Env
  msg : HandleMsg
  querier : Querier

variable {X : Crates}

namespace World

/-- The pool's stake at one contract. -/
def stakeAt (w : World X) (contract : HumanAddr) : Nat := w.stakes.getD 0 contract

/-- The pool's stake at all contracts together. -/
def totalStake (w : World X) : Nat := w.stakes.total id

/-- The tokens that come with a message. -/
def incoming (w : World X) (tx : Tx) : Nat :=
  match tx.msg with
  | .receive _ _ amount _ =>
      if tx.env.message.sender = w.storage.config.token.address then amount else 0
  | _ => 0

/-- The rewards the staking contract reports during the transaction. -/
def reported (w : World X) (tx : Tx) : Nat :=
  match queryPendingRewards tx.querier tx.env w.storage.config with
  | .ok response => response.rewards.rewards
  | .error _ => 0

/-- Run one emitted message. -/
def dispatch (rewards : Nat) (w : World X) : CosmosMsg → Option (World X)
  | .transfer _ amount _ =>
      if amount ≤ w.held then some { w with held := w.held - amount } else none
  | .send recipient amount .deposit _ =>
      if amount ≤ w.held then
        some { w with
          held := w.held - amount + rewards
          stakes := w.stakes.insert recipient (w.stakeAt recipient + amount) }
      else none
  | .execute contractAddr _ (.redeem amount) =>
      if amount ≤ w.stakeAt contractAddr then
        some { w with
          held := w.held + amount + rewards
          stakes := w.stakes.insert contractAddr (w.stakeAt contractAddr - amount) }
      else none
  | .registerReceive _ _ => some w
  | .setViewingKey _ _ => some w
  | .send _ _ (.redeem _) _ => none
  | .execute _ _ .deposit => none

/-- Run the emitted messages in order. -/
def dispatchAll (rewards : Nat) : World X → List CosmosMsg → Option (World X)
  | w, [] => some w
  | w, msg :: msgs => (w.dispatch rewards msg).bind fun w => dispatchAll rewards w msgs

/-- The world in which the handler's messages run. -/
def handled (w : World X) (tx : Tx) (storage : Storage X) : World X :=
  { w with storage, held := w.held + w.incoming tx }

/-- A transaction: the handler, then its messages; `none` when it reverts. -/
def exec (w : World X) (tx : Tx) : Option (World X × HandleResponse) :=
  match handle tx.querier w.storage tx.env tx.msg with
  | .error _ => none
  | .ok (storage, response) =>
      ((w.handled tx storage).dispatchAll (w.reported tx) response.messages).map
        fun w' => (w', response)

/-- The world after a transaction. -/
def step (w : World X) (tx : Tx) : World X :=
  match w.exec tx with
  | some (w', _) => w'
  | none => w

/-- A pool that was just set up: `init` succeeded and nothing is staked yet. -/
def Initial (w : World X) : Prop :=
  (∃ env msg response, init X env msg = .ok (w.storage, response)) ∧ w.stakes = ∅

/-- The world after a sequence of transactions. -/
def run (w : World X) (txs : List Tx) : World X := Foundation.run step w txs

/-- Reachable from a new pool by handle messages from any senders. -/
def Reachable (w : World X) : Prop := Foundation.Reachable step Initial w

theorem exec_eq_some {w w' : World X} {tx : Tx} {response : HandleResponse} :
    w.exec tx = some (w', response) ↔
      ∃ storage, handle tx.querier w.storage tx.env tx.msg = .ok (storage, response) ∧
        (w.handled tx storage).dispatchAll (w.reported tx) response.messages = some w' := by
  unfold exec
  cases handle tx.querier w.storage tx.env tx.msg with
  | error fault => simp
  | ok result =>
      obtain ⟨storage, response'⟩ := result
      simp only [Option.map_eq_some_iff, Prod.mk.injEq, Except.ok.injEq]
      constructor
      · rintro ⟨w'', hdispatch, rfl, rfl⟩
        exact ⟨storage, ⟨rfl, rfl⟩, hdispatch⟩
      · rintro ⟨_, ⟨rfl, rfl⟩, hdispatch⟩
        exact ⟨w', hdispatch, rfl, rfl⟩

/-- A handled message that goes through is answered as it was handled. -/
theorem exec_of_handle {w : World X} {tx : Tx} {s : Storage X} {response : HandleResponse}
    (hhandle : handle tx.querier w.storage tx.env tx.msg = .ok (s, response))
    (hsome : (w.exec tx).isSome) : ∃ w', w.exec tx = some (w', response) := by
  obtain ⟨⟨w', response'⟩, hexec⟩ := Option.isSome_iff_exists.mp hsome
  obtain ⟨s', hhandle', _⟩ := exec_eq_some.mp hexec
  obtain ⟨rfl, rfl⟩ := Prod.mk.inj (Except.ok.inj (hhandle.symm.trans hhandle'))
  exact ⟨w', hexec⟩

theorem step_of_exec {w w' : World X} {tx : Tx} {response : HandleResponse}
    (h : w.exec tx = some (w', response)) : w.step tx = w' := by
  simp [step, h]

/-- A step is a transaction that succeeded, or nothing. -/
theorem step_cases (w : World X) (tx : Tx) :
    (∃ response, w.exec tx = some (w.step tx, response)) ∨
      (w.exec tx = none ∧ w.step tx = w) := by
  cases h : w.exec tx with
  | none => exact Or.inr ⟨rfl, by simp [step, h]⟩
  | some result =>
      obtain ⟨w', response⟩ := result
      exact Or.inl ⟨response, by rw [step_of_exec h]⟩

/-- A reported reward is the one the handler works with. -/
theorem reported_of_query {w : World X} {tx : Tx} {rewards : Nat}
    (h : queryPendingRewards tx.querier tx.env w.storage.config = .ok ⟨⟨rewards⟩⟩) :
    w.reported tx = rewards := by
  simp [reported, h]

/-- The stake at one contract is part of the whole stake. -/
theorem stakeAt_le_totalStake (w : World X) (contract : HumanAddr) :
    w.stakeAt contract ≤ w.totalStake :=
  KeyedMap.le_total id w.stakes 0 rfl contract

/-! ## Totals over the users -/

/-- The delegated amounts of all users. -/
def totalDelegated (w : World X) : Nat := w.storage.userInfo.total UserInfo.amountDelegated

/-- The available amounts of all users. -/
def totalAvailable (w : World X) : Nat :=
  w.storage.userInfo.total UserInfo.availableTokensForWithdraw

end World

end SefiStakepool.Chain
