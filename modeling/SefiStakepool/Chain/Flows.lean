/-
  Chain/Flows.lean --- where every token goes.

  What comes in and goes out is read off the messages, what is owed off the storage.
  Over any run, stopped or not, the two agree to the token: what is not owed, paid out
  or held from the beginning is a fee that a later draw replaced before it was paid.
  What the users brought and what the stake earned stay apart, but for the prizes.
-/
import SefiStakepool.Chain.Backing
import SefiStakepool.Chain.Panics
import SefiStakepool.Chain.Pot

set_option autoImplicit false

namespace SefiStakepool.Chain

open SefiStakepool.Foundation
open SefiStakepool.Contract
open SefiStakepool.Accounting

variable {X : Crates}

/-! ## Observations -/

/-- The tokens a message redeems. -/
def redeemed : CosmosMsg → Nat
  | .execute _ _ (.redeem amount) => amount
  | _ => 0

namespace World

/-- Tokens brought by a deposit that went through. -/
def received (w : World X) (tx : Tx) : Nat :=
  match w.response tx with
  | some _ => w.incoming tx
  | none => 0

/-- Rewards paid by the staking contract. -/
def collected (w : World X) (tx : Tx) : Nat :=
  match w.response tx with
  | some response => if response.messages.any paysRewards then w.reported tx else 0
  | none => 0

/-- Tokens transferred, to anyone and for any reason. -/
def paidOut (w : World X) (tx : Tx) : Nat :=
  match w.response tx with
  | some response => (response.messages.map transferred).sum
  | none => 0

/-- Transferred by a `WithdrawExcess`. -/
def excessPaid (w : World X) (tx : Tx) : Nat :=
  match tx.msg, w.response tx with
  | .withdrawExcess, some response => (response.messages.map transferred).sum
  | _, _ => 0

/-- Redeemed by a `TriggerWithdraw`, of anyone. -/
def released (w : World X) (tx : Tx) : Nat :=
  match tx.msg, w.response tx with
  | .triggerWithdraw _, some response => (response.messages.map redeemed).sum
  | _, _ => 0

/-- Redeemed by a `TriggerWithdraw` of `u`. -/
def unstaked (u : HumanAddr) (w : World X) (tx : Tx) : Nat :=
  if tx.env.message.sender = u then w.released tx else 0

/-- The pot that a draw with a winner hands out. -/
def handedOut (w : World X) (tx : Tx) : Nat := if (w.winner tx).isSome then w.pot tx else 0

/-- The prize of a draw with a winner. -/
def prizePaid (w : World X) (tx : Tx) : Nat :=
  if (w.winner tx).isSome then w.pot tx - w.feeOf (w.pot tx) else 0

/-- Transferred by a `Withdraw`, to anyone. -/
def paidBack (w : World X) (tx : Tx) : Nat :=
  match tx.msg, w.response tx with
  | .withdraw _, some response => (response.messages.map transferred).sum
  | _, _ => 0

/-- The fee that a draw with a winner finds unpaid and replaces. -/
def feeDropped (w : World X) (tx : Tx) : Nat :=
  if (w.winner tx).isSome then w.storage.supplyPool.triggeringCost else 0

end World

/-- What is seen of a transaction flows as it posts. -/
structure Flows (w : World X) (tx : Tx) (p : Posting HumanAddr) : Prop where
  received : w.received tx = p.received
  collected : w.collected tx = p.collected
  paidOut : w.paidOut tx = p.paidOut w.books
  excessPaid : w.excessPaid tx = p.excess w.books
  released : w.released tx = p.released
  unstaked : ∀ u, w.unstaked u tx = p.unstaked u
  handedOut : w.handedOut tx = p.handedOut
  prizePaid : w.prizePaid tx = p.prize
  paidBack : w.paidBack tx = p.paidBack
  feeDropped : w.feeDropped tx = p.feeReplaced w.books

/-- A reverted transaction shows nothing. -/
theorem flows_of_reverted {w : World X} {tx : Tx} (hresponse : w.response tx = none) :
    Flows w tx .idle := by
  constructor <;>
    simp [World.received, World.collected, World.paidOut, World.excessPaid, World.released,
      World.unstaked, World.handedOut, World.prizePaid, World.paidBack, World.feeDropped,
      World.winner, hresponse]

/-- A response tells of a posting: what it emits moves the tokens that the posting moves. -/
structure Tells (w : World X) (tx : Tx) (response : HandleResponse) (p : Posting HumanAddr) :
    Prop where
  received : w.incoming tx = p.received := by rfl
  collected : (if response.messages.any paysRewards then w.reported tx else 0) = p.collected :=
    by rfl
  paidOut : (response.messages.map transferred).sum = p.paidOut w.books := by rfl
  excessPaid : (match tx.msg with
    | .withdrawExcess => (response.messages.map transferred).sum
    | _ => 0) = p.excess w.books := by rfl
  released : (match tx.msg with
    | .triggerWithdraw _ => (response.messages.map redeemed).sum
    | _ => 0) = p.released := by rfl
  unstaked : ∀ u, (if tx.env.message.sender = u then p.released else 0) = p.unstaked u := by
    exact fun _ => ite_self 0
  paidBack : (match tx.msg with
    | .withdraw _ => (response.messages.map transferred).sum
    | _ => 0) = p.paidBack := by rfl

section
variable {w : World X} {tx : Tx} {response : HandleResponse} {p : Posting HumanAddr}

/-- What an answered message shows: of the tokens, what its response tells; of the draw,
whom it names. -/
theorem Tells.flows (h : Tells w tx response p) (hresponse : w.response tx = some response)
    (hwon : w.handedOut tx = p.handedOut ∧ w.prizePaid tx = p.prize ∧
      w.feeDropped tx = p.feeReplaced w.books) : Flows w tx p := by
  have hreleased : w.released tx = p.released := by
    rw [← h.released]
    unfold World.released
    rw [hresponse]
    cases tx.msg <;> rfl
  obtain ⟨hhanded, hprize, hdropped⟩ := hwon
  refine ⟨?_, ?_, ?_, ?_, hreleased, ?_, hhanded, hprize, ?_, hdropped⟩
  · rw [← h.received, World.received, hresponse]
  · rw [← h.collected, World.collected, hresponse]
  · rw [← h.paidOut, World.paidOut, hresponse]
  · rw [← h.excessPaid]
    unfold World.excessPaid
    rw [hresponse]
    cases tx.msg <;> rfl
  · intro u
    rw [← h.unstaked u, World.unstaked, hreleased]
  · rw [← h.paidBack]
    unfold World.paidBack
    rw [hresponse]
    cases tx.msg <;> rfl

/-- A message that draws nobody shows no prize. -/
theorem won_of_no_winner (h : w.winner tx = none) :
    w.handedOut tx = 0 ∧ w.prizePaid tx = 0 ∧ w.feeDropped tx = 0 := by
  simp [World.handedOut, World.prizePaid, World.feeDropped, h]

/-- A message that is answered, but emits nothing and brings nothing, shows nothing. -/
theorem flows_of_quiet (hresponse : w.response tx = some response)
    (hquiet : response.messages = []) (hincoming : w.incoming tx = 0)
    (hp : p = .idle ∨ ∃ current, p = .relocate current) : Flows w tx p := by
  have htransferred : (response.messages.map transferred).sum = 0 := by rw [hquiet]; rfl
  have hredeemed : (response.messages.map redeemed).sum = 0 := by rw [hquiet]; rfl
  have hrewards : (if response.messages.any paysRewards then w.reported tx else 0) = 0 := by
    rw [hquiet]
    rfl
  have htells : Tells w tx response .idle :=
    { received := hincoming
      collected := hrewards
      paidOut := htransferred
      excessPaid := by
        rw [htransferred]
        split <;> rfl
      released := by
        rw [hredeemed]
        split <;> rfl
      paidBack := by
        rw [htransferred]
        split <;> rfl }
  have hflows := htells.flows hresponse (won_of_no_winner (winner_of_quiet hresponse hquiet))
  rcases hp with rfl | ⟨current, rfl⟩
  · exact hflows
  · exact { hflows with }

end

theorem posting_flows (w : World X) (tx : Tx) : Flows w tx (w.posting tx) := by
  cases h : w.exec tx with
  | none =>
      rw [World.posting_of_none h]
      exact flows_of_reverted (World.response_of_none h)
  | some result =>
      obtain ⟨w', response⟩ := result
      have hresponse := World.response_of_exec h
      have heffect := World.exec_effect h
      rw [World.posting_of_exec h]
      generalize w'.storage = s at heffect
      clear h
      obtain ⟨env, msg, querier⟩ := tx
      dsimp only at heffect
      cases heffect with
      | deposit running token decoded minimum query =>
          exact Tells.flows { received := if_pos token } hresponse (won_of_no_winner rfl)
      | unstake running amount_eq positive delegated staked consumed query =>
          subst amount_eq
          exact Tells.flows { unstaked := fun _ => rfl } hresponse (won_of_no_winner rfl)
      | payout open_ amount_eq positive available delegated allowed =>
          rw [World.postingOf_withdraw amount_eq available allowed]
          exact Tells.flows {} hresponse (won_of_no_winner rfl)
      | draw running triggerer ended restart entries drawn query share_eq share_lt found =>
          rename_i winner user lottery data rewards share
          obtain rfl : w.reported ⟨env, .claimRewards, querier⟩ = rewards :=
            World.reported_of_query query
          have hwinner : w.winner ⟨env, .claimRewards, querier⟩ = some winner := by
            rw [World.winner, hresponse]
          have hwhole := Nat.sub_add_cancel (Nat.le_of_lt share_lt)
          rw [share_eq] at hwhole
          refine Tells.flows {} hresponse ?_
          simp only [World.handedOut, World.prizePaid, World.feeDropped, hwinner,
            Option.isSome_some, if_true]
          exact ⟨hwhole.symm, rfl, rfl⟩
      | feePayout | excessPayout | redeemAll | restake =>
          exact Tells.flows {} hresponse (won_of_no_winner rfl)
      | noWinner running triggerer ended restart quiet =>
          refine flows_of_quiet hresponse quiet rfl (Or.inl ?_)
          simp only [World.postingOf, quiet]
      | relocate stopped admin => exact flows_of_quiet hresponse rfl rfl (Or.inr ⟨_, rfl⟩)
      | reconfigure running isAdmin change =>
          rcases change with ⟨_, rfl, _⟩ | ⟨_, rfl, _⟩ | ⟨_, rfl, _⟩ <;>
            exact flows_of_quiet hresponse rfl rfl (Or.inl rfl)
      | viewingKey msg_eq =>
          rcases msg_eq with ⟨_, _, rfl, _⟩ | ⟨_, rfl⟩ <;>
            exact flows_of_quiet hresponse rfl rfl (Or.inl rfl)
      | _ => exact flows_of_quiet hresponse rfl rfl (Or.inl rfl)

/-! ## One transaction -/

section
variable (w : World X) (tx : Tx)

theorem assets_step : (w.step tx).books.assets + 0 + w.paidOut tx =
    w.books.assets + 0 + (w.received tx + w.collected tx) := by
  have hposts := step_posts w tx
  have hflows := posting_flows w tx
  have hbalance := Books.assets_balance hposts.admissible
  rw [hposts.books, hflows.paidOut, hflows.received, hflows.collected]
  omega

theorem owed_step : (w.step tx).books.owed + 0 + (w.paidOut tx + w.feeDropped tx) =
    w.books.owed + 0 + (w.received tx + w.collected tx) := by
  have hposts := step_posts w tx
  have hflows := posting_flows w tx
  have hbalance := Books.owed_balance hposts.admissible
  rw [hposts.books, hflows.paidOut, hflows.feeDropped, hflows.received, hflows.collected]
  omega

theorem rewards_step : (w.step tx).books.restaked + (w.step tx).books.pending + 0 +
      (w.handedOut tx + w.excessPaid tx) =
    w.books.restaked + w.books.pending + 0 + w.collected tx := by
  have hposts := step_posts w tx
  have hflows := posting_flows w tx
  have hbalance := Books.pot_balance hposts.admissible.backed
  rw [hposts.books, hflows.handedOut, hflows.excessPaid, hflows.collected]
  omega

/-- What is owed to the users changes by deposits, prizes and withdrawals. -/
theorem depositors_step : (w.step tx).books.delegated + (w.step tx).books.available + 0 +
      w.paidBack tx =
    w.books.delegated + w.books.available + 0 + (w.received tx + w.prizePaid tx) := by
  have hposts := step_posts w tx
  have hflows := posting_flows w tx
  have hbalance := Books.depositors_balance hposts.admissible.backed
  rw [hposts.books, hflows.paidBack, hflows.received, hflows.prizePaid]
  omega

theorem handedOut_eq : w.handedOut tx = w.prizePaid tx + w.drawShare tx := by
  have hflows := posting_flows w tx
  rw [hflows.handedOut, hflows.prizePaid, (posting_observed w tx).drawShare]
  exact Posting.handedOut_eq _

theorem paidOut_eq : w.paidOut tx = w.paidBack tx + w.feePaid tx + w.excessPaid tx := by
  have hflows := posting_flows w tx
  rw [hflows.paidOut, hflows.paidBack, hflows.excessPaid, (posting_observed w tx).feePaid]
  exact Posting.paidOut_eq _ _

/-- The pot and the fee change by what comes in as rewards, and by prizes, excesses and
fees. -/
theorem earnings_step :
    (w.step tx).books.restaked + (w.step tx).books.pending + (w.step tx).books.fee + 0 +
        (w.prizePaid tx + w.excessPaid tx + w.feePaid tx + w.feeDropped tx) =
      w.books.restaked + w.books.pending + w.books.fee + 0 + w.collected tx := by
  have hrewards := rewards_step w tx
  have hfee := fee_step w tx
  have hdropped : (if (w.winner tx).isSome then w.books.fee else 0) = w.feeDropped tx := rfl
  have hhanded := handedOut_eq w tx
  omega

theorem staked_step : (w.step tx).books.staked + 0 + w.released tx =
    w.books.staked + 0 + w.received tx := by
  have hposts := step_posts w tx
  have hflows := posting_flows w tx
  have hbalance := Books.staked_balance hposts.admissible.backed
  rw [hposts.books, hflows.released, hflows.received]
  omega

/-- What `u` has delegated changes by what comes in for `u` and what `u` takes out. -/
theorem delegated_step (u : HumanAddr) : ((w.step tx).storage.user u).amountDelegated + 0 +
      (w.unstaked u tx + (w.posting tx).unbackedPaid u) =
    (w.storage.user u).amountDelegated + 0 + w.deposited u tx := by
  have hposts := step_posts w tx
  have hseen := posting_observed w tx
  have hflows := posting_flows w tx
  have hbalance := Posting.delegated_balance u _ _ (hposts.covered u)
  rw [← hposts.account u, ← hseen.deposited u, ← hflows.unstaked u] at hbalance
  simp only [account] at hbalance
  omega

/-- What `u` can withdraw changes by what `u` takes out of the stake, wins and is paid. -/
theorem available_step (u : HumanAddr) :
    ((w.step tx).storage.user u).availableTokensForWithdraw + 0 + w.withdrawn u tx =
      (w.storage.user u).availableTokensForWithdraw + 0 +
        (w.unstaked u tx + w.winnings u tx + (w.posting tx).unbackedPaid u) := by
  have huser := user_step u w tx
  have hdelegated := delegated_step w tx u
  have hwon := totalWon_step u w tx
  omega

end

/-! ## The ledger of a run -/

/-- The ledger a pool keeps. -/
def World.ledger (w : World X) : Ledger HumanAddr where
  books := w.books
  accounts u := account (w.storage.user u)

/-- The postings of a run. -/
def World.postings (w : World X) (txs : List Tx) : List (Posting HumanAddr) :=
  collectAlong World.step (fun w tx => [w.posting tx]) w txs

theorem ledger_step (w : World X) (tx : Tx) :
    (w.step tx).ledger = w.ledger.post (w.posting tx) ∧ w.ledger.Admits (w.posting tx) := by
  have hposts := step_posts w tx
  refine ⟨?_, hposts.admissible, hposts.covered⟩
  unfold World.ledger Ledger.post
  rw [hposts.books, funext hposts.account]

/-- After any run, of any pool in any state, the pool keeps the ledger that its postings
make, all of which could be made; and of the messages that its handlers then accept, those
go through whose posting can be made. -/
theorem ledger_of_run (w : World X) (txs : List Tx) :
    (w.run txs).ledger = run Ledger.post w.ledger (w.postings txs) ∧
    Along Ledger.post Ledger.Admits w.ledger (w.postings txs) ∧
    ∀ tx s response, handle tx.querier (w.run txs).storage tx.env tx.msg = .ok (s, response) →
      (((w.run txs).exec tx).isSome ↔
        (w.run txs).ledger.Admits ((w.run txs).postingOf tx response)) := by
  obtain ⟨hledger, hadmits⟩ := view_run_collect ledger_step w txs
  refine ⟨hledger, hadmits, ?_⟩
  intro tx s response hhandle
  constructor
  · intro hsome
    obtain ⟨w', hexec⟩ := World.exec_of_handle hhandle hsome
    rw [← World.posting_of_exec hexec]
    exact (ledger_step _ tx).2
  · intro h
    exact (exec_isSome_iff_funded hhandle).mpr h.admissible.funded

example : testPool.postings
    [.depositAt 10 0 batman 3000000, .at 20 50 batman (.triggerWithdraw (some 1000000)),
      .at 30 0 superman .stopContract, .at 86400 400 triggerer .claimRewards,
      .at 86410 0 batman (.withdraw (some 700000))] =
    [.deposit batman 3000000 0, .unstake batman 1000000 50, .idle, .draw batman 446 4 400,
      .payout batman 700000 0] := by
  decide

/-! ## A run -/

/-- What the pool owes: to its users, to the next winner, and to the admin. -/
def World.owed (w : World X) : Nat :=
  w.totalDelegated + w.totalAvailable + w.storage.supplyPool.totalRewardsRestaked +
    w.storage.supplyPool.pendingStakingRewards + w.storage.supplyPool.triggeringCost

section
variable {w : World X}

theorem owed_of_books (w : World X) : w.books.owed = w.owed := rfl

theorem assets_of_books (w : World X) : w.books.assets = w.held + w.totalStake := by
  rw [← books_stake w]
  rfl

/-- A user's two balances are part of what the pool has. -/
theorem user_lt_of_reachable (hw : w.Reachable) (hfits : w.held + w.totalStake < 2 ^ 128)
    (u : HumanAddr) : (w.storage.user u).availableTokensForWithdraw +
      (w.storage.user u).amountDelegated < 2 ^ 128 := by
  have hsolvent := owed_le_of_reachable hw
  have hdelegated : (w.storage.user u).amountDelegated ≤ w.totalDelegated :=
    le_total_user UserInfo.amountDelegated rfl w.storage u
  have havailable : (w.storage.user u).availableTokensForWithdraw ≤ w.totalAvailable :=
    le_total_user UserInfo.availableTokensForWithdraw rfl w.storage u
  omega

/-- Over any run from a new pool, in any mode: deposits and rewards are owed to somebody,
paid out, or fees that were replaced before they were paid; and what the pool has is what
it owes, what it was given before, and those fees. -/
theorem tokens_accounted (hw : w.Initial) (txs : List Tx) :
    (w.run txs).owed + sumAlong World.step World.paidOut w txs +
        sumAlong World.step World.feeDropped w txs =
      sumAlong World.step World.received w txs +
        sumAlong World.step World.collected w txs ∧
    (w.run txs).held + (w.run txs).totalStake =
      (w.run txs).owed + w.held + sumAlong World.step World.feeDropped w txs := by
  have hassets := run_balance (fun w : World X => w.books.assets) (fun _ => 0)
    (fun w tx => w.received tx + w.collected tx) World.paidOut assets_step w txs
  have howed := run_balance (fun w : World X => w.books.owed) (fun _ => 0)
    (fun w tx => w.received tx + w.collected tx)
    (fun w tx => w.paidOut tx + w.feeDropped tx) owed_step w txs
  simp only [sumAlong_add, assets_of_books, owed_of_books] at hassets howed
  have hbooks := books_of_initial hw
  have hstart : w.owed = 0 := by
    rw [← owed_of_books, hbooks]
    rfl
  have hheld : w.held + w.totalStake = w.held := by
    rw [← assets_of_books, hbooks]
    rfl
  unfold World.run
  omega

/-- Over any run from a new pool, in any mode and whoever sends what, the pool keeps two
funds.  Deposits and prizes come into the one, and only withdrawals of the users are paid
out of it; rewards come into the other, and prizes, fees and excesses are all that is taken
out of it; and nothing else is paid to anyone. -/
theorem funds_separate (hw : w.Initial) (txs : List Tx) :
    (w.run txs).totalDelegated + (w.run txs).totalAvailable +
        sumAlong World.step World.paidBack w txs =
      sumAlong World.step World.received w txs + sumAlong World.step World.prizePaid w txs ∧
    (w.run txs).storage.supplyPool.totalRewardsRestaked +
        (w.run txs).storage.supplyPool.pendingStakingRewards +
        (w.run txs).storage.supplyPool.triggeringCost +
        (sumAlong World.step World.prizePaid w txs + sumAlong World.step World.excessPaid w txs +
          sumAlong World.step World.feePaid w txs + sumAlong World.step World.feeDropped w txs) =
      sumAlong World.step World.collected w txs ∧
    sumAlong World.step World.paidOut w txs =
      sumAlong World.step World.paidBack w txs + sumAlong World.step World.feePaid w txs +
        sumAlong World.step World.excessPaid w txs := by
  have hdepositors := run_balance
    (fun w : World X => w.books.delegated + w.books.available) (fun _ => 0)
    (fun w tx => w.received tx + w.prizePaid tx) World.paidBack depositors_step w txs
  have hearnings := run_balance
    (fun w : World X => w.books.restaked + w.books.pending + w.books.fee) (fun _ => 0)
    World.collected
    (fun w tx => w.prizePaid tx + w.excessPaid tx + w.feePaid tx + w.feeDropped tx)
    earnings_step w txs
  have hpaid : (World.paidOut : World X → Tx → Nat) =
      fun w tx => w.paidBack tx + w.feePaid tx + w.excessPaid tx :=
    funext fun w => funext fun tx => paidOut_eq w tx
  simp only [sumAlong_add] at hdepositors hearnings
  have hbooks := books_of_initial hw
  have hstart : w.books.delegated + w.books.available = 0 := by simp [hbooks]
  have hstart' : w.books.restaked + w.books.pending + w.books.fee = 0 := by simp [hbooks]
  have hend : (run World.step w txs).books.delegated + (run World.step w txs).books.available =
    (w.run txs).totalDelegated + (w.run txs).totalAvailable := rfl
  have hend' : (run World.step w txs).books.restaked + (run World.step w txs).books.pending +
      (run World.step w txs).books.fee = (w.run txs).storage.supplyPool.totalRewardsRestaked +
    (w.run txs).storage.supplyPool.pendingStakingRewards +
      (w.run txs).storage.supplyPool.triggeringCost := rfl
  refine ⟨by omega, by omega, ?_⟩
  rw [hpaid, sumAlong_add, sumAlong_add]

/-- Every reward the staking contract ever paid was handed out by a draw, paid out as
excess, or is in the pot; and with what the staking contract reports then, that is what
`TotalRewards` answers. -/
theorem rewards_accounted (hw : w.Initial) (txs : List Tx) :
    (w.run txs).storage.supplyPool.totalRewardsRestaked +
        (w.run txs).storage.supplyPool.pendingStakingRewards +
        sumAlong World.step World.handedOut w txs +
        sumAlong World.step World.excessPaid w txs =
      sumAlong World.step World.collected w txs ∧
    ∀ (querier : Querier) height rewards, querier (w.run txs).storage.config.stakingContract
        (.rewards (w.run txs).storage.config.ownAddr STAKING_VK (asU64 height)) =
          .ok ⟨⟨rewards⟩⟩ →
      (w.run txs).held + (w.run txs).totalStake + rewards < 2 ^ 128 →
      ∃ total, query querier (w.run txs).storage (.totalRewards height) =
          .ok (.totalRewards total) ∧
        total + sumAlong World.step World.handedOut w txs +
            sumAlong World.step World.excessPaid w txs =
          sumAlong World.step World.collected w txs + rewards := by
  have hpot := run_balance (fun w : World X => w.books.restaked + w.books.pending)
    (fun _ => 0) World.collected (fun w tx => w.handedOut tx + w.excessPaid tx)
    rewards_step w txs
  rw [sumAlong_add] at hpot
  have hbooks := books_of_initial hw
  have hstart : w.books.restaked + w.books.pending = 0 := by simp [hbooks]
  have hend : (run World.step w txs).books.restaked + (run World.step w txs).books.pending =
    (w.run txs).storage.supplyPool.totalRewardsRestaked +
      (w.run txs).storage.supplyPool.pendingStakingRewards := rfl
  refine ⟨by omega, ?_⟩
  intro querier height rewards hreports hfits
  have howed := owed_le_of_reachable (w := w.run txs) ⟨w, txs, hw, rfl⟩
  refine ⟨rewards + (w.run txs).storage.supplyPool.totalRewardsRestaked +
    (w.run txs).storage.supplyPool.pendingStakingRewards, ?_, by omega⟩
  show queryTotalRewards querier (w.run txs).storage height = _
  simp only [queryTotalRewards, bind_eq_ok, hreports, liftStd_eq_ok, addU_eq_ok]
  exact ⟨_, rfl, _, ⟨by dsimp only; omega, rfl⟩, _, ⟨by dsimp only; omega, rfl⟩, rfl⟩

/-- Two draws, the fee of the first one unpaid, and an excess withdrawal of a stopped
pool. -/
def flowsRun : List Tx :=
  [.depositAt 10 0 batman 3000000, .at 86400 1000 triggerer .claimRewards,
    .at 172800 1000 triggerer .claimRewards, .depositAt 172810 40 superman 1000000,
    .at 172820 0 admin .stopContract, .at 172830 7 admin .emergencyRedeemFromStaking,
    .at 172840 0 admin .withdrawExcess, .at 172850 0 batman (.withdraw (some 500))]

theorem tokens_accounted_flowsRun :
    (testPool.run flowsRun).held + (testPool.run flowsRun).totalStake =
      (testPool.run flowsRun).owed + 10 :=
  (tokens_accounted testPool_initial flowsRun).2.trans (by decide)

/-- What was collected there became prizes and an excess, but for two fees of ten. -/
theorem funds_separate_flowsRun :
    sumAlong World.step World.prizePaid testPool flowsRun +
      sumAlong World.step World.paidOut testPool flowsRun + 20 = 2047 := by
  obtain ⟨_, hearnings, hpaid⟩ := funds_separate testPool_initial flowsRun
  have hcollected : sumAlong World.step World.collected testPool flowsRun = 2047 := by decide
  have hback : sumAlong World.step World.paidBack testPool flowsRun = 0 := by decide
  have hleft : (testPool.run flowsRun).storage.supplyPool.totalRewardsRestaked +
    (testPool.run flowsRun).storage.supplyPool.pendingStakingRewards +
    (testPool.run flowsRun).storage.supplyPool.triggeringCost +
    sumAlong World.step World.feeDropped testPool flowsRun = 20 := by decide
  omega

theorem rewards_accounted_flowsRun :
    sumAlong World.step World.handedOut testPool flowsRun +
      sumAlong World.step World.excessPaid testPool flowsRun = 2047 ∧
    query (fun _ _ => .ok ⟨⟨11⟩⟩) (testPool.run flowsRun).storage (.totalRewards 20) =
      .ok (.totalRewards 11) := by
  obtain ⟨hcollects, htold⟩ := rewards_accounted testPool_initial flowsRun
  have hpot : (testPool.run flowsRun).storage.supplyPool.totalRewardsRestaked +
    (testPool.run flowsRun).storage.supplyPool.pendingStakingRewards = 0 := by decide
  have hcollected : sumAlong World.step World.collected testPool flowsRun = 2047 := by decide
  obtain ⟨total, hquery, htotal⟩ := htold (fun _ _ => .ok ⟨⟨11⟩⟩) 20 11 rfl (by decide)
  obtain rfl : total = 11 := by omega
  exact ⟨by omega, hquery⟩

/-! ## What the queries tell of it -/

theorem unbackedPaid_accounted {txs : List Tx}
    (htakes : Along World.step (fun w tx => ¬ w.TakesFromStake tx) w txs) (u : HumanAddr) :
    sumAlong World.step (fun w tx => (w.posting tx).unbackedPaid u) w txs = 0 :=
  sumAlong_eq_zero_iff.mpr (htakes.imp fun w tx h => (unbackedPaid_eq_zero_iff w tx).mpr h u)

/-- What `u` has delegated is what came in for `u` and was not unstaked, when nothing was
taken out of the stake. -/
theorem delegated_accounted (hw : w.Initial) {txs : List Tx}
    (htakes : Along World.step (fun w tx => ¬ w.TakesFromStake tx) w txs) (u : HumanAddr) :
    ((w.run txs).storage.user u).amountDelegated + sumAlong World.step (World.unstaked u) w txs =
      sumAlong World.step (World.deposited u) w txs := by
  have hbalance := run_balance (fun w : World X => (w.storage.user u).amountDelegated)
    (fun _ => 0) (World.deposited u)
    (fun w tx => w.unstaked u tx + (w.posting tx).unbackedPaid u)
    (fun w tx => delegated_step w tx u) w txs
  have hstart : (w.storage.user u).amountDelegated = 0 := by
    rw [user_of_initial hw]
    rfl
  rw [sumAlong_add, unbackedPaid_accounted htakes] at hbalance
  unfold World.run
  omega

/-- What `u` can withdraw is what was unstaked and won and not withdrawn, when nothing was
taken out of the stake. -/
theorem available_accounted (hw : w.Initial) {txs : List Tx}
    (htakes : Along World.step (fun w tx => ¬ w.TakesFromStake tx) w txs) (u : HumanAddr) :
    ((w.run txs).storage.user u).availableTokensForWithdraw +
        sumAlong World.step (World.withdrawn u) w txs =
      sumAlong World.step (World.unstaked u) w txs +
        sumAlong World.step (World.winnings u) w txs := by
  have hbalance := run_balance
    (fun w : World X => (w.storage.user u).availableTokensForWithdraw) (fun _ => 0)
    (fun w tx => w.unstaked u tx + w.winnings u tx + (w.posting tx).unbackedPaid u)
    (World.withdrawn u) (fun w tx => available_step w tx u) w txs
  have hstart : (w.storage.user u).availableTokensForWithdraw = 0 := by
    rw [user_of_initial hw]
    rfl
  rw [sumAlong_add, sumAlong_add, unbackedPaid_accounted htakes] at hbalance
  unfold World.run
  omega

/-- After any run from a new pool, `TotalDeposits` answers all deposits less all that was
unstaked.  When no withdrawal was taken out of the stake, a user with a key is answered
the own deposits less the own unstakings, and for withdrawal what was unstaked and won
less what was withdrawn; all deposits count for that while withdrawals from the stopped
contract are allowed. -/
theorem balances_told (hw : w.Initial) (txs : List Tx) (querier : Querier) :
    (∃ staked, query querier (w.run txs).storage .totalDeposits = .ok (.totalDeposits staked) ∧
      staked + sumAlong World.step World.released w txs =
        sumAlong World.step World.received w txs) ∧
    (Along World.step (fun w tx => ¬ w.TakesFromStake tx) w txs →
      (w.run txs).held + (w.run txs).totalStake < 2 ^ 128 →
      ∀ u key, Opens (w.run txs).storage u key → ∃ balance avail,
        query querier (w.run txs).storage (.balance u key) = .ok (.balance balance) ∧
        balance + sumAlong World.step (World.unstaked u) w txs =
          sumAlong World.step (World.deposited u) w txs ∧
        query querier (w.run txs).storage (.availableTokensForWithdrawl u key) =
          .ok (.availableTokensForWithdrawl avail) ∧
        avail + sumAlong World.step (World.withdrawn u) w txs =
          sumAlong World.step (World.winnings u) w txs +
            if (w.run txs).storage.config.isStoppedCanWithdraw = true then
              sumAlong World.step (World.deposited u) w txs
            else sumAlong World.step (World.unstaked u) w txs) := by
  refine ⟨⟨_, rfl, ?_⟩, ?_⟩
  · have hstaked := run_balance (fun w : World X => w.books.staked) (fun _ => 0)
      World.received World.released staked_step w txs
    have hstart : w.books.staked = 0 := by simp [books_of_initial hw]
    have hend : (run World.step w txs).books.staked =
      (w.run txs).storage.supplyPool.totalTokensStaked := rfl
    omega
  · intro htakes hfits u key hopens
    have hliquid := available_accounted hw htakes u
    have hdelegated := delegated_accounted hw htakes u
    have havail : ∃ avail, queryAvailableFunds (w.run txs).storage u =
        .ok (.availableTokensForWithdrawl avail) ∧
        avail = ((w.run txs).storage.user u).availableTokensForWithdraw +
          if (w.run txs).storage.config.isStoppedCanWithdraw = true then
            ((w.run txs).storage.user u).amountDelegated else 0 := by
      have hsum := user_lt_of_reachable ⟨w, txs, hw, rfl⟩ hfits u
      refine ⟨_, queryAvailableFunds_eq_ok.mpr ?_, rfl⟩
      split
      · exact ⟨hsum, rfl⟩
      · rfl
    obtain ⟨avail, hanswer, rfl⟩ := havail
    refine ⟨_, _, query_of_key rfl hopens, hdelegated,
      (query_of_key rfl hopens).trans hanswer, ?_⟩
    split <;> omega

/-- A run in which Batman wins, unstakes, and is paid. -/
def toldRun : List Tx :=
  keyedRun ++ [.at 86400 1000 triggerer .claimRewards,
    .at 86410 0 batman (.triggerWithdraw (some 2000000)), .at 86420 0 batman (.withdraw (some 500))]

theorem balances_told_toldRun :
    ∃ balance avail,
      query (fun _ _ => .ok ⟨⟨0⟩⟩) (testPool.run toldRun).storage (.balance batman "key") =
        .ok (.balance balance) ∧ balance + 2000000 = 3000000 ∧
      query (fun _ _ => .ok ⟨⟨0⟩⟩) (testPool.run toldRun).storage
        (.availableTokensForWithdrawl batman "key") =
          .ok (.availableTokensForWithdrawl avail) ∧ avail + 500 = 990 + 2000000 := by
  have h := (balances_told testPool_initial toldRun fun _ _ => .ok ⟨⟨0⟩⟩).2 (by decide)
    (by decide) batman "key" rfl
  have hunstaked : sumAlong World.step (World.unstaked batman) testPool toldRun = 2000000 := by
    decide
  have hdeposited : sumAlong World.step (World.deposited batman) testPool toldRun = 3000000 := by
    decide
  have hwithdrawn : sumAlong World.step (World.withdrawn batman) testPool toldRun = 500 := by
    decide
  have hwinnings : sumAlong World.step (World.winnings batman) testPool toldRun = 990 := by
    decide
  rw [hunstaked, hdeposited, hwithdrawn, hwinnings] at h
  exact h

end

end SefiStakepool.Chain
