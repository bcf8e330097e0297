/-
  Chain/Ledger.lean --- what can be seen of the money of one user and of the fee.

  The amounts here are read off successful transactions and the messages they
  emit, not off the storage.  Over any run they add up: a user's record is what
  came in for the user less what was paid out, and the fees of the draws are paid
  or still set aside --- unless a draw finds an unpaid fee, which it overwrites.
-/
import SefiStakepool.Chain.Refinement
import SefiStakepool.Chain.Reference

set_option autoImplicit false

namespace SefiStakepool.Chain

open SefiStakepool.Foundation
open SefiStakepool.Contract
open SefiStakepool.Accounting

variable {X : Crates}

/-! ## Observations -/

/-- The tokens a message transfers to `u`. -/
def transferTo (u : HumanAddr) : CosmosMsg → Nat
  | .transfer recipient amount _ => if recipient = u then amount else 0
  | _ => 0

/-- The tokens a message transfers to anyone. -/
def transferred : CosmosMsg → Nat
  | .transfer _ amount _ => amount
  | _ => 0

namespace World

/-- The response of a transaction that went through. -/
def response (w : World X) (tx : Tx) : Option HandleResponse := (w.exec tx).map Prod.snd

theorem response_of_exec {w w' : World X} {tx : Tx} {response : HandleResponse}
    (h : w.exec tx = some (w', response)) : w.response tx = some response := by
  rw [World.response, h, Option.map_some]

theorem response_of_none {w : World X} {tx : Tx} (h : w.exec tx = none) :
    w.response tx = none := by
  rw [World.response, h, Option.map_none]

/-- Deposited for `u`. -/
def deposited (u : HumanAddr) (w : World X) (tx : Tx) : Nat :=
  match tx.msg, w.response tx with
  | .receive _ from_ amount _, some _ => if from_ = u then amount else 0
  | _, _ => 0

/-- Transferred to `u` by a `Withdraw`. -/
def withdrawn (u : HumanAddr) (w : World X) (tx : Tx) : Nat :=
  match tx.msg, w.response tx with
  | .withdraw _, some response => (response.messages.map (transferTo u)).sum
  | _, _ => 0

/-- Transferred by a `TriggeringCostWithdraw`. -/
def feePaid (w : World X) (tx : Tx) : Nat :=
  match tx.msg, w.response tx with
  | .triggeringCostWithdraw, some response => (response.messages.map transferred).sum
  | _, _ => 0

/-- The winner of a draw; a draw without one redeems nothing. -/
def winner (w : World X) (tx : Tx) : Option HumanAddr :=
  match tx.msg, w.response tx with
  | .claimRewards, some { messages := _ :: _, data := .claimRewards _ winner } => some winner
  | _, _ => none

/-- The pot of a draw. -/
def pot (w : World X) (tx : Tx) : Nat := w.storage.supplyPool.pot (w.reported tx)

/-- The fee taken out of the pot of a draw that has a winner. -/
def drawShare (w : World X) (tx : Tx) : Nat :=
  if (w.winner tx).isSome then w.feeOf (w.pot tx) else 0

/-- What `u` wins: the pot less the fee. -/
def winnings (u : HumanAddr) (w : World X) (tx : Tx) : Nat :=
  if w.winner tx = some u then w.pot tx - w.feeOf (w.pot tx) else 0

/-- The prize, at the rewards the handler works with. -/
theorem winnings_of_query {w : World X} {tx : Tx} {u : HumanAddr} {rewards : Nat}
    (hwinner : w.winner tx = some u)
    (hquery : queryPendingRewards tx.querier tx.env w.storage.config = .ok ⟨⟨rewards⟩⟩) :
    w.winnings u tx = w.storage.supplyPool.pot rewards -
      w.feeOf (w.storage.supplyPool.pot rewards) := by
  rw [winnings, if_pos hwinner, pot, reported_of_query hquery]

end World

/-- What is seen of a transaction is what it posts. -/
structure Observed (w : World X) (tx : Tx) (p : Posting HumanAddr) : Prop where
  deposited : ∀ u, w.deposited u tx = p.paidIn u
  withdrawn : ∀ u, w.withdrawn u tx = p.liquidPaid u + p.unbackedPaid u
  winnings : ∀ u, w.winnings u tx = p.won u
  drawShare : w.drawShare tx = p.share
  feePaid : w.feePaid tx = p.feePaid w.books
  feeReplaced : (if (w.winner tx).isSome then w.books.fee else 0) = p.feeReplaced w.books

/-- A reverted transaction shows nothing. -/
theorem observed_of_reverted {w : World X} {tx : Tx} (hresponse : w.response tx = none) :
    Observed w tx .idle := by
  constructor <;>
    simp [World.deposited, World.withdrawn, World.winnings, World.drawShare, World.feePaid,
      World.winner, hresponse]

/-- A response that draws nobody tells of a posting what a user and the admin see of it. -/
structure TellsUsers (w : World X) (tx : Tx) (response : HandleResponse)
    (p : Posting HumanAddr) : Prop where
  deposited : ∀ u, (match tx.msg with
    | .receive _ from_ amount _ => if from_ = u then amount else 0
    | _ => 0) = p.paidIn u := by exact fun _ => rfl
  withdrawn : ∀ u, (match tx.msg with
    | .withdraw _ => (response.messages.map (transferTo u)).sum
    | _ => 0) = p.liquidPaid u + p.unbackedPaid u := by exact fun _ => rfl
  feePaid : (match tx.msg with
    | .triggeringCostWithdraw => (response.messages.map transferred).sum
    | _ => 0) = p.feePaid w.books := by rfl
  won : ∀ u, p.won u = 0 := by exact fun _ => rfl
  share : p.share = 0 := by rfl
  feeReplaced : p.feeReplaced w.books = 0 := by rfl

section
variable {w : World X} {tx : Tx} {response : HandleResponse} {p : Posting HumanAddr}

theorem TellsUsers.observed (h : TellsUsers w tx response p)
    (hresponse : w.response tx = some response) (hwinner : w.winner tx = none) :
    Observed w tx p := by
  refine ⟨?_, ?_, ?_, ?_, ?_, ?_⟩
  · intro u
    rw [← h.deposited u]
    unfold World.deposited
    rw [hresponse]
    cases tx.msg <;> rfl
  · intro u
    rw [← h.withdrawn u]
    unfold World.withdrawn
    rw [hresponse]
    cases tx.msg <;> rfl
  · intro u
    rw [h.won u, World.winnings, hwinner]
    rfl
  · rw [h.share, World.drawShare, hwinner]
    rfl
  · rw [← h.feePaid]
    unfold World.feePaid
    rw [hresponse]
    cases tx.msg <;> rfl
  · rw [h.feeReplaced, hwinner]
    rfl

/-- Where nothing is emitted, nobody is drawn. -/
theorem winner_of_quiet (hresponse : w.response tx = some response)
    (hquiet : response.messages = []) : w.winner tx = none := by
  obtain ⟨messages, data⟩ := response
  dsimp only at hquiet
  subst hquiet
  unfold World.winner
  rw [hresponse]
  split
  · rename_i hsome
    cases hsome
  · rfl

end

theorem posting_observed (w : World X) (tx : Tx) : Observed w tx (w.posting tx) := by
  cases h : w.exec tx with
  | none =>
      rw [World.posting_of_none h]
      exact observed_of_reverted (World.response_of_none h)
  | some result =>
      obtain ⟨w', response⟩ := result
      have hresponse := World.response_of_exec h
      have heffect := World.exec_effect h
      rw [World.posting_of_exec h]
      generalize w'.storage = s at heffect
      clear h
      obtain ⟨env, msg, querier⟩ := tx
      dsimp only at heffect
      cases heffect with
      | payout open_ amount_eq positive available delegated allowed =>
          rw [World.postingOf_withdraw amount_eq available allowed]
          refine TellsUsers.observed { withdrawn := ?_ } hresponse rfl
          intro u
          simp only [transferTo, List.map_cons, List.map_nil, List.sum_cons, List.sum_nil,
            Posting.liquidPaid, Posting.unbackedPaid]
          split <;> rfl
      | draw running triggerer ended restart entries drawn query share_eq share_lt found =>
          constructor <;>
            simp [World.deposited, World.withdrawn, World.winnings, World.drawShare,
              World.feePaid, World.winner, World.pot, hresponse, World.postingOf]
      | noWinner running triggerer ended restart quiet =>
          simp only [World.postingOf, quiet]
          exact TellsUsers.observed {} hresponse (winner_of_quiet hresponse quiet)
      | reconfigure running isAdmin change =>
          rcases change with ⟨_, rfl, _⟩ | ⟨_, rfl, _⟩ | ⟨_, rfl, _⟩ <;>
            exact TellsUsers.observed {} hresponse rfl
      | viewingKey msg_eq =>
          rcases msg_eq with ⟨_, _, rfl, _⟩ | ⟨_, rfl⟩ <;>
            exact TellsUsers.observed {} hresponse rfl
      | _ => exact TellsUsers.observed {} hresponse rfl

/-! ## One user -/

/-- One transaction: the balances and what is paid out grow by what comes in and
what is won. -/
theorem user_step (u : HumanAddr) (w : World X) (tx : Tx) :
    (((w.step tx).storage.user u).amountDelegated +
        ((w.step tx).storage.user u).availableTokensForWithdraw) +
        (w.storage.user u).totalWon + w.withdrawn u tx =
      ((w.storage.user u).amountDelegated +
        (w.storage.user u).availableTokensForWithdraw) +
        ((w.step tx).storage.user u).totalWon + w.deposited u tx := by
  have hposts := step_posts w tx
  have hseen := posting_observed w tx
  have hbalance := Posting.account_balance u _ _ (hposts.covered u)
  rw [← hposts.account u, ← hseen.withdrawn u, ← hseen.deposited u] at hbalance
  exact hbalance

/-- One transaction adds to the record what is won in it. -/
theorem totalWon_step (u : HumanAddr) (w : World X) (tx : Tx) :
    ((w.step tx).storage.user u).totalWon =
      (w.storage.user u).totalWon + w.winnings u tx := by
  have haccount := congrArg Account.won ((step_posts w tx).account u)
  rw [(posting_observed w tx).winnings u]
  exact haccount

/-- Over any run from a new pool, what was deposited for a user and what the user
won is what the record holds and what was paid out; and what the user won are
the pots, less the fee, of exactly the draws the user won. -/
theorem user_ledger {w : World X} (hw : w.Initial) (txs : List Tx) (u : HumanAddr) :
    sumAlong World.step (World.deposited u) w txs +
        ((w.run txs).storage.user u).totalWon =
      ((w.run txs).storage.user u).amountDelegated +
        ((w.run txs).storage.user u).availableTokensForWithdraw +
        sumAlong World.step (World.withdrawn u) w txs ∧
    ((w.run txs).storage.user u).totalWon =
      sumAlong World.step (World.winnings u) w txs := by
  have huser := user_of_initial hw u
  have hdelegated : (w.storage.user u).amountDelegated = 0 := by rw [huser]; rfl
  have havailable : (w.storage.user u).availableTokensForWithdraw = 0 := by rw [huser]; rfl
  have hwon : (w.storage.user u).totalWon = 0 := by rw [huser]; rfl
  have hbalance := run_balance
    (fun w : World X => (w.storage.user u).amountDelegated +
      (w.storage.user u).availableTokensForWithdraw)
    (fun w : World X => (w.storage.user u).totalWon)
    (World.deposited u) (World.withdrawn u) (user_step u) w txs
  have hwins := run_balance
    (fun w : World X => (w.storage.user u).totalWon) (fun _ => 0)
    (World.winnings u) (fun _ _ => 0) (totalWon_step u) w txs
  unfold World.run
  constructor
  · omega
  · simpa [hwon] using hwins

/-- A deposit, an unstaking, a draw and withdrawals in both modes. -/
def ledgerRun : List Tx :=
  [.depositAt 10 0 batman 3000000, .at 20 50 batman (.triggerWithdraw (some 1000000)),
    .at 86400 400 triggerer .claimRewards, .at 86500 0 batman (.withdraw (some 700000)),
    .at 86600 0 admin .stopContract, .at 86610 9 admin .emergencyRedeemFromStaking,
    .at 86620 0 admin .allowWithdrawWhenStopped,
    .at 86630 0 batman (.withdraw (some 1300000))]

theorem user_ledger_ledgerRun :
    sumAlong World.step (World.deposited batman) testPool ledgerRun +
        ((testPool.run ledgerRun).storage.user batman).totalWon = 3000446 ∧
    ((testPool.run ledgerRun).storage.user batman).totalWon =
      sumAlong World.step (World.winnings batman) testPool ledgerRun := by
  obtain ⟨hbalance, hwins⟩ := user_ledger testPool_initial ledgerRun batman
  exact ⟨hbalance.trans (by decide), hwins⟩

/-! ## The fee -/

/-- A draw with a winner, and what it finds of an earlier fee is not paid yet. -/
def World.DropsFee (w : World X) (tx : Tx) : Prop :=
  (w.winner tx).isSome ∧ w.storage.supplyPool.triggeringCost ≠ 0

instance (w : World X) (tx : Tx) : Decidable (w.DropsFee tx) :=
  inferInstanceAs (Decidable (_ ∧ _))

/-- One transaction: the fee grows by the share of a draw, and shrinks by what is
paid and by what a draw replaces. -/
theorem fee_step (w : World X) (tx : Tx) :
    (w.step tx).books.fee + 0 +
        ((if (w.winner tx).isSome then w.books.fee else 0) + w.feePaid tx) =
      w.books.fee + 0 + w.drawShare tx := by
  have hseen := posting_observed w tx
  rw [(step_posts w tx).books, hseen.feeReplaced, hseen.feePaid, hseen.drawShare]
  exact Posting.fee_balance _ _

/-- The shares of all draws are paid or still set aside exactly when no draw ever
found an unpaid fee. -/
theorem shares_eq_fees_iff {w : World X} (hw : w.Initial) (txs : List Tx) :
    sumAlong World.step World.drawShare w txs =
        sumAlong World.step World.feePaid w txs +
          (w.run txs).storage.supplyPool.triggeringCost ↔
      Along World.step (fun w tx => ¬ w.DropsFee tx) w txs := by
  have hbalance := run_balance (fun w : World X => w.books.fee) (fun _ => 0)
    World.drawShare _ fee_step w txs
  rw [sumAlong_add] at hbalance
  have hzero : w.books.fee = 0 := by rw [books_of_initial hw]
  have hfee : (run World.step w txs).books.fee =
    (w.run txs).storage.supplyPool.triggeringCost := rfl
  have hlost : sumAlong World.step
      (fun w tx => if (w.winner tx).isSome then w.books.fee else 0) w txs = 0 ↔
      Along World.step (fun w tx => ¬ w.DropsFee tx) w txs := by
    rw [sumAlong_eq_zero_iff]
    refine along_congr (I := fun _ => True) (fun _ _ _ => trivial) ?_ trivial txs
    intro w tx _
    simp [World.DropsFee, World.books, booksOver]
  rw [← hlost]
  omega

/-- Two draws with a payout between them. -/
def paidFeeRun : List Tx :=
  [.depositAt 10 0 batman 3000000, .at 86400 1000 triggerer .claimRewards,
    .at 86500 0 admin .triggeringCostWithdraw, .at 172800 1000 triggerer .claimRewards]

theorem shares_eq_fees_iff_paidFeeRun :
    sumAlong World.step World.drawShare testPool paidFeeRun = 20 :=
  ((shares_eq_fees_iff testPool_initial paidFeeRun).mpr (by decide)).trans (by decide)

/-- Two draws without a payout: the second share, 10, takes the place of the
first, 10, which is never paid. -/
def unpaidFeeRun : List Tx :=
  [.depositAt 10 0 batman 3000000, .at 86400 1000 triggerer .claimRewards,
    .at 172800 1000 triggerer .claimRewards]

theorem shares_ne_fees_unpaidFeeRun :
    testPool.Initial ∧
      sumAlong World.step World.drawShare testPool unpaidFeeRun = 20 ∧
      sumAlong World.step World.feePaid testPool unpaidFeeRun +
        (testPool.run unpaidFeeRun).storage.supplyPool.triggeringCost = 10 :=
  ⟨testPool_initial, by decide, by decide⟩

end SefiStakepool.Chain
