/-
  Accounting.lean --- what the pool is for, as bookkeeping.

  Depositors lend tokens to a pool that stakes them; the rewards of the stake
  are collected into a pot that a draw pays to one of them, less a fee.  The
  books hold what the pool owes (the depositors' accounts, the pot and the fee)
  and what covers it (tokens held and tokens staked).  A posting is one thing
  that can happen to them.  Nothing here mentions the contract.
-/
import Mathlib.Tactic.Common

set_option autoImplicit false

namespace SefiStakepool.Accounting

variable {U : Type}

/-- A depositor's account. -/
structure Account where
  /-- lent to the pool and staked -/
  delegated : Nat
  /-- payable on demand -/
  available : Nat
  /-- won so far -/
  won : Nat
  deriving DecidableEq, Repr

/-- The books of the pool. -/
@[ext] structure Books where
  /-- the delegated amounts of all accounts together -/
  delegated : Nat
  /-- the available amounts of all accounts together -/
  available : Nat
  /-- what the pool believes its depositors have staked -/
  staked : Nat
  /-- the part of the pot that was staked again -/
  restaked : Nat
  /-- the part of the pot that is not staked -/
  pending : Nat
  /-- the fee that was set aside and not paid yet -/
  fee : Nat
  /-- tokens in hand -/
  held : Nat
  /-- tokens staked where the pool stakes now -/
  current : Nat
  /-- tokens staked anywhere else -/
  elsewhere : Nat
  deriving DecidableEq, Repr

/-- What can happen to the books. -/
inductive Posting (U : Type) where
  /-- a deposit, staked together with the pending part of the pot -/
  | deposit (user : U) (amount rewards : Nat)
  /-- a user takes tokens out of the stake -/
  | unstake (user : U) (amount rewards : Nat)
  /-- tokens are paid to a user, `unbacked` of them out of the delegated amount -/
  | payout (user : U) (liquid unbacked : Nat)
  /-- the pot is split into a prize and a fee -/
  | draw (user : U) (prize share rewards : Nat)
  /-- the fee is paid out -/
  | feePayout
  /-- the pot is paid out -/
  | excessPayout
  /-- everything the pool believes staked is taken out of the stake -/
  | redeemAll (rewards : Nat)
  /-- everything the pool believes staked, and the pending pot, is staked again -/
  | restake (rewards : Nat)
  /-- the pool stakes somewhere else from now on, where `current` is staked already -/
  | relocate (current : Nat)
  /-- nothing that the books record -/
  | idle
  deriving DecidableEq, Repr

namespace Posting

/-- The accounts and the counters cover what the posting takes out of them. -/
def Backed (b : Books) : Posting U → Prop
  | unstake _ amount _ => amount ≤ b.delegated ∧ amount ≤ b.staked
  | payout _ liquid unbacked => liquid ≤ b.available ∧ unbacked ≤ b.delegated
  | draw _ prize share rewards => prize + share = b.restaked + b.pending + rewards
  | relocate current => current ≤ b.current + b.elsewhere
  | _ => True

/-- The tokens the posting moves are there. -/
def Funded (b : Books) : Posting U → Prop
  | deposit _ _ _ => b.pending ≤ b.held
  | unstake _ amount _ => amount ≤ b.current
  | payout _ liquid unbacked => liquid + unbacked ≤ b.held
  | draw _ _ _ _ => b.restaked ≤ b.current
  | feePayout => b.fee ≤ b.held
  | excessPayout => b.pending + b.restaked ≤ b.held
  | redeemAll _ => b.restaked + b.staked ≤ b.current
  | restake _ => b.staked + b.restaked + b.pending ≤ b.held
  | relocate _ | idle => True

/-- The posting can be made. -/
structure Admissible (b : Books) (p : Posting U) : Prop where
  backed : p.Backed b
  funded : p.Funded b

/-- The books after the posting. -/
def apply (b : Books) : Posting U → Books
  | deposit _ amount rewards => { b with
      delegated := b.delegated + amount
      staked := b.staked + amount
      restaked := b.restaked + b.pending
      pending := rewards
      held := b.held - b.pending + rewards
      current := b.current + (amount + b.pending) }
  | unstake _ amount rewards => { b with
      delegated := b.delegated - amount
      available := b.available + amount
      staked := b.staked - amount
      pending := b.pending + rewards
      held := b.held + amount + rewards
      current := b.current - amount }
  | payout _ liquid unbacked => { b with
      delegated := b.delegated - unbacked
      available := b.available - liquid
      held := b.held - (liquid + unbacked) }
  | draw _ prize share rewards => { b with
      available := b.available + prize
      restaked := 0
      pending := 0
      fee := share
      held := b.held + b.restaked + rewards
      current := b.current - b.restaked }
  | feePayout => { b with fee := 0, held := b.held - b.fee }
  | excessPayout => { b with
      restaked := 0, pending := 0, held := b.held - (b.pending + b.restaked) }
  | redeemAll rewards => { b with
      pending := b.pending + rewards
      held := b.held + (b.restaked + b.staked) + rewards
      current := b.current - (b.restaked + b.staked) }
  | restake rewards => { b with
      restaked := b.restaked + b.pending
      pending := rewards
      held := b.held - (b.staked + b.restaked + b.pending) + rewards
      current := b.current + (b.staked + b.restaked + b.pending) }
  | relocate current => { b with
      current, elsewhere := b.current + b.elsewhere - current }
  | idle => b

/-! ## What a posting does to the fee -/

/-- Paid out of delegated amounts, to anyone. -/
@[simp] def unbacked : Posting U → Nat
  | payout _ _ unbacked => unbacked
  | _ => 0

/-- The fee set aside by a draw. -/
@[simp] def share : Posting U → Nat
  | draw _ _ share _ => share
  | _ => 0

/-- Paid out of the fee. -/
@[simp] def feePaid (b : Books) : Posting U → Nat
  | feePayout => b.fee
  | _ => 0

/-- The fee not paid yet when a draw sets aside its own. -/
@[simp] def feeReplaced (b : Books) : Posting U → Nat
  | draw _ _ _ _ => b.fee
  | _ => 0

/-- The fee is what draws set aside, less what was paid and what was replaced. -/
theorem fee_balance (b : Books) (p : Posting U) :
    (p.apply b).fee + (p.feeReplaced b + p.feePaid b) = b.fee + p.share := by
  cases p with
  | draw user prize share rewards =>
      simp only [apply, feeReplaced, feePaid, Posting.share]
      omega
  | feePayout =>
      simp only [apply, feeReplaced, feePaid, share]
      omega
  | _ => rfl

/-! ## What a posting does to one account -/

variable [DecidableEq U]

/-- Paid in for `u`. -/
@[simp] def paidIn (u : U) : Posting U → Nat
  | deposit user amount _ => if user = u then amount else 0
  | _ => 0

/-- Taken out of the stake by `u`. -/
@[simp] def unstaked (u : U) : Posting U → Nat
  | unstake user amount _ => if user = u then amount else 0
  | _ => 0

/-- Paid to `u` out of the available amount. -/
@[simp] def liquidPaid (u : U) : Posting U → Nat
  | payout user liquid _ => if user = u then liquid else 0
  | _ => 0

/-- Paid to `u` out of the delegated amount. -/
@[simp] def unbackedPaid (u : U) : Posting U → Nat
  | payout user _ unbacked => if user = u then unbacked else 0
  | _ => 0

/-- Won by `u`. -/
@[simp] def won (u : U) : Posting U → Nat
  | draw user prize _ _ => if user = u then prize else 0
  | _ => 0

/-- The account of `u` after the posting. -/
def account (u : U) (a : Account) (p : Posting U) : Account where
  delegated := a.delegated + p.paidIn u - p.unstaked u - p.unbackedPaid u
  available := a.available + p.unstaked u + p.won u - p.liquidPaid u
  won := a.won + p.won u

/-- The account covers what the posting takes out of it. -/
def Covered (u : U) (a : Account) (p : Posting U) : Prop :=
  p.unstaked u ≤ a.delegated ∧ p.unbackedPaid u ≤ a.delegated ∧
    p.liquidPaid u ≤ a.available

/-! What the four postings to an account need of it and make of it. -/

@[simp] theorem covered_deposit (u : U) (a : Account) (amount rewards : Nat) :
    (deposit u amount rewards).Covered u a := by
  simp [Covered]

@[simp] theorem covered_unstake (u : U) (a : Account) (amount rewards : Nat) :
    (unstake u amount rewards).Covered u a ↔ amount ≤ a.delegated := by
  simp [Covered]

@[simp] theorem covered_payout (u : U) (a : Account) (liquid unbacked : Nat) :
    (payout u liquid unbacked).Covered u a ↔
      unbacked ≤ a.delegated ∧ liquid ≤ a.available := by
  simp [Covered]

@[simp] theorem covered_draw (u : U) (a : Account) (prize share rewards : Nat) :
    (draw u prize share rewards).Covered u a := by
  simp [Covered]

@[simp] theorem account_deposit (u : U) (a : Account) (amount rewards : Nat) :
    (deposit u amount rewards).account u a =
      { a with delegated := a.delegated + amount } := by
  simp [account]

@[simp] theorem account_unstake (u : U) (a : Account) (amount rewards : Nat) :
    (unstake u amount rewards).account u a =
      { a with delegated := a.delegated - amount, available := a.available + amount } := by
  simp [account]

@[simp] theorem account_payout (u : U) (a : Account) (liquid unbacked : Nat) :
    (payout u liquid unbacked).account u a =
      { a with delegated := a.delegated - unbacked, available := a.available - liquid } := by
  simp [account]

@[simp] theorem account_draw (u : U) (a : Account) (prize share rewards : Nat) :
    (draw u prize share rewards).account u a =
      { a with available := a.available + prize, won := a.won + prize } := by
  simp [account]

/-- The user whose account the posting concerns. -/
def holder : Posting U → Option U
  | deposit user _ _ | unstake user _ _ | payout user _ _ | draw user _ _ _ => some user
  | _ => none

/-- A posting moves nothing of the others. -/
theorem untouched_of_holder_ne {u : U} {p : Posting U} (h : p.holder ≠ some u) :
    p.paidIn u = 0 ∧ p.unstaked u = 0 ∧ p.liquidPaid u = 0 ∧ p.unbackedPaid u = 0 ∧
      p.won u = 0 := by
  cases p with
  | deposit user amount rewards | unstake user amount rewards | payout user amount rewards
  | draw user prize share rewards =>
      have hne : user ≠ u := fun heq => h (congrArg some heq)
      simp [hne]
  | _ => simp

theorem account_of_holder_ne {u : U} {p : Posting U} (a : Account)
    (h : p.holder ≠ some u) : p.account u a = a := by
  obtain ⟨hpaid, hunstaked, hliquid, hunbacked, hwon⟩ := untouched_of_holder_ne h
  simp only [account, hpaid, hunstaked, hliquid, hunbacked, hwon, Nat.add_zero,
    Nat.sub_zero]

theorem covered_of_holder_ne {u : U} {p : Posting U} (a : Account)
    (h : p.holder ≠ some u) : p.Covered u a := by
  obtain ⟨_, hunstaked, hliquid, hunbacked, _⟩ := untouched_of_holder_ne h
  simp only [Covered, hunstaked, hliquid, hunbacked, Nat.zero_le, and_self]

/-- A posting makes of the totals what it makes of the holder's account. -/
theorem apply_totals {u : U} {a : Account} {b : Books} {p : Posting U}
    (hholder : p.holder = some u) (hcovered : p.Covered u a)
    (hdelegated : a.delegated ≤ b.delegated) (havailable : a.available ≤ b.available) :
    (p.apply b).delegated + a.delegated = b.delegated + (p.account u a).delegated ∧
      (p.apply b).available + a.available = b.available + (p.account u a).available := by
  cases p with
  | deposit user amount rewards =>
      obtain rfl : user = u := Option.some.inj hholder
      rw [account_deposit]
      refine ⟨?_, rfl⟩
      simp only [apply]
      omega
  | unstake user amount rewards =>
      obtain rfl : user = u := Option.some.inj hholder
      rw [covered_unstake] at hcovered
      rw [account_unstake]
      constructor <;> simp only [apply] <;> omega
  | payout user liquid unbacked =>
      obtain rfl : user = u := Option.some.inj hholder
      rw [covered_payout] at hcovered
      rw [account_payout]
      constructor <;> simp only [apply] <;> omega
  | draw user prize share rewards =>
      obtain rfl : user = u := Option.some.inj hholder
      rw [account_draw]
      refine ⟨rfl, ?_⟩
      simp only [apply]
      omega
  | _ => cases hholder

/-- What is delegated is what was paid in, less what was taken out of the stake
and what was paid without being taken out of it. -/
theorem delegated_balance (u : U) (a : Account) (p : Posting U) (h : p.Covered u a) :
    (p.account u a).delegated + p.unstaked u + p.unbackedPaid u =
      a.delegated + p.paidIn u := by
  obtain ⟨hunstaked, hunbacked, _⟩ := h
  cases p with
  | _ =>
      simp only [account, paidIn, unstaked, unbackedPaid] at *
      omega

/-- An account keeps what was paid in and won, until it is paid out. -/
theorem account_balance (u : U) (a : Account) (p : Posting U) (h : p.Covered u a) :
    (p.account u a).delegated + (p.account u a).available + a.won +
        (p.liquidPaid u + p.unbackedPaid u) =
      a.delegated + a.available + (p.account u a).won + p.paidIn u := by
  obtain ⟨hunstaked, hunbacked, hliquid⟩ := h
  cases p with
  | unstake user amount rewards =>
      simp only [account, paidIn, unbackedPaid, liquidPaid, won] at *
      omega
  | payout user liquid unbacked =>
      simp only [account, paidIn, unstaked, won] at *
      omega
  | _ =>
      simp only [account, paidIn, unstaked, unbackedPaid, liquidPaid, won] at *
      omega

end Posting

/-! ## Solvency -/

namespace Books

/-- Everything the pool owes. -/
def owed (b : Books) : Nat :=
  b.delegated + b.available + b.restaked + b.pending + b.fee

/-- What the pool owes is covered by what it holds and has staked. -/
def Solvent (b : Books) : Prop := b.owed ≤ b.held + (b.current + b.elsewhere)

/-- The books of undisturbed operation: the stake is what the pool believes it
is, the depositors' part of it is theirs, and everything payable is in hand. -/
structure Regular (b : Books) : Prop where
  current_eq : b.current = b.staked + b.restaked
  elsewhere_eq : b.elsewhere = 0
  staked_eq : b.staked = b.delegated
  payable_le : b.available + b.pending + b.fee ≤ b.held

/-- The books after the stake was taken out as a whole: nothing is staked, and
the tokens in hand cover what is payable and what is to be staked again. -/
structure Redeemed (b : Books) : Prop where
  current_eq : b.current = 0
  elsewhere_eq : b.elsewhere = 0
  staked_eq : b.staked = b.delegated
  payable_le : b.available + b.pending + b.fee + (b.staked + b.restaked) ≤ b.held

/-- Every posting keeps the pool solvent. -/
theorem Solvent.apply {b : Books} (h : b.Solvent) (p : Posting U)
    (hp : p.Admissible b) : (p.apply b).Solvent := by
  obtain ⟨hbacked, hfunded⟩ := hp
  unfold Solvent owed at *
  cases p with
  | _ =>
      simp only [Posting.apply, Posting.Backed, Posting.Funded] at *
      omega

end Books

/-- What happens while the contract is neither stopped nor being migrated. -/
def Posting.Ordinary : Posting U → Prop
  | .deposit _ _ _ | .unstake _ _ _ | .draw _ _ _ _ | .feePayout | .idle => True
  | .payout _ _ unbacked => unbacked = 0
  | _ => False

namespace Books

/-- Regular books have the tokens that ordinary operation moves. -/
theorem Regular.funded {b : Books} (h : b.Regular) {p : Posting U} (hp : p.Backed b)
    (ho : p.Ordinary) : p.Funded b := by
  obtain ⟨hcurrent, helsewhere, hstaked, hpayable⟩ := h
  cases p with
  | idle => trivial
  | excessPayout | redeemAll | restake | relocate => exact absurd ho id
  | _ =>
      simp only [Posting.Backed, Posting.Funded, Posting.Ordinary] at *
      omega

/-- Undisturbed operation keeps the books regular. -/
theorem Regular.apply {b : Books} (h : b.Regular) (p : Posting U)
    (hp : p.Admissible b) (ho : p.Ordinary) : (p.apply b).Regular := by
  obtain ⟨hcurrent, helsewhere, hstaked, hpayable⟩ := h
  obtain ⟨hbacked, hfunded⟩ := hp
  cases p with
  | excessPayout | redeemAll | restake | relocate => exact absurd ho id
  | _ =>
      simp only [Posting.Backed, Posting.Funded, Posting.Ordinary] at *
      constructor <;> simp only [Posting.apply] <;> omega

/-- Taking out the whole stake is possible from regular books and leads to
redeemed ones. -/
theorem Regular.redeemAll {b : Books} (h : b.Regular) (rewards : Nat) :
    (Posting.redeemAll rewards : Posting U).Funded b ∧
      ((Posting.redeemAll rewards : Posting U).apply b).Redeemed := by
  obtain ⟨hcurrent, helsewhere, hstaked, hpayable⟩ := h
  refine ⟨?_, ?_⟩
  · simp only [Posting.Funded]
    omega
  · constructor <;> simp only [Posting.apply] <;> omega

/-- Staking everything again is possible from redeemed books and leads back to
regular ones. -/
theorem Redeemed.restake {b : Books} (h : b.Redeemed) (rewards : Nat) :
    (Posting.restake rewards : Posting U).Funded b ∧
      ((Posting.restake rewards : Posting U).apply b).Regular := by
  obtain ⟨hcurrent, helsewhere, hstaked, hpayable⟩ := h
  refine ⟨?_, ?_⟩
  · simp only [Posting.Funded]
    omega
  · constructor <;> simp only [Posting.apply] <;> omega

/-- Paying out available amounts keeps redeemed books redeemed. -/
theorem Redeemed.payout {b : Books} (h : b.Redeemed) (user : U) (liquid : Nat)
    (hp : (Posting.payout user liquid 0).Admissible b) :
    ((Posting.payout user liquid 0).apply b).Redeemed := by
  obtain ⟨hcurrent, helsewhere, hstaked, hpayable⟩ := h
  obtain ⟨⟨hliquid, _⟩, hheld⟩ := hp
  simp only [Posting.Funded] at hheld
  constructor <;> simp only [Posting.apply] <;> omega

/-- What is payable to depositors and as a fee is in hand. -/
def Payable (b : Books) : Prop := b.available + b.fee ≤ b.held

/-- Where everything owed is covered and none of the pot is staked, the pot is in hand
besides. -/
theorem Solvent.payable_excessPayout {b : Books} (h : b.Solvent)
    (hstake : b.current + b.elsewhere ≤ b.delegated) :
    ((Posting.excessPayout : Posting U).apply b).Payable := by
  unfold Solvent owed at h
  simp only [Payable, Posting.apply]
  omega

/-- Where everything owed is covered and nothing is staked, what is to be staked again is
in hand besides. -/
theorem Solvent.payable_restake {b : Books} (h : b.Solvent)
    (hnone : b.current + b.elsewhere = 0) (hstaked : b.staked = b.delegated) (rewards : Nat) :
    ((Posting.restake rewards : Posting U).apply b).Payable := by
  unfold Solvent owed at h
  simp only [Payable, Posting.apply]
  omega

/-- The depositors' part of the stake drifts from their delegated amounts by
exactly what is paid out of the latter. -/
theorem staked_drift (b : Books) (p : Posting U) (hp : p.Backed b) :
    (p.apply b).staked + b.delegated = b.staked + (p.apply b).delegated + p.unbacked := by
  cases p with
  | _ =>
      simp only [Posting.apply, Posting.unbacked, Posting.Backed] at *
      omega

end Books

/-! ## Flows -/

namespace Posting

/-- Rewards that come in with the posting. -/
@[simp] def collected : Posting U → Nat
  | deposit _ _ rewards | unstake _ _ rewards | draw _ _ _ rewards | redeemAll rewards
  | restake rewards => rewards
  | _ => 0

/-- Tokens that come in with a deposit. -/
@[simp] def received : Posting U → Nat
  | deposit _ amount _ => amount
  | _ => 0

/-- Tokens that are taken out of the stake by anyone. -/
@[simp] def released : Posting U → Nat
  | unstake _ amount _ => amount
  | _ => 0

/-- The pot that a draw hands out, as the prize and the fee. -/
@[simp] def handedOut : Posting U → Nat
  | draw _ prize share _ => prize + share
  | _ => 0

/-- The part of it that becomes payable to the winner. -/
@[simp] def prize : Posting U → Nat
  | draw _ prize _ _ => prize
  | _ => 0

/-- Tokens that go out to a depositor. -/
@[simp] def paidBack : Posting U → Nat
  | payout _ liquid unbacked => liquid + unbacked
  | _ => 0

/-- The pot that is paid out without a draw. -/
@[simp] def excess (b : Books) : Posting U → Nat
  | excessPayout => b.pending + b.restaked
  | _ => 0

/-- Tokens that go out, to anyone. -/
@[simp] def paidOut (b : Books) : Posting U → Nat
  | payout _ liquid unbacked => liquid + unbacked
  | feePayout => b.fee
  | excessPayout => b.pending + b.restaked
  | _ => 0

/-- A pot is handed out as a prize and a fee. -/
theorem handedOut_eq (p : Posting U) : p.handedOut = p.prize + p.share := by
  cases p <;> rfl

/-- Tokens go out to a depositor, as a fee or as an excess. -/
theorem paidOut_eq (b : Books) (p : Posting U) :
    p.paidOut b = p.paidBack + p.feePaid b + p.excess b := by
  cases p <;> simp

end Posting

namespace Books

/-- Everything the pool has. -/
def assets (b : Books) : Nat := b.held + (b.current + b.elsewhere)

variable {b : Books} {p : Posting U}

/-- What the pool has changes by what comes in and goes out. -/
theorem assets_balance (hp : p.Admissible b) :
    (p.apply b).assets + p.paidOut b = b.assets + (p.received + p.collected) := by
  obtain ⟨hbacked, hfunded⟩ := hp
  unfold assets
  cases p with
  | _ =>
      simp only [Posting.apply, Posting.Backed, Posting.Funded, Posting.paidOut,
        Posting.received, Posting.collected] at * <;>
        omega

/-- So does what it owes, but for a fee that is replaced before it is paid. -/
theorem owed_balance (hp : p.Admissible b) :
    (p.apply b).owed + (p.paidOut b + p.feeReplaced b) =
      b.owed + (p.received + p.collected) := by
  obtain ⟨hbacked, hfunded⟩ := hp
  unfold owed
  cases p with
  | _ =>
      simp only [Posting.apply, Posting.Backed, Posting.Funded, Posting.paidOut,
        Posting.received, Posting.collected, Posting.feeReplaced] at * <;>
        omega

/-- The pot grows by the rewards until it is handed out. -/
theorem pot_balance (hp : p.Backed b) :
    (p.apply b).restaked + (p.apply b).pending + (p.handedOut + p.excess b) =
      b.restaked + b.pending + p.collected := by
  cases p with
  | _ =>
      simp only [Posting.apply, Posting.Backed, Posting.handedOut, Posting.excess,
        Posting.collected] at * <;>
        omega

/-- What is owed to the depositors grows by deposits and prizes until it is paid back. -/
theorem depositors_balance (hp : p.Backed b) :
    (p.apply b).delegated + (p.apply b).available + p.paidBack =
      b.delegated + b.available + (p.received + p.prize) := by
  cases p with
  | _ =>
      simp only [Posting.apply, Posting.Backed, Posting.paidBack, Posting.received,
        Posting.prize] at * <;>
        omega

/-- What the pool believes its depositors have staked is what came in and was not taken
out of the stake, whoever was paid without that. -/
theorem staked_balance (hp : p.Backed b) :
    (p.apply b).staked + p.released = b.staked + p.received := by
  cases p with
  | _ =>
      simp only [Posting.apply, Posting.Backed, Posting.released, Posting.received] at * <;>
        omega

/-- Only a deposit and staking again add to the stake. -/
theorem stake_le (hp : p.Backed b)
    (hdeposit : ∀ user amount rewards, p ≠ .deposit user amount rewards)
    (hrestake : ∀ rewards, p ≠ .restake rewards) :
    (p.apply b).current + (p.apply b).elsewhere ≤ b.current + b.elsewhere := by
  cases p with
  | deposit user amount rewards => exact absurd rfl (hdeposit user amount rewards)
  | restake rewards => exact absurd rfl (hrestake rewards)
  | _ =>
      simp only [Posting.apply, Posting.Backed] at *
      omega

end Books

/-! ## The ledger -/

/-- The accounts, with the books over them. -/
structure Ledger (U : Type) where
  books : Books
  accounts : U → Account

/-- The ledger after a posting. -/
def Ledger.post [DecidableEq U] (l : Ledger U) (p : Posting U) : Ledger U where
  books := p.apply l.books
  accounts u := p.account u (l.accounts u)

/-- The posting can be made: the books, the tokens and the accounts cover it. -/
structure Ledger.Admits [DecidableEq U] (l : Ledger U) (p : Posting U) : Prop where
  admissible : p.Admissible l.books
  covered : ∀ u, p.Covered u (l.accounts u)

/-! ## Recovery in order -/

/-- The postings of a recovery in order.  Only where everything is staked can it be
taken out of the stake; only where nothing is staked can it be staked again, or the pool
stake somewhere else.  The pot is not paid out while a part of it is staked, and nobody
is paid out of the stake. -/
def Posting.InOrder (b : Books) : Posting U → Prop
  | .payout _ _ unbacked => unbacked = 0
  | .excessPayout => b.restaked = 0 ∨ b.current = 0
  | .redeemAll _ => b.current = b.staked + b.restaked
  | .restake _ => b.current = 0
  | .relocate current => current = b.current
  | _ => True

namespace Books

/-- Everything is staked, or everything is in hand. -/
def Settled (b : Books) : Prop := b.Regular ∨ b.Redeemed

variable {b : Books} {p : Posting U}

/-- Books of either kind are of both when the stake is none. -/
theorem redeemed_of_regular (h : b.Regular) (hnone : b.current = 0) : b.Redeemed := by
  obtain ⟨hcurrent, helsewhere, hstaked, hpayable⟩ := h
  exact ⟨hnone, helsewhere, hstaked, by omega⟩

theorem regular_of_redeemed (h : b.Redeemed) (hnone : b.current = b.staked + b.restaked) :
    b.Regular := by
  obtain ⟨hcurrent, helsewhere, hstaked, hpayable⟩ := h
  exact ⟨hnone, helsewhere, hstaked, by omega⟩

/-- Settled books say what is staked and how the tokens in hand cover the rest. -/
theorem Settled.staked_eq (h : b.Settled) : b.staked = b.delegated :=
  h.elim Regular.staked_eq Redeemed.staked_eq

theorem Settled.elsewhere_eq (h : b.Settled) : b.elsewhere = 0 :=
  h.elim Regular.elsewhere_eq Redeemed.elsewhere_eq

theorem Settled.payable_le (h : b.Settled) : b.available + b.pending + b.fee ≤ b.held := by
  rcases h with hregular | hredeemed
  · exact hregular.payable_le
  · have := hredeemed.payable_le
    omega

/-- What is regular stays settled in order, with the tokens there for it, and in no
other way. -/
theorem Regular.inOrder_iff (h : b.Regular) (hp : p.Backed b) :
    p.InOrder b ↔ p.Funded b ∧ (p.apply b).Settled := by
  have hordinary (ho : p.Ordinary) : p.Funded b ∧ (p.apply b).Settled := by
    have hfunded := h.funded hp ho
    exact ⟨hfunded, Or.inl (h.apply p ⟨hp, hfunded⟩ ho)⟩
  cases p with
  | deposit | unstake | draw | feePayout | idle => exact iff_of_true trivial (hordinary trivial)
  | payout user liquid unbacked =>
      refine ⟨fun hzero => hordinary hzero, fun ⟨_, hsettled⟩ => ?_⟩
      have hstaked := h.staked_eq
      have hafter := hsettled.staked_eq
      simp only [Posting.apply, Posting.Backed, Posting.InOrder] at *
      omega
  | excessPayout =>
      obtain ⟨hcurrent, helsewhere, hstaked, hpayable⟩ := h
      simp only [Posting.InOrder, Posting.Funded]
      constructor
      · intro hnone
        refine ⟨by omega, Or.inl ?_⟩
        constructor <;> simp only [Posting.apply] <;> omega
      · rintro ⟨_, hregular | hredeemed⟩
        · have := hregular.current_eq
          simp only [Posting.apply] at this
          omega
        · have := hredeemed.current_eq
          simp only [Posting.apply] at this
          omega
  | redeemAll rewards =>
      obtain ⟨hfunded, hredeemed⟩ := h.redeemAll (U := U) rewards
      exact iff_of_true h.current_eq ⟨hfunded, Or.inr hredeemed⟩
  | restake rewards =>
      constructor
      · intro hnone
        obtain ⟨hfunded, hregular⟩ := (redeemed_of_regular h hnone).restake (U := U) rewards
        exact ⟨hfunded, Or.inl hregular⟩
      · -- staked twice, it would be more than the counters say
        obtain ⟨hcurrent, _⟩ := h
        rintro ⟨_, hregular | hredeemed⟩
        · have := hregular.current_eq
          simp only [Posting.apply, Posting.InOrder] at *
          omega
        · have := hredeemed.current_eq
          simp only [Posting.apply, Posting.InOrder] at *
          omega
  | relocate current =>
      obtain ⟨hcurrent, helsewhere, hstaked, hpayable⟩ := h
      simp only [Posting.InOrder, Posting.Funded, true_and]
      constructor
      · rintro rfl
        refine Or.inl ?_
        constructor <;> simp only [Posting.apply] <;> omega
      · intro hsettled
        have := hsettled.elsewhere_eq
        simp only [Posting.apply, Posting.Backed] at *
        omega

/-- So does what is redeemed, as long as nobody pays in, unstakes or draws. -/
theorem Redeemed.inOrder_iff (h : b.Redeemed) (hp : p.Backed b)
    (hquiet : ∀ user amount rewards, p ≠ .deposit user amount rewards ∧
      p ≠ .unstake user amount rewards ∧ ∀ share, p ≠ .draw user amount share rewards) :
    p.InOrder b ↔ p.Funded b ∧ (p.apply b).Settled := by
  cases p with
  | deposit user amount rewards => exact absurd rfl (hquiet user amount rewards).1
  | unstake user amount rewards => exact absurd rfl (hquiet user amount rewards).2.1
  | draw user prize share rewards => exact absurd rfl ((hquiet user prize rewards).2.2 share)
  | idle => exact iff_of_true trivial ⟨trivial, Or.inr h⟩
  | payout user liquid unbacked =>
      constructor
      · intro hzero
        obtain rfl : unbacked = 0 := hzero
        have hliquid := hp.1
        have hpayable := h.payable_le
        have hfunded : (Posting.payout user liquid 0).Funded b := by
          simp only [Posting.Funded]
          omega
        exact ⟨hfunded, Or.inr (h.payout user liquid ⟨hp, hfunded⟩)⟩
      · rintro ⟨_, hsettled⟩
        have hstaked := h.staked_eq
        have hafter := hsettled.staked_eq
        simp only [Posting.apply, Posting.Backed, Posting.InOrder] at *
        omega
  | restake rewards =>
      obtain ⟨hfunded, hregular⟩ := h.restake (U := U) rewards
      exact iff_of_true h.current_eq ⟨hfunded, Or.inl hregular⟩
  | redeemAll rewards =>
      constructor
      · intro hall
        obtain ⟨hfunded, hredeemed⟩ := (regular_of_redeemed h hall).redeemAll (U := U) rewards
        exact ⟨hfunded, Or.inr hredeemed⟩
      · rintro ⟨hfunded, _⟩
        have hcurrent := h.current_eq
        simp only [Posting.Funded, Posting.InOrder] at *
        omega
  | feePayout | excessPayout =>
      obtain ⟨hcurrent, helsewhere, hstaked, hpayable⟩ := h
      simp only [Posting.InOrder, Posting.Funded, hcurrent, or_true, true_iff]
      refine ⟨by omega, Or.inr ?_⟩
      constructor <;> simp only [Posting.apply] <;> omega
  | relocate current =>
      obtain ⟨hcurrent, helsewhere, hstaked, hpayable⟩ := h
      simp only [Posting.Backed, Posting.InOrder, Posting.Funded, true_and] at *
      refine iff_of_true (by omega) (Or.inr ?_)
      constructor <;> simp only [Posting.apply] <;> omega

end Books

end SefiStakepool.Accounting
