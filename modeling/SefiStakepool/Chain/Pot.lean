/-
  Chain/Pot.lean --- the prize pot within one block.

  The pot is in three places: restaked, pending, and what the staking contract
  still reports.  The first `Deposit` or `Redeem` of a block brings in what is
  reported, and each handler books it by a rule of its own.  `Block` is a world
  together with what is still reported in the block.
-/
import SefiStakepool.Contract.Query
import SefiStakepool.Chain.Ledger

set_option autoImplicit false

namespace SefiStakepool.Chain

open SefiStakepool.Foundation
open SefiStakepool.Contract

variable {X : Crates}

/-! ## Blocks -/

/-- The message makes the staking contract pay the rewards. -/
def paysRewards : CosmosMsg → Bool
  | .send _ _ .deposit _ => true
  | .execute _ _ (.redeem _) => true
  | _ => false

/-- A world in a block, and the rewards reported there from now on. -/
structure Block (X : Crates) where
  world : World X
  due : Nat

namespace Block

/-- Once paid, the rewards are not reported again in the block. -/
def step (b : Block X) (tx : Tx) : Block X where
  world := b.world.step tx
  due :=
    if (b.world.response tx).any fun response => response.messages.any paysRewards then 0
    else b.due

/-- The prize pot. -/
def pot (b : Block X) : Nat := b.world.storage.supplyPool.pot b.due

/-- The staking contract reports what is due when the pool asks in the block. -/
def Reports (b : Block X) (height : Nat) (querier : Querier) : Prop :=
  querier b.world.storage.config.stakingContract
    (.rewards b.world.storage.config.ownAddr STAKING_VK height) = .ok ⟨⟨b.due⟩⟩

/-- The transaction is one of the block. -/
structure Admits (b : Block X) (height : Nat) (tx : Tx) : Prop where
  contract : tx.env.contract.address = b.world.storage.config.ownAddr
  height_eq : tx.env.block.height = height
  reports : b.Reports height tx.querier

theorem Admits.query {b : Block X} {height : Nat} {tx : Tx} (h : b.Admits height tx) :
    queryPendingRewards tx.querier tx.env b.world.storage.config = .ok ⟨⟨b.due⟩⟩ := by
  have hreports := h.reports
  unfold Reports at hreports
  rw [queryPendingRewards, h.contract, h.height_eq, hreports]
  rfl

theorem Admits.reported {b : Block X} {height : Nat} {tx : Tx} (h : b.Admits height tx) :
    b.world.reported tx = b.due :=
  World.reported_of_query h.query

/-- A step is a transaction that went through, or nothing. -/
theorem step_cases (b : Block X) (tx : Tx) :
    (b.world.response tx = none ∧ b.step tx = b) ∨
      ∃ response, b.world.response tx = some response ∧
        Effect tx.querier b.world.storage tx.env tx.msg (b.step tx).world.storage response ∧
        (b.step tx).due = if response.messages.any paysRewards then 0 else b.due := by
  rcases World.step_cases b.world tx with ⟨response, hexec⟩ | ⟨hexec, hstep⟩
  · have hresponse := World.response_of_exec hexec
    refine Or.inr ⟨response, hresponse, World.exec_effect hexec, ?_⟩
    simp only [Block.step, hresponse, Option.any_some]
  · have hresponse := World.response_of_none hexec
    refine Or.inl ⟨hresponse, ?_⟩
    simp only [Block.step, hstep, hresponse, Option.any_none]
    rfl

end Block

/-! ## What leaves the pot alone -/

/-- Everything but the pot's two ways out, and but naming another staking contract,
which reports something else. -/
def World.LeavesPot (w : World X) (tx : Tx) : Prop :=
  match tx.msg with
  | .withdrawExcess | .changeStakingContract _ _ => False
  | .claimRewards => w.winner tx = none
  | _ => True

theorem pot_step {b : Block X} {height : Nat} {tx : Tx} (hadmits : b.Admits height tx)
    (hleaves : b.world.LeavesPot tx) : (b.step tx).pot = b.pot := by
  rcases b.step_cases tx with ⟨_, hstep⟩ | ⟨response, hresponse, heffect, hpaid⟩
  · rw [hstep]
  · have hdue := hadmits.query
    simp only [Block.pot, hpaid]
    generalize (b.step tx).world.storage = s at heffect
    clear hpaid hadmits
    obtain ⟨env, msg, querier⟩ := tx
    dsimp only at heffect hdue
    cases heffect with
    | deposit running token decoded minimum query =>
        obtain ⟨⟨rfl⟩⟩ := Except.ok.inj (query.symm.trans hdue)
        simp only [SupplyPool.pot, List.any_cons, paysRewards, Bool.true_or, if_true]
        omega
    | unstake running amount_eq positive delegated staked consumed query =>
        obtain ⟨⟨rfl⟩⟩ := Except.ok.inj (query.symm.trans hdue)
        simp only [SupplyPool.pot, List.any_cons, paysRewards, Bool.true_or, if_true]
        omega
    | noWinner running triggerer ended restart quiet =>
        simp only [quiet, List.any_nil]
        rfl
    | draw running triggerer ended restart entries drawn query share_eq share_lt found =>
        simp only [World.LeavesPot, World.winner, hresponse] at hleaves
        cases hleaves
    | redeemAll stopped admin query =>
        obtain ⟨⟨rfl⟩⟩ := Except.ok.inj (query.symm.trans hdue)
        simp only [SupplyPool.pot, List.any_cons, paysRewards, Bool.true_or, if_true]
        omega
    | restake stopped admin query =>
        obtain ⟨⟨rfl⟩⟩ := Except.ok.inj (query.symm.trans hdue)
        simp only [SupplyPool.pot, List.any_cons, paysRewards, Bool.true_or, if_true]
        omega
    | excessPayout stopped admin => exact absurd hleaves id
    | relocate stopped admin => exact absurd hleaves id
    | _ => rfl

/-- A whole run of such messages leaves the pot alone. -/
theorem pot_run {b : Block X} {height : Nat} {txs : List Tx}
    (h : Along Block.step (fun b tx => b.Admits height tx ∧ b.world.LeavesPot tx) b txs) :
    (run Block.step b txs).pot = b.pot :=
  run_invariant_along (I := fun c => c.pot = b.pot)
    (fun _ _ hpot hstep => (pot_step hstep.1 hstep.2).trans hpot) rfl h

/-! ## The ways out -/

/-- The pot is split between the winner and the fee. -/
structure Split (b b' : Block X) (u : HumanAddr) (prize share : Nat) : Prop where
  whole : prize + share = b.pot
  nothing : b'.pot = 0
  available : (b'.world.storage.user u).availableTokensForWithdraw =
    (b.world.storage.user u).availableTokensForWithdraw + prize
  won : (b'.world.storage.user u).totalWon = (b.world.storage.user u).totalWon + prize
  fee : b'.world.storage.supplyPool.triggeringCost = share

theorem split_of_winner {b : Block X} {height : Nat} {tx : Tx} {u : HumanAddr}
    (hadmits : b.Admits height tx) (hwinner : b.world.winner tx = some u) :
    Split b (b.step tx) u (b.world.winnings u tx) (b.world.drawShare tx) := by
  have hpot : b.world.pot tx = b.pot := by
    rw [World.pot, hadmits.reported]
    rfl
  have hprize : b.world.winnings u tx = b.pot - b.world.feeOf b.pot := by
    rw [World.winnings, if_pos hwinner, hpot]
  have hshare : b.world.drawShare tx = b.world.feeOf b.pot := by
    rw [World.drawShare, hwinner, hpot]
    rfl
  rw [hprize, hshare]
  rcases b.step_cases tx with ⟨hresponse, _⟩ | ⟨response, hresponse, heffect, hpaid⟩
  · simp [World.winner, hresponse] at hwinner
  · have hdue := hadmits.query
    clear hadmits hprize hshare hpot
    generalize b.step tx = b' at heffect hpaid
    obtain ⟨⟨s, held, stakes⟩, due⟩ := b'
    obtain ⟨env, msg, querier⟩ := tx
    dsimp only at heffect hpaid hdue
    subst hpaid
    simp only [World.winner, hresponse] at hwinner
    cases heffect with
    | draw running triggerer ended restart entries drawn query share_eq share_lt found =>
        rename_i winner user lottery data rewards share
        obtain ⟨⟨rfl⟩⟩ := Except.ok.inj (query.symm.trans hdue)
        obtain rfl : winner = u := Option.some.inj hwinner
        have huser := user_of_lookup found
        have hfee : b.world.feeOf b.pot = share := share_eq.symm
        have hlt : share < b.pot := share_lt
        rw [hfee]
        refine ⟨by omega, rfl, ?_, ?_, rfl⟩
        · rw [huser, user_insert (s := b.world.storage) rfl, if_pos rfl]
          rfl
        · rw [huser, user_insert (s := b.world.storage) rfl, if_pos rfl]
          rfl
    | noWinner running triggerer ended restart quiet =>
        obtain ⟨messages, data⟩ := response
        dsimp only at quiet
        subst quiet
        cases hwinner
    | reconfigure running isAdmin change =>
        rcases change with ⟨_, rfl, _⟩ | ⟨_, rfl, _⟩ | ⟨_, rfl, _⟩ <;> cases hwinner
    | viewingKey msg_eq =>
        rcases msg_eq with ⟨_, _, rfl, _⟩ | ⟨_, rfl⟩ <;> cases hwinner
    | _ => cases hwinner

/-- `WithdrawExcess` takes what it transfers out of the pot. -/
theorem pot_of_withdrawExcess {b : Block X} {tx : Tx} {response : HandleResponse}
    (hmsg : tx.msg = .withdrawExcess) (hresponse : b.world.response tx = some response) :
    (b.step tx).pot + (response.messages.map transferred).sum = b.pot := by
  rcases b.step_cases tx with ⟨hnone, _⟩ | ⟨response', hresponse', heffect, hpaid⟩
  · rw [hnone] at hresponse
    cases hresponse
  · obtain rfl := Option.some.inj (hresponse.symm.trans hresponse')
    simp only [Block.pot, hpaid]
    generalize (b.step tx).world.storage = s at heffect
    rw [hmsg] at heffect
    cases heffect with
    | excessPayout stopped admin =>
        simp only [SupplyPool.pot, paysRewards, transferred, List.any_cons, List.any_nil,
          Bool.false_or, Bool.false_eq_true, if_false, List.map_cons, List.map_nil,
          List.sum_cons, List.sum_nil]
        omega
    | reconfigure running isAdmin change =>
        rcases change with ⟨_, h, _⟩ | ⟨_, h, _⟩ | ⟨_, h, _⟩ <;> cases h
    | viewingKey msg_eq =>
        rcases msg_eq with ⟨_, _, h, _⟩ | ⟨_, h⟩ <;> cases h

/-! ## The block -/

/-- The query answers the pot, when that is a number it can answer. -/
theorem queryTotalRewards_eq_ok {b : Block X} {height : Nat} {querier : Querier}
    (hheight : height < 2 ^ 64) (hreports : b.Reports height querier) (rewards : Nat) :
    queryTotalRewards querier b.world.storage height = .ok (.totalRewards rewards) ↔
      b.pot < 2 ^ 128 ∧ rewards = b.pot := by
  have hasU64 : asU64 height = height := Nat.mod_eq_of_lt hheight
  unfold Block.Reports at hreports
  simp only [queryTotalRewards, hasU64, hreports, liftStd, bind_eq_ok, addU_eq_ok,
    Except.ok.injEq, exists_eq_left', QueryAnswer.totalRewards.injEq, Block.pot,
    SupplyPool.pot]
  constructor
  · rintro ⟨_, ⟨_, rfl⟩, _, ⟨hfits, rfl⟩, rfl⟩
    omega
  · rintro ⟨hfits, rfl⟩
    exact ⟨_, ⟨by omega, rfl⟩, _, ⟨by omega, rfl⟩, by omega⟩

/-- In a block, at any state: the query answers the pot; messages that do not take
from it leave it alone, however many and in whatever order; a draw with a winner
splits the whole of it, and an excess withdrawal takes out what it transfers. -/
theorem pot_conserved (b : Block X) {height : Nat} (hheight : height < 2 ^ 64) :
    (∀ querier, b.Reports height querier → ∀ rewards,
      queryTotalRewards querier b.world.storage height = .ok (.totalRewards rewards) ↔
        b.pot < 2 ^ 128 ∧ rewards = b.pot) ∧
    (∀ txs, Along Block.step (fun b tx => b.Admits height tx ∧ b.world.LeavesPot tx) b txs →
      (run Block.step b txs).pot = b.pot) ∧
    (∀ tx u, b.Admits height tx → b.world.winner tx = some u →
      Split b (b.step tx) u (b.world.winnings u tx) (b.world.drawShare tx)) ∧
    ∀ tx response, tx.msg = .withdrawExcess → b.world.response tx = some response →
      (b.step tx).pot + (response.messages.map transferred).sum = b.pot :=
  ⟨fun _ hreports => queryTotalRewards_eq_ok hheight hreports, fun _ => pot_run,
    fun _ _ => split_of_winner, fun _ _ => pot_of_withdrawExcess⟩

/-- The end of the first round, with 400 rewards reported and 70 pending. -/
def endOfRound : Block reference where
  world := testPool.run [.depositAt 10 0 batman 3000000, .depositAt 20 70 superman 2000000]
  due := 400

/-- An unstaking, a withdrawal and a deposit of the same block. -/
def endOfRoundTxs : List Tx :=
  [.at 86400 400 batman (.triggerWithdraw (some 1000000)), .at 86400 0 batman (.withdraw none),
    .depositAt 86400 0 superman 1000000]

theorem pot_conserved_endOfRound :
    (run Block.step endOfRound endOfRoundTxs).pot = 470 ∧
    Split endOfRound (endOfRound.step (.at 86400 400 triggerer .claimRewards)) batman 466 4 ∧
    queryTotalRewards (fun _ _ => .ok ⟨⟨400⟩⟩) endOfRound.world.storage 14400 =
      .ok (.totalRewards 470) := by
  obtain ⟨hquery, hrun, hsplit, _⟩ := pot_conserved endOfRound (show 14400 < 2 ^ 64 by decide)
  refine ⟨?_, ?_, ?_⟩
  · exact (hrun endOfRoundTxs ⟨⟨⟨rfl, rfl, rfl⟩, trivial⟩, ⟨⟨rfl, rfl, rfl⟩, trivial⟩,
      ⟨⟨rfl, rfl, rfl⟩, trivial⟩, trivial⟩).trans (by decide)
  · exact hsplit (.at 86400 400 triggerer .claimRewards) batman ⟨rfl, rfl, rfl⟩ (by decide)
  · exact (hquery (fun _ _ => .ok ⟨⟨400⟩⟩) rfl 470).mpr (by decide)

end SefiStakepool.Chain
