/-
  Chain/Draw.lean --- whether `ClaimRewards` aborts.

  In a reachable state most of what a draw computes cannot overflow: the entries are
  what the counter of staked tokens says, and the pot is in hand or at stake.  What is
  left is mostly up to the two parameters that the admin sets without a check.
-/
import SefiStakepool.Contract.Weigh
import SefiStakepool.Chain.Records
import SefiStakepool.Chain.Registry
import SefiStakepool.Chain.Solvency

set_option autoImplicit false

namespace SefiStakepool.Chain

open SefiStakepool.Foundation
open SefiStakepool.Foundation.GenerationalStore
open SefiStakepool.Contract

variable {X : Crates}

/-! ## The amount of all entries -/

/-- The entries are the staked tokens, which are a `u128`, and the round ends after it
starts. -/
structure Counted (s : Storage X) : Prop where
  entered : total LotteryEntries.amount s.entries = s.supplyPool.totalTokensStaked
  fits : s.supplyPool.totalTokensStaked < 2 ^ 128
  round_le : s.lottery.startTime ≤ s.lottery.endTime

theorem counted_of_initial {w : World X} (h : w.Initial) : Counted w.storage := by
  have hentries := entries_of_initial h
  obtain ⟨⟨env, msg, response, hinit⟩, _⟩ := h
  have hfresh := init_fresh hinit
  refine ⟨?_, ?_, hfresh.round_le⟩
  · rw [hentries, total_empty, hfresh.supplyPool_eq]
  · rw [hfresh.supplyPool_eq]
    exact Nat.two_pow_pos 128

/-- A deposit checks the counter it raises. -/
theorem staked_lt_of_receive {querier : Querier} {s s' : Storage X} {env : Env}
    {sender from_ : HumanAddr} {amount : Nat} {payload : Binary} {response : HandleResponse}
    (running : s.config.isStopped = false) (decoded : X.fromBinary payload = .ok .deposit)
    (h : handle querier s env (.receive sender from_ amount payload) = .ok (s', response)) :
    s'.supplyPool.totalTokensStaked < 2 ^ 128 := by
  have hdeposit : handle querier s env (.receive sender from_ amount payload) =
      deposit querier s env from_ amount := by
    rw [handle_of_running running]
    simp only [handleRunning, receive, decoded]
    rfl
  rw [hdeposit] at h
  simp only [deposit, bind_eq_ok, addU_eq_ok] at h
  obtain ⟨_, _, _, _, _, _, _, _, _, _, _, ⟨hfits, rfl⟩, _, _, h⟩ := h
  cases h
  exact hfits

theorem Counted.handle {w : World X} {tx : Tx} {s : Storage X} {response : HandleResponse}
    (hw : Counted w.storage) (hentered : Entered w)
    (h : Contract.handle tx.querier w.storage tx.env tx.msg = .ok (s, response)) :
    Counted s := by
  have heffect := handle_effect h
  obtain ⟨env, msg, querier⟩ := tx
  dsimp only at h heffect
  cases heffect with
  | deposit running token decoded minimum query =>
      rename_i sender from_ amount rewards payload
      refine ⟨?_, staked_lt_of_receive running decoded h, hw.round_le⟩
      have hinsert := total_insert LotteryEntries.amount w.storage.entries
        (depositEntry env from_ amount)
      rw [hw.entered, Nat.add_comm] at hinsert
      exact hinsert
  | unstake running amount_eq positive delegated staked consumed query =>
      have hle := le_trans delegated (hentered.delegated_le env.message.sender)
      obtain ⟨_, htotal, hagrees⟩ :=
        consumeEntries_spec (hentered.registered env.message.sender) hle consumed
      have hwhole := hagrees.total_eq
      rw [hw.entered] at hwhole
      have hfits := hw.fits
      refine ⟨?_, ?_, hw.round_le⟩
      · dsimp only [Storage.entries, Option.getD_some]
        omega
      · dsimp only
        omega
  | noWinner running triggerer ended restart quiet =>
      obtain ⟨_, rfl⟩ := restartLottery_eq_ok.mp restart
      exact ⟨hw.entered, hw.fits, Nat.le_add_right _ _⟩
  | draw running triggerer ended restart entries drawn query share_eq share_lt found =>
      obtain ⟨_, rfl⟩ := restartLottery_eq_ok.mp restart
      exact ⟨hw.entered, hw.fits, Nat.le_add_right _ _⟩
  | _ => exact ⟨hw.entered, hw.fits, hw.round_le⟩

theorem counted_of_reachable {w : World X} (hw : w.Reachable) : Counted w.storage := by
  have hboth : Entered w ∧ Counted w.storage := by
    refine Reachable.invariant (I := fun w => Entered w ∧ Counted w.storage) hw
      (fun _ h => ⟨entered_of_initial h, counted_of_initial h⟩) ?_
    rintro w tx ⟨hentered, hcounted⟩
    refine ⟨hentered.step tx, ?_⟩
    rcases World.step_cases w tx with ⟨response, hexec⟩ | ⟨_, hstep⟩
    · obtain ⟨storage, hhandle, hdispatch⟩ := World.exec_eq_some.mp hexec
      rw [World.dispatchAll_storage hdispatch]
      exact hcounted.handle hentered hhandle
    · rw [hstep]
      exact hcounted
  exact hboth.2

/-! ## The draw -/

/-- What a draw needs not to abort: an end of the next round, entries that can be
weighed, and a pot that can be split for the owner of the entry drawn. -/
structure World.Survives (w : World X) (tx : Tx) : Prop where
  next : tx.env.block.time + w.storage.lottery.duration < 2 ^ 64
  weighable : ∀ x ∈ X.store.values w.storage.entries,
    Weighable (nextRound w.storage.lottery tx.env.block) x
  splits : ∀ x ∈ drawnEntry X w.storage.config.prngSeed
      (nextRound w.storage.lottery tx.env.block) (X.store.values w.storage.entries),
    Splits w.storage.config.triggererSharePercentage (w.pot tx)
      (w.storage.user x.userAddress).totalWon

/-- The amounts that are drawn from sum to a `u128`. -/
theorem Counted.amounts_lt {s : Storage X} (h : Counted s) :
    ((X.store.values s.entries).map LotteryEntries.amount).sum < 2 ^ 128 := by
  rw [sum_map_values, h.entered]
  exact h.fits

/-- What a user can withdraw, with the whole pot on top, is in hand, at stake or reported. -/
theorem available_add_pot_le {w : World X} (hw : w.Reachable) (tx : Tx) (u : HumanAddr) :
    (w.storage.user u).availableTokensForWithdraw + w.pot tx ≤
      w.held + w.totalStake + w.reported tx := by
  have hsolvent := owed_le_of_reachable hw
  have hliquid := le_total_user UserInfo.availableTokensForWithdraw rfl w.storage u
  unfold World.totalAvailable at hsolvent
  unfold World.pot SupplyPool.pot
  omega

/-- Paying the owner of a live entry aborts exactly when the pot does not split. -/
theorem noPanic_payOwner {w : World X} (hw : w.Reachable) {tx : Tx} (lottery : Lottery)
    (hquery : ∃ response, queryPendingRewards tx.querier tx.env w.storage.config = .ok response)
    {supply : Nat} (hsupply : w.held + w.totalStake + w.reported tx ≤ supply)
    (hfits : supply * 10 ^ 10 < 2 ^ 128) {x : LotteryEntries}
    (hx : x ∈ X.store.values w.storage.entries) :
    NoPanic (payWinner tx.querier { w.storage with lottery } tx.env x.userAddress) ↔
      Splits w.storage.config.triggererSharePercentage (w.pot tx)
        (w.storage.user x.userAddress).totalWon := by
  obtain ⟨⟨⟨rewards⟩⟩, hquery⟩ := hquery
  have hcovered := available_add_pot_le hw tx x.userAddress
  have hpot : w.pot tx = w.storage.supplyPool.pot rewards := by
    rw [World.pot, World.reported_of_query hquery]
  obtain ⟨i, hget⟩ := GenerationalStore.mem_values.mp hx
  obtain ⟨user, hfound⟩ :=
    Option.isSome_iff_exists.mp ((entered_of_reachable hw).registered.stored hget)
  rw [user_of_lookup hfound, hpot] at *
  have hscaled : w.storage.supplyPool.pot rewards * 10 ^ 10 < 2 ^ 128 :=
    lt_of_le_of_lt (Nat.mul_le_mul_right _ (by omega)) hfits
  have hcredit : user.availableTokensForWithdraw + w.storage.supplyPool.pot rewards
      < 2 ^ 128 := by omega
  exact noPanic_payWinner hquery hfound hscaled hcredit

/-- In every reachable state in which the contract is running, and every block from the
end of the round on, `ClaimRewards` from the triggerer returns or refuses exactly when
the draw survives: provided the reward query answers, and the tokens the pool has and is
owed are part of a supply that is ten orders of magnitude below a `u128`. -/
theorem noPanic_iff_survives {w : World X} (hw : w.Reachable)
    (hrunning : w.storage.config.isStopped = false) {tx : Tx} (hmsg : tx.msg = .claimRewards)
    (htriggerer : w.storage.config.triggerer = tx.env.message.sender)
    (hended : w.storage.lottery.endTime ≤ tx.env.block.time)
    (hquery : ∃ response, queryPendingRewards tx.querier tx.env w.storage.config = .ok response)
    {supply : Nat} (hsupply : w.held + w.totalStake + w.reported tx ≤ supply)
    (hfits : supply * 10 ^ 10 < 2 ^ 128) :
    NoPanic (handle tx.querier w.storage tx.env tx.msg) ↔ w.Survives tx := by
  have hcounted := counted_of_reachable hw
  have hstarted := le_trans hcounted.round_le hended
  let round := nextRound w.storage.lottery tx.env.block
  have hpays : ∀ x ∈ drawnEntry X w.storage.config.prngSeed round
      (X.store.values w.storage.entries),
      NoPanic (payWinner tx.querier { w.storage with lottery := round } tx.env x.userAddress) ↔
        Splits w.storage.config.triggererSharePercentage (w.pot tx)
          (w.storage.user x.userAddress).totalWon :=
    fun x hx => noPanic_payOwner hw round hquery hsupply hfits (mem_of_drawnEntry hx)
  have hclaim : handle tx.querier w.storage tx.env tx.msg =
      claimRewards tx.querier w.storage tx.env := by
    rw [handle_of_running hrunning, hmsg]
    rfl
  rw [hclaim, noPanic_claimRewards htriggerer hended hstarted hcounted.amounts_lt]
  constructor
  · rintro ⟨hnext, hweighable, hpaid⟩
    exact ⟨hnext, hweighable, fun x hx => (hpays x hx).mp (hpaid x hx)⟩
  · intro h
    exact ⟨h.next, h.weighable, fun x hx => (hpays x hx).mpr (h.splits x hx)⟩

/-- The admin shortens the rounds and raises the fee to a quarter. -/
def changedRoundRun : List Tx :=
  [.depositAt 10 0 batman 3000000, .at 20 0 admin (.changeLotteryDuration 3600),
    .at 30 0 admin (.changeTriggererShare 2500), .depositAt 40 70 superman 2000000]

theorem noPanic_iff_survives_changedRoundRun :
    NoPanic (handle firstClaim.querier (testPool.run changedRoundRun).storage firstClaim.env
      firstClaim.msg) := by
  have hmsg : firstClaim.msg = .claimRewards := rfl
  exact (noPanic_iff_survives (testPool_reachable changedRoundRun) (by decide) hmsg
    (by decide) (by decide) ⟨_, rfl⟩ (le_refl _) (by decide)).mpr
    ⟨by decide, by decide, by decide⟩

/-- The admin sets a round of no length. -/
def zeroDurationRun : List Tx :=
  [.depositAt 10 0 batman 3000000, .at 20 0 admin (.changeLotteryDuration 0)]

/-- The admin sets a share of twice the pot. -/
def doubleShareRun : List Tx :=
  [.depositAt 10 0 batman 3000000, .at 20 0 admin (.changeTriggererShare 20000)]

/-- At the end of the round, the draw divides by the length of the round, or subtracts
the share from the pot. -/
theorem panic_zeroDurationRun :
    ((testPool.run zeroDurationRun).Reachable ∧
      (testPool.run zeroDurationRun).ReachesDraw firstClaim ∧
      ¬ NoPanic (handle firstClaim.querier (testPool.run zeroDurationRun).storage
        firstClaim.env firstClaim.msg)) ∧
    (testPool.run doubleShareRun).Reachable ∧
      (testPool.run doubleShareRun).ReachesDraw firstClaim ∧
      (testPool.run doubleShareRun).held + (testPool.run doubleShareRun).totalStake +
        (testPool.run doubleShareRun).reported firstClaim = 3001000 ∧
      ¬ NoPanic (handle firstClaim.querier (testPool.run doubleShareRun).storage
        firstClaim.env firstClaim.msg) :=
  ⟨⟨testPool_reachable _, ⟨rfl, by decide, by decide, by decide, by decide, by decide,
      by decide, by decide⟩, by decide⟩,
    testPool_reachable _, ⟨rfl, by decide, by decide, by decide, by decide, by decide,
      by decide, by decide⟩, by decide, by decide⟩

end SefiStakepool.Chain
