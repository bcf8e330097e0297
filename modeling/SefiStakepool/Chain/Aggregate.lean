/-
  Chain/Aggregate.lean --- the counter of staked tokens and the users' own amounts.

  The two are written by different handlers.  They agree for as long as nobody
  withdraws delegated tokens from a stopped contract: that withdrawal lowers the
  user's amount and leaves the counter alone.
-/
import SefiStakepool.Chain.Refinement
import SefiStakepool.Chain.Reference

set_option autoImplicit false

namespace SefiStakepool.Chain

open SefiStakepool.Foundation
open SefiStakepool.Contract
open SefiStakepool.Accounting

variable {X : Crates}

/-! ## Withdrawals out of the stake -/

namespace World

/-- What a `Withdraw` asks for; other messages ask for nothing. -/
def asked (w : World X) (tx : Tx) : Nat :=
  match tx.msg with
  | .withdraw amount =>
      amount.getD (w.storage.user tx.env.message.sender).availableTokensForWithdraw
  | _ => 0

/-- A withdrawal that the sender's available tokens do not cover and the delegated
ones do, while such withdrawals are allowed and the tokens are there. -/
structure TakesFromStake (w : World X) (tx : Tx) : Prop where
  allowed : w.storage.config.isStoppedCanWithdraw = true
  exceeds : (w.storage.user tx.env.message.sender).availableTokensForWithdraw < w.asked tx
  covered : w.asked tx ≤ (w.storage.user tx.env.message.sender).amountDelegated +
    (w.storage.user tx.env.message.sender).availableTokensForWithdraw
  fits : (w.storage.user tx.env.message.sender).amountDelegated +
    (w.storage.user tx.env.message.sender).availableTokensForWithdraw < 2 ^ 128
  held : w.asked tx ≤ w.held

theorem takesFromStake_iff (w : World X) (tx : Tx) : w.TakesFromStake tx ↔
    w.storage.config.isStoppedCanWithdraw = true ∧
    (w.storage.user tx.env.message.sender).availableTokensForWithdraw < w.asked tx ∧
    w.asked tx ≤ (w.storage.user tx.env.message.sender).amountDelegated +
      (w.storage.user tx.env.message.sender).availableTokensForWithdraw ∧
    (w.storage.user tx.env.message.sender).amountDelegated +
      (w.storage.user tx.env.message.sender).availableTokensForWithdraw < 2 ^ 128 ∧
    w.asked tx ≤ w.held :=
  ⟨fun h => ⟨h.allowed, h.exceeds, h.covered, h.fits, h.held⟩,
    fun ⟨h₁, h₂, h₃, h₄, h₅⟩ => ⟨h₁, h₂, h₃, h₄, h₅⟩⟩

instance (w : World X) (tx : Tx) : Decidable (w.TakesFromStake tx) :=
  decidable_of_iff' _ (w.takesFromStake_iff tx)

end World

/-- Where withdrawals from a stopped contract are allowed, one that exceeds the
available amount takes the rest out of the delegated one. -/
theorem withdrawFrom_delegated {config : Config} {user : UserInfo X.store.Index}
    {asked : Nat} (allowed : config.isStoppedCanWithdraw = true)
    (exceeds : user.availableTokensForWithdraw < asked)
    (covered : asked ≤ user.amountDelegated + user.availableTokensForWithdraw)
    (fits : user.amountDelegated + user.availableTokensForWithdraw < 2 ^ 128) :
    withdrawFrom config user asked = .ok { user with
      availableTokensForWithdraw := 0
      amountDelegated :=
        user.amountDelegated - (asked - user.availableTokensForWithdraw) } := by
  have hcan : ¬ ¬ config.isStoppedCanWithdraw = true := by simp [allowed]
  unfold withdrawFrom
  rw [if_neg hcan]
  simp only [bind_eq_ok, ensure_eq_ok, addU_eq_ok]
  refine ⟨_, ⟨fits, rfl⟩, (), covered, ?_⟩
  rw [if_pos exceeds]
  simp only [bind_eq_ok, subU_eq_ok]
  exact ⟨_, ⟨by omega, rfl⟩, _, ⟨by omega, rfl⟩, rfl⟩

/-- A withdrawal from a stopped contract succeeds when the record admits it. -/
theorem withdraw_allowed {s : Storage X} {env : Env} {amount : Option Nat}
    {user : UserInfo X.store.Index} (allowed : s.config.isStoppedCanWithdraw = true)
    (positive : 0 < amount.getD (s.user env.message.sender).availableTokensForWithdraw)
    (h : withdrawFrom s.config (s.user env.message.sender)
      (amount.getD (s.user env.message.sender).availableTokensForWithdraw) = .ok user) :
    withdraw s env amount =
      .ok ({ s with userInfo := s.userInfo.insert env.message.sender user },
        { messages := [.transfer env.message.sender
            (amount.getD (s.user env.message.sender).availableTokensForWithdraw)
            s.config.token]
          data := .withdraw .success }) := by
  simp only [withdraw, bind_eq_ok, ensure_eq_ok]
  exact ⟨(), by simp [allowed], (), positive, user, h, rfl⟩

/-- Such a withdrawal is paid out of the delegated amount. -/
theorem unbacked_of_takesFromStake {w : World X} {tx : Tx} (h : w.TakesFromStake tx) :
    (w.posting tx).unbacked ≠ 0 := by
  obtain ⟨env, msg, querier⟩ := tx
  obtain ⟨allowed, exceeds, covered, fits, held⟩ := h
  cases msg with
  | withdraw amount =>
      have hfrom := withdrawFrom_delegated allowed exceeds covered fits
      have hwithdraw := withdraw_allowed allowed (by exact Nat.zero_lt_of_lt exceeds) hfrom
      have hhandle : handle querier w.storage env (.withdraw amount) = .ok _ :=
        handle_withdraw.trans hwithdraw
      have hfunded : (w.exec ⟨env, .withdraw amount, querier⟩).isSome := by
        refine (exec_isSome_iff_funded hhandle).mpr ?_
        simp only [World.asked] at exceeds held
        simp only [World.postingOf, Posting.Funded, World.books, booksOver]
        omega
      obtain ⟨⟨w', response⟩, hsome⟩ := Option.isSome_iff_exists.mp hfunded
      rw [World.posting_of_exec hsome]
      exact Nat.sub_ne_zero_of_lt exceeds
  | _ => exact absurd exceeds (Nat.not_lt_zero _)

/-- Nothing else is paid out of the delegated amount. -/
theorem takesFromStake_of_unbacked {w : World X} {tx : Tx}
    (h : (w.posting tx).unbacked ≠ 0) : w.TakesFromStake tx := by
  rcases World.step_cases w tx with ⟨response, hexec⟩ | ⟨hexec, _⟩
  · have heffect := World.exec_effect hexec
    have hfunded := (exec_posts hexec).admissible.funded
    rw [World.posting_of_exec hexec] at h hfunded
    generalize (w.step tx).storage = s at heffect
    clear hexec
    obtain ⟨env, msg, querier⟩ := tx
    dsimp only at heffect
    cases heffect with
    | payout open_ amount_eq positive available delegated allowed =>
        rename_i amount liquid unbacked
        rw [World.postingOf_withdraw amount_eq available allowed] at h hfunded
        obtain ⟨hcan, hall, hfits⟩ := allowed h
        have hasked : w.asked ⟨env, .withdraw amount, querier⟩ = liquid + unbacked :=
          amount_eq.symm
        simp only [Posting.unbacked] at h
        refine ⟨hcan, ?_, ?_, hfits, ?_⟩
        · rw [hasked]
          dsimp only
          omega
        · rw [hasked]
          dsimp only
          omega
        · rw [hasked]
          exact hfunded
    | noWinner running triggerer ended restart quiet =>
        simp only [World.postingOf, quiet] at h
        exact absurd rfl h
    | reconfigure running isAdmin change =>
        rcases change with ⟨_, rfl, _⟩ | ⟨_, rfl, _⟩ | ⟨_, rfl, _⟩ <;> exact absurd rfl h
    | viewingKey msg_eq =>
        rcases msg_eq with ⟨_, _, rfl, _⟩ | ⟨_, rfl⟩ <;> exact absurd rfl h
    | _ => exact absurd rfl h
  · exact absurd (by simp [World.posting, hexec]) h

theorem unbacked_eq_zero_iff (w : World X) (tx : Tx) :
    (w.posting tx).unbacked = 0 ↔ ¬ w.TakesFromStake tx := by
  constructor
  · intro hzero htakes
    exact unbacked_of_takesFromStake htakes hzero
  · intro htakes
    by_contra hne
    exact htakes (takesFromStake_of_unbacked hne)

/-! ## The counter -/

/-- One transaction moves the counter away from the users' amounts by what it
pays out of the latter. -/
theorem aggregate_step (w : World X) (tx : Tx) :
    (w.step tx).books.staked + w.books.delegated + 0 =
      w.books.staked + (w.step tx).books.delegated + (w.posting tx).unbacked := by
  have hposts := step_posts w tx
  rw [hposts.books]
  exact Books.staked_drift _ _ hposts.admissible.backed

/-- From where the counter is the sum of the users' amounts, it stays that exactly
when no withdrawal is taken out of the stake. -/
theorem staked_eq_iff {w : World X} (hw : w.books.staked = w.books.delegated)
    (txs : List Tx) :
    (w.run txs).books.staked = (w.run txs).books.delegated ↔
      Along World.step (fun w tx => ¬ w.TakesFromStake tx) w txs := by
  have hdrift := run_balance (fun w : World X => w.books.staked) (fun w => w.books.delegated)
    (fun w tx => (w.posting tx).unbacked) (fun _ _ => 0) aggregate_step w txs
  rw [sumAlong_zero] at hdrift
  have hsum : sumAlong World.step (fun w tx => (w.posting tx).unbacked) w txs = 0 ↔
      Along World.step (fun w tx => ¬ w.TakesFromStake tx) w txs := by
    rw [sumAlong_eq_zero_iff]
    exact along_congr (I := fun _ => True) (fun _ _ _ => trivial)
      (fun w tx _ => unbacked_eq_zero_iff w tx) trivial txs
  rw [← hsum]
  unfold World.run
  omega

/-- After any run from a new pool, the counter of staked tokens is the sum of the
users' delegated amounts exactly when no withdrawal was taken out of the stake. -/
theorem totalTokensStaked_eq_iff {w : World X} (hw : w.Initial) (txs : List Tx) :
    (w.run txs).storage.supplyPool.totalTokensStaked = (w.run txs).totalDelegated ↔
      Along World.step (fun w tx => ¬ w.TakesFromStake tx) w txs := by
  have hstart : w.books.staked = w.books.delegated := by rw [books_of_initial hw]
  exact staked_eq_iff hstart txs

/-- Deposits and an unstaking, a stop, and a withdrawal of available tokens. -/
def backedRun : List Tx :=
  [.depositAt 10 0 batman 3000000, .depositAt 20 70 superman 2000000,
    .at 30 50 batman (.triggerWithdraw (some 1000000)),
    .at 40 0 admin .stopContract, .at 50 9 admin .emergencyRedeemFromStaking,
    .at 60 0 admin .allowWithdrawWhenStopped, .at 70 0 batman (.withdraw none)]

theorem totalTokensStaked_eq_iff_backedRun :
    (testPool.run backedRun).storage.supplyPool.totalTokensStaked =
      (testPool.run backedRun).totalDelegated :=
  (totalTokensStaked_eq_iff testPool_initial backedRun).mpr (by decide)

/-- A deposit is withdrawn from the stopped contract. -/
def unbackedRun : List Tx :=
  [.depositAt 10 0 batman 1000000, .at 20 0 admin .stopContract,
    .at 30 0 admin .emergencyRedeemFromStaking,
    .at 40 0 admin .allowWithdrawWhenStopped, .at 50 0 batman (.withdraw (some 1000000))]

/-- The counter still says what nobody has delegated any more. -/
theorem totalTokensStaked_ne_unbackedRun :
    (testPool.run unbackedRun).Reachable ∧
      (testPool.run unbackedRun).storage.supplyPool.totalTokensStaked = 1000000 ∧
      (testPool.run unbackedRun).totalDelegated = 0 :=
  ⟨testPool_reachable _, by decide, by decide⟩

end SefiStakepool.Chain
