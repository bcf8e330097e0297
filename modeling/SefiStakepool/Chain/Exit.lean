/-
  Chain/Exit.lean --- getting out.

  A pool that is closed, with its stake redeemed and withdrawals allowed, pays every
  user everything, in any order and whatever else is sent to it, until its admin opens
  it again.  A running pool pays everything to a user who unstakes first.
-/
import SefiStakepool.Chain.Answers
import SefiStakepool.Chain.Discipline
import SefiStakepool.Chain.Unstaking

set_option autoImplicit false

namespace SefiStakepool.Chain

open SefiStakepool.Foundation
open SefiStakepool.Contract
open SefiStakepool.Accounting

variable {X : Crates}

/-! ## A closed pool -/

/-- Stopped, with withdrawals allowed and nothing staked. -/
structure Closed (w : World X) : Prop where
  stopped : w.storage.config.isStopped = true
  canWithdraw : w.storage.config.isStoppedCanWithdraw = true
  unstaked : w.totalStake = 0

/-- The transaction resumes the contract or stakes again. -/
def World.Reopens (w : World X) (tx : Tx) : Prop :=
  (tx.msg = .resumeContract ∨ tx.msg = .redelegateToNewContract) ∧ (w.exec tx).isSome

instance (w : World X) (tx : Tx) : Decidable (w.Reopens tx) :=
  inferInstanceAs (Decidable (_ ∧ _))

/-- A closed pool stays closed until it is opened again. -/
theorem Closed.step {w : World X} (h : Closed w) (tx : Tx) (hopen : ¬ w.Reopens tx) :
    Closed (w.step tx) := by
  rcases World.step_cases w tx with ⟨response, hexec⟩ | ⟨_, hstep⟩
  · have hmsg : tx.msg ≠ .resumeContract ∧ tx.msg ≠ .redelegateToNewContract :=
      not_or.mp fun hmsg => hopen ⟨hmsg, by simp [hexec]⟩
    have hinHand : InHand w := ⟨h.stopped, h.unstaked⟩
    have hstep := hinHand.step hmsg.2 hmsg.1
    obtain ⟨_, hcan⟩ := (World.exec_effect hexec).still_stopped hmsg.1 h.stopped
    exact ⟨hstep.stopped, hcan h.canWithdraw, hstep.unstaked⟩
  · rw [hstep]
    exact h

theorem Closed.run {w : World X} (h : Closed w) {txs : List Tx}
    (hopen : Along World.step (fun w tx => ¬ w.Reopens tx) w txs) : Closed (w.run txs) :=
  run_invariant_along (fun _ tx h hopen => h.step tx hopen) h hopen

/-- Withdrawing: what is paid, and what is left. -/
structure World.Pays (w : World X) (tx : Tx) (asked : Nat) : Prop where
  executed : ∃ w' response, w.exec tx = some (w', response) ∧
    response.messages = [.transfer tx.env.message.sender asked w.storage.config.token]
  left : ((w.step tx).storage.user tx.env.message.sender).amountDelegated +
      ((w.step tx).storage.user tx.env.message.sender).availableTokensForWithdraw + asked =
    (w.storage.user tx.env.message.sender).amountDelegated +
      (w.storage.user tx.env.message.sender).availableTokensForWithdraw

/-- An accepted withdrawal that the tokens in hand cover is paid. -/
theorem pays_of_accepts {w : World X} {tx : Tx} {amount : Option Nat}
    (hmsg : tx.msg = .withdraw amount)
    (haccepts : Accepts tx.querier w.storage tx.env amount)
    (hheld : amount.getD (w.storage.user tx.env.message.sender).availableTokensForWithdraw ≤
      w.held) :
    w.Pays tx
      (amount.getD (w.storage.user tx.env.message.sender).availableTokensForWithdraw) := by
  obtain ⟨env, msg, querier⟩ := tx
  obtain rfl : msg = .withdraw amount := hmsg
  obtain ⟨s, response, hhandle⟩ := haccepts
  have hmessages := (withdraw_pays (handle_withdraw.symm.trans hhandle)).1
  have hfunded : (w.postingOf ⟨env, .withdraw amount, querier⟩ response).Funded w.books := by
    simp only [World.postingOf, Posting.Funded, World.books, booksOver]
    dsimp only at hheld
    omega
  obtain ⟨hsome, _, _⟩ := step_of_handle hhandle hfunded
  obtain ⟨w', hexec⟩ := World.exec_of_handle hhandle hsome
  refine ⟨⟨w', response, hexec, hmessages⟩, ?_⟩
  have hstep := user_step env.message.sender w ⟨env, .withdraw amount, querier⟩
  have hwon := totalWon_step env.message.sender w ⟨env, .withdraw amount, querier⟩
  have hresponse := World.response_of_exec hexec
  have hwithdrawn : w.withdrawn env.message.sender ⟨env, .withdraw amount, querier⟩ =
      amount.getD (w.storage.user env.message.sender).availableTokensForWithdraw := by
    simp [World.withdrawn, hresponse, hmessages, transferTo]
  simp only [World.deposited, World.winnings, World.winner, reduceCtorEq, if_false,
    Nat.add_zero] at hstep hwon
  dsimp only
  omega

/-- A contract that takes withdrawals accepts every part of what the query answers. -/
theorem accepts_of_answer {querier : Querier} {s : Storage X} {env : Env} {amount : Option Nat}
    {avail : Nat} (hanswer : queryAvailableFunds s env.message.sender =
      .ok (.availableTokensForWithdrawl avail))
    (hopen : s.config.isStopped = true → s.config.isStoppedCanWithdraw = true)
    (hpositive : 0 < amount.getD (s.user env.message.sender).availableTokensForWithdraw)
    (hle : amount.getD (s.user env.message.sender).availableTokensForWithdraw ≤ avail) :
    Accepts querier s env amount := by
  unfold Accepts
  simp only [handle_withdraw]
  exact (withdraw_isOk_iff hanswer amount).mpr
    ⟨fun hclosed => hclosed.2 (hopen hclosed.1), hpositive, hle⟩

/-- In a closed pool, every user can withdraw any part of what is delegated and available. -/
theorem Closed.pays {w : World X} (h : Closed w) (hw : w.Reachable) {tx : Tx} {asked : Nat}
    (hmsg : tx.msg = .withdraw (some asked)) (hpositive : 0 < asked)
    (hle : asked ≤ (w.storage.user tx.env.message.sender).amountDelegated +
      (w.storage.user tx.env.message.sender).availableTokensForWithdraw)
    (hfits : w.held < 2 ^ 128) : w.Pays tx asked := by
  have howed := owed_le_of_reachable hw
  have hnone := h.unstaked
  have hdelegated := le_total_user UserInfo.amountDelegated rfl w.storage tx.env.message.sender
  have havailable := le_total_user UserInfo.availableTokensForWithdraw rfl w.storage
    tx.env.message.sender
  unfold World.totalDelegated World.totalAvailable at howed
  have hanswer : queryAvailableFunds w.storage tx.env.message.sender =
      .ok (.availableTokensForWithdrawl
        ((w.storage.user tx.env.message.sender).availableTokensForWithdraw +
          (w.storage.user tx.env.message.sender).amountDelegated)) := by
    rw [queryAvailableFunds_eq_ok, if_pos h.canWithdraw]
    exact ⟨by omega, rfl⟩
  have haccepts : Accepts tx.querier w.storage tx.env (some asked) :=
    accepts_of_answer hanswer (fun _ => h.canWithdraw) hpositive (by rw [Option.getD_some]; omega)
  exact pays_of_accepts hmsg haccepts (by rw [Option.getD_some]; omega)

/-! ## Closing a pool -/

/-- The stake is what the counters say, whatever the users are still owed of it. -/
def FullyStaked (b : Books) : Prop := b.current = b.staked + b.restaked ∧ b.elsewhere = 0

/-- Nothing is staked. -/
def Unstaked (b : Books) : Prop := b.current + b.elsewhere = 0

/-- While the contract is stopped, a message that is not from the admin makes a payout,
or nothing. -/
theorem posting_of_foreign {w : World X} {tx : Tx}
    (hstopped : w.storage.config.isStopped = true)
    (hsender : tx.env.message.sender ≠ w.storage.config.admin) :
    w.posting tx = .idle ∨
      ∃ user liquid unbacked, w.posting tx = .payout user liquid unbacked := by
  rcases World.step_cases w tx with ⟨response, hexec⟩ | ⟨hexec, _⟩
  · have heffect := World.exec_effect hexec
    rw [World.posting_of_exec hexec]
    generalize (w.step tx).storage = s at heffect
    clear hexec
    have hrunning : w.storage.config.isStopped ≠ false := by simp [hstopped]
    obtain ⟨env, msg, querier⟩ := tx
    dsimp only at heffect hsender
    cases heffect with
    | payout => exact Or.inr ⟨_, _, _, rfl⟩
    | allow => exact Or.inl rfl
    | viewingKey msg_eq =>
        rcases msg_eq with ⟨_, _, rfl, _⟩ | ⟨_, rfl⟩ <;> exact Or.inl rfl
    | deposit running => exact absurd running hrunning
    | unstake running => exact absurd running hrunning
    | noWinner running => exact absurd running hrunning
    | draw running => exact absurd running hrunning
    | stop running => exact absurd running hrunning
    | reconfigure running => exact absurd running hrunning
    | changeDuration running => exact absurd running hrunning
    | feePayout admin => exact absurd admin.symm hsender
    | excessPayout stopped admin => exact absurd admin.symm hsender
    | redeemAll stopped admin => exact absurd admin.symm hsender
    | restake stopped admin => exact absurd admin.symm hsender
    | relocate stopped admin => exact absurd admin.symm hsender
    | resume stopped admin => exact absurd admin.symm hsender
  · left
    simp [World.posting, hexec]

section
variable {admin : HumanAddr} {staking : SecretContract} {kind : Books → Prop} {w : World X}

/-- A kind of books that only says what is staked is kept by messages that are not the
admin's, also by those that take out of the stake what is not theirs to take. -/
theorem Halted.run_foreign (hkind : ∀ b (user : HumanAddr) liquid unbacked, kind b →
      kind ((Posting.payout user liquid unbacked).apply b))
    (h : Halted admin staking kind w) {txs : List Tx}
    (hsenders : ∀ tx ∈ txs, tx.env.message.sender ≠ admin) :
    Halted admin staking kind (w.run txs) := by
  refine run_invariant_along (I := Halted admin staking kind) ?_ h
    (along_of_forall_mem (fun _ _ hsender => hsender) w hsenders)
  intro w tx h hsender
  have hforeign : tx.env.message.sender ≠ w.storage.config.admin := by
    rw [h.admin_eq]
    exact hsender
  have hbooks : kind (w.step tx).books := by
    rw [(step_posts w tx).books]
    rcases posting_of_foreign h.stopped hforeign with hidle | ⟨user, liquid, unbacked, hpayout⟩
    · rw [hidle]
      exact h.books
    · rw [hpayout]
      exact hkind _ user liquid unbacked h.books
  rcases World.step_cases w tx with ⟨response, hexec⟩ | ⟨_, hstep⟩
  · exact h.of_config ((World.exec_effect hexec).foreign_config hforeign) hbooks
  · rw [hstep]
    exact h

/-- The whole stake can be redeemed where it is what the counters say. -/
theorem Halted.redeem_all (h : Halted admin staking FullyStaked w) (hw : w.Reachable) {tx : Tx}
    (hmsg : tx.msg = .emergencyRedeemFromStaking)
    (hsender : tx.env.message.sender = admin) (hanswers : w.Answers tx) :
    (w.exec tx).isSome ∧ Halted admin staking Unstaked (w.step tx) := by
  have hadmin : w.storage.config.admin = tx.env.message.sender := by
    rw [h.admin_eq, hsender]
  have hfits := hanswers.fits
  have howed := owed_le_of_reachable hw
  obtain ⟨hcurrent, helsewhere⟩ := h.books
  have hstake := World.stakeAt_le_totalStake w w.stakingAddr
  simp only [World.books, booksOver] at hcurrent
  have hhandle : handle tx.querier w.storage tx.env tx.msg = .ok ({ w.storage with
      supplyPool := { w.storage.supplyPool with pendingStakingRewards :=
        w.storage.supplyPool.pendingStakingRewards + w.reported tx } },
      { messages := [.execute w.storage.config.stakingContract.address
          w.storage.config.stakingContract.contractHash
          (.redeem (w.storage.supplyPool.totalRewardsRestaked +
            w.storage.supplyPool.totalTokensStaked))]
        data := .emergencyRedeemFromStaking .success }) := by
    rw [handle_of_stopped h.stopped, hmsg]
    show emergencyRedeemFromStaking tx.querier w.storage tx.env = _
    simp only [emergencyRedeemFromStaking, bind_eq_ok, checkIfAdmin_eq_ok, addU_eq_ok]
    exact ⟨(), hadmin, _, hanswers.query, _, ⟨by omega, rfl⟩, _, ⟨by dsimp only; omega, rfl⟩,
      rfl⟩
  have hposting : ∀ response, w.postingOf tx response = .redeemAll (w.reported tx) := by
    intro response
    unfold World.postingOf
    rw [hmsg]
  obtain ⟨hsome, hstorage, hbooks⟩ := step_of_handle hhandle (by
    rw [hposting]
    simp only [Posting.Funded, World.books, booksOver]
    omega)
  rw [hposting] at hbooks
  refine ⟨hsome, h.of_config (by rw [hstorage]) ?_⟩
  rw [hbooks]
  simp only [Unstaked, Posting.apply, World.books, booksOver] at helsewhere ⊢
  omega

/-- Anyone can then allow withdrawals, which closes the pool. -/
theorem Halted.allow (h : Halted admin staking Unstaked w) {tx : Tx}
    (hmsg : tx.msg = .allowWithdrawWhenStopped) : (w.exec tx).isSome ∧ Closed (w.step tx) := by
  have hhandle : handle tx.querier w.storage tx.env tx.msg = .ok ({ w.storage with
      config := { w.storage.config with isStoppedCanWithdraw := true } },
      { messages := [], data := .allowWithdrawWhenStopped .success }) := by
    rw [handle_of_stopped h.stopped, hmsg]
    rfl
  have hposting : ∀ response, w.postingOf tx response = .idle := by
    intro response
    unfold World.postingOf
    rw [hmsg]
  obtain ⟨hsome, hstorage, hbooks⟩ := step_of_handle hhandle (by rw [hposting]; trivial)
  rw [hposting] at hbooks
  refine ⟨hsome, ?_, ?_, ?_⟩
  · rw [hstorage]
    exact h.stopped
  · rw [hstorage]
  · rw [← books_stake (w.step tx), hbooks]
    exact h.books

end

/-- The three messages that close a pool, and what is sent before, between and after. -/
structure Shutdown where
  stop : Tx
  afterStop : List Tx
  redeem : Tx
  afterRedeem : List Tx
  allow : Tx
  afterAllow : List Tx

namespace Shutdown

/-- The three are what they should be, the first two the admin's; what comes between
them is not the admin's. -/
structure By (d : Shutdown) (admin : HumanAddr) : Prop where
  stop_msg : d.stop.msg = .stopContract
  redeem_msg : d.redeem.msg = .emergencyRedeemFromStaking
  allow_msg : d.allow.msg = .allowWithdrawWhenStopped
  stop_sender : d.stop.env.message.sender = admin
  redeem_sender : d.redeem.env.message.sender = admin
  others : ∀ tx ∈ d.afterStop ++ d.afterRedeem, tx.env.message.sender ≠ admin

/-! The worlds in which the last two are executed, the closed one, and the last one. -/

def atRedeem (d : Shutdown) (w : World X) : World X := (w.step d.stop).run d.afterStop

def atAllow (d : Shutdown) (w : World X) : World X :=
  ((d.atRedeem w).step d.redeem).run d.afterRedeem

def closed (d : Shutdown) (w : World X) : World X := (d.atAllow w).step d.allow

def done (d : Shutdown) (w : World X) : World X := (d.closed w).run d.afterAllow

/-- All transactions in order. -/
def txs (d : Shutdown) : List Tx :=
  d.stop :: (d.afterStop ++ d.redeem :: (d.afterRedeem ++ d.allow :: d.afterAllow))

theorem run_txs (d : Shutdown) (w : World X) : w.run d.txs = d.done w := by
  simp only [txs, World.run, run_append, run_cons, done, closed, atAllow, atRedeem]

/-- All three are executed. -/
structure Executed (d : Shutdown) (w : World X) : Prop where
  stop : (w.exec d.stop).isSome
  redeem : ((d.atRedeem w).exec d.redeem).isSome
  allow : ((d.atAllow w).exec d.allow).isSome

end Shutdown

/-- The three messages are executed and lead to a closed pool. -/
theorem Shutdown.closes {d : Shutdown} {w : World X} (hw : w.Reachable)
    (hrunning : w.storage.config.isStopped = false) (hsettled : Settled w)
    (hd : d.By w.storage.config.admin) (hredeem : (d.atRedeem w).Answers d.redeem) :
    d.Executed w ∧ Closed (d.closed w) := by
  obtain ⟨hno, hregular⟩ := hsettled.running hrunning
  obtain ⟨hafterStop, hafterRedeem⟩ := List.forall_mem_append.mp hd.others
  have hreachable : (d.atRedeem w).Reachable := Reachable.after_run hw (d.stop :: d.afterStop)
  obtain ⟨sstop, hstop⟩ := Undisturbed.stop ⟨hrunning, hno, hregular⟩ hd.stop_msg hd.stop_sender
  have hfull : Halted w.storage.config.admin w.storage.config.stakingContract FullyStaked
      (w.step d.stop) :=
    ⟨hstop.stopped, hstop.admin_eq, hstop.staking_eq,
      hstop.books.current_eq, hstop.books.elsewhere_eq⟩
  have hatRedeem := hfull.run_foreign (fun _ _ _ _ h => h) hafterStop
  obtain ⟨sredeem, hunstaked⟩ := hatRedeem.redeem_all hreachable hd.redeem_msg hd.redeem_sender
    hredeem
  have hatAllow := hunstaked.run_foreign (fun _ _ _ _ h => h) hafterRedeem
  obtain ⟨sallow, hclosed⟩ := hatAllow.allow hd.allow_msg
  exact ⟨⟨sstop, sredeem, sallow⟩, hclosed⟩

/-- From any orderly history that ends with the contract running, let the admin stop it
and redeem the stake, let anyone allow withdrawals, and let the users send anything in
between.  Then all three are executed; and from then on, whatever anyone sends, until
the contract is resumed or the stake delegated again, every user can withdraw any part
of what is delegated and available, and is paid it. -/
theorem exit_of_shutdown {w : World X} (hw : w.Initial) (txs : List Tx)
    (horderly : Along World.step World.Orderly w txs)
    (hrunning : (w.run txs).storage.config.isStopped = false) (d : Shutdown)
    (hd : d.By (w.run txs).storage.config.admin)
    (hredeem : (d.atRedeem (w.run txs)).Answers d.redeem)
    (hopen : Along World.step (fun w tx => ¬ w.Reopens tx) (d.closed (w.run txs)) d.afterAllow)
    (hfits : (d.done (w.run txs)).held < 2 ^ 128) :
    d.Executed (w.run txs) ∧ ∀ exit asked, exit.msg = .withdraw (some asked) → 0 < asked →
      asked ≤ ((d.done (w.run txs)).storage.user exit.env.message.sender).amountDelegated +
        ((d.done (w.run txs)).storage.user exit.env.message.sender).availableTokensForWithdraw →
      (d.done (w.run txs)).Pays exit asked := by
  have hreachable : (w.run txs).Reachable := ⟨w, txs, hw, rfl⟩
  obtain ⟨hexecuted, hclosed⟩ :=
    Shutdown.closes hreachable hrunning (settled_of_orderly hw horderly).1 hd hredeem
  refine ⟨hexecuted, ?_⟩
  intro exit asked hmsg hpositive hle
  have hdone : (d.done (w.run txs)).Reachable := by
    rw [← d.run_txs]
    exact Reachable.after_run hreachable d.txs
  exact (hclosed.run hopen).pays hdone hmsg hpositive hle hfits

/-- Two deposits, of which a part is unstaked. -/
def unstakedPairRun : List Tx :=
  twoDeposits ++ [.at 30 0 batman (.triggerWithdraw (some 1000000))]

/-- The test pool is closed with an impatient user who allows the withdrawals at once,
and is paid out of the stake before it is redeemed. -/
def impatientShutdown : Shutdown where
  stop := .at 50 0 admin .stopContract
  afterStop := [.at 60 0 superman .allowWithdrawWhenStopped,
    .at 61 0 superman (.withdraw (some 900000))]
  redeem := .at 70 30 admin .emergencyRedeemFromStaking
  afterRedeem := [.at 80 0 superman (.withdraw (some 300000))]
  allow := .at 90 0 batman .allowWithdrawWhenStopped
  afterAllow := [.at 100 0 superman (.withdraw (some 800000)),
    .at 110 0 admin .withdrawExcess]

theorem exit_of_shutdown_impatient :
    impatientShutdown.Executed (testPool.run unstakedPairRun) ∧
    (impatientShutdown.done (testPool.run unstakedPairRun)).Pays
      (.at 120 0 batman (.withdraw (some 3000000))) 3000000 := by
  obtain ⟨hexecuted, hpays⟩ := exit_of_shutdown testPool_initial unstakedPairRun (by decide)
    (by decide) impatientShutdown
    ⟨rfl, rfl, rfl, rfl, rfl, by decide⟩ ⟨by decide, by decide⟩ (by decide) (by decide)
  exact ⟨hexecuted, hpays _ _ rfl (by decide) (by decide)⟩

/-! ## Leaving a running pool -/

/-- Messages of others add to what a user can withdraw what the user wins, and nothing
else changes it. -/
theorem available_step_foreign {w : World X} {tx : Tx} {u : HumanAddr}
    (hsender : tx.env.message.sender ≠ u) :
    ((w.step tx).storage.user u).availableTokensForWithdraw =
      (w.storage.user u).availableTokensForWithdraw + w.winnings u tx := by
  have hposts := step_posts w tx
  have havailable := congrArg Account.available (hposts.account u)
  rw [(posting_observed w tx).winnings u]
  have hforeign : (w.posting tx).unstaked u = 0 ∧ (w.posting tx).liquidPaid u = 0 := by
    rcases World.step_cases w tx with ⟨response, hexec⟩ | ⟨hexec, _⟩
    · rw [World.posting_of_exec hexec]
      unfold World.postingOf
      split <;> simp [hsender]
    · rw [World.posting_of_none hexec]
      exact ⟨rfl, rfl⟩
  obtain ⟨hunstaked, hliquid⟩ := hforeign
  simp only [Posting.account, hunstaked, hliquid, Nat.add_zero, Nat.sub_zero] at havailable
  exact havailable

/-- In a settled pool that takes withdrawals, all that is available can be withdrawn, and
is gone then. -/
theorem Settled.pays_available {w : World X} (h : Settled w) (hw : w.Reachable) {tx : Tx}
    (hmsg : tx.msg = .withdraw none)
    (hmode : w.storage.config.isStopped = false ∨ w.storage.config.isStoppedCanWithdraw = true)
    (hpositive : 0 < (w.storage.user tx.env.message.sender).availableTokensForWithdraw)
    (hfits : w.held + w.totalStake < 2 ^ 128) :
    w.Pays tx (w.storage.user tx.env.message.sender).availableTokensForWithdraw ∧
      ((w.step tx).storage.user tx.env.message.sender).availableTokensForWithdraw = 0 := by
  have howed := owed_le_of_reachable hw
  have hpayable := h.books.payable_le
  have hdelegated := le_total_user UserInfo.amountDelegated rfl w.storage tx.env.message.sender
  have havailable := le_total_user UserInfo.availableTokensForWithdraw rfl w.storage
    tx.env.message.sender
  unfold World.totalDelegated World.totalAvailable at howed
  simp only [World.books, booksOver] at hpayable
  have hopen : w.storage.config.isStopped = true →
      w.storage.config.isStoppedCanWithdraw = true := by
    intro hstopped
    refine hmode.resolve_left fun hrunning => ?_
    rw [hrunning] at hstopped
    cases hstopped
  have haccepts : Accepts tx.querier w.storage tx.env none := by
    by_cases hcan : w.storage.config.isStoppedCanWithdraw = true
    · have hanswer : queryAvailableFunds w.storage tx.env.message.sender =
          .ok (.availableTokensForWithdrawl
            ((w.storage.user tx.env.message.sender).availableTokensForWithdraw +
              (w.storage.user tx.env.message.sender).amountDelegated)) := by
        rw [queryAvailableFunds_eq_ok, if_pos hcan]
        exact ⟨by omega, rfl⟩
      exact accepts_of_answer hanswer hopen hpositive (Nat.le_add_right _ _)
    · have hanswer : queryAvailableFunds w.storage tx.env.message.sender =
          .ok (.availableTokensForWithdrawl
            (w.storage.user tx.env.message.sender).availableTokensForWithdraw) := by
        rw [queryAvailableFunds_eq_ok, if_neg hcan]
      exact accepts_of_answer hanswer hopen hpositive (le_refl _)
  have hpays := pays_of_accepts hmsg haccepts (by rw [Option.getD_none]; omega)
  refine ⟨hpays, ?_⟩
  obtain ⟨w', response, hexec, _⟩ := hpays.executed
  have haccount := congrArg Account.available ((step_posts w tx).account tx.env.message.sender)
  have hposting : w.posting tx = .payout tx.env.message.sender
      (w.storage.user tx.env.message.sender).availableTokensForWithdraw 0 := by
    rw [World.posting_of_exec hexec]
    unfold World.postingOf
    rw [hmsg]
    simp
  rw [hposting, Posting.account_payout] at haccount
  exact haccount.trans (Nat.sub_self _)

/-- In a settled running pool a staker who unstakes everything has it all available, and
the pool is settled still. -/
theorem Settled.unstakes_all {w : World X} (h : Settled w) (hw : w.Reachable)
    (hrunning : w.storage.config.isStopped = false) {tx : Tx}
    (hmsg : tx.msg = .triggerWithdraw none)
    (hdelegated : 0 < (w.storage.user tx.env.message.sender).amountDelegated)
    (hanswers : w.Answers tx) :
    (w.exec tx).isSome ∧ Settled (w.step tx) ∧
      ((w.step tx).storage.user tx.env.message.sender).availableTokensForWithdraw =
        (w.storage.user tx.env.message.sender).availableTokensForWithdraw +
          (w.storage.user tx.env.message.sender).amountDelegated := by
  have hfits := hanswers.fits
  have howed := owed_le_of_reachable hw
  have huser := le_total_user UserInfo.amountDelegated rfl w.storage tx.env.message.sender
  have hliquid := le_total_user UserInfo.availableTokensForWithdraw rfl w.storage
    tx.env.message.sender
  have hstaked : w.storage.supplyPool.totalTokensStaked = w.totalDelegated := h.books.staked_eq
  unfold World.totalDelegated at howed hstaked
  unfold World.totalAvailable at howed
  obtain ⟨s, response, hhandle⟩ : ∃ s response,
      triggerWithdraw tx.querier w.storage tx.env none = .ok (s, response) :=
    triggerWithdraw_isOk hdelegated (le_refl _) (by rw [Option.getD_none]; omega)
      (by rw [Option.getD_none]; omega) (by omega)
      (((entered_of_reachable hw).registered tx.env.message.sender).consumeEntries_ok _)
      hanswers.query
  replace hhandle : handle tx.querier w.storage tx.env tx.msg = .ok (s, response) := by
    rw [handle_of_running hrunning, hmsg]
    exact hhandle
  have horderly : w.Orderly tx := by
    intro _
    rw [hmsg]
    trivial
  obtain ⟨hhonours, hsettled⟩ := (orderly_iff_settled h tx).mp horderly
  have hsome := hhonours s response hhandle
  refine ⟨hsome, hsettled, ?_⟩
  obtain ⟨⟨w', response'⟩, hexec⟩ := Option.isSome_iff_exists.mp hsome
  have haccount := congrArg Account.available ((step_posts w tx).account tx.env.message.sender)
  have hposting : w.posting tx = .unstake tx.env.message.sender
      (w.storage.user tx.env.message.sender).amountDelegated (w.reported tx) := by
    rw [World.posting_of_exec hexec]
    unfold World.postingOf
    rw [hmsg]
    simp
  rw [hposting, Posting.account_unstake] at haccount
  exact haccount

/-- After any orderly history that ends with the contract running, a staker unstakes
everything and later withdraws what is available.  Whatever the others send in between,
as long as it is in order, both are executed while the contract takes withdrawals, and
the staker is paid all that was delegated and available and what the staker won since. -/
theorem exit_in_turns {w : World X} (hw : w.Initial) (txs : List Tx)
    (horderly : Along World.step World.Orderly w txs)
    (hrunning : (w.run txs).storage.config.isStopped = false) {u : HumanAddr}
    {unstake leave : Tx} {others : List Tx}
    (hunstake : unstake.msg = .triggerWithdraw none ∧ unstake.env.message.sender = u)
    (hleave : leave.msg = .withdraw none ∧ leave.env.message.sender = u)
    (hdelegated : 0 < ((w.run txs).storage.user u).amountDelegated)
    (hanswers : (w.run txs).Answers unstake)
    (hsenders : ∀ tx ∈ others, tx.env.message.sender ≠ u)
    (hothers : Along World.step World.Orderly ((w.run txs).step unstake) others)
    (hmode : (w.run (txs ++ unstake :: others)).storage.config.isStopped = false ∨
      (w.run (txs ++ unstake :: others)).storage.config.isStoppedCanWithdraw = true)
    (hfits : (w.run (txs ++ unstake :: others)).held +
      (w.run (txs ++ unstake :: others)).totalStake < 2 ^ 128) :
    ((w.run txs).exec unstake).isSome ∧
    (w.run (txs ++ unstake :: others)).Pays leave
      (((w.run txs).storage.user u).amountDelegated +
        ((w.run txs).storage.user u).availableTokensForWithdraw +
        sumAlong World.step (World.winnings u) ((w.run txs).step unstake) others) ∧
    (((w.run (txs ++ unstake :: others)).step leave).storage.user u).availableTokensForWithdraw =
      0 := by
  obtain ⟨hunstake, rfl⟩ := hunstake
  obtain ⟨hleave, hsender⟩ := hleave
  have hreachable : (w.run txs).Reachable := ⟨w, txs, hw, rfl⟩
  obtain ⟨hsome, _, havailable⟩ := (settled_of_orderly hw horderly).1.unstakes_all hreachable
    hrunning hunstake hdelegated hanswers
  have hrun : w.run (txs ++ unstake :: others) = ((w.run txs).step unstake).run others := by
    unfold World.run
    rw [run_append, run_cons]
  have hwhole : Along World.step World.Orderly w (txs ++ unstake :: others) := by
    refine (along_append _ _ _).mpr ⟨horderly, ?_, hothers⟩
    intro _
    rw [hunstake]
    trivial
  have hsettled := (settled_of_orderly hw hwhole).1
  have hlater : ((w.run (txs ++ unstake :: others)).storage.user
      unstake.env.message.sender).availableTokensForWithdraw =
        ((w.run txs).storage.user unstake.env.message.sender).amountDelegated +
        ((w.run txs).storage.user unstake.env.message.sender).availableTokensForWithdraw +
        sumAlong World.step (World.winnings unstake.env.message.sender)
          ((w.run txs).step unstake) others := by
    have hforeign : ((((w.run txs).step unstake).run others).storage.user
        unstake.env.message.sender).availableTokensForWithdraw = _ :=
      run_eq_add_sumAlong (φ := fun w : World X =>
          (w.storage.user unstake.env.message.sender).availableTokensForWithdraw)
        (fun _ _ => available_step_foreign)
        (along_of_forall_mem (fun _ _ hne => hne) ((w.run txs).step unstake) hsenders)
    rw [hrun, hforeign, havailable, Nat.add_comm (UserInfo.amountDelegated _)]
  rw [← hsender] at hlater ⊢
  obtain ⟨hpays, hnone⟩ := hsettled.pays_available ⟨w, _, hw, rfl⟩ hleave hmode
    (by rw [hlater, hsender]; omega) hfits
  rw [hlater] at hpays
  exact ⟨hsome, hpays, hnone⟩

/-- Batman unstakes before a draw that Superman wins, and leaves in the next round after
the stake was moved. -/
def unstakeBeforeDraw : Tx := .at 30 9 batman (.triggerWithdraw none)

def meanwhile : List Tx :=
  [.at 86400 400 triggerer .claimRewards, .at 86410 0 admin .stopContract,
    .at 86420 8 admin .emergencyRedeemFromStaking,
    .at 86440 0 admin (.changeStakingContract ⟨"new_staking_contract"⟩ ""),
    .at 86450 0 admin .redelegateToNewContract, .at 86460 0 admin .resumeContract,
    .at 86470 0 superman (.triggerWithdraw (some 500000)), .at 86480 0 superman (.withdraw none)]

theorem exit_in_turns_meanwhile :
    (testPool.run (unstakedPairRun ++ unstakeBeforeDraw :: meanwhile)).Pays
      (.at 86490 0 batman (.withdraw none)) 3000000 := by
  have hleave : (Tx.at 86490 0 batman (.withdraw none)).msg = .withdraw none ∧
      (Tx.at 86490 0 batman (.withdraw none)).env.message.sender = batman := ⟨rfl, rfl⟩
  have hunstake : unstakeBeforeDraw.msg = .triggerWithdraw none ∧
      unstakeBeforeDraw.env.message.sender = batman := ⟨rfl, rfl⟩
  have hsenders : ∀ tx ∈ meanwhile, tx.env.message.sender ≠ batman := by decide
  obtain ⟨_, hpays, _⟩ := exit_in_turns testPool_initial unstakedPairRun (by decide) (by decide)
    hunstake hleave (by decide) ⟨by decide, by decide⟩ hsenders (by decide) (by decide)
    (by decide)
  exact hpays

end SefiStakepool.Chain
