/-
  Chain/Migration.lean --- moving the stake to another staking contract.

  The admin stops the contract, redeems the stake, names the new staking contract,
  stakes everything again and resumes; anyone else's messages come in between.
  The books go from regular to redeemed ones and back, and stay what they are in
  every phase for as long as no withdrawal is taken out of the stake.
-/
import SefiStakepool.Chain.Solvency
import SefiStakepool.Chain.Aggregate

set_option autoImplicit false

namespace SefiStakepool.Chain

open SefiStakepool.Foundation
open SefiStakepool.Contract
open SefiStakepool.Accounting

variable {X : Crates}

/-! ## A stopped contract -/

/-- A contract its admin has stopped, with books of a kind. -/
structure Halted (admin : HumanAddr) (staking : SecretContract) (kind : Books → Prop)
    (w : World X) : Prop where
  stopped : w.storage.config.isStopped = true
  admin_eq : w.storage.config.admin = admin
  staking_eq : w.storage.config.stakingContract = staking
  books : kind w.books

/-- Whether withdrawals are allowed makes no difference. -/
theorem Halted.of_config {admin : HumanAddr} {staking : SecretContract}
    {kind kind' : Books → Prop} {w w' : World X} {canWithdraw : Bool}
    (h : Halted admin staking kind w)
    (hconfig : w'.storage.config =
      { w.storage.config with isStoppedCanWithdraw := canWithdraw })
    (hbooks : kind' w'.books) : Halted admin staking kind' w' := by
  refine ⟨?_, ?_, ?_, hbooks⟩
  · rw [hconfig]
    exact h.stopped
  · rw [hconfig]
    exact h.admin_eq
  · rw [hconfig]
    exact h.staking_eq

/-- Books that paying out available amounts keeps of their kind. -/
def KeptByPayouts (kind : Books → Prop) : Prop :=
  ∀ b (user : HumanAddr) liquid, kind b → (Posting.payout user liquid 0).Admissible b →
    kind ((Posting.payout user liquid 0).apply b)

theorem keptByPayouts_regular : KeptByPayouts Books.Regular :=
  fun _ _ _ h hp => h.apply _ hp rfl

theorem keptByPayouts_redeemed : KeptByPayouts Books.Redeemed :=
  fun _ user liquid h hp => h.payout user liquid hp

/-- While the contract is stopped, a message that is not from the admin and takes
nothing out of the stake pays out available amounts, or nothing. -/
theorem posting_of_halted {w : World X} {tx : Tx}
    (hstopped : w.storage.config.isStopped = true)
    (hsender : tx.env.message.sender ≠ w.storage.config.admin)
    (htakes : ¬ w.TakesFromStake tx) :
    w.posting tx = .idle ∨ ∃ user liquid, w.posting tx = .payout user liquid 0 := by
  have hzero := (unbacked_eq_zero_iff w tx).mpr htakes
  rcases World.step_cases w tx with ⟨response, hexec⟩ | ⟨hexec, _⟩
  · have heffect := World.exec_effect hexec
    rw [World.posting_of_exec hexec] at hzero ⊢
    generalize (w.step tx).storage = s at heffect
    clear hexec
    have hrunning : w.storage.config.isStopped ≠ false := by simp [hstopped]
    obtain ⟨env, msg, querier⟩ := tx
    dsimp only at heffect hsender
    cases heffect with
    | payout open_ amount_eq positive available delegated allowed =>
        right
        simp only [World.postingOf, Posting.unbacked] at hzero
        simp only [World.postingOf, hzero]
        exact ⟨_, _, rfl⟩
    | deposit running => exact absurd running hrunning
    | unstake running => exact absurd running hrunning
    | noWinner running => exact absurd running hrunning
    | draw running => exact absurd running hrunning
    | stop running => exact absurd running hrunning
    | reconfigure running => exact absurd running hrunning
    | changeDuration running => exact absurd running hrunning
    | feePayout admin => exact absurd admin.symm hsender
    | excessPayout stopped admin => exact absurd admin.symm hsender
    | redeemAll stopped admin => exact absurd admin.symm hsender
    | restake stopped admin => exact absurd admin.symm hsender
    | relocate stopped admin => exact absurd admin.symm hsender
    | allow stopped => exact Or.inl rfl
    | resume stopped admin => exact absurd admin.symm hsender
    | viewingKey msg_eq =>
        rcases msg_eq with ⟨_, _, rfl, _⟩ | ⟨_, rfl⟩ <;> exact Or.inl rfl
  · left
    simp [World.posting, hexec]

/-- Such a message leaves the contract halted with books of the same kind. -/
theorem Halted.step {admin : HumanAddr} {staking : SecretContract} {kind : Books → Prop}
    (hkind : KeptByPayouts kind) {w : World X} (h : Halted admin staking kind w) {tx : Tx}
    (hsender : tx.env.message.sender ≠ admin) (htakes : ¬ w.TakesFromStake tx) :
    Halted admin staking kind (w.step tx) := by
  have hforeign : tx.env.message.sender ≠ w.storage.config.admin := by
    rw [h.admin_eq]
    exact hsender
  have hbooks : kind (w.step tx).books := by
    have hposts := step_posts w tx
    rw [hposts.books]
    rcases posting_of_halted h.stopped hforeign htakes with hidle | ⟨user, liquid, hpayout⟩
    · rw [hidle]
      exact h.books
    · have hadmissible := hposts.admissible
      rw [hpayout] at hadmissible ⊢
      exact hkind _ user liquid h.books hadmissible
  rcases World.step_cases w tx with ⟨response, hexec⟩ | ⟨_, hstep⟩
  · exact h.of_config ((World.exec_effect hexec).foreign_config hforeign) hbooks
  · rw [hstep]
    exact h

/-- So do any number of them. -/
theorem Halted.run {admin : HumanAddr} {staking : SecretContract} {kind : Books → Prop}
    (hkind : KeptByPayouts kind) {w : World X} (h : Halted admin staking kind w)
    {txs : List Tx} (hsenders : ∀ tx ∈ txs, tx.env.message.sender ≠ admin)
    (htakes : Along World.step (fun w tx => ¬ w.TakesFromStake tx) w txs) :
    Halted admin staking kind (w.run txs) := by
  have hforeign : Along World.step (fun _ tx => tx.env.message.sender ≠ admin) w txs :=
    along_of_forall_mem (fun _ _ hsender => hsender) w hsenders
  exact run_invariant_along (fun _ _ h hboth => h.step hkind hboth.1 hboth.2) h
    (hforeign.and htakes)

/-! ## The admin's five messages -/

/-- The staking contract answers the reward query, and the tokens there are, the
reported ones included, fit a `Uint128`. -/
structure World.Answers (w : World X) (tx : Tx) : Prop where
  query : queryPendingRewards tx.querier tx.env w.storage.config = .ok ⟨⟨w.reported tx⟩⟩
  fits : w.held + w.totalStake + w.reported tx < 2 ^ 128

section
variable {admin : HumanAddr} {staking : SecretContract} {w : World X} {tx : Tx}

/-- Stopping an undisturbed contract halts it with regular books. -/
theorem Undisturbed.stop (h : Undisturbed w) (hmsg : tx.msg = .stopContract)
    (hsender : tx.env.message.sender = w.storage.config.admin) :
    (w.exec tx).isSome ∧ Halted w.storage.config.admin w.storage.config.stakingContract
      Books.Regular (w.step tx) := by
  have hstopped : ¬ w.storage.config.isStopped = true := by simp [h.running]
  have hhandle : handle tx.querier w.storage tx.env tx.msg = .ok ({ w.storage with
      config := { w.storage.config with isStopped := true } },
      { messages := [], data := .stopContract .success }) := by
    rw [handle_of_running h.running, hmsg]
    show stopContract w.storage tx.env = _
    simp only [stopContract, bind_eq_ok, checkIfAdmin_eq_ok, ensure_eq_ok]
    exact ⟨(), hsender.symm, (), hstopped, trivial⟩
  have hposting : ∀ response, w.postingOf tx response = .idle := by
    intro response
    unfold World.postingOf
    rw [hmsg]
  have hstep := step_of_handle hhandle (by rw [hposting]; trivial)
  rw [hposting] at hstep
  obtain ⟨hsome, hstorage, hbooks⟩ := hstep
  refine ⟨hsome, ?_, ?_, ?_, ?_⟩
  · rw [hstorage]
  · rw [hstorage]
  · rw [hstorage]
  · rw [hbooks]
    exact h.regular

/-- The whole stake of a contract with regular books can be redeemed. -/
theorem Halted.redeem (h : Halted admin staking Books.Regular w)
    (hmsg : tx.msg = .emergencyRedeemFromStaking)
    (hsender : tx.env.message.sender = admin) (hanswers : w.Answers tx) :
    (w.exec tx).isSome ∧ Halted admin staking Books.Redeemed (w.step tx) := by
  have hadmin : w.storage.config.admin = tx.env.message.sender := by
    rw [h.admin_eq, hsender]
  have hfits := hanswers.fits
  obtain ⟨hcurrent, _, _, hpayable⟩ := h.books
  have hstake := World.stakeAt_le_totalStake w w.stakingAddr
  simp only [World.books, booksOver] at hcurrent hpayable
  have hhandle : handle tx.querier w.storage tx.env tx.msg = .ok ({ w.storage with
      supplyPool := { w.storage.supplyPool with pendingStakingRewards :=
        w.storage.supplyPool.pendingStakingRewards + w.reported tx } },
      { messages := [.execute w.storage.config.stakingContract.address
          w.storage.config.stakingContract.contractHash
          (.redeem (w.storage.supplyPool.totalRewardsRestaked +
            w.storage.supplyPool.totalTokensStaked))]
        data := .emergencyRedeemFromStaking .success }) := by
    rw [handle_of_stopped h.stopped, hmsg]
    show emergencyRedeemFromStaking tx.querier w.storage tx.env = _
    simp only [emergencyRedeemFromStaking, bind_eq_ok, checkIfAdmin_eq_ok, addU_eq_ok]
    exact ⟨(), hadmin, _, hanswers.query, _, ⟨by omega, rfl⟩, _, ⟨by dsimp only; omega, rfl⟩,
      rfl⟩
  obtain ⟨hfunded, hredeemed⟩ := h.books.redeemAll (U := HumanAddr) (w.reported tx)
  have hposting : ∀ response, w.postingOf tx response = .redeemAll (w.reported tx) := by
    intro response
    unfold World.postingOf
    rw [hmsg]
  obtain ⟨hsome, hstorage, hbooks⟩ := step_of_handle hhandle (by rwa [hposting])
  rw [hposting] at hbooks
  refine ⟨hsome, h.of_config (by rw [hstorage]) ?_⟩
  rw [hbooks]
  exact hredeemed

/-- Where nothing is staked, another staking contract can be named. -/
theorem Halted.change (h : Halted admin staking Books.Redeemed w) {address : HumanAddr}
    {contractHash : String} (hmsg : tx.msg = .changeStakingContract address contractHash)
    (hsender : tx.env.message.sender = admin) :
    (w.exec tx).isSome ∧
      Halted admin ⟨address, contractHash⟩ Books.Redeemed (w.step tx) := by
  have hadmin : w.storage.config.admin = tx.env.message.sender := by
    rw [h.admin_eq, hsender]
  have hhandle : handle tx.querier w.storage tx.env tx.msg = .ok ({ w.storage with
      config := { w.storage.config with stakingContract := ⟨address, contractHash⟩ } },
      { messages := [], data := .changeStakingContract .success }) := by
    rw [hmsg]
    exact handle_changeStakingContract h.stopped hadmin
  have hposting : ∀ response, w.postingOf tx response = .relocate (w.stakeAt address) := by
    intro response
    unfold World.postingOf
    rw [hmsg]
  obtain ⟨hcurrent, helsewhere, hstaked, hpayable⟩ := h.books
  -- the new contract cannot hold any of the pool's stake, because nothing is staked
  have hnone : w.stakeAt address = 0 := by
    have hstake := books_stake w
    have hle := World.stakeAt_le_totalStake w address
    omega
  obtain ⟨hsome, hstorage, hbooks⟩ := step_of_handle hhandle (by rw [hposting]; trivial)
  rw [hposting, hnone] at hbooks
  refine ⟨hsome, ?_, ?_, ?_, ?_⟩
  · rw [hstorage]
    exact h.stopped
  · rw [hstorage]
    exact h.admin_eq
  · rw [hstorage]
  · rw [hbooks]
    constructor <;> simp only [Posting.apply] <;> omega

/-- What was redeemed can be staked again. -/
theorem Halted.redelegate (h : Halted admin staking Books.Redeemed w)
    (hmsg : tx.msg = .redelegateToNewContract)
    (hsender : tx.env.message.sender = admin) (hanswers : w.Answers tx) :
    (w.exec tx).isSome ∧ Halted admin staking Books.Regular (w.step tx) := by
  have hadmin : w.storage.config.admin = tx.env.message.sender := by
    rw [h.admin_eq, hsender]
  have hfits := hanswers.fits
  obtain ⟨_, _, _, hpayable⟩ := h.books
  simp only [World.books, booksOver] at hpayable
  have hhandle : handle tx.querier w.storage tx.env tx.msg = .ok ({ w.storage with
      supplyPool := { w.storage.supplyPool with
        totalRewardsRestaked := w.storage.supplyPool.totalRewardsRestaked +
          w.storage.supplyPool.pendingStakingRewards
        pendingStakingRewards := w.reported tx } },
      { messages := [.send w.storage.config.stakingContract.address
          (w.storage.supplyPool.totalTokensStaked +
            w.storage.supplyPool.totalRewardsRestaked +
            w.storage.supplyPool.pendingStakingRewards) .deposit w.storage.config.token]
        data := .redelegateToContract .success }) := by
    rw [handle_of_stopped h.stopped, hmsg]
    show redelegateToContract tx.querier w.storage tx.env = _
    simp only [redelegateToContract, bind_eq_ok, checkIfAdmin_eq_ok, addU_eq_ok]
    refine ⟨(), hadmin, _, hanswers.query, _, ⟨by omega, rfl⟩, _, ⟨by omega, rfl⟩, _,
      ⟨by omega, rfl⟩, ?_⟩
    simp only [ite_pos_self]
  obtain ⟨hfunded, hregular⟩ := h.books.restake (U := HumanAddr) (w.reported tx)
  have hposting : ∀ response, w.postingOf tx response = .restake (w.reported tx) := by
    intro response
    unfold World.postingOf
    rw [hmsg]
  obtain ⟨hsome, hstorage, hbooks⟩ := step_of_handle hhandle (by rwa [hposting])
  rw [hposting] at hbooks
  refine ⟨hsome, h.of_config (by rw [hstorage]) ?_⟩
  rw [hbooks]
  exact hregular

/-- The admin can resume, which leaves the books as they are. -/
theorem Halted.resume (h : Halted admin staking Books.Regular w)
    (hmsg : tx.msg = .resumeContract) (hsender : tx.env.message.sender = admin) :
    (w.exec tx).isSome ∧ (w.step tx).books.Regular ∧
      (w.step tx).storage.config.stakingContract = staking := by
  have hadmin : w.storage.config.admin = tx.env.message.sender := by
    rw [h.admin_eq, hsender]
  have hhandle : handle tx.querier w.storage tx.env tx.msg = .ok ({ w.storage with
      config := { w.storage.config with isStopped := false, isStoppedCanWithdraw := false } },
      { messages := [], data := .resumeContract .success }) := by
    rw [handle_of_stopped h.stopped, hmsg]
    show resumeContract w.storage tx.env = _
    simp only [resumeContract, updateConfig, bind_eq_ok, checkIfAdmin_eq_ok]
    exact ⟨(), hadmin, trivial⟩
  have hposting : ∀ response, w.postingOf tx response = .idle := by
    intro response
    unfold World.postingOf
    rw [hmsg]
  obtain ⟨hsome, hstorage, hbooks⟩ := step_of_handle hhandle (by rw [hposting]; trivial)
  rw [hposting] at hbooks
  refine ⟨hsome, ?_, ?_⟩
  · rw [hbooks]
    exact h.books
  · rw [hstorage]
    exact h.staking_eq

end

/-! ## The whole migration -/

/-- The admin's five transactions, in the documented order, and the transactions
executed before, between and after them. -/
structure Migration where
  before : List Tx
  stop : Tx
  afterStop : List Tx
  redeem : Tx
  afterRedeem : List Tx
  change : Tx
  afterChange : List Tx
  redelegate : Tx
  afterRedelegate : List Tx
  resume : Tx

namespace Migration

/-- All transactions in order. -/
def txs (m : Migration) : List Tx :=
  m.before ++ m.stop :: (m.afterStop ++ m.redeem :: (m.afterRedeem ++ m.change ::
    (m.afterChange ++ m.redelegate :: (m.afterRedelegate ++ [m.resume]))))

/-- The five are the admin's and what they should be; the others are not the admin's. -/
structure By (m : Migration) (admin address : HumanAddr) (contractHash : String) : Prop where
  stop_msg : m.stop.msg = .stopContract
  redeem_msg : m.redeem.msg = .emergencyRedeemFromStaking
  change_msg : m.change.msg = .changeStakingContract address contractHash
  redelegate_msg : m.redelegate.msg = .redelegateToNewContract
  resume_msg : m.resume.msg = .resumeContract
  senders : ∀ tx ∈ [m.stop, m.redeem, m.change, m.redelegate, m.resume],
    tx.env.message.sender = admin
  others : ∀ tx ∈ m.before ++ m.afterStop ++ m.afterRedeem ++ m.afterChange ++
    m.afterRedelegate, tx.env.message.sender ≠ admin

/-! The worlds in which the five are executed, and the one they lead to. -/

def atStop (m : Migration) (w : World X) : World X := w.run m.before

def atRedeem (m : Migration) (w : World X) : World X :=
  ((m.atStop w).step m.stop).run m.afterStop

def atChange (m : Migration) (w : World X) : World X :=
  ((m.atRedeem w).step m.redeem).run m.afterRedeem

def atRedelegate (m : Migration) (w : World X) : World X :=
  ((m.atChange w).step m.change).run m.afterChange

def atResume (m : Migration) (w : World X) : World X :=
  ((m.atRedelegate w).step m.redelegate).run m.afterRedelegate

def done (m : Migration) (w : World X) : World X := (m.atResume w).step m.resume

theorem run_txs (m : Migration) (w : World X) : w.run m.txs = m.done w := by
  simp only [txs, World.run, run_append, run_cons, run_nil, done, atResume, atRedelegate,
    atChange, atRedeem, atStop]

/-- The five are executed; and then the new staking contract has what the counters
say, the counter of the depositors' part is theirs, and what is payable is in hand. -/
structure Safe (m : Migration) (address : HumanAddr) (w : World X) : Prop where
  stop : ((m.atStop w).exec m.stop).isSome
  redeem : ((m.atRedeem w).exec m.redeem).isSome
  change : ((m.atChange w).exec m.change).isSome
  redelegate : ((m.atRedelegate w).exec m.redelegate).isSome
  resume : ((m.atResume w).exec m.resume).isSome
  stake : (m.done w).stakeAt address =
    (m.done w).storage.supplyPool.totalTokensStaked +
      (m.done w).storage.supplyPool.totalRewardsRestaked
  aggregate : (m.done w).storage.supplyPool.totalTokensStaked = (m.done w).totalDelegated
  payable : (m.done w).totalAvailable +
    (m.done w).storage.supplyPool.pendingStakingRewards +
    (m.done w).storage.supplyPool.triggeringCost ≤ (m.done w).held

end Migration

/-- Only the admin stops the contract. -/
theorem not_stops_of_foreign {w : World X} {tx : Tx}
    (hsender : tx.env.message.sender ≠ w.storage.config.admin) : ¬ w.Stops tx := by
  rintro ⟨hmsg, hsome⟩
  obtain ⟨⟨w', response⟩, hexec⟩ := Option.isSome_iff_exists.mp hsome
  have heffect := World.exec_effect hexec
  rw [hmsg] at heffect
  exact hsender heffect.stopContract.1.symm

/-- Messages that are not the admin's leave an undisturbed contract so, and its admin. -/
theorem Undisturbed.run_foreign {admin : HumanAddr} {w : World X} (h : Undisturbed w)
    (hadmin : w.storage.config.admin = admin) {txs : List Tx}
    (hsenders : ∀ tx ∈ txs, tx.env.message.sender ≠ admin) :
    Undisturbed (w.run txs) ∧ (w.run txs).storage.config.admin = admin := by
  refine run_invariant_along
    (I := fun w => Undisturbed w ∧ w.storage.config.admin = admin) ?_ ⟨h, hadmin⟩
    (along_of_forall_mem (fun _ _ hsender => hsender) w hsenders)
  rintro w tx ⟨h, hadmin⟩ hsender
  have hforeign : tx.env.message.sender ≠ w.storage.config.admin := by
    rw [hadmin]
    exact hsender
  refine ⟨h.step tx (not_stops_of_foreign hforeign), ?_⟩
  rcases World.step_cases w tx with ⟨response, hexec⟩ | ⟨_, hstep⟩
  · rw [(World.exec_effect hexec).foreign_config hforeign]
    exact hadmin
  · rw [hstep]
    exact hadmin

/-- Where no withdrawal is taken out of the stake, the migration is safe. -/
theorem Migration.safe_of_along {m : Migration} {address : HumanAddr}
    {contractHash : String} {w : World X} (hw : Undisturbed w)
    (hm : m.By w.storage.config.admin address contractHash)
    (hredeem : (m.atRedeem w).Answers m.redeem)
    (hredelegate : (m.atRedelegate w).Answers m.redelegate)
    (htakes : Along World.step (fun w tx => ¬ w.TakesFromStake tx) w m.txs) :
    m.Safe address w := by
  have hothers := hm.others
  have hsenders := hm.senders
  simp only [List.forall_mem_append, and_assoc, List.forall_mem_cons] at hothers hsenders
  obtain ⟨hbefore, hafterStop, hafterRedeem, hafterChange, hafterRedelegate⟩ := hothers
  obtain ⟨bystop, byredeem, bychange, byredelegate, byresume, _⟩ := hsenders
  simp only [Migration.txs, along_append, Along] at htakes
  obtain ⟨_, _, hstopped, _, hredeemed, _, hchanged, _, hredelegated, _⟩ := htakes
  obtain ⟨hundisturbed, hadmin⟩ := hw.run_foreign rfl hbefore
  -- the books are regular up to the redemption, redeemed up to the delegation to
  -- the new contract, and regular from there on
  obtain ⟨sstop, hstop⟩ :=
    hundisturbed.stop hm.stop_msg (bystop.trans hadmin.symm)
  rw [hadmin] at hstop
  have hatRedeem := hstop.run keptByPayouts_regular hafterStop hstopped
  obtain ⟨sredeem, hredeem'⟩ := hatRedeem.redeem hm.redeem_msg byredeem hredeem
  have hatChange := hredeem'.run keptByPayouts_redeemed hafterRedeem hredeemed
  obtain ⟨schange, hchange⟩ := hatChange.change hm.change_msg bychange
  have hatRedelegate := hchange.run keptByPayouts_redeemed hafterChange hchanged
  obtain ⟨sredelegate, hredelegate'⟩ :=
    hatRedelegate.redelegate hm.redelegate_msg byredelegate hredelegate
  have hatResume := hredelegate'.run keptByPayouts_regular hafterRedelegate hredelegated
  obtain ⟨sresume, hregular, hstaking⟩ := hatResume.resume hm.resume_msg byresume
  have haddress : (m.done w).stakingAddr = address := by
    unfold World.stakingAddr Migration.done
    exact congrArg SecretContract.address hstaking
  refine ⟨sstop, sredeem, schange, sredelegate, sresume, ?_, hregular.staked_eq,
    hregular.payable_le⟩
  rw [← haddress]
  exact hregular.current_eq

/-- Start from any state reached without a stop, let the admin carry out the
migration and let anyone else send anything in between.  The migration is safe
exactly when no withdrawal is taken out of the stake on the way. -/
theorem migration_safe_iff {w : World X} (hw : w.Initial) (txs : List Tx)
    (hrun : Along World.step (fun w tx => ¬ w.Stops tx) w txs) (m : Migration)
    {address : HumanAddr} {contractHash : String}
    (hm : m.By (w.run txs).storage.config.admin address contractHash)
    (hredeem : (m.atRedeem (w.run txs)).Answers m.redeem)
    (hredelegate : (m.atRedelegate (w.run txs)).Answers m.redelegate) :
    m.Safe address (w.run txs) ↔
      Along World.step (fun w tx => ¬ w.TakesFromStake tx) (w.run txs) m.txs := by
  have hundisturbed := undisturbed_of_run hw hrun
  constructor
  · intro hsafe
    refine (staked_eq_iff hundisturbed.regular.staked_eq m.txs).mp ?_
    rw [m.run_txs]
    exact hsafe.aggregate
  · intro htakes
    exact Migration.safe_of_along hundisturbed hm hredeem hredelegate htakes

/-! ### Two migrations of the test pool -/

/-- A migration during which users send what is given after the redemption. -/
def migrationWith (afterRedeem : List Tx) : Migration where
  before := [.at 40 0 batman (.triggerWithdraw (some 1000000))]
  stop := .at 50 0 admin .stopContract
  afterStop := [.at 60 0 superman .allowWithdrawWhenStopped]
  redeem := .at 70 30 admin .emergencyRedeemFromStaking
  afterRedeem
  change := .at 90 0 admin (.changeStakingContract ⟨"new_staking_contract"⟩ "")
  afterChange := []
  redelegate := .at 100 0 admin .redelegateToNewContract
  afterRedelegate := []
  resume := .at 110 0 admin .resumeContract

theorem migrationWith_by (afterRedeem : List Tx)
    (h : ∀ tx ∈ afterRedeem, tx.env.message.sender ≠ admin) :
    (migrationWith afterRedeem).By admin ⟨"new_staking_contract"⟩ "" where
  stop_msg := rfl
  redeem_msg := rfl
  change_msg := rfl
  redelegate_msg := rfl
  resume_msg := rfl
  senders := by
    simp only [migrationWith, List.forall_mem_cons]
    decide
  others := by
    simp only [migrationWith, List.append_nil, List.forall_mem_append]
    exact ⟨by decide, h⟩

/-- Two deposits, with some of the pot staked again. -/
def twoDeposits : List Tx :=
  [.depositAt 10 0 batman 3000000, .depositAt 20 70 superman 2000000]

/-- A user is paid available tokens in the middle. -/
theorem migration_safe_iff_available :
    (migrationWith [.at 80 0 batman (.withdraw none)]).Safe ⟨"new_staking_contract"⟩
      (testPool.run twoDeposits) :=
  (migration_safe_iff testPool_initial twoDeposits (by decide) _
    (migrationWith_by _ (by decide)) ⟨by decide, by decide⟩ ⟨by decide, by decide⟩).mpr
    (by decide)

/-- A user withdraws the delegated tokens as well: the migration asks for tokens
that are gone. -/
theorem not_migration_safe_delegated :
    (testPool.run twoDeposits).Reachable ∧
    (migrationWith [.at 80 0 batman (.withdraw (some 3000000))]).By admin
      ⟨"new_staking_contract"⟩ "" ∧
    ((migrationWith [.at 80 0 batman (.withdraw (some 3000000))]).atRedelegate
      (testPool.run twoDeposits)).Answers (.at 100 0 admin .redelegateToNewContract) ∧
    ¬ (migrationWith [.at 80 0 batman (.withdraw (some 3000000))]).Safe
      ⟨"new_staking_contract"⟩ (testPool.run twoDeposits) := by
  refine ⟨testPool_reachable _, migrationWith_by _ (by decide), ⟨by decide, by decide⟩, ?_⟩
  intro hsafe
  have hhonoured := hsafe.redelegate
  revert hhonoured
  decide

end SefiStakepool.Chain
