/-
  Contract/Effect.lean --- what a handle message can do.

  `Effect` lists, once, every way a message can succeed: what it needed, the
  storage it leaves and the response it gives.  `handle_effect` shows that the
  list is complete.  Everything said about runs is said from the list.
-/
import SefiStakepool.Contract.Handle

set_option autoImplicit false

namespace SefiStakepool.Contract

open SefiStakepool.Foundation

variable {X : Crates}

/-- The round that starts in a block. -/
def nextRound (lottery : Lottery) (block : BlockInfo) : Lottery :=
  { lottery with
    entropy := lottery.entropy ++ toBeBytes block.height ++ toBeBytes block.time
    startTime := block.time
    endTime := block.time + lottery.duration }

theorem restartLottery_eq_ok {lottery lottery' : Lottery} {block : BlockInfo} :
    restartLottery lottery block = .ok lottery' ↔
      block.time + lottery.duration < 2 ^ 64 ∧ nextRound lottery block = lottery' := by
  simp only [restartLottery, bind_eq_ok, addU_eq_ok, Except.ok.injEq]
  constructor
  · rintro ⟨_, ⟨hfits, rfl⟩, h⟩
    exact ⟨hfits, h⟩
  · rintro ⟨hfits, h⟩
    exact ⟨_, ⟨hfits, rfl⟩, h⟩

/-- The prize pot at the given reported rewards. -/
def SupplyPool.pot (pool : SupplyPool) (rewards : Nat) : Nat :=
  pool.totalRewardsRestaked + pool.pendingStakingRewards + rewards

/-- The entry a deposit makes. -/
def depositEntry (env : Env) (from_ : HumanAddr) (amount : Nat) : LotteryEntries :=
  { userAddress := from_, amount, entryTime := env.block.time }

/-- The storage of a pool nothing has happened to yet. -/
structure Fresh (s : Storage X) : Prop where
  supplyPool_eq : s.supplyPool = ⟨0, 0, 0, 0⟩
  userInfo_eq : s.userInfo = ∅
  lotteryEntries_eq : s.lotteryEntries = none
  running : s.config.isStopped = false
  noWithdraw : s.config.isStoppedCanWithdraw = false
  round_le : s.lottery.startTime ≤ s.lottery.endTime

/-- `init` leaves a fresh storage. -/
theorem init_fresh {env : Env} {msg : InitMsg} {s : Storage X} {response : InitResponse}
    (h : init X env msg = .ok (s, response)) : Fresh s := by
  simp only [init, bind_eq_ok, addU_eq_ok] at h
  obtain ⟨_, ⟨_, rfl⟩, h⟩ := h
  cases h
  exact ⟨rfl, rfl, rfl, rfl, rfl, Nat.le_add_right _ _⟩

/-- The ways a handle message succeeds. -/
inductive Effect (querier : Querier) (s : Storage X) (env : Env) :
    HandleMsg → Storage X → HandleResponse → Prop
  /-- the token contract brings a deposit -/
  | deposit {sender from_ : HumanAddr} {amount rewards : Nat} {payload : Binary}
      (running : s.config.isStopped = false)
      (token : env.message.sender = s.config.token.address)
      (decoded : X.fromBinary payload = .ok .deposit)
      (minimum : 1000000 ≤ amount)
      (query : queryPendingRewards querier env s.config = .ok ⟨⟨rewards⟩⟩) :
      Effect querier s env (.receive sender from_ amount payload)
        { s with
          userInfo := s.userInfo.insert from_ { s.user from_ with
            amountDelegated := (s.user from_).amountDelegated + amount
            entryIndex := (s.user from_).entryIndex ++
              [(X.store.insert s.entries (depositEntry env from_ amount)).1] }
          lotteryEntries :=
            some (X.store.insert s.entries (depositEntry env from_ amount)).2
          supplyPool := { s.supplyPool with
            totalTokensStaked := s.supplyPool.totalTokensStaked + amount
            totalRewardsRestaked := s.supplyPool.totalRewardsRestaked +
              s.supplyPool.pendingStakingRewards
            pendingStakingRewards := rewards } }
        { messages := [.send s.config.stakingContract.address
            (amount + s.supplyPool.pendingStakingRewards) .deposit s.config.token]
          data := .deposit .success }
  /-- a user unstakes -/
  | unstake {amount : Option Nat} {withdrawAmount rewards : Nat}
      {entries : X.store.Store} {entryIndex : List X.store.Index}
      (running : s.config.isStopped = false)
      (amount_eq : withdrawAmount =
        amount.getD (s.user env.message.sender).amountDelegated)
      (positive : 0 < withdrawAmount)
      (delegated : withdrawAmount ≤ (s.user env.message.sender).amountDelegated)
      (staked : withdrawAmount ≤ s.supplyPool.totalTokensStaked)
      (consumed : consumeEntries X (s.user env.message.sender).entryIndex s.entries
        (s.user env.message.sender).entryIndex withdrawAmount = .ok (entries, entryIndex))
      (query : queryPendingRewards querier env s.config = .ok ⟨⟨rewards⟩⟩) :
      Effect querier s env (.triggerWithdraw amount)
        { s with
          userInfo := s.userInfo.insert env.message.sender
            { s.user env.message.sender with
              amountDelegated :=
                (s.user env.message.sender).amountDelegated - withdrawAmount
              availableTokensForWithdraw :=
                (s.user env.message.sender).availableTokensForWithdraw + withdrawAmount
              entryIndex }
          lotteryEntries := some entries
          supplyPool := { s.supplyPool with
            totalTokensStaked := s.supplyPool.totalTokensStaked - withdrawAmount
            pendingStakingRewards := s.supplyPool.pendingStakingRewards + rewards } }
        { messages := [.execute s.config.stakingContract.address
            s.config.stakingContract.contractHash (.redeem withdrawAmount)]
          data := .triggerWithdraw .success }
  /-- a user is paid, `unbacked` of it out of the delegated amount -/
  | payout {amount : Option Nat} {liquid unbacked : Nat}
      (open_ : s.config.isStopped = false ∨ s.config.isStoppedCanWithdraw = true)
      (amount_eq : liquid + unbacked =
        amount.getD (s.user env.message.sender).availableTokensForWithdraw)
      (positive : 0 < liquid + unbacked)
      (available : liquid ≤ (s.user env.message.sender).availableTokensForWithdraw)
      (delegated : unbacked ≤ (s.user env.message.sender).amountDelegated)
      (allowed : unbacked ≠ 0 → s.config.isStoppedCanWithdraw = true ∧
        liquid = (s.user env.message.sender).availableTokensForWithdraw ∧
        (s.user env.message.sender).amountDelegated +
          (s.user env.message.sender).availableTokensForWithdraw < 2 ^ 128) :
      Effect querier s env (.withdraw amount)
        { s with
          userInfo := s.userInfo.insert env.message.sender
            { s.user env.message.sender with
              amountDelegated := (s.user env.message.sender).amountDelegated - unbacked
              availableTokensForWithdraw :=
                (s.user env.message.sender).availableTokensForWithdraw - liquid } }
        { messages := [.transfer env.message.sender (liquid + unbacked) s.config.token]
          data := .withdraw .success }
  /-- a draw without a winner: only the round is restarted -/
  | noWinner {lottery : Lottery} {response : HandleResponse}
      (running : s.config.isStopped = false)
      (triggerer : env.message.sender = s.config.triggerer)
      (ended : s.lottery.endTime ≤ env.block.time)
      (restart : restartLottery s.lottery env.block = .ok lottery)
      (quiet : response.messages = []) :
      Effect querier s env .claimRewards { s with lottery } response
  /-- a draw with a winner -/
  | draw {winner : HumanAddr} {user : UserInfo X.store.Index} {lottery : Lottery}
      {data : X.store.Store} {rewards share : Nat}
      (running : s.config.isStopped = false)
      (triggerer : env.message.sender = s.config.triggerer)
      (ended : s.lottery.endTime ≤ env.block.time)
      (restart : restartLottery s.lottery env.block = .ok lottery)
      (entries : s.lotteryEntries = some data)
      (drawn : drawWinner X s.config.prngSeed lottery (X.store.values data) =
        .ok (some winner))
      (query : queryPendingRewards querier env s.config = .ok ⟨⟨rewards⟩⟩)
      (share_eq : share =
        s.supplyPool.pot rewards * s.config.triggererSharePercentage / 10000)
      (share_lt : share < s.supplyPool.pot rewards)
      (found : s.userInfo.lookup winner = some user) :
      Effect querier s env .claimRewards
        { s with
          lottery
          supplyPool := { s.supplyPool with
            triggeringCost := share
            pendingStakingRewards := 0
            totalRewardsRestaked := 0 }
          userInfo := s.userInfo.insert winner { user with
            totalWon := user.totalWon + (s.supplyPool.pot rewards - share)
            availableTokensForWithdraw :=
              user.availableTokensForWithdraw + (s.supplyPool.pot rewards - share) }
          userWinningHistory := s.userWinningHistory.insert winner
            (s.userWinningHistory.getD [] winner ++
              [⟨asU64 (s.supplyPool.pot rewards - share), env.block.time⟩])
          lastLotteryResults := s.lastLotteryResults ++
            [⟨asU64 (s.supplyPool.pot rewards - share), env.block.time⟩] }
        { messages := [.execute s.config.stakingContract.address
            s.config.stakingContract.contractHash
            (.redeem s.supplyPool.totalRewardsRestaked)]
          data := .claimRewards .success winner }
  /-- the admin takes the fee -/
  | feePayout
      (admin : s.config.admin = env.message.sender)
      (positive : s.supplyPool.triggeringCost ≠ 0) :
      Effect querier s env .triggeringCostWithdraw
        { s with supplyPool := { s.supplyPool with triggeringCost := 0 } }
        { messages :=
            [.transfer s.config.admin s.supplyPool.triggeringCost s.config.token]
          data := .triggeringCostWithdraw .success }
  /-- the admin takes the pot -/
  | excessPayout
      (stopped : s.config.isStopped = true)
      (admin : s.config.admin = env.message.sender) :
      Effect querier s env .withdrawExcess
        { s with supplyPool := { s.supplyPool with
            pendingStakingRewards := 0, totalRewardsRestaked := 0 } }
        { messages := [.transfer s.config.admin
            (s.supplyPool.pendingStakingRewards + s.supplyPool.totalRewardsRestaked)
            s.config.token]
          data := .withdrawExcess .success }
  /-- the admin redeems the whole stake -/
  | redeemAll {rewards : Nat}
      (stopped : s.config.isStopped = true)
      (admin : s.config.admin = env.message.sender)
      (query : queryPendingRewards querier env s.config = .ok ⟨⟨rewards⟩⟩) :
      Effect querier s env .emergencyRedeemFromStaking
        { s with supplyPool := { s.supplyPool with
            pendingStakingRewards := s.supplyPool.pendingStakingRewards + rewards } }
        { messages := [.execute s.config.stakingContract.address
            s.config.stakingContract.contractHash
            (.redeem (s.supplyPool.totalRewardsRestaked + s.supplyPool.totalTokensStaked))]
          data := .emergencyRedeemFromStaking .success }
  /-- the admin stakes everything again -/
  | restake {rewards : Nat}
      (stopped : s.config.isStopped = true)
      (admin : s.config.admin = env.message.sender)
      (query : queryPendingRewards querier env s.config = .ok ⟨⟨rewards⟩⟩) :
      Effect querier s env .redelegateToNewContract
        { s with supplyPool := { s.supplyPool with
            totalRewardsRestaked := s.supplyPool.totalRewardsRestaked +
              s.supplyPool.pendingStakingRewards
            pendingStakingRewards := rewards } }
        { messages := [.send s.config.stakingContract.address
            (s.supplyPool.totalTokensStaked + s.supplyPool.totalRewardsRestaked +
              s.supplyPool.pendingStakingRewards) .deposit s.config.token]
          data := .redelegateToContract .success }
  /-- the admin names another staking contract -/
  | relocate {address : HumanAddr} {contractHash : String}
      (stopped : s.config.isStopped = true)
      (admin : s.config.admin = env.message.sender) :
      Effect querier s env (.changeStakingContract address contractHash)
        { s with config := { s.config with stakingContract := ⟨address, contractHash⟩ } }
        { messages := [], data := .changeStakingContract .success }
  /-- the admin stops the contract -/
  | stop
      (running : s.config.isStopped = false)
      (admin : s.config.admin = env.message.sender) :
      Effect querier s env .stopContract
        { s with config := { s.config with isStopped := true } }
        { messages := [], data := .stopContract .success }
  /-- anyone allows withdrawals from a stopped contract -/
  | allow
      (stopped : s.config.isStopped = true) :
      Effect querier s env .allowWithdrawWhenStopped
        { s with config := { s.config with isStoppedCanWithdraw := true } }
        { messages := [], data := .allowWithdrawWhenStopped .success }
  /-- the admin resumes the contract -/
  | resume
      (stopped : s.config.isStopped = true)
      (admin : s.config.admin = env.message.sender) :
      Effect querier s env .resumeContract
        { s with config := { s.config with
            isStopped := false, isStoppedCanWithdraw := false } }
        { messages := [], data := .resumeContract .success }
  /-- the admin changes who administers, who draws, or the fee -/
  | reconfigure {msg : HandleMsg} {data : HandleAnswer} {config : Config}
      (running : s.config.isStopped = false)
      (isAdmin : s.config.admin = env.message.sender)
      (change :
        (∃ admin, msg = .changeAdmin admin ∧ config = { s.config with admin }) ∨
        (∃ triggerer, msg = .changeTriggerer triggerer ∧
          config = { s.config with triggerer }) ∨
        ∃ percentage, msg = .changeTriggererShare percentage ∧
          config = { s.config with triggererSharePercentage := percentage }) :
      Effect querier s env msg { s with config } { messages := [], data }
  /-- the admin changes the length of the rounds to come -/
  | changeDuration {duration : Nat}
      (running : s.config.isStopped = false)
      (admin : s.config.admin = env.message.sender) :
      Effect querier s env (.changeLotteryDuration duration)
        { s with lottery := { s.lottery with duration } }
        { messages := [], data := .changeLotteryDuration .success }
  /-- a user creates or sets a viewing key -/
  | viewingKey {msg : HandleMsg} {data : HandleAnswer} {key : ViewingKey}
      (msg_eq :
        (∃ entropy padding, msg = .createViewingKey entropy padding ∧
          key = .new X env s.config.prngSeed entropy.toUTF8.toList) ∨
        ∃ padding, msg = .setViewingKey key.value padding) :
      Effect querier s env msg
        { s with viewingKeys := s.viewingKeys.insert env.message.sender (key.toHashed X) }
        { messages := [], data }

/-! ## The list is complete: users -/

section
variable {querier : Querier} {s s' : Storage X} {env : Env} {response : HandleResponse}

/-- Taking the rewards only when there are some takes them. -/
theorem ite_pos_self (n : Nat) : (if 0 < n then n else 0) = n := by
  split <;> omega

theorem deposit_effect {sender from_ : HumanAddr} {amount : Nat} {payload : Binary}
    (running : s.config.isStopped = false) (decoded : X.fromBinary payload = .ok .deposit)
    (h : deposit querier s env from_ amount = .ok (s', response)) :
    Effect querier s env (.receive sender from_ amount payload) s' response := by
  simp only [deposit, bind_eq_ok, ensure_eq_ok, addU_eq_ok] at h
  obtain ⟨_, token, _, minimum, _, ⟨_, rfl⟩, ⟨⟨rewards⟩⟩, query, _, ⟨_, rfl⟩, _,
    ⟨_, rfl⟩, _, ⟨_, rfl⟩, h⟩ := h
  simp only [ite_pos_self] at h
  cases h
  exact .deposit running token decoded minimum query

theorem receive_effect {sender from_ : HumanAddr} {amount : Nat} {payload : Binary}
    (running : s.config.isStopped = false)
    (h : receive querier s env from_ amount payload = .ok (s', response)) :
    Effect querier s env (.receive sender from_ amount payload) s' response := by
  simp only [receive, bind_eq_ok, liftStd_eq_ok] at h
  obtain ⟨msg, decoded, h⟩ := h
  cases msg with
  | deposit => exact deposit_effect running decoded h
  | _ => cases h

theorem collectRewards_ok {pending rewards collected : Nat}
    (h : collectRewards pending rewards = .ok collected) :
    collected = pending + rewards := by
  unfold collectRewards at h
  split at h
  · exact (addU_eq_ok.mp h).2.symm
  · cases h
    omega

theorem triggerWithdraw_effect {amount : Option Nat}
    (running : s.config.isStopped = false)
    (h : triggerWithdraw querier s env amount = .ok (s', response)) :
    Effect querier s env (.triggerWithdraw amount) s' response := by
  simp only [triggerWithdraw, bind_eq_ok, ensure_eq_ok, addU_eq_ok, subU_eq_ok] at h
  obtain ⟨_, positive, _, delegated, _, ⟨_, rfl⟩, _, ⟨_, rfl⟩, ⟨entries, entryIndex⟩,
    consumed, ⟨⟨rewards⟩⟩, query, pending, hpending, _, ⟨staked, rfl⟩, h⟩ := h
  have hcollected := collectRewards_ok hpending
  subst hcollected
  cases h
  exact .unstake running rfl positive delegated staked consumed query

/-- What `withdrawFrom` takes: first the available tokens, then delegated ones
if withdrawals from a stopped contract are allowed. -/
theorem withdrawFrom_ok {config : Config} {user user' : UserInfo X.store.Index}
    {withdrawAmount : Nat} (h : withdrawFrom config user withdrawAmount = .ok user') :
    ∃ liquid unbacked, liquid + unbacked = withdrawAmount ∧
      liquid ≤ user.availableTokensForWithdraw ∧ unbacked ≤ user.amountDelegated ∧
      (unbacked ≠ 0 → config.isStoppedCanWithdraw = true ∧
        liquid = user.availableTokensForWithdraw ∧
        user.amountDelegated + user.availableTokensForWithdraw < 2 ^ 128) ∧
      user' = { user with
        amountDelegated := user.amountDelegated - unbacked
        availableTokensForWithdraw := user.availableTokensForWithdraw - liquid } := by
  unfold withdrawFrom at h
  split at h
  · simp only [bind_eq_ok, ensure_eq_ok, subU_eq_ok] at h
    obtain ⟨_, hle, _, ⟨_, rfl⟩, h⟩ := h
    cases h
    exact ⟨withdrawAmount, 0, by simp, hle, by simp, by simp, rfl⟩
  · rename_i hcan
    simp only [Bool.not_eq_true, Bool.not_eq_false] at hcan
    simp only [bind_eq_ok, ensure_eq_ok, addU_eq_ok] at h
    obtain ⟨_, ⟨hfits, rfl⟩, _, htotal, h⟩ := h
    split at h
    · rename_i hlt
      simp only [bind_eq_ok, subU_eq_ok] at h
      obtain ⟨_, ⟨_, rfl⟩, _, ⟨hle, rfl⟩, h⟩ := h
      cases h
      refine ⟨user.availableTokensForWithdraw,
        withdrawAmount - user.availableTokensForWithdraw, by omega, le_refl _, hle,
        fun _ => ⟨hcan, rfl, hfits⟩, by simp⟩
    · simp only [bind_eq_ok, subU_eq_ok] at h
      obtain ⟨_, ⟨hle, rfl⟩, h⟩ := h
      cases h
      exact ⟨withdrawAmount, 0, by simp, hle, by simp, by simp, rfl⟩

theorem withdraw_effect {amount : Option Nat}
    (h : withdraw s env amount = .ok (s', response)) :
    Effect querier s env (.withdraw amount) s' response := by
  simp only [withdraw, bind_eq_ok, ensure_eq_ok] at h
  obtain ⟨_, hopen, _, positive, user, hfrom, h⟩ := h
  obtain ⟨liquid, unbacked, amount_eq, available, delegated, allowed, rfl⟩ :=
    withdrawFrom_ok hfrom
  cases h
  rw [← amount_eq] at positive ⊢
  refine .payout ?_ amount_eq positive available delegated allowed
  cases hstopped : s.config.isStopped with
  | false => exact Or.inl rfl
  | true => exact Or.inr (by simpa [hstopped] using hopen)

/-! ## The list is complete: the draw -/

/-- The share is the percentage of the pot, in hundredths of a percent. -/
theorem triggerShare_ok {pot percentage share : Nat}
    (h : triggerShare pot percentage = .ok share) :
    share = pot * percentage / 10000 := by
  simp only [triggerShare, bind_eq_ok, mulU_eq_ok] at h
  obtain ⟨_, ⟨_, rfl⟩, _, ⟨_, rfl⟩, h⟩ := h
  cases h
  have hscale : pot * (percentage * 1000000) = pot * percentage * 1000000 := by
    rw [Nat.mul_assoc]
  rw [hscale, show 10000000000 = 10000 * 1000000 from rfl,
    Nat.mul_div_mul_right _ _ (by omega)]

theorem checkIfTriggerer_eq_ok {config : Config} {account : HumanAddr} {u : Unit} :
    checkIfTriggerer config account = .ok u ↔ config.triggerer = account :=
  ensure_eq_ok

/-- Past its three checks, the handler restarts the round and draws from the entries. -/
theorem claimRewards_eq (htriggerer : s.config.triggerer = env.message.sender)
    (hended : s.lottery.endTime ≤ env.block.time)
    (hstarted : s.lottery.startTime ≤ env.block.time) :
    claimRewards querier s env = restartLottery s.lottery env.block >>= fun lottery =>
      match s.lotteryEntries with
      | none => .ok ({ s with lottery }, noEntriesResponse)
      | some data =>
          if (X.store.iter data).length = 0 then .ok ({ s with lottery }, noEntriesResponse)
          else drawWinner X s.config.prngSeed lottery (X.store.values data) >>= fun
            | none => .ok ({ s with lottery }, zeroWeightResponse)
            | some winner => payWinner querier { s with lottery } env winner := by
  have htriggerer : checkIfTriggerer s.config env.message.sender = .ok () :=
    if_pos htriggerer
  have hended : validateEndTime s.lottery.endTime env.block.time = .ok () := if_pos hended
  have hstarted : validateStartTime s.lottery.startTime env.block.time = .ok () :=
    if_pos hstarted
  simp only [claimRewards, htriggerer, hended, hstarted]
  rfl

theorem claimRewards_effect (running : s.config.isStopped = false)
    (h : claimRewards querier s env = .ok (s', response)) :
    Effect querier s env .claimRewards s' response := by
  simp only [claimRewards, checkIfTriggerer_eq_ok, validateEndTime,
    validateStartTime, bind_eq_ok, ensure_eq_ok] at h
  obtain ⟨_, htriggerer, _, ended, _, _, lottery, restart, h⟩ := h
  have triggerer := htriggerer.symm
  split at h
  · cases h
    exact .noWinner running triggerer ended restart rfl
  · rename_i data hentries
    split at h
    · cases h
      exact .noWinner running triggerer ended restart rfl
    · simp only [bind_eq_ok] at h
      obtain ⟨drawn, hdrawn, h⟩ := h
      cases drawn with
      | none =>
          cases h
          exact .noWinner running triggerer ended restart rfl
      | some winner =>
          simp only [payWinner, bind_eq_ok, addU_eq_ok, subU_eq_ok, ensure_eq_ok,
            unwrap_eq_ok] at h
          obtain ⟨⟨⟨rewards⟩⟩, query, _, ⟨_, rfl⟩, _, ⟨_, rfl⟩, share, hshare, _,
            ⟨_, rfl⟩, _, hprize, user, found, _, ⟨_, rfl⟩, _, ⟨_, rfl⟩, h⟩ := h
          cases h
          exact .draw running triggerer ended restart hentries hdrawn query
            (triggerShare_ok hshare) (by unfold SupplyPool.pot; omega) found

/-! ## The list is complete: the admin -/

theorem checkIfAdmin_eq_ok {config : Config} {account : HumanAddr} {u : Unit} :
    checkIfAdmin config account = .ok u ↔ config.admin = account :=
  ensure_eq_ok

theorem updateConfig_ok {update : Config → Config} {data : HandleAnswer}
    (h : updateConfig update data s env = .ok (s', response)) :
    s.config.admin = env.message.sender ∧ s' = { s with config := update s.config } ∧
      response = { messages := [], data } := by
  simp only [updateConfig, bind_eq_ok, checkIfAdmin_eq_ok] at h
  obtain ⟨_, hadmin, h⟩ := h
  cases h
  exact ⟨hadmin, rfl, rfl⟩

theorem triggeringCostWithdraw_effect
    (h : triggeringCostWithdraw s env = .ok (s', response)) :
    Effect querier s env .triggeringCostWithdraw s' response := by
  simp only [triggeringCostWithdraw, bind_eq_ok, checkIfAdmin_eq_ok, ensure_eq_ok] at h
  obtain ⟨_, hadmin, _, positive, h⟩ := h
  cases h
  exact .feePayout hadmin positive

theorem withdrawExcess_effect (stopped : s.config.isStopped = true)
    (h : withdrawExcess s env = .ok (s', response)) :
    Effect querier s env .withdrawExcess s' response := by
  simp only [withdrawExcess, bind_eq_ok, checkIfAdmin_eq_ok, addU_eq_ok,
    ensure_eq_ok] at h
  obtain ⟨_, hadmin, _, ⟨_, rfl⟩, _, _, h⟩ := h
  cases h
  exact .excessPayout stopped hadmin

theorem emergencyRedeemFromStaking_effect (stopped : s.config.isStopped = true)
    (h : emergencyRedeemFromStaking querier s env = .ok (s', response)) :
    Effect querier s env .emergencyRedeemFromStaking s' response := by
  simp only [emergencyRedeemFromStaking, bind_eq_ok, checkIfAdmin_eq_ok, addU_eq_ok] at h
  obtain ⟨_, hadmin, ⟨⟨rewards⟩⟩, query, _, ⟨_, rfl⟩, _, ⟨_, rfl⟩, h⟩ := h
  cases h
  exact .redeemAll stopped hadmin query

theorem redelegateToContract_effect (stopped : s.config.isStopped = true)
    (h : redelegateToContract querier s env = .ok (s', response)) :
    Effect querier s env .redelegateToNewContract s' response := by
  simp only [redelegateToContract, bind_eq_ok, checkIfAdmin_eq_ok, addU_eq_ok,
    ite_pos_self] at h
  obtain ⟨_, hadmin, ⟨⟨rewards⟩⟩, query, _, ⟨_, rfl⟩, _, ⟨_, rfl⟩, _, ⟨_, rfl⟩, h⟩ := h
  cases h
  exact .restake stopped hadmin query

theorem changeLotteryDuration_effect {duration : Nat}
    (running : s.config.isStopped = false)
    (h : changeLotteryDuration s env duration = .ok (s', response)) :
    Effect querier s env (.changeLotteryDuration duration) s' response := by
  simp only [changeLotteryDuration, bind_eq_ok, checkIfAdmin_eq_ok] at h
  obtain ⟨_, hadmin, h⟩ := h
  cases h
  exact .changeDuration running hadmin

theorem stopContract_effect (running : s.config.isStopped = false)
    (h : stopContract s env = .ok (s', response)) :
    Effect querier s env .stopContract s' response := by
  simp only [stopContract, bind_eq_ok, checkIfAdmin_eq_ok, ensure_eq_ok] at h
  obtain ⟨_, hadmin, _, _, h⟩ := h
  cases h
  exact .stop running hadmin

/-! ## The list is complete -/

theorem handleStopped_effect {msg : HandleMsg} (stopped : s.config.isStopped = true)
    (h : handleStopped querier s env msg = .ok (s', response)) :
    Effect querier s env msg s' response := by
  cases msg with
  | createViewingKey entropy padding =>
      cases h
      exact .viewingKey (Or.inl ⟨entropy, padding, rfl, rfl⟩)
  | setViewingKey key padding =>
      cases h
      exact .viewingKey (Or.inr ⟨padding, rfl⟩)
  | emergencyRedeemFromStaking => exact emergencyRedeemFromStaking_effect stopped h
  | allowWithdrawWhenStopped =>
      cases h
      exact .allow stopped
  | withdrawExcess => exact withdrawExcess_effect stopped h
  | changeStakingContract address contractHash =>
      have h : changeStakingContract s env address contractHash = .ok (s', response) := h
      obtain ⟨hadmin, rfl, rfl⟩ := updateConfig_ok h
      exact .relocate stopped hadmin
  | redelegateToNewContract => exact redelegateToContract_effect stopped h
  | resumeContract =>
      have h : resumeContract s env = .ok (s', response) := h
      obtain ⟨hadmin, rfl, rfl⟩ := updateConfig_ok h
      exact .resume stopped hadmin
  | triggeringCostWithdraw => exact triggeringCostWithdraw_effect h
  | withdraw amount => exact withdraw_effect h
  | _ => cases h

theorem handleRunning_effect {msg : HandleMsg} (running : s.config.isStopped = false)
    (h : handleRunning querier s env msg = .ok (s', response)) :
    Effect querier s env msg s' response := by
  cases msg with
  | claimRewards => exact claimRewards_effect running h
  | receive sender from_ amount payload => exact receive_effect running h
  | withdraw amount => exact withdraw_effect h
  | triggerWithdraw amount => exact triggerWithdraw_effect running h
  | createViewingKey entropy padding =>
      cases h
      exact .viewingKey (Or.inl ⟨entropy, padding, rfl, rfl⟩)
  | setViewingKey key padding =>
      cases h
      exact .viewingKey (Or.inr ⟨padding, rfl⟩)
  | changeAdmin admin =>
      have h : changeAdmin s env admin = .ok (s', response) := h
      obtain ⟨hadmin, rfl, rfl⟩ := updateConfig_ok h
      exact .reconfigure running hadmin (Or.inl ⟨admin, rfl, rfl⟩)
  | changeTriggerer triggerer =>
      have h : changeTriggerer s env triggerer = .ok (s', response) := h
      obtain ⟨hadmin, rfl, rfl⟩ := updateConfig_ok h
      exact .reconfigure running hadmin (Or.inr (Or.inl ⟨triggerer, rfl, rfl⟩))
  | changeTriggererShare percentage =>
      have h : changeTriggererShare s env percentage = .ok (s', response) := h
      obtain ⟨hadmin, rfl, rfl⟩ := updateConfig_ok h
      exact .reconfigure running hadmin (Or.inr (Or.inr ⟨percentage, rfl, rfl⟩))
  | changeLotteryDuration duration => exact changeLotteryDuration_effect running h
  | triggeringCostWithdraw => exact triggeringCostWithdraw_effect h
  | stopContract => exact stopContract_effect running h
  | _ => cases h

theorem handle_of_stopped {msg : HandleMsg} (stopped : s.config.isStopped = true) :
    handle querier s env msg = handleStopped querier s env msg := if_pos stopped

theorem handle_of_running {msg : HandleMsg} (running : s.config.isStopped = false) :
    handle querier s env msg = handleRunning querier s env msg := if_neg (by simp [running])

/-- `Withdraw` is handled the same way in both modes. -/
theorem handle_withdraw {amount : Option Nat} :
    handle querier s env (.withdraw amount) = withdraw s env amount := by
  cases hstopped : s.config.isStopped with
  | false => exact handle_of_running hstopped
  | true => exact handle_of_stopped hstopped

theorem handle_changeStakingContract {address : HumanAddr} {contractHash : String}
    (stopped : s.config.isStopped = true) (admin : s.config.admin = env.message.sender) :
    handle querier s env (.changeStakingContract address contractHash) =
      .ok ({ s with config := { s.config with stakingContract := ⟨address, contractHash⟩ } },
        { messages := [], data := .changeStakingContract .success }) := by
  have hchange : handle querier s env (.changeStakingContract address contractHash) =
      changeStakingContract s env address contractHash := handle_of_stopped stopped
  rw [hchange]
  simp only [changeStakingContract, updateConfig, bind_eq_ok, checkIfAdmin_eq_ok]
  exact ⟨(), admin, trivial⟩

/-- Every successful message has one of the listed effects. -/
theorem handle_effect {msg : HandleMsg}
    (h : handle querier s env msg = .ok (s', response)) :
    Effect querier s env msg s' response := by
  unfold handle at h
  split at h
  · rename_i hstopped
    exact handleStopped_effect hstopped h
  · rename_i hrunning
    exact handleRunning_effect (by simpa using hrunning) h

end

/-! ## What the messages do to the mode -/

section
variable {querier : Querier} {s s' : Storage X} {env : Env} {msg : HandleMsg}
  {response : HandleResponse}

/-- Only `StopContract` stops a running contract. -/
theorem Effect.running (h : Effect querier s env msg s' response)
    (hrunning : s.config.isStopped = false) (hmsg : msg ≠ .stopContract) :
    s'.config.isStopped = false := by
  cases h with
  | reconfigure running isAdmin change =>
      rcases change with ⟨_, _, rfl⟩ | ⟨_, _, rfl⟩ | ⟨_, _, rfl⟩ <;> exact hrunning
  | stop running admin => exact absurd rfl hmsg
  | resume stopped admin => rfl
  | _ => exact hrunning

/-- `StopContract` is the admin's, and does nothing else. -/
theorem Effect.stopContract (h : Effect querier s env .stopContract s' response) :
    s.config.admin = env.message.sender ∧
      s' = { s with config := { s.config with isStopped := true } } := by
  cases h with
  | stop running admin => exact ⟨admin, rfl⟩
  | reconfigure running isAdmin change =>
      rcases change with ⟨_, hchange, _⟩ | ⟨_, hchange, _⟩ | ⟨_, hchange, _⟩ <;> cases hchange
  | viewingKey msg_eq =>
      rcases msg_eq with ⟨_, _, hcreate, _⟩ | ⟨_, hset⟩
      · cases hcreate
      · cases hset

/-- A message that is not from the admin, and does not allow withdrawals from a
stopped contract, changes neither the configuration nor the length of the
rounds, and pays nobody but a user who withdraws. -/
theorem Effect.guarded (h : Effect querier s env msg s' response)
    (hsender : env.message.sender ≠ s.config.admin)
    (hmsg : msg ≠ .allowWithdrawWhenStopped) :
    s'.config = s.config ∧ s'.lottery.duration = s.lottery.duration ∧
      ∀ recipient amount token, .transfer recipient amount token ∈ response.messages →
        ∃ asked, msg = .withdraw asked := by
  cases h with
  | deposit running token decoded minimum query =>
      exact ⟨rfl, rfl, by simp⟩
  | unstake running amount_eq positive delegated staked consumed query =>
      exact ⟨rfl, rfl, by simp⟩
  | payout open_ amount_eq positive available delegated allowed =>
      exact ⟨rfl, rfl, fun _ _ _ _ => ⟨_, rfl⟩⟩
  | noWinner running triggerer ended restart quiet =>
      obtain ⟨_, rfl⟩ := restartLottery_eq_ok.mp restart
      exact ⟨rfl, rfl, by simp [quiet]⟩
  | draw running triggerer ended restart entries drawn query share_eq share_lt found =>
      obtain ⟨_, rfl⟩ := restartLottery_eq_ok.mp restart
      exact ⟨rfl, rfl, by simp⟩
  | feePayout admin => exact absurd admin.symm hsender
  | excessPayout stopped admin => exact absurd admin.symm hsender
  | redeemAll stopped admin => exact absurd admin.symm hsender
  | restake stopped admin => exact absurd admin.symm hsender
  | relocate stopped admin => exact absurd admin.symm hsender
  | stop running admin => exact absurd admin.symm hsender
  | allow stopped => exact absurd rfl hmsg
  | resume stopped admin => exact absurd admin.symm hsender
  | reconfigure running isAdmin => exact absurd isAdmin.symm hsender
  | changeDuration running admin => exact absurd admin.symm hsender
  | viewingKey msg_eq => exact ⟨rfl, rfl, by simp⟩

/-- Of the configuration, a message that is not from the admin can change no more
than whether withdrawals from the stopped contract are allowed. -/
theorem Effect.foreign_config (h : Effect querier s env msg s' response)
    (hsender : env.message.sender ≠ s.config.admin) :
    s'.config =
      { s.config with isStoppedCanWithdraw := s'.config.isStoppedCanWithdraw } := by
  by_cases hmsg : msg = .allowWithdrawWhenStopped
  · subst hmsg
    cases h with
    | allow stopped => rfl
    | reconfigure running isAdmin => exact absurd isAdmin.symm hsender
    | viewingKey msg_eq => rfl
  · rw [(h.guarded hsender hmsg).1]

/-- Withdrawals from a stopped contract are only ever allowed while it is stopped. -/
theorem Effect.stopped_of_withdraw (h : Effect querier s env msg s' response)
    (hs : s.config.isStoppedCanWithdraw = true → s.config.isStopped = true) :
    s'.config.isStoppedCanWithdraw = true → s'.config.isStopped = true := by
  cases h with
  | reconfigure running isAdmin change =>
      rcases change with ⟨_, _, rfl⟩ | ⟨_, _, rfl⟩ | ⟨_, _, rfl⟩ <;> exact hs
  | stop running admin => exact fun _ => rfl
  | allow stopped => exact fun _ => stopped
  | resume stopped admin => exact fun hcan => absurd hcan (by simp)
  | _ => exact hs

/-- No handler sets a viewing key anywhere. -/
theorem Effect.not_setViewingKey (h : Effect querier s env msg s' response) :
    ∀ emitted ∈ response.messages, ∀ key contract,
      emitted ≠ .setViewingKey key contract := by
  cases h with
  | noWinner running triggerer ended restart quiet => simp [quiet]
  | _ => simp

/-- Only `ChangeStakingContract` names another staking contract. -/
theorem Effect.stakingContract (h : Effect querier s env msg s' response) :
    (∃ address contractHash, msg = .changeStakingContract address contractHash ∧
      s.config.isStopped = true ∧ s.config.admin = env.message.sender ∧
      s'.config.stakingContract = ⟨address, contractHash⟩) ∨
    ((∀ address contractHash, msg ≠ .changeStakingContract address contractHash) ∧
      s'.config.stakingContract = s.config.stakingContract) := by
  cases h with
  | relocate stopped admin => exact Or.inl ⟨_, _, rfl, stopped, admin, rfl⟩
  | reconfigure running isAdmin change =>
      rcases change with ⟨_, rfl, rfl⟩ | ⟨_, rfl, rfl⟩ | ⟨_, rfl, rfl⟩ <;>
        exact Or.inr ⟨by simp, rfl⟩
  | viewingKey msg_eq =>
      rcases msg_eq with ⟨_, _, rfl, _⟩ | ⟨_, rfl⟩ <;> exact Or.inr ⟨by simp, rfl⟩
  | _ => exact Or.inr ⟨by simp, rfl⟩

/-- Only `ResumeContract` makes a contract run again; a contract that runs on keeps
whether it allows withdrawals. -/
theorem Effect.still_running (h : Effect querier s env msg s' response)
    (hmsg : msg ≠ .resumeContract) (hrunning : s'.config.isStopped = false) :
    s.config.isStopped = false ∧
      s'.config.isStoppedCanWithdraw = s.config.isStoppedCanWithdraw := by
  cases h with
  | stop => cases hrunning
  | allow stopped =>
      have hrunning : s.config.isStopped = false := hrunning
      rw [stopped] at hrunning
      cases hrunning
  | resume => exact absurd rfl hmsg
  | reconfigure running isAdmin change =>
      rcases change with ⟨_, _, rfl⟩ | ⟨_, _, rfl⟩ | ⟨_, _, rfl⟩ <;> exact ⟨hrunning, rfl⟩
  | _ => exact ⟨hrunning, rfl⟩

/-- A stopped contract stays stopped, and keeps allowing withdrawals, until it is resumed. -/
theorem Effect.still_stopped (h : Effect querier s env msg s' response)
    (hmsg : msg ≠ .resumeContract) (hstopped : s.config.isStopped = true) :
    s'.config.isStopped = true ∧
      (s.config.isStoppedCanWithdraw = true → s'.config.isStoppedCanWithdraw = true) := by
  cases h with
  | stop => exact ⟨rfl, id⟩
  | allow => exact ⟨hstopped, fun _ => rfl⟩
  | resume => exact absurd rfl hmsg
  | reconfigure running isAdmin change =>
      rcases change with ⟨_, _, rfl⟩ | ⟨_, _, rfl⟩ | ⟨_, _, rfl⟩ <;> exact ⟨hstopped, id⟩
  | _ => exact ⟨hstopped, id⟩

end

end SefiStakepool.Contract
