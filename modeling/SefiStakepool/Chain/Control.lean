/-
  Chain/Control.lean --- the configuration as a machine of its own.

  Who may change what, in which mode, is checked by hand in nine handlers.  Together they
  are a small machine over senders and messages alone: no balance, reward, entry or time
  decides whether a message changes the configuration, and none that does can be refused
  for the state of anything else.  The machine also bounds what the pool says to other
  contracts, and at whose word.
-/
import SefiStakepool.Chain.Refinement
import SefiStakepool.Chain.Reference
import SefiStakepool.Chain.Keys

set_option autoImplicit false

namespace SefiStakepool.Chain

open SefiStakepool.Foundation
open SefiStakepool.Contract

variable {X : Crates}

/-- What the admin controls. -/
structure Control where
  config : Config
  /-- of the rounds to come -/
  duration : Nat
  deriving DecidableEq

namespace Control

/-- The sender administers a contract that is running. -/
def Operates (c : Control) (sender : HumanAddr) : Prop :=
  c.config.isStopped = false ∧ c.config.admin = sender

/-- The sender administers a contract that is stopped. -/
def Recovers (c : Control) (sender : HumanAddr) : Prop :=
  c.config.isStopped = true ∧ c.config.admin = sender

instance (c : Control) (sender : HumanAddr) : Decidable (c.Operates sender) :=
  inferInstanceAs (Decidable (_ ∧ _))

instance (c : Control) (sender : HumanAddr) : Decidable (c.Recovers sender) :=
  inferInstanceAs (Decidable (_ ∧ _))

/-- What a message makes of it. -/
def follow (c : Control) : HumanAddr × HandleMsg → Control
  | (sender, .changeAdmin admin) =>
      if c.Operates sender then { c with config := { c.config with admin } } else c
  | (sender, .changeTriggerer triggerer) =>
      if c.Operates sender then { c with config := { c.config with triggerer } } else c
  | (sender, .changeTriggererShare percentage) =>
      if c.Operates sender then
        { c with config := { c.config with triggererSharePercentage := percentage } }
      else c
  | (sender, .changeLotteryDuration duration) =>
      if c.Operates sender then { c with duration } else c
  | (sender, .stopContract) =>
      if c.Operates sender then { c with config := { c.config with isStopped := true } } else c
  | (sender, .changeStakingContract address contractHash) =>
      if c.Recovers sender then
        { c with config := { c.config with stakingContract := ⟨address, contractHash⟩ } }
      else c
  | (sender, .resumeContract) =>
      if c.Recovers sender then
        { c with config := { c.config with isStopped := false, isStoppedCanWithdraw := false } }
      else c
  | (_, .allowWithdrawWhenStopped) =>
      if c.config.isStopped = true then
        { c with config := { c.config with isStoppedCanWithdraw := true } }
      else c
  | _ => c

/-- What a sender can make the pool emit: nothing, or one message, which pays the sender
or goes to the staking contract of the moment. -/
inductive Calls (c : Control) (token : SecretContract) (sender : HumanAddr) :
    List CosmosMsg → Prop
  | quiet : Calls c token sender []
  /-- of a stopped pool: to its admin, or once anyone has allowed withdrawals -/
  | pay {amount : Nat}
      (open_ : c.config.isStopped = true →
        c.config.admin = sender ∨ c.config.isStoppedCanWithdraw = true) :
      Calls c token sender [.transfer sender amount token]
  | stake {amount : Nat}
      (running : c.config.isStopped = false → token.address = sender)
      (stopped : c.config.isStopped = true → c.config.admin = sender) :
      Calls c token sender [.send c.config.stakingContract.address amount .deposit token]
  | redeem {amount : Nat}
      (stopped : c.config.isStopped = true → c.config.admin = sender) :
      Calls c token sender
        [.execute c.config.stakingContract.address c.config.stakingContract.contractHash
          (.redeem amount)]

end Control

/-- What is controlled of a pool. -/
def World.control (w : World X) : Control := ⟨w.storage.config, w.storage.lottery.duration⟩

/-- Who sends what. -/
def Tx.order (tx : Tx) : HumanAddr × HandleMsg := (tx.env.message.sender, tx.msg)

/-- No message changes the rest of the configuration. -/
structure SameSetup (config config' : Config) : Prop where
  token : config'.token = config.token
  viewingKey : config'.viewingKey = config.viewingKey
  prngSeed : config'.prngSeed = config.prngSeed
  ownAddr : config'.ownAddr = config.ownAddr

theorem Control.follow_sameSetup (c : Control) (order : HumanAddr × HandleMsg) :
    SameSetup c.config (c.follow order).config := by
  unfold Control.follow
  split <;> first | exact ⟨rfl, rfl, rfl, rfl⟩ | (split <;> exact ⟨rfl, rfl, rfl, rfl⟩)

/-! ## One message -/

section
variable {w : World X} {tx : Tx} {s : Storage X} {response : HandleResponse}

/-- A message that goes through moves the control as its sender and the message say. -/
theorem control_of_effect (h : Effect tx.querier w.storage tx.env tx.msg s response) :
    (⟨s.config, s.lottery.duration⟩ : Control) = w.control.follow tx.order := by
  obtain ⟨env, msg, querier⟩ := tx
  dsimp only at h
  cases h with
  | noWinner running triggerer ended restart quiet =>
      obtain ⟨_, rfl⟩ := restartLottery_eq_ok.mp restart
      rfl
  | draw running triggerer ended restart entries drawn query share_eq share_lt found =>
      obtain ⟨_, rfl⟩ := restartLottery_eq_ok.mp restart
      rfl
  | stop running admin => exact (if_pos ⟨running, admin⟩).symm
  | relocate stopped admin => exact (if_pos ⟨stopped, admin⟩).symm
  | resume stopped admin => exact (if_pos ⟨stopped, admin⟩).symm
  | allow stopped => exact (if_pos stopped).symm
  | changeDuration running admin => exact (if_pos ⟨running, admin⟩).symm
  | reconfigure running isAdmin change =>
      rcases change with ⟨_, rfl, rfl⟩ | ⟨_, rfl, rfl⟩ | ⟨_, rfl, rfl⟩ <;>
        exact (if_pos ⟨running, isAdmin⟩).symm
  | viewingKey msg_eq =>
      rcases msg_eq with ⟨_, _, rfl, _⟩ | ⟨_, rfl⟩ <;> rfl
  | _ => rfl

/-- A message that is handled and emits nothing goes through. -/
theorem exec_isSome_of_quiet
    (hhandle : handle tx.querier w.storage tx.env tx.msg = .ok (s, response))
    (hquiet : response.messages = []) : (w.exec tx).isSome := by
  simp [World.exec, hhandle, hquiet, World.dispatchAll]

theorem updateConfig_eq {update : Config → Config} {data : HandleAnswer} {env : Env}
    (hadmin : s.config.admin = env.message.sender) :
    updateConfig update data s env =
      .ok ({ s with config := update s.config }, { messages := [], data }) := by
  simp only [updateConfig, bind_eq_ok, checkIfAdmin_eq_ok]
  exact ⟨(), hadmin, trivial⟩

/-- A message that would move the control is never refused. -/
theorem exec_isSome_of_follow_ne (h : w.control.follow tx.order ≠ w.control) :
    (w.exec tx).isSome := by
  obtain ⟨env, msg, querier⟩ := tx
  have hoperates {msg : HandleMsg} {s : Storage X} {data : HandleAnswer}
      (hmay : w.control.Operates env.message.sender)
      (hhandle : handleRunning querier w.storage env msg = .ok (s, { messages := [], data })) :
      (w.exec ⟨env, msg, querier⟩).isSome :=
    exec_isSome_of_quiet ((handle_of_running hmay.1).trans hhandle) rfl
  have hrecovers {msg : HandleMsg} {s : Storage X} {data : HandleAnswer}
      (hstopped : w.storage.config.isStopped = true)
      (hhandle : handleStopped querier w.storage env msg = .ok (s, { messages := [], data })) :
      (w.exec ⟨env, msg, querier⟩).isSome :=
    exec_isSome_of_quiet ((handle_of_stopped hstopped).trans hhandle) rfl
  cases msg with
  | changeAdmin admin =>
      have hmay := by_contra fun hno => h (if_neg hno)
      have hhandle : changeAdmin w.storage env admin = .ok _ := updateConfig_eq hmay.2
      exact hoperates hmay hhandle
  | changeTriggerer triggerer =>
      have hmay := by_contra fun hno => h (if_neg hno)
      have hhandle : changeTriggerer w.storage env triggerer = .ok _ := updateConfig_eq hmay.2
      exact hoperates hmay hhandle
  | changeTriggererShare percentage =>
      have hmay := by_contra fun hno => h (if_neg hno)
      have hhandle : changeTriggererShare w.storage env percentage = .ok _ :=
        updateConfig_eq hmay.2
      exact hoperates hmay hhandle
  | changeLotteryDuration duration =>
      have hmay := by_contra fun hno => h (if_neg hno)
      have hhandle : changeLotteryDuration w.storage env duration = .ok ({ w.storage with
          lottery := { w.storage.lottery with duration } },
          { messages := [], data := .changeLotteryDuration .success }) := by
        simp only [changeLotteryDuration, bind_eq_ok, checkIfAdmin_eq_ok]
        exact ⟨(), hmay.2, trivial⟩
      exact hoperates hmay hhandle
  | stopContract =>
      have hmay := by_contra fun hno => h (if_neg hno)
      have hrunning : ¬ w.storage.config.isStopped = true := by
        rw [Bool.not_eq_true]
        exact hmay.1
      have hhandle : stopContract w.storage env = .ok ({ w.storage with
          config := { w.storage.config with isStopped := true } },
          { messages := [], data := .stopContract .success }) := by
        simp only [stopContract, bind_eq_ok, checkIfAdmin_eq_ok, ensure_eq_ok]
        exact ⟨(), hmay.2, (), hrunning, trivial⟩
      exact hoperates hmay hhandle
  | changeStakingContract address contractHash =>
      have hmay := by_contra fun hno => h (if_neg hno)
      have hhandle : changeStakingContract w.storage env address contractHash = .ok _ :=
        updateConfig_eq hmay.2
      exact hrecovers hmay.1 hhandle
  | resumeContract =>
      have hmay := by_contra fun hno => h (if_neg hno)
      have hhandle : resumeContract w.storage env = .ok _ := updateConfig_eq hmay.2
      exact hrecovers hmay.1 hhandle
  | allowWithdrawWhenStopped => exact hrecovers (by_contra fun hno => h (if_neg hno)) rfl
  | _ => exact absurd rfl h

/-- Every transaction moves the control as its sender and its message say, whether it
goes through or not. -/
theorem control_step (w : World X) (tx : Tx) :
    (w.step tx).control = w.control.follow tx.order := by
  rcases World.step_cases w tx with ⟨response, hexec⟩ | ⟨hexec, hstep⟩
  · exact control_of_effect (World.exec_effect hexec)
  · rw [hstep]
    by_contra hne
    have hsome := exec_isSome_of_follow_ne (Ne.symm hne)
    rw [hexec] at hsome
    cases hsome

end

/-! ## A run -/

/-- After any run, of any pool in any state, the configuration and the length of the
rounds are what the control machine makes of the senders and the messages alone. -/
theorem control_run (w : World X) (txs : List Tx) :
    (w.run txs).control = run Control.follow w.control (txs.map Tx.order) :=
  view_run_map control_step w txs

/-- No run changes what the pool was set up with. -/
theorem sameSetup_of_run (w : World X) (txs : List Tx) :
    SameSetup w.storage.config (w.run txs).storage.config := by
  refine run_invariant (I := fun w' : World X => SameSetup w.storage.config w'.storage.config)
    ?_ ⟨rfl, rfl, rfl, rfl⟩ txs
  intro w' tx h
  have hstep := w'.control.follow_sameSetup tx.order
  rw [← control_step w' tx] at hstep
  exact ⟨hstep.token.trans h.token, hstep.viewingKey.trans h.viewingKey,
    hstep.prngSeed.trans h.prngSeed, hstep.ownAddr.trans h.ownAddr⟩

/-! ## What is said to other contracts -/

/-- A message that goes through emits what its sender can make the pool emit. -/
theorem calls_of_effect {w : World X} {tx : Tx} {s : Storage X} {response : HandleResponse}
    (h : Effect tx.querier w.storage tx.env tx.msg s response) :
    w.control.Calls w.storage.config.token tx.env.message.sender response.messages := by
  obtain ⟨env, msg, querier⟩ := tx
  dsimp only at h
  have hnot {P : Prop} (running : w.control.config.isStopped = false)
      (stopped : w.control.config.isStopped = true) : P :=
    absurd (running.symm.trans stopped) Bool.false_ne_true
  cases h with
  | deposit running token => exact .stake (fun _ => token.symm) (hnot running)
  | unstake running => exact .redeem (hnot running)
  | draw running => exact .redeem (hnot running)
  | redeemAll stopped admin => exact .redeem fun _ => admin
  | restake stopped admin =>
      refine .stake (fun running => hnot running stopped) fun _ => admin
  | payout open_ =>
      refine .pay fun stopped => ?_
      rcases open_ with running | allowed
      · exact hnot running stopped
      · exact Or.inr allowed
  | feePayout admin =>
      dsimp only
      rw [admin]
      exact .pay fun _ => Or.inl admin
  | excessPayout stopped admin =>
      dsimp only
      rw [admin]
      exact .pay fun _ => Or.inl admin
  | noWinner running triggerer ended restart quiet =>
      rw [quiet]
      exact .quiet
  | _ => exact .quiet

/-- After any run, of any pool in any state, the next transaction emits nothing, pays its
sender in the token the pool was set up with, or deposits at or redeems from the staking
contract that the senders and the messages so far have put in force. -/
theorem calls_of_run (w : World X) (txs : List Tx) (tx : Tx) :
    (run Control.follow w.control (txs.map Tx.order)).Calls w.storage.config.token
      tx.env.message.sender ((w.run txs).emits tx) := by
  have hcontrol := view_run_map control_step w txs
  have htoken := (sameSetup_of_run w txs).token
  rw [← hcontrol, ← htoken]
  rcases World.step_cases (w.run txs) tx with ⟨response, hexec⟩ | ⟨hexec, _⟩
  · rw [World.emits_of_exec hexec]
    exact calls_of_effect (World.exec_effect hexec)
  · rw [World.emits_of_none hexec]
    exact .quiet

end SefiStakepool.Chain
