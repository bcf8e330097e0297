/-
  Chain/Keys.lean --- the viewing key under which the pool reads its rewards.

  `init` sets `STAKING_VK` at the staking contract it is given.  No handler sets a
  viewing key, and `ChangeStakingContract` can name any contract, so the pool can
  read its rewards for as long as it stakes where `init` set the key.
-/
import SefiStakepool.Chain.Ledger

set_option autoImplicit false

namespace SefiStakepool.Chain

open SefiStakepool.Foundation
open SefiStakepool.Contract

variable {X : Crates}

/-! ## Emitted messages -/

namespace World

/-- The messages a transaction emits; a reverted one emits none. -/
def emits (w : World X) (tx : Tx) : List CosmosMsg :=
  match w.response tx with
  | some response => response.messages
  | none => []

/-- The messages a run emits, in order. -/
def emitted (w : World X) (txs : List Tx) : List CosmosMsg :=
  collectAlong World.step World.emits w txs

end World

/-- One of the messages sets `STAKING_VK` at the address. -/
def SetsKey (messages : List CosmosMsg) (address : HumanAddr) : Prop :=
  ∃ contract, .setViewingKey STAKING_VK contract ∈ messages ∧ contract.address = address

/-- The addresses at which `init` sets `STAKING_VK`: that of the staking contract, and
that of the token if the pool is to use the same key there. -/
def GivenKey (msg : InitMsg) (address : HumanAddr) : Prop :=
  address = msg.stakingContract.address ∨
    msg.viewingKey = STAKING_VK ∧ address = msg.token.address

instance (msg : InitMsg) (address : HumanAddr) : Decidable (GivenKey msg address) :=
  inferInstanceAs (Decidable (_ ∨ _ ∧ _))

/-- What `init` does about the staking contract. -/
theorem init_stakingContract {env : Env} {msg : InitMsg} {s : Storage X}
    {response : InitResponse} (h : init X env msg = .ok (s, response)) :
    s.config.stakingContract = msg.stakingContract ∧
      ∀ address, SetsKey response.messages address ↔ GivenKey msg address := by
  simp only [init, bind_eq_ok, addU_eq_ok] at h
  obtain ⟨_, _, h⟩ := h
  cases h
  refine ⟨rfl, fun address => ?_⟩
  simp only [SetsKey, GivenKey, List.mem_cons, reduceCtorEq, CosmosMsg.setViewingKey.injEq,
    List.not_mem_nil, or_false, false_or]
  constructor
  · rintro ⟨contract, ⟨hkey, rfl⟩ | ⟨_, rfl⟩, rfl⟩
    · exact Or.inr ⟨hkey.symm, rfl⟩
    · exact Or.inl rfl
  · rintro (rfl | ⟨hkey, rfl⟩)
    · exact ⟨_, Or.inr ⟨trivial, rfl⟩, rfl⟩
    · exact ⟨_, Or.inl ⟨hkey.symm, rfl⟩, rfl⟩

/-! ## A run -/

namespace World

theorem emits_of_exec {w w' : World X} {tx : Tx} {response : HandleResponse}
    (h : w.exec tx = some (w', response)) : w.emits tx = response.messages := by
  rw [emits, response_of_exec h]

theorem emits_of_none {w : World X} {tx : Tx} (h : w.exec tx = none) : w.emits tx = [] := by
  rw [emits, response_of_none h]

/-- A run sets a viewing key nowhere. -/
theorem not_setViewingKey_emitted (w : World X) (txs : List Tx) :
    ∀ emitted ∈ w.emitted txs, ∀ key contract, emitted ≠ .setViewingKey key contract := by
  refine forall_mem_collectAlong_iff.mpr (along_of_forall_mem (Q := fun _ => True) ?_ w
    fun _ _ => trivial)
  intro w tx _
  rcases World.step_cases w tx with ⟨response, h⟩ | ⟨h, _⟩
  · rw [emits_of_exec h]
    exact (World.exec_effect h).not_setViewingKey
  · rw [emits_of_none h]
    exact fun emitted hmem => absurd hmem (List.not_mem_nil)

/-- If the admin changes the staking contract, then to one that was given the key. -/
def KeepsKey (msg : InitMsg) (w : World X) (tx : Tx) : Prop :=
  ∀ address contractHash, tx.msg = .changeStakingContract address contractHash →
    w.storage.config.isStopped = true → w.storage.config.admin = tx.env.message.sender →
      GivenKey msg address

/-- A stopped contract lets its admin change the staking contract. -/
theorem exec_changeStakingContract {w : World X} {tx : Tx} {address : HumanAddr}
    {contractHash : String} (hmsg : tx.msg = .changeStakingContract address contractHash)
    (hstopped : w.storage.config.isStopped = true)
    (hadmin : w.storage.config.admin = tx.env.message.sender) : (w.exec tx).isSome := by
  obtain ⟨env, msg, querier⟩ := tx
  dsimp only at hmsg hadmin
  subst hmsg
  exact (exec_isSome_iff_funded (handle_changeStakingContract hstopped hadmin)).mpr trivial

/-- From where the staking contract has the key, it has it after a step exactly when
the step keeps it. -/
theorem givenKey_step_iff {msg : InitMsg} (w : World X) (tx : Tx)
    (hw : GivenKey msg w.stakingAddr) :
    GivenKey msg (w.step tx).stakingAddr ↔ w.KeepsKey msg tx := by
  rcases World.step_cases w tx with ⟨response, h⟩ | ⟨h, hstep⟩
  · rcases (World.exec_effect h).stakingContract with
      ⟨address, hash, hmsg, hstopped, hadmin, hnew⟩ | ⟨hmsg, hsame⟩
    · have haddr : (w.step tx).stakingAddr = address := by rw [stakingAddr, hnew]
      rw [haddr]
      constructor
      · intro hgiven address' _ hmsg' _ _
        rw [hmsg] at hmsg'
        cases hmsg'
        exact hgiven
      · intro hkeeps
        exact hkeeps address hash hmsg hstopped hadmin
    · have haddr : (w.step tx).stakingAddr = w.stakingAddr := by
        rw [stakingAddr, stakingAddr, hsame]
      rw [haddr]
      exact iff_of_true hw fun address hash hmsg' _ => absurd hmsg' (hmsg address hash)
  · rw [hstep]
    refine iff_of_true hw fun address hash hmsg hstopped hadmin => ?_
    have hsome := exec_changeStakingContract hmsg hstopped hadmin
    rw [h] at hsome
    cases hsome

end World

/-- What was set by `init` and during a run is what `init` set. -/
theorem setsKey_iff {env : Env} {msg : InitMsg} {w : World X} {response : InitResponse}
    (hinit : init X env msg = .ok (w.storage, response)) (txs : List Tx)
    (address : HumanAddr) :
    SetsKey (response.messages ++ w.emitted txs) address ↔ GivenKey msg address := by
  rw [← (init_stakingContract hinit).2 address]
  constructor
  · rintro ⟨contract, hmem, haddress⟩
    rcases List.mem_append.mp hmem with hfirst | hlater
    · exact ⟨contract, hfirst, haddress⟩
    · exact absurd rfl (w.not_setViewingKey_emitted txs _ hlater _ _)
  · rintro ⟨contract, hmem, haddress⟩
    exact ⟨contract, List.mem_append_left _ hmem, haddress⟩

/-- All along a run the key was set at the staking contract of the moment exactly when
the admin never changes to a contract at which `init` did not set it. -/
theorem key_set_iff {env : Env} {msg : InitMsg} {w : World X} {response : InitResponse}
    (hinit : init X env msg = .ok (w.storage, response)) (txs : List Tx) :
    (∀ pre, pre <+: txs →
      SetsKey (response.messages ++ w.emitted pre) (w.run pre).stakingAddr) ↔
      Along World.step (World.KeepsKey msg) w txs := by
  have hstart : GivenKey msg w.stakingAddr := by
    rw [World.stakingAddr, (init_stakingContract hinit).1]
    exact Or.inl rfl
  simp only [setsKey_iff hinit]
  exact forall_prefix_iff (I := fun w : World X => GivenKey msg w.stakingAddr)
    World.givenKey_step_iff hstart

/-! ## Two runs of the test pool -/

/-- What the test pool is set up with. -/
def testInit : InitMsg where
  admin := some admin
  triggerer := some triggerer
  token := sefi
  stakingContract
  viewingKey := "123"
  prngSeed := "I'm Batman".toUTF8.toList
  triggererSharePercentage := 100

theorem testInit_succeeds : (init reference (envAt 0 admin) testInit).toOption.isSome := by
  decide

/-- What its `init` emits. -/
def testResponse : InitResponse :=
  ((init reference (envAt 0 admin) testInit).toOption.get testInit_succeeds).2

theorem testPool_init :
    init reference (envAt 0 admin) testInit = .ok (testPool.storage, testResponse) := by
  have hopened : testPool = World.opened
      ((init reference (envAt 0 admin) testInit).toOption.get testInit_succeeds) := by
    unfold testPool testInit
    rfl
  rw [hopened]
  unfold testResponse
  have hok := eq_ok_get testInit_succeeds
  revert hok
  generalize (init reference (envAt 0 admin) testInit).toOption.get testInit_succeeds = result
  exact fun hok => hok

/-- The contract is stopped and resumed, and keeps its staking contract. -/
def resumedRun : List Tx :=
  [.depositAt 10 0 batman 1000000, .at 20 0 admin .stopContract,
    .at 30 0 admin (.changeStakingContract stakingContract.address "new hash"),
    .at 40 0 admin .resumeContract]

theorem key_set_resumedRun :
    SetsKey (testResponse.messages ++ testPool.emitted resumedRun) stakingContract.address := by
  refine (key_set_iff testPool_init resumedRun).mpr ?_ _ (List.prefix_refl _)
  refine ⟨?_, ?_, ?_, ?_, trivial⟩ <;> intro address hash hmsg _ _ <;> cases hmsg
  exact Or.inl rfl

/-- The address of another staking contract. -/
def otherContract : HumanAddr := ⟨"another staking contract"⟩

/-- The staking contract is changed and everything is staked there. -/
def changedRun : List Tx :=
  [.depositAt 10 0 batman 1000000, .at 20 0 admin .stopContract,
    .at 30 0 admin .emergencyRedeemFromStaking,
    .at 40 0 admin (.changeStakingContract otherContract ""),
    .at 50 0 admin .redelegateToNewContract, .at 60 0 admin .resumeContract]

/-- A chain on which only the first staking contract was ever given the pool's key. -/
def keyedQuerier : Querier := fun contract _ =>
  if contract.address = stakingContract.address then .ok ⟨⟨0⟩⟩
  else .error (.genericErr "Wrong viewing key for this address or viewing key not set")

/-- The new staking contract was never given the key.  Where it answers only under that
key the redelegation fails, and once the contract is resumed so does every unstaking. -/
theorem key_not_set_changedRun :
    ¬ SetsKey (testResponse.messages ++ testPool.emitted changedRun)
        (testPool.run changedRun).stakingAddr ∧
    (testPool.run changedRun).Reachable ∧
    ((testPool.run (changedRun.take 4)).exec
      ⟨envAt 50 admin, .redelegateToNewContract, keyedQuerier⟩).isSome = false ∧
    ((testPool.run changedRun).exec
      ⟨envAt 70 batman, .triggerWithdraw none, keyedQuerier⟩).isSome = false := by
  refine ⟨?_, testPool_reachable _, by decide, by decide⟩
  rw [setsKey_iff testPool_init]
  decide

end SefiStakepool.Chain
