/-
  Chain/Reference.lean --- crates that can be evaluated, and the pool of the
  source's tests running on them.

  The entry store is the arena, and a draw takes the first entry that can be
  drawn.  Digests are stand-ins: a run never compares one.
-/
import SefiStakepool.Foundation.Arena
import SefiStakepool.Chain.World

set_option autoImplicit false

namespace SefiStakepool.Chain

open SefiStakepool.Foundation
open SefiStakepool.Contract

/-! ## Crates -/

/-- The bytes of the deposit message, `\x7b"deposit":\x7b\x7d\x7d`. -/
def depositPayload : Binary :=
  [123, 34, 100, 101, 112, 111, 115, 105, 116, 34, 58, 123, 125, 125]

/-- The position of the first positive weight. -/
def firstPositive (weights : List Nat) : Nat := weights.findIdx fun weight => 0 < weight

theorem firstPositive_spec (weights : List Nat) (h : 0 < weights.sum) :
    ∃ weight, weights[firstPositive weights]? = some weight ∧ 0 < weight := by
  have hexists : ∃ weight ∈ weights, decide (0 < weight) = true := by
    by_contra hnone
    push Not at hnone
    have hzero : weights.sum = 0 := by
      apply List.sum_eq_zero
      intro weight hmem
      have := hnone weight hmem
      simpa using this
    omega
  have hlt : firstPositive weights < weights.length := List.findIdx_lt_length.mpr hexists
  refine ⟨weights[firstPositive weights], List.getElem?_eq_getElem hlt, ?_⟩
  exact of_decide_eq_true (List.findIdx_getElem (w := hlt))

/-- The reference crates. -/
def reference : Crates where
  store := Arena.store LotteryEntries
  sha256 bytes := bytes.take 32
  randBytes seed := seed.take 32
  base64Encode bytes := toString bytes
  sample _ weights := firstPositive weights
  fromBinary bytes :=
    if bytes = depositPayload then .ok .deposit
    else .error (.parseErr "sefi_stakepool::msg::HandleMsg" "not a deposit")
  sample_spec _ weights h := firstPositive_spec weights h

/-! ## Setting up a pool -/

/-- The pool right after its `init`, given what that returned. -/
def World.opened {X : Crates} (result : Storage X × InitResponse) : World X where
  storage := result.1
  held := 0
  stakes := ∅

theorem World.opened_initial {X : Crates} {env : Env} {msg : InitMsg}
    {result : Storage X × InitResponse} (h : init X env msg = .ok result) :
    (World.opened result).Initial :=
  ⟨⟨env, msg, result.2, h⟩, rfl⟩

/-! ## Transactions -/

def admin : HumanAddr := ⟨"admin"⟩
def triggerer : HumanAddr := ⟨"triggerer"⟩
def sefi : SecretContract := ⟨⟨"sefi"⟩, ""⟩
def stakingContract : SecretContract := ⟨⟨"staking_contract"⟩, ""⟩
def batman : HumanAddr := ⟨"Batman"⟩
def superman : HumanAddr := ⟨"Superman"⟩

/-- The environment of a message at a time. -/
def envAt (time : Nat) (sender : HumanAddr) : Env where
  block := { height := time / 6, time }
  message := { sender }
  contract := { address := ⟨"cosmos2contract"⟩ }
  contractCodeHash := ""

/-- A message at a time, while the staking contract reports the rewards. -/
def Tx.at (time rewards : Nat) (sender : HumanAddr) (msg : HandleMsg) : Tx where
  env := envAt time sender
  msg
  querier _ _ := .ok ⟨⟨rewards⟩⟩

/-- A user sends tokens to the pool with the deposit message. -/
def Tx.depositAt (time rewards : Nat) (user : HumanAddr) (amount : Nat) : Tx :=
  Tx.at time rewards sefi.address (.receive user user amount depositPayload)

/-- The pool of the source's tests. -/
def testPool : World reference :=
  World.opened ((init reference (envAt 0 admin)
    { admin := some admin
      triggerer := some triggerer
      token := sefi
      stakingContract
      viewingKey := "123"
      prngSeed := "I'm Batman".toUTF8.toList
      triggererSharePercentage := 100 }).toOption.get (by decide))

theorem testPool_initial : testPool.Initial := World.opened_initial (eq_ok_get _)

/-- A run of the test pool reaches what it reaches. -/
theorem testPool_reachable (txs : List Tx) : (testPool.run txs).Reachable :=
  ⟨testPool, txs, testPool_initial, rfl⟩

end SefiStakepool.Chain
