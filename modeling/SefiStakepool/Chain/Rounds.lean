/-
  Chain/Rounds.lean --- the rounds of a run.

  A round starts when a draw is executed, with a winner or without one, and nothing else
  starts one.  The rounds of any run form a chain: each starts when the one before it is
  over or later, lasts as long as was set when it started, and is drawn with a seed that
  extends the one before by the block it starts in.
-/
import Mathlib.Data.List.Chain
import SefiStakepool.Chain.Control
import SefiStakepool.Chain.Ledger
import SefiStakepool.Chain.Weights
import SefiStakepool.Contract.Query

set_option autoImplicit false

namespace SefiStakepool.Chain

open SefiStakepool.Foundation
open SefiStakepool.Contract

variable {X : Crates}

/-- The round that a transaction starts, if it does. -/
def World.started (w : World X) (tx : Tx) : List Lottery :=
  match tx.msg with
  | .claimRewards =>
      if (w.exec tx).isSome then [nextRound w.storage.lottery tx.env.block] else []
  | _ => []

/-- A round that can start after another. -/
structure Follows (round round' : Lottery) : Prop where
  ended : round.endTime ≤ round'.startTime
  endTime_eq : round'.endTime = round'.startTime + round'.duration
  seed_eq : round'.seed = round.seed
  entropy_eq : ∃ height,
    round'.entropy = round.entropy ++ toBeBytes height ++ toBeBytes round'.startTime

/-- The stored round is the given one, but for the length of the rounds to come. -/
def Plays (round : Lottery) (w : World X) : Prop :=
  { w.storage.lottery with duration := round.duration } = round

/-- A message leaves the round alone, or is a draw that starts the next one. -/
theorem lottery_of_effect {querier : Querier} {s s' : Storage X} {env : Env} {msg : HandleMsg}
    {response : HandleResponse} (h : Effect querier s env msg s' response) :
    msg ≠ .claimRewards ∧ (∃ duration, s'.lottery = { s.lottery with duration }) ∨
      msg = .claimRewards ∧ s.lottery.endTime ≤ env.block.time ∧
        s'.lottery = nextRound s.lottery env.block := by
  cases h with
  | noWinner running triggerer ended restart quiet =>
      exact Or.inr ⟨rfl, ended, (restartLottery_eq_ok.mp restart).2.symm⟩
  | draw running triggerer ended restart entries drawn query share_eq share_lt found =>
      exact Or.inr ⟨rfl, ended, (restartLottery_eq_ok.mp restart).2.symm⟩
  | reconfigure running isAdmin change =>
      rcases change with ⟨_, rfl, _⟩ | ⟨_, rfl, _⟩ | ⟨_, rfl, _⟩ <;>
        exact Or.inl ⟨by simp, _, rfl⟩
  | viewingKey msg_eq =>
      rcases msg_eq with ⟨_, _, rfl, _⟩ | ⟨_, rfl⟩ <;> exact Or.inl ⟨by simp, _, rfl⟩
  | _ => exact Or.inl ⟨by simp, _, rfl⟩

/-- One transaction: no round is started and the old one goes on, or the next one is. -/
theorem started_step {round : Lottery} {w : World X} (h : Plays round w) (tx : Tx) :
    w.started tx = [] ∧ Plays round (w.step tx) ∨
      ∃ next, w.started tx = [next] ∧ Follows round next ∧ Plays next (w.step tx) := by
  unfold Plays at h ⊢
  rcases World.step_cases w tx with ⟨response, hexec⟩ | ⟨hexec, hstep⟩
  · rcases lottery_of_effect (World.exec_effect hexec) with
      ⟨hmsg, duration, hkept⟩ | ⟨hmsg, hended, hnext⟩
    · left
      refine ⟨?_, by rw [hkept]; exact h⟩
      unfold World.started
      split
      · rename_i hclaim
        exact absurd hclaim hmsg
      · rfl
    · right
      refine ⟨nextRound w.storage.lottery tx.env.block, ?_, ?_, by rw [hnext]⟩
      · unfold World.started
        rw [hmsg, hexec]
        rfl
      · -- the stored round differs from the one that is over in its duration alone
        rw [← h]
        exact ⟨hended, rfl, rfl, tx.env.block.height, rfl⟩
  · left
    rw [hstep]
    refine ⟨?_, h⟩
    unfold World.started
    rw [hexec]
    split <;> rfl

/-- The rounds that a run starts, in order. -/
def World.rounds (w : World X) (txs : List Tx) : List Lottery :=
  collectAlong World.step World.started w txs

theorem follows_along (w : World X) (txs : List Tx) :
    List.IsChain Follows (w.storage.lottery :: w.rounds txs) ∧
      Plays ((w.rounds txs).getLastD w.storage.lottery) (w.run txs) := by
  have hstart : Plays w.storage.lottery w := rfl
  exact isChain_collectAlong (I := Plays) (fun _ _ tx h => started_step h tx) hstart txs

/-- The rounds of any run of any pool follow each other, from the one the pool was in; the
stored round is the last of them; and that is what `LotteryInfo` answers. -/
theorem rounds_of_run (w : World X) (txs : List Tx) (querier : Querier) :
    List.IsChain Follows (w.storage.lottery :: w.rounds txs) ∧
    Plays ((w.rounds txs).getLastD w.storage.lottery) (w.run txs) ∧
    query querier (w.run txs).storage .lotteryInfo = .ok (.lotteryInfo
      ((w.rounds txs).getLastD w.storage.lottery).startTime
      ((w.rounds txs).getLastD w.storage.lottery).endTime
      (w.run txs).storage.lottery.duration (w.run txs).storage.config.isStopped
      (w.run txs).storage.config.isStoppedCanWithdraw) := by
  obtain ⟨hchain, hlast⟩ := follows_along w txs
  refine ⟨hchain, hlast, ?_⟩
  rw [← hlast]
  rfl

/-! ## The seeds of the draws -/

/-- What is hashed for the draws of a run, in order; for a round that starts without
entries, what would be. -/
def World.drawSeeds (w : World X) (txs : List Tx) : List (List UInt8) :=
  collectAlong World.step
    (fun w tx => (w.started tx).map (hasherInput w.storage.config.prngSeed)) w txs

/-- A draw asks the hash for nothing else. -/
theorem drawWinner_of_hash {sha256 : List UInt8 → List UInt8} {prngSeed : List UInt8}
    {round : Lottery}
    (h : sha256 (hasherInput prngSeed round) = X.sha256 (hasherInput prngSeed round))
    (entries : List LotteryEntries) :
    drawWinner { X with sha256 } prngSeed round entries =
      drawWinner X prngSeed round entries := by
  unfold drawWinner
  dsimp only
  rw [h]

theorem length_toBeBytes (n : Nat) : (toBeBytes n).length = 8 := by
  simp [toBeBytes]

/-- The bytes start with the other bytes, and there are more of them. -/
def Extends (seed seed' : List UInt8) : Prop := seed <+: seed' ∧ seed.length < seed'.length

instance : Trans Extends Extends Extends where
  trans h h' := ⟨h.1.trans h'.1, h.2.trans h'.2⟩

/-- A round that follows another is drawn with more bytes. -/
theorem Follows.extends {round round' : Lottery} (h : Follows round round')
    (prngSeed : List UInt8) : Extends (hasherInput prngSeed round) (hasherInput prngSeed round') := by
  obtain ⟨height, hentropy⟩ := h.entropy_eq
  unfold hasherInput
  rw [hentropy, ← List.append_assoc, ← List.append_assoc, List.append_assoc (_ ++ _)]
  refine ⟨List.prefix_append _ _, ?_⟩
  simp only [List.length_append, length_toBeBytes]
  omega

/-- The seed of the pool is the same for all draws. -/
theorem drawSeeds_eq (w : World X) (txs : List Tx) :
    w.drawSeeds txs = (w.rounds txs).map (hasherInput w.storage.config.prngSeed) := by
  unfold World.drawSeeds World.rounds
  induction txs generalizing w with
  | nil => rfl
  | cons tx txs ih =>
      have hseed : (w.step tx).storage.config.prngSeed = w.storage.config.prngSeed :=
        (sameSetup_of_run w [tx]).prngSeed
      simp only [collectAlong, List.map_append, ih (w.step tx), hseed]

/-- A transaction with a winner drew from the entries in the round it starts. -/
theorem drawWinner_of_winner {w : World X} {tx : Tx} {u : HumanAddr}
    (h : w.winner tx = some u) :
    drawWinner X w.storage.config.prngSeed (nextRound w.storage.lottery tx.env.block)
      (X.store.values w.storage.entries) = .ok (some u) := by
  cases hexec : w.exec tx with
  | none => simp [World.winner, World.response_of_none hexec] at h
  | some result =>
      obtain ⟨w', response⟩ := result
      have hresponse := World.response_of_exec hexec
      have heffect := World.exec_effect hexec
      generalize w'.storage = s at heffect
      clear hexec
      obtain ⟨env, msg, querier⟩ := tx
      dsimp only at heffect ⊢
      simp only [World.winner, hresponse] at h
      cases heffect with
      | draw running triggerer ended restart entries drawn query share_eq share_lt found =>
          obtain ⟨_, rfl⟩ := restartLottery_eq_ok.mp restart
          cases h
          unfold Storage.entries
          rw [entries]
          exact drawn
      | noWinner running triggerer ended restart quiet =>
          obtain ⟨messages, data⟩ := response
          dsimp only at quiet
          subst quiet
          cases h
      | reconfigure running isAdmin change =>
          rcases change with ⟨_, rfl, _⟩ | ⟨_, rfl, _⟩ | ⟨_, rfl, _⟩ <;> cases h
      | viewingKey msg_eq =>
          rcases msg_eq with ⟨_, _, rfl, _⟩ | ⟨_, rfl⟩ <;> cases h
      | _ => cases h

/-- A draw with a winner starts a round. -/
theorem started_of_winner {w : World X} {tx : Tx} {u : HumanAddr} (h : w.winner tx = some u) :
    w.started tx = [nextRound w.storage.lottery tx.env.block] := by
  unfold World.winner at h
  split at h
  · rename_i hmsg hresponse
    have hsome : (w.exec tx).isSome := by
      cases hexec : w.exec tx with
      | none =>
          rw [World.response_of_none hexec] at hresponse
          cases hresponse
      | some result => rfl
    unfold World.started
    rw [hmsg]
    exact if_pos hsome
  · cases h

/-- Of any two draws of a run, the later is seeded with all the bytes of the earlier and
more: no two draws of a pool hash the same bytes, whoever times them.  The next draw with a
winner hashes the next seed, and would draw the same winner with any hash that agrees
there. -/
theorem drawSeeds_distinct (w : World X) (txs : List Tx) :
    (w.drawSeeds txs).Pairwise Extends ∧ (w.drawSeeds txs).Nodup ∧
    ∀ tx u, (w.run txs).winner tx = some u →
      ∃ seed, w.drawSeeds (txs ++ [tx]) = w.drawSeeds txs ++ [seed] ∧
        ∀ sha256 : List UInt8 → List UInt8, sha256 seed = X.sha256 seed →
          drawWinner { X with sha256 } (w.run txs).storage.config.prngSeed
              (nextRound (w.run txs).storage.lottery tx.env.block)
              (X.store.values (w.run txs).storage.entries) = .ok (some u) := by
  have hpairwise : (w.drawSeeds txs).Pairwise Extends := by
    obtain ⟨hchain, _⟩ := follows_along w txs
    rw [drawSeeds_eq, ← List.isChain_iff_pairwise]
    exact List.isChain_map_of_isChain _ (fun _ _ h => h.extends _) hchain.tail
  refine ⟨hpairwise, hpairwise.imp ?_, ?_⟩
  · rintro seed seed' ⟨_, hlt⟩ rfl
    exact lt_irrefl _ hlt
  · intro tx u hwinner
    have hstarted : (run World.step w txs).started tx =
      [nextRound (w.run txs).storage.lottery tx.env.block] := started_of_winner hwinner
    refine ⟨hasherInput (w.run txs).storage.config.prngSeed
      (nextRound (w.run txs).storage.lottery tx.env.block), ?_, ?_⟩
    · unfold World.drawSeeds
      rw [collectAlong_append, collectAlong, collectAlong, hstarted, List.append_nil]
      rfl
    · intro sha256 hagrees
      rw [drawWinner_of_hash hagrees]
      exact drawWinner_of_winner hwinner

end SefiStakepool.Chain
