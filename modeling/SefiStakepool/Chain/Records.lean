/-
  Chain/Records.lean --- the records of the draws.

  A draw with a winner is recorded three times: in the winner's running total, in
  the winner's history, and in the public list.  The two lists keep the prize as a
  `u64` and the total does not, so they agree for as long as every prize is one.
-/
import SefiStakepool.Contract.Query
import SefiStakepool.Chain.Isolation

set_option autoImplicit false

namespace SefiStakepool.Chain

open SefiStakepool.Foundation
open SefiStakepool.Contract

variable {X : Crates}

/-! ## Draws -/

/-- A draw that had a winner. -/
structure Draw where
  winner : HumanAddr
  prize : Nat
  time : Nat
  deriving DecidableEq, Repr

namespace Draw

/-- Its line in the public list. -/
def result (d : Draw) : LastLotteryResults := ⟨d.prize, d.time⟩

/-- Its line in the history of the winner. -/
def entry (d : Draw) : UserWinningHistory := ⟨d.prize, d.time⟩

/-- The draw as the lists keep it. -/
def stored (d : Draw) : Draw := { d with prize := asU64 d.prize }

theorem stored_eq_iff (d : Draw) : d.stored = d ↔ d.prize < 2 ^ 64 := by
  obtain ⟨winner, prize, time⟩ := d
  simp only [stored, mk.injEq, true_and, and_true, asU64]
  exact ⟨fun h => h ▸ Nat.mod_lt _ (by decide), Nat.mod_eq_of_lt⟩

end Draw

/-- The draws `u` won. -/
def wonBy (u : HumanAddr) (draws : List Draw) : List Draw :=
  draws.filter fun d => d.winner = u

theorem wonBy_append (u : HumanAddr) (draws draws' : List Draw) :
    wonBy u (draws ++ draws') = wonBy u draws ++ wonBy u draws' :=
  List.filter_append ..

namespace World

/-- The draw a transaction makes, if it makes one that has a winner. -/
def draws (w : World X) (tx : Tx) : List Draw :=
  match w.winner tx with
  | some u => [⟨u, w.winnings u tx, tx.env.block.time⟩]
  | none => []

/-- The draws of a run that had a winner, in order. -/
def drawn (w : World X) (txs : List Tx) : List Draw :=
  collectAlong World.step World.draws w txs

theorem winnings_eq_sum (u : HumanAddr) (w : World X) (tx : Tx) :
    w.winnings u tx = ((wonBy u (w.draws tx)).map Draw.prize).sum := by
  unfold draws winnings
  cases hwinner : w.winner tx with
  | none => simp [wonBy]
  | some winner =>
      by_cases hu : winner = u
      · simp [wonBy, hu]
      · simp [wonBy, hu]

end World

/-! ## What is stored -/

/-- What the storage has of the draws there were. -/
structure Recorded (draws : List Draw) (s : Storage X) : Prop where
  results : s.lastLotteryResults = draws.map fun d => d.stored.result
  histories : ∀ u, history s u = (wonBy u draws).map fun d => d.stored.entry
  won : ∀ u, (s.user u).totalWon = ((wonBy u draws).map Draw.prize).sum
  ordered : (draws.map Draw.time).Pairwise (· ≤ ·)
  past : ∀ d ∈ draws, d.time ≤ s.lottery.endTime

/-- What a message writes of the draw it makes. -/
structure Writes (w : World X) (tx : Tx) (s : Storage X) : Prop where
  results : s.lastLotteryResults =
    w.storage.lastLotteryResults ++ (w.draws tx).map fun d => d.stored.result
  histories : ∀ u, history s u =
    history w.storage u ++ (wonBy u (w.draws tx)).map fun d => d.stored.entry
  later : w.storage.lottery.endTime ≤ s.lottery.endTime
  between : ∀ d ∈ w.draws tx,
    w.storage.lottery.endTime ≤ d.time ∧ d.time ≤ s.lottery.endTime

/-- A message without a winner writes no line. -/
theorem Writes.of_same {w : World X} {tx : Tx} {s : Storage X}
    (hwinner : w.winner tx = none) (hresults : s.lastLotteryResults = w.storage.lastLotteryResults)
    (hhistory : s.userWinningHistory = w.storage.userWinningHistory)
    (hlater : w.storage.lottery.endTime ≤ s.lottery.endTime) : Writes w tx s := by
  have hdraws : w.draws tx = [] := by simp only [World.draws, hwinner]
  refine ⟨?_, ?_, hlater, ?_⟩
  · rw [hdraws, hresults, List.map_nil, List.append_nil]
  · intro u
    simp only [history, hhistory, hdraws, wonBy, List.filter_nil, List.map_nil,
      List.append_nil]
  · rw [hdraws]
    exact fun d hd => absurd hd (List.not_mem_nil)

theorem exec_writes {w w' : World X} {tx : Tx} {response : HandleResponse}
    (hexec : w.exec tx = some (w', response)) : Writes w tx w'.storage := by
  have heffect := World.exec_effect hexec
  have hresponse := World.response_of_exec hexec
  generalize w'.storage = s at heffect
  clear hexec
  obtain ⟨env, msg, querier⟩ := tx
  dsimp only at heffect
  cases heffect with
  | noWinner running triggerer ended restart quiet =>
      obtain ⟨messages, data⟩ := response
      dsimp only at quiet
      subst quiet
      obtain ⟨_, rfl⟩ := restartLottery_eq_ok.mp restart
      exact .of_same (by simp only [World.winner, hresponse]) rfl rfl
        (le_trans ended (Nat.le_add_right _ _))
  | draw running triggerer ended restart entries drawn query share_eq share_lt found =>
      rename_i winner user lottery data rewards share
      obtain ⟨_, rfl⟩ := restartLottery_eq_ok.mp restart
      have hwinner : w.winner ⟨env, .claimRewards, querier⟩ = some winner := by
        simp only [World.winner, hresponse]
      have hprize : w.winnings winner ⟨env, .claimRewards, querier⟩ =
          w.storage.supplyPool.pot rewards - share := by
        rw [World.winnings_of_query hwinner query, share_eq]
        rfl
      have hdraws : w.draws ⟨env, .claimRewards, querier⟩ =
          [⟨winner, w.storage.supplyPool.pot rewards - share, env.block.time⟩] := by
        simp only [World.draws, hwinner, hprize]
      refine ⟨?_, ?_, le_trans ended (Nat.le_add_right _ _), ?_⟩
      · rw [hdraws]
        rfl
      · intro u
        rw [hdraws]
        by_cases hu : winner = u
        · subst hu
          simp only [wonBy, history, KeyedMap.getD_insert_self, List.filter_cons,
            decide_true, if_true, List.filter_nil, List.map_cons, List.map_nil]
          rfl
        · simp only [wonBy, history, KeyedMap.getD_insert_of_ne _ _ _ (Ne.symm hu),
            List.filter_cons, decide_eq_true_eq, hu, if_false, List.filter_nil,
            List.map_nil, List.append_nil]
      · rw [hdraws]
        intro d hd
        obtain rfl := List.mem_singleton.mp hd
        exact ⟨ended, Nat.le_add_right _ _⟩
  | reconfigure running isAdmin change =>
      rcases change with ⟨_, rfl, rfl⟩ | ⟨_, rfl, rfl⟩ | ⟨_, rfl, rfl⟩ <;>
        exact .of_same (by simp only [World.winner]) rfl rfl (le_refl _)
  | viewingKey msg_eq =>
      rcases msg_eq with ⟨_, _, rfl, _⟩ | ⟨_, rfl⟩ <;>
        exact .of_same (by simp only [World.winner]) rfl rfl (le_refl _)
  | _ => exact .of_same (by simp only [World.winner]) rfl rfl (le_refl _)

/-- A step records the draw it makes. -/
theorem Recorded.step {draws : List Draw} {w : World X} (tx : Tx)
    (h : Recorded draws w.storage) :
    Recorded (draws ++ w.draws tx) (w.step tx).storage := by
  have hwrites : Writes w tx (w.step tx).storage := by
    rcases World.step_cases w tx with ⟨response, hexec⟩ | ⟨hexec, hstep⟩
    · exact exec_writes hexec
    · have hwinner : w.winner tx = none := by simp [World.winner, World.response, hexec]
      rw [hstep]
      exact .of_same hwinner rfl rfl (le_refl _)
  refine ⟨?_, ?_, ?_, ?_, ?_⟩
  · rw [hwrites.results, h.results, List.map_append]
  · intro u
    rw [hwrites.histories u, h.histories u, wonBy_append, List.map_append]
  · intro u
    rw [totalWon_step, h.won u, World.winnings_eq_sum, wonBy_append, List.map_append,
      List.sum_append]
  · rw [List.map_append]
    refine List.pairwise_append.mpr ⟨h.ordered, ?_, ?_⟩
    · unfold World.draws
      cases w.winner tx with
      | none => exact List.Pairwise.nil
      | some u => exact List.pairwise_singleton _ _
    · intro time htime time' htime'
      obtain ⟨d, hd, rfl⟩ := List.mem_map.mp htime
      obtain ⟨d', hd', rfl⟩ := List.mem_map.mp htime'
      exact le_trans (h.past d hd) (hwrites.between d' hd').1
  · intro d hd
    rcases List.mem_append.mp hd with hold | hnew
    · exact le_trans (h.past d hold) hwrites.later
    · exact (hwrites.between d hnew).2

/-- A new pool has no records. -/
theorem init_records {env : Env} {msg : InitMsg} {s : Storage X} {response : InitResponse}
    (h : init X env msg = .ok (s, response)) :
    s.userWinningHistory = ∅ ∧ s.lastLotteryResults = [] := by
  simp only [init, bind_eq_ok] at h
  obtain ⟨_, _, h⟩ := h
  cases h
  exact ⟨rfl, rfl⟩

theorem recorded_of_initial {w : World X} (h : w.Initial) : Recorded [] w.storage := by
  have huser := user_of_initial h
  obtain ⟨⟨env, msg, response, hinit⟩, _⟩ := h
  obtain ⟨hhistories, hresults⟩ := init_records hinit
  refine ⟨hresults, ?_, ?_, List.Pairwise.nil, ?_⟩
  · intro u
    simp only [history, hhistories, KeyedMap.getD_empty]
    rfl
  · intro u
    rw [huser u]
    rfl
  · exact fun d hd => absurd hd (List.not_mem_nil)

theorem recorded_of_run {w : World X} (hw : w.Initial) (txs : List Tx) :
    Recorded (w.drawn txs) (w.run txs).storage :=
  run_invariant_collect (I := fun draws (w : World X) => Recorded draws w.storage)
    (fun _ _ tx h => h.step tx) (recorded_of_initial hw) txs

/-! ## Faithful records -/

/-- The three records agree with each other and with the draws there were. -/
structure Faithful (draws : List Draw) (s : Storage X) : Prop where
  total : ∀ u, ((history s u).map UserWinningHistory.winningAmount).sum = (s.user u).totalWon
  results : s.lastLotteryResults = draws.map Draw.result
  histories : ∀ u, history s u = (wonBy u draws).map Draw.entry
  ordered : (s.lastLotteryResults.map LastLotteryResults.time).Pairwise (· ≤ ·)

/-- What is recorded is faithful exactly when every prize is a `u64`. -/
theorem Recorded.faithful_iff_prizes {draws : List Draw} {s : Storage X} (h : Recorded draws s) :
    Faithful draws s ↔ ∀ d ∈ draws, d.prize < 2 ^ 64 := by
  constructor
  · intro hfaithful d hd
    have hresults := h.results.symm.trans hfaithful.results
    have hstored : d.stored.result = d.result := List.map_inj_left.mp hresults d hd
    have hprize : asU64 d.prize = d.prize := congrArg LastLotteryResults.winningAmount hstored
    rw [← hprize]
    exact Nat.mod_lt _ (by decide)
  · intro hfits
    have hstored : ∀ d ∈ draws, d.stored = d := fun d hd => d.stored_eq_iff.mpr (hfits d hd)
    have hhistories : ∀ u, history s u = (wonBy u draws).map Draw.entry := by
      intro u
      rw [h.histories u]
      refine List.map_congr_left fun d hd => ?_
      rw [hstored d (List.mem_of_mem_filter hd)]
    have hresults : s.lastLotteryResults = draws.map Draw.result := by
      rw [h.results]
      refine List.map_congr_left fun d hd => ?_
      rw [hstored d hd]
    refine ⟨?_, hresults, hhistories, ?_⟩
    · intro u
      rw [hhistories u, h.won u, List.map_map]
      rfl
    · rw [hresults, List.map_map]
      exact h.ordered

/-- If the transaction draws a winner, the pot less the fee is a `u64`. -/
def World.PrizeFits (w : World X) (tx : Tx) : Prop :=
  (w.winner tx).isSome → w.pot tx - w.feeOf (w.pot tx) < 2 ^ 64

instance (w : World X) (tx : Tx) : Decidable (w.PrizeFits tx) :=
  inferInstanceAs (Decidable (_ → _))

theorem forall_draws_iff (w : World X) (tx : Tx) :
    (∀ d ∈ w.draws tx, d.prize < 2 ^ 64) ↔ w.PrizeFits tx := by
  unfold World.draws World.PrizeFits
  cases hwinner : w.winner tx with
  | none => simp
  | some u => simp [World.winnings, hwinner]

/-- After any run from a new pool the records are faithful exactly when at every draw
with a winner the pot less the fee is a `u64`. -/
theorem faithful_iff {w : World X} (hw : w.Initial) (txs : List Tx) :
    Faithful (w.drawn txs) (w.run txs).storage ↔
      Along World.step World.PrizeFits w txs := by
  rw [(recorded_of_run hw txs).faithful_iff_prizes]
  unfold World.drawn
  rw [forall_mem_collectAlong_iff]
  exact along_congr (I := fun _ => True) (fun _ _ _ => trivial)
    (fun w tx _ => forall_draws_iff w tx) trivial txs

theorem faithful_iff_paidFeeRun :
    testPool.drawn paidFeeRun = [⟨batman, 990, 86400⟩, ⟨batman, 990, 172800⟩] ∧
    Faithful (testPool.drawn paidFeeRun) (testPool.run paidFeeRun).storage :=
  ⟨by decide, (faithful_iff testPool_initial paidFeeRun).mpr (by decide)⟩

/-- The staking contract reports rewards that are not a `u64`. -/
def largePrizeRun : List Tx :=
  [.depositAt 10 0 batman 3000000, .at 86400 (2 ^ 65) triggerer .claimRewards]

/-- Batman is credited the whole prize, and his history says less. -/
theorem not_faithful_largePrizeRun :
    (testPool.run largePrizeRun).Reachable ∧
    ((testPool.run largePrizeRun).storage.user batman).totalWon = 36524553265944912200 ∧
    history (testPool.run largePrizeRun).storage batman = [⟨18077809192235360584, 86400⟩] ∧
    (testPool.run largePrizeRun).storage.lastLotteryResults =
      [⟨18077809192235360584, 86400⟩] ∧
    ¬ Faithful (testPool.drawn largePrizeRun) (testPool.run largePrizeRun).storage := by
  refine ⟨testPool_reachable _, by decide, by decide, by decide, ?_⟩
  intro h
  have htotal := h.total batman
  revert htotal
  decide

end SefiStakepool.Chain
