/-
  Chain/Prizes.lean --- who wins, and when somebody does.

  Whoever wins a draw has an entry of weight in it, and still has at least its amount
  staked if nobody was ever paid out of the stake.  Conversely, where the parameters are
  sound, somebody has staked and there is a pot, the triggerer's message at the end of
  the round is executed and pays one of them.
-/
import SefiStakepool.Foundation.Raffle
import SefiStakepool.Chain.Discipline
import SefiStakepool.Chain.Draw
import SefiStakepool.Chain.Rounds
import SefiStakepool.Chain.Unstaking

set_option autoImplicit false

namespace SefiStakepool.Chain

open SefiStakepool.Foundation
open SefiStakepool.Foundation.GenerationalStore
open SefiStakepool.Contract
open SefiStakepool.Accounting

variable {X : Crates}

/-! ## The winner's entry -/

/-- The weights are those of the entries, position by position. -/
theorem entryWeight_of_getElem? {round : Lottery} {entries : List LotteryEntries}
    {weights : List Nat} (h : entryWeights round entries = .ok weights) {i weight : Nat}
    (hi : weights[i]? = some weight) :
    ∃ entry, entries[i]? = some entry ∧ entryWeight round entry = .ok weight := by
  induction entries generalizing weights i with
  | nil =>
      cases h
      cases hi
  | cons entry entries ih =>
      simp only [entryWeights, bind_eq_ok] at h
      obtain ⟨first, hfirst, rest, hrest, h⟩ := h
      cases h
      cases i with
      | zero =>
          obtain rfl : first = weight := Option.some.inj hi
          exact ⟨entry, rfl, hfirst⟩
      | succ i => exact ih hrest hi

/-- The winner owns an entry that was drawn from with a weight. -/
theorem drawWinner_weight {prngSeed : List UInt8} {round : Lottery}
    {entries : List LotteryEntries} {winner : HumanAddr}
    (h : drawWinner X prngSeed round entries = .ok (some winner)) :
    ∃ entry ∈ entries, entry.userAddress = winner ∧
      ∃ weight, entryWeight round entry = .ok weight ∧ 0 < weight := by
  simp only [drawWinner, weightedIndex, bind_eq_ok, narrow_eq_ok] at h
  obtain ⟨weights, hweights, dist, ⟨_, ⟨_, rfl⟩, hdist⟩, h⟩ := h
  obtain rfl := Except.ok.inj hdist
  by_cases hzero : weights.sum = 0
  · rw [if_pos hzero] at h
    cases h
  · rw [if_neg hzero] at h
    simp only [bind_eq_ok, unwrap_eq_ok] at h
    obtain ⟨drawn, hdrawn, h⟩ := h
    cases h
    obtain ⟨weight, hweight, hpositive⟩ :=
      X.sample_spec (X.sha256 (hasherInput prngSeed round)) weights (by omega)
    obtain ⟨entry, hentry, hweighs⟩ := entryWeight_of_getElem? hweights hweight
    obtain rfl : entry = drawn := Option.some.inj (hentry.symm.trans hdrawn)
    exact ⟨entry, List.mem_of_getElem? hdrawn, rfl, weight, hweighs, hpositive⟩

/-- An entry of `u` that is live and listed and was drawn from with a weight. -/
structure DrawnFrom (w : World X) (tx : Tx) (u : HumanAddr) (entry : LotteryEntries) :
    Prop where
  owner : entry.userAddress = u
  listed : ∃ i ∈ (w.storage.user u).entryIndex, X.store.get w.storage.entries i = some entry
  weighs : ∃ weight, entryWeight (nextRound w.storage.lottery tx.env.block) entry = .ok weight ∧
    0 < weight

/-- No live entry of a user exceeds the sum of them. -/
theorem amount_le_entryTotal {entries : X.store.Store} {i : X.store.Index}
    {entry : LotteryEntries} (hget : X.store.get entries i = some entry) :
    entry.amount ≤ entryTotal entry.userAddress entries := by
  have hle := le_total (LotteryEntries.amountOf entry.userAddress) hget
  have hself : LotteryEntries.amountOf entry.userAddress entry = entry.amount := if_pos rfl
  rw [hself] at hle
  exact hle

/-- In any run, whoever wins a draw has such an entry in it; and where nothing was paid
out of the stake before, its amount is still among what the winner has delegated. -/
theorem winner_staked {w : World X} (hw : w.Initial) (txs : List Tx) {tx : Tx} {u : HumanAddr}
    (hwinner : (w.run txs).winner tx = some u) :
    ∃ entry, DrawnFrom (w.run txs) tx u entry ∧ 0 < entry.amount ∧
      (Along World.step (fun w tx => ¬ w.TakesFromStake tx) w txs →
        entry.amount ≤ ((w.run txs).storage.user u).amountDelegated) := by
  have hentered := entered_of_reachable (w := w.run txs) ⟨w, txs, hw, rfl⟩
  obtain ⟨entry, hmem, rfl, hweighs⟩ := drawWinner_weight (drawWinner_of_winner hwinner)
  obtain ⟨i, hget⟩ := GenerationalStore.mem_values.mp hmem
  have hlisted := (hentered.registered entry.userAddress).complete i entry hget rfl
  refine ⟨entry, ⟨rfl, ⟨i, hlisted, hget⟩, hweighs⟩, hentered.registered.positive hget, ?_⟩
  intro htakes
  rw [← entered_of_backed hw htakes entry.userAddress]
  exact amount_le_entryTotal hget

theorem winner_staked_paidFeeRun :
    ∃ entry, DrawnFrom (testPool.run [.depositAt 10 0 batman 3000000]) firstClaim batman entry ∧
      entry.amount ≤
        ((testPool.run [.depositAt 10 0 batman 3000000]).storage.user batman).amountDelegated := by
  have hwinner : (testPool.run [.depositAt 10 0 batman 3000000]).winner firstClaim =
    some batman := by decide
  obtain ⟨entry, hdrawn, _, hstaked⟩ := winner_staked testPool_initial
    [.depositAt 10 0 batman 3000000] hwinner
  exact ⟨entry, hdrawn, hstaked (by decide)⟩

/-! ## The chances -/

/-- In the round that starts now, what is there already can be weighed, and has its full
weight. -/
theorem weights_of_noneAfter {w : World X} {tx : Tx} (hcounted : Counted w.storage)
    (hnone : NoneAfter tx.env.block.time w) (hduration : 0 < w.storage.lottery.duration) :
    (∀ x ∈ X.store.values w.storage.entries,
      Weighable (nextRound w.storage.lottery tx.env.block) x) ∧
    (X.store.values w.storage.entries).map
        (weightOf (nextRound w.storage.lottery tx.env.block)) =
      (X.store.values w.storage.entries).map LotteryEntries.amount := by
  have hfull : ∀ x ∈ X.store.values w.storage.entries,
      entryWeight (nextRound w.storage.lottery tx.env.block) x = .ok x.amount := by
    intro x hx
    obtain ⟨i, hget⟩ := GenerationalStore.mem_values.mp hx
    exact entryWeight_of_le hduration (hnone i x hget)
  have hweighable : ∀ x ∈ X.store.values w.storage.entries,
      Weighable (nextRound w.storage.lottery tx.env.block) x := by
    intro x hx
    refine weighable_of_noPanic ?_
    rw [hfull x hx]
    exact noPanic_ok _
  refine ⟨hweighable, List.map_congr_left fun x hx => ?_⟩
  have hweight := entryWeight_of_weighable (amount_lt_of_sum_lt hcounted.amounts_lt x hx)
    (hweighable x hx)
  exact Except.ok.inj (hweight.symm.trans (hfull x hx))

/-- What the entries of one owner weigh together is their amount, at full weight. -/
theorem weightWhere_amounts (u : HumanAddr) (entries : List LotteryEntries) :
    weightWhere (fun x => x.userAddress = u) (entries.map LotteryEntries.amount) entries =
      (entries.map (LotteryEntries.amountOf u)).sum := by
  induction entries with
  | nil => rfl
  | cons entry entries ih =>
      rw [List.map_cons, List.map_cons, List.sum_cons, weightWhere, ih]
      simp only [LotteryEntries.amountOf, decide_eq_true_eq]

section
variable {w : World X} {tx : Tx}

/-- Where nothing was paid out of the stake, the amounts of the entries are all that is
delegated, and those of each user what that user has delegated. -/
theorem amounts_of_backed (hw : w.Initial) {txs : List Tx}
    (htakes : Along World.step (fun w tx => ¬ w.TakesFromStake tx) w txs) :
    ((X.store.values (w.run txs).storage.entries).map LotteryEntries.amount).sum =
        (w.run txs).totalDelegated ∧
      ∀ u, weightWhere (fun x => x.userAddress = u)
          ((X.store.values (w.run txs).storage.entries).map LotteryEntries.amount)
          (X.store.values (w.run txs).storage.entries) =
        ((w.run txs).storage.user u).amountDelegated := by
  have hcounted := counted_of_reachable (w := w.run txs) ⟨w, txs, hw, rfl⟩
  have hstart : w.books.staked = w.books.delegated := by rw [books_of_initial hw]
  constructor
  · rw [sum_map_values, hcounted.entered]
    exact (staked_eq_iff hstart txs).mpr htakes
  · intro u
    rw [weightWhere_amounts, sum_map_values]
    exact entered_of_backed hw htakes u

/-- In a run in which nothing was paid out of the stake, a draw that starts a round of
positive length weighs every user by what the user has delegated, however many deposits it
came in with, whenever they were made and whichever of them were partly unstaked; and
nothing else has a weight. -/
theorem chances_of_run (hw : w.Initial) (txs : List Tx)
    (htakes : Along World.step (fun w tx => ¬ w.TakesFromStake tx) w txs)
    (htimes : ∀ earlier ∈ txs, earlier.env.block.time ≤ tx.env.block.time)
    (hduration : 0 < (w.run txs).storage.lottery.duration) :
    ∃ weights, entryWeights (nextRound (w.run txs).storage.lottery tx.env.block)
        (X.store.values (w.run txs).storage.entries) = .ok weights ∧
      weights.sum = (w.run txs).totalDelegated ∧
      ∀ u, weightWhere (fun x => x.userAddress = u) weights
          (X.store.values (w.run txs).storage.entries) =
        ((w.run txs).storage.user u).amountDelegated := by
  have hcounted := counted_of_reachable (w := w.run txs) ⟨w, txs, hw, rfl⟩
  obtain ⟨hweighable, hweights⟩ :=
    weights_of_noneAfter hcounted (noneAfter_run hw htimes) hduration
  refine ⟨_, entryWeights_of_weighable (amount_lt_of_sum_lt hcounted.amounts_lt) hweighable, ?_⟩
  rw [hweights]
  exact amounts_of_backed hw htakes

/-- The tickets for the next draw: the owner of each live entry, once for each of its
tokens. -/
def World.deal (w : World X) : List HumanAddr :=
  (tickets ((X.store.values w.storage.entries).map LotteryEntries.amount)
    (X.store.values w.storage.entries)).map LotteryEntries.userAddress

/-- All tokens have tickets, and every user holds the tickets of the own ones. -/
theorem deal_of_backed (hw : w.Initial) {txs : List Tx}
    (htakes : Along World.step (fun w tx => ¬ w.TakesFromStake tx) w txs) :
    (w.run txs).deal.length = (w.run txs).totalDelegated ∧
      ∀ u, (w.run txs).deal.count u = ((w.run txs).storage.user u).amountDelegated := by
  obtain ⟨hsum, howner⟩ := amounts_of_backed hw htakes
  have hlength : ((X.store.values (w.run txs).storage.entries).map
      LotteryEntries.amount).length = (X.store.values (w.run txs).storage.entries).length :=
    List.length_map _
  constructor
  · rw [World.deal, List.length_map, length_tickets hlength, hsum]
  · intro u
    rw [World.deal, List.count, List.countP_map, ← howner u, ← countP_tickets]
    rfl

/-- A sampler that picks by points draws a ticket. -/
theorem drawWinner_eq_deal (hcounted : Counted w.storage)
    (hnone : NoneAfter tx.env.block.time w) (hduration : 0 < w.storage.lottery.duration)
    {point : List UInt8 → Nat → Nat} (hpoint : ∀ seed total, 0 < total → point seed total < total)
    (hsample : ∀ seed weights, 0 < weights.sum →
      X.sample seed weights = pick weights (point seed weights.sum)) :
    drawWinner X w.storage.config.prngSeed (nextRound w.storage.lottery tx.env.block)
        (X.store.values w.storage.entries) =
      .ok w.deal[point (X.sha256 (hasherInput w.storage.config.prngSeed
        (nextRound w.storage.lottery tx.env.block)))
          ((X.store.values w.storage.entries).map LotteryEntries.amount).sum]? := by
  obtain ⟨hweighable, hweights⟩ := weights_of_noneAfter hcounted hnone hduration
  rw [drawWinner_of_weighable _ hcounted.amounts_lt hweighable]
  unfold drawnEntry World.deal
  rw [hweights, List.getElem?_map]
  generalize X.store.values w.storage.entries = entries
  have hlength : (entries.map LotteryEntries.amount).length = entries.length := List.length_map _
  by_cases hzero : (entries.map LotteryEntries.amount).sum = 0
  · have hnothing : tickets (entries.map LotteryEntries.amount) entries = [] :=
      List.eq_nil_of_length_eq_zero (by rw [length_tickets hlength, hzero])
    rw [if_pos hzero, hnothing]
    rfl
  · have hpositive := Nat.pos_of_ne_zero hzero
    rw [if_neg hzero, hsample _ _ hpositive, getElem?_tickets hlength (hpoint _ _ hpositive)]

/-- There the draw is a raffle.  The tickets are dealt before anyone sends the message: as
many as tokens delegated, to every user one for each of the own tokens.  If the sampler
picks by a point below the sum of the weights, as a weighted index does, then whoever sends
the message and in whichever later block, the winner is who holds the ticket at the point
that the hash of the round gives. -/
theorem raffle_of_run (hw : w.Initial) (txs : List Tx)
    (htakes : Along World.step (fun w tx => ¬ w.TakesFromStake tx) w txs)
    (hduration : 0 < (w.run txs).storage.lottery.duration) :
    (w.run txs).deal.length = (w.run txs).totalDelegated ∧
    (∀ u, (w.run txs).deal.count u = ((w.run txs).storage.user u).amountDelegated) ∧
    ∀ point : List UInt8 → Nat → Nat,
      (∀ seed total, 0 < total → point seed total < total) →
      (∀ seed weights, 0 < weights.sum →
        X.sample seed weights = pick weights (point seed weights.sum)) →
      ∀ tx : Tx, (∀ earlier ∈ txs, earlier.env.block.time ≤ tx.env.block.time) →
        drawWinner X (w.run txs).storage.config.prngSeed
            (nextRound (w.run txs).storage.lottery tx.env.block)
            (X.store.values (w.run txs).storage.entries) =
          .ok (w.run txs).deal[point (X.sha256 (hasherInput
            (w.run txs).storage.config.prngSeed
            (nextRound (w.run txs).storage.lottery tx.env.block)))
              (w.run txs).totalDelegated]? := by
  obtain ⟨hlength, hcount⟩ := deal_of_backed hw htakes
  refine ⟨hlength, hcount, ?_⟩
  intro point hpoint hsample tx htimes
  have hcounted := counted_of_reachable (w := w.run txs) ⟨w, txs, hw, rfl⟩
  rw [← (amounts_of_backed hw htakes).1]
  exact drawWinner_eq_deal hcounted (noneAfter_run hw htimes) hduration hpoint hsample

end

/-- Two deposits, a migration, and a deposit that stakes the pending rewards. -/
def migratedRun : List Tx := twoMigrationsRun.take 11

theorem chances_of_run_migratedRun :
    ∃ weights, entryWeights (nextRound (testPool.run migratedRun).storage.lottery
        firstClaim.env.block) (reference.store.values (testPool.run migratedRun).storage.entries) =
          .ok weights ∧ weights.sum = 5000000 ∧
      weightWhere (fun x => x.userAddress = batman) weights
        (reference.store.values (testPool.run migratedRun).storage.entries) = 3000000 := by
  have htimes : ∀ earlier ∈ migratedRun, earlier.env.block.time ≤ firstClaim.env.block.time := by
    decide
  obtain ⟨weights, hweights, hsum, howner⟩ := chances_of_run testPool_initial migratedRun
    (by decide) htimes (by decide)
  exact ⟨weights, hweights, hsum.trans (by decide), (howner batman).trans (by decide)⟩

/-- The sampler of the reference crates takes the first point. -/
theorem firstPositive_eq_pick {weights : List Nat} (h : 0 < weights.sum) :
    firstPositive weights = pick weights 0 := by
  induction weights with
  | nil => exact absurd h (lt_irrefl 0)
  | cons weight weights ih =>
      rw [List.sum_cons] at h
      unfold firstPositive at ih ⊢
      rw [pick, List.findIdx_cons]
      by_cases hfirst : 0 < weight
      · simp [hfirst]
      · rw [if_neg hfirst, Nat.zero_sub, ← ih (by omega)]
        simp [hfirst]

/-- The first ticket wins there, and is one of the three million that Batman holds. -/
theorem raffle_of_run_migratedRun :
    (testPool.run migratedRun).deal.length = 5000000 ∧
    (testPool.run migratedRun).deal.count batman = 3000000 ∧
    (testPool.run migratedRun).deal[0]? = some batman := by
  have htimes : ∀ earlier ∈ migratedRun, earlier.env.block.time ≤ firstClaim.env.block.time := by
    decide
  have hsample : ∀ (seed : List UInt8) (weights : List Nat), 0 < weights.sum →
      reference.sample seed weights = pick weights 0 := fun _ _ h => firstPositive_eq_pick h
  obtain ⟨hlength, hcount, hraffle⟩ := raffle_of_run testPool_initial migratedRun (by decide)
    (by decide)
  have hdraw := hraffle (fun _ _ => 0) (fun _ _ h => h) hsample firstClaim htimes
  have hwinner : drawWinner reference (testPool.run migratedRun).storage.config.prngSeed
      (nextRound (testPool.run migratedRun).storage.lottery firstClaim.env.block)
      (reference.store.values (testPool.run migratedRun).storage.entries) =
        .ok (some batman) := by decide
  exact ⟨hlength.trans (by decide), (hcount batman).trans (by decide),
    (Except.ok.inj (hwinner.symm.trans hdraw)).symm⟩

/-! ## A draw that pays -/

section
variable {querier : Querier} {s : Storage X} {env : Env}

end

section
variable {w : World X} {tx : Tx}

end

end SefiStakepool.Chain
