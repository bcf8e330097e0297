/-
  Chain/Weights.lean --- the weights entries are drawn with.

  The handler starts the next round before it weighs the entries, so it compares
  their times with the round that starts now and not with the one that is over.
  No entry is younger than now, and so every entry is drawn with its full amount.
-/
import SefiStakepool.Chain.Backing

set_option autoImplicit false

namespace SefiStakepool.Chain

open SefiStakepool.Foundation
open SefiStakepool.Contract
open SefiStakepool.Accounting

variable {X : Crates}

/-! ## The intended weights -/

/-- Weights over a round from `start` to `stop`: full for an entry that was there
from the start, never larger for a later one, smaller for one that came in the
round, none for one that came at its end. -/
structure TimeWeighted (weight : LotteryEntries → StdResult Nat) (start stop : Nat)
    (entries : List LotteryEntries) : Prop where
  full : ∀ x ∈ entries, x.entryTime ≤ start → weight x = .ok x.amount
  antitone : ∀ x ∈ entries, ∀ y ∈ entries, x.amount = y.amount →
    x.entryTime ≤ y.entryTime → ∃ m n, weight x = .ok m ∧ weight y = .ok n ∧ n ≤ m
  below : ∀ x ∈ entries, start < x.entryTime → x.entryTime ≤ stop → ∀ early ≤ start,
    ∃ m n, weight x = .ok m ∧ weight { x with entryTime := early } = .ok n ∧ m < n
  zero : ∀ x ∈ entries, stop ≤ x.entryTime → weight x = .ok 0

/-- Weights that are the amounts, whatever the times, are right over a round exactly
when all entries were there from the start. -/
theorem timeWeighted_amounts_iff {weight : LotteryEntries → StdResult Nat}
    {start stop : Nat} {entries : List LotteryEntries} (hround : start < stop)
    (hpositive : ∀ x ∈ entries, 0 < x.amount)
    (hweight : ∀ x ∈ entries, weight x = .ok x.amount)
    (hstart : ∀ x ∈ entries, weight { x with entryTime := start } = .ok x.amount) :
    TimeWeighted weight start stop entries ↔ ∀ x ∈ entries, x.entryTime ≤ start := by
  constructor
  · intro hweights x hx
    by_contra hlate
    by_cases hstop : x.entryTime ≤ stop
    · obtain ⟨m, n, hm, hn, hlt⟩ := hweights.below x hx (by omega) hstop _ (le_refl _)
      rw [hweight x hx] at hm
      rw [hstart x hx] at hn
      cases hm
      cases hn
      exact lt_irrefl _ hlt
    · have hzero := hweights.zero x hx (by omega)
      rw [hweight x hx] at hzero
      have hnone := Except.ok.inj hzero
      have hsome := hpositive x hx
      omega
  · intro hthere
    refine ⟨?_, ?_, ?_, ?_⟩
    · intro x hx _
      exact hweight x hx
    · intro x hx y hy hamount _
      exact ⟨_, _, hweight x hx, hweight y hy, hamount.ge⟩
    · intro x hx hlate
      have := hthere x hx
      omega
    · intro x hx hstop
      have := hthere x hx
      omega

/-! ## The draw -/

/-- A `ClaimRewards` that gets as far as drawing from the entries. -/
structure World.ReachesDraw (w : World X) (tx : Tx) : Prop where
  msg : tx.msg = .claimRewards
  running : w.storage.config.isStopped = false
  triggerer : w.storage.config.triggerer = tx.env.message.sender
  ended : w.storage.lottery.endTime ≤ tx.env.block.time
  started : w.storage.lottery.startTime ≤ tx.env.block.time
  fits : tx.env.block.time + w.storage.lottery.duration < 2 ^ 64
  stored : w.storage.lotteryEntries.isSome
  nonempty : (X.store.iter w.storage.entries).length ≠ 0

/-- In the round that starts now, an entry that is already there has full weight. -/
theorem entryWeight_of_le {lottery : Lottery} {block : BlockInfo}
    (hpositive : 0 < lottery.duration) {entry : LotteryEntries}
    (hle : entry.entryTime ≤ block.time) :
    entryWeight (nextRound lottery block) entry = .ok entry.amount := by
  have hrounds : 1 ≤ (block.time + lottery.duration - entry.entryTime) / lottery.duration :=
    (Nat.one_le_div_iff hpositive).mpr (by omega)
  unfold entryWeight nextRound
  rw [if_neg (by dsimp only; omega)]
  simp only [bind_eq_ok, subU_eq_ok, divU_eq_ok]
  refine ⟨_, ⟨by omega, rfl⟩, _, ⟨by omega, rfl⟩, ?_⟩
  rw [if_pos hrounds]

/-! ## Entry times -/

/-- No live entry is younger than `now`. -/
def NoneAfter (now : Nat) (w : World X) : Prop :=
  ∀ i entry, X.store.get w.storage.entries i = some entry → entry.entryTime ≤ now

/-- A message sent by `now` leaves no entry younger than `now`. -/
theorem noneAfter_effect {now : Nat} {w : World X} {tx : Tx} {s : Storage X}
    {response : HandleResponse} (hw : NoneAfter now w)
    (htime : tx.env.block.time ≤ now)
    (h : Effect tx.querier w.storage tx.env tx.msg s response) :
    ∀ i entry, X.store.get s.entries i = some entry → entry.entryTime ≤ now := by
  obtain ⟨env, msg, querier⟩ := tx
  dsimp only at h htime
  cases h with
  | deposit running token decoded minimum query =>
      rename_i sender from_ amount rewards payload
      intro i entry hget
      by_cases hi : i = (X.store.insert w.storage.entries
          (depositEntry env from_ amount)).1
      · subst hi
        have hself := X.store.get_insert_self w.storage.entries (depositEntry env from_ amount)
        obtain rfl : depositEntry env from_ amount = entry :=
          Option.some.inj (hself.symm.trans hget)
        exact htime
      · refine hw i entry ?_
        rw [← X.store.get_insert_of_ne _ (depositEntry env from_ amount) _ hi]
        exact hget
  | unstake running amount_eq positive delegated staked consumed query =>
      intro i entry hget
      obtain ⟨old, hold, heq⟩ := consumeEntries_entryTime consumed hget
      exact heq ▸ hw i old hold
  | _ => exact hw

theorem noneAfter_step {now : Nat} {w : World X} {tx : Tx} (hw : NoneAfter now w)
    (htime : tx.env.block.time ≤ now) : NoneAfter now (w.step tx) := by
  rcases World.step_cases w tx with ⟨response, h⟩ | ⟨_, hstep⟩
  · exact noneAfter_effect hw htime (World.exec_effect h)
  · rw [hstep]
    exact hw

theorem noneAfter_run {w : World X} (hw : w.Initial) {txs : List Tx} {now : Nat}
    (htimes : ∀ tx ∈ txs, tx.env.block.time ≤ now) : NoneAfter now (w.run txs) := by
  have hstart : NoneAfter now w := by
    intro i entry hget
    rw [entries_of_initial hw, X.store.get_empty] at hget
    cases hget
  exact run_invariant_along (fun _ _ h htime => noneAfter_step h htime) hstart
    (along_of_forall_mem (fun _ _ htime => htime) w htimes)

/-! ## What the code does meet -/

/-- A `ClaimRewards` that reaches the draw, sent no earlier than any message before
it, where neither the closed round nor the next one is empty: the weights are those of
the closed round exactly when every live entry was there at its start. -/
theorem timeWeighted_iff {w : World X} (hw : w.Initial) (txs : List Tx) (claim : Tx)
    (htimes : ∀ tx ∈ txs, tx.env.block.time ≤ claim.env.block.time)
    (hdraw : (w.run txs).ReachesDraw claim)
    (hround : (w.run txs).storage.lottery.startTime < (w.run txs).storage.lottery.endTime)
    (hpositive : 0 < (w.run txs).storage.lottery.duration) :
    TimeWeighted (entryWeight (nextRound (w.run txs).storage.lottery claim.env.block))
        (w.run txs).storage.lottery.startTime (w.run txs).storage.lottery.endTime
        (X.store.values (w.run txs).storage.entries) ↔
      ∀ x ∈ X.store.values (w.run txs).storage.entries,
        x.entryTime ≤ (w.run txs).storage.lottery.startTime := by
  have hentered : Entered (w.run txs) :=
    run_invariant (fun _ tx h => h.step tx) (entered_of_initial hw) txs
  have hnone := noneAfter_run hw htimes
  have hlive : ∀ x ∈ X.store.values (w.run txs).storage.entries,
      0 < x.amount ∧ x.entryTime ≤ claim.env.block.time := by
    intro x hx
    obtain ⟨i, hget⟩ := GenerationalStore.mem_values.mp hx
    exact ⟨hentered.registered.positive hget, hnone i x hget⟩
  refine timeWeighted_amounts_iff hround ?_ ?_ ?_
  · intro x hx
    exact (hlive x hx).1
  · intro x hx
    exact entryWeight_of_le hpositive (hlive x hx).2
  · intro x _
    exact entryWeight_of_le hpositive hdraw.started

/-- The test pool with one deposit. -/
def depositedAt (time : Nat) : World reference :=
  testPool.run [.depositAt time 0 batman 3000000]

/-- A draw at the end of its first round. -/
def firstClaim : Tx := .at 86400 1000 triggerer .claimRewards

/-- Two users deposit at different times of the first round, which is drawn. -/
def drawnRun : List Tx :=
  [.depositAt 10 0 batman 3000000, .depositAt 20000 70 superman 2000000, firstClaim]

/-- A draw at the end of the second round. -/
def secondClaim : Tx := .at 172800 1000 triggerer .claimRewards

/-- Both entries were there when the second round started. -/
theorem timeWeighted_iff_drawnRun :
    (reference.store.values (testPool.run drawnRun).storage.entries).map
        LotteryEntries.entryTime = [10, 20000] ∧
    TimeWeighted
      (entryWeight (nextRound (testPool.run drawnRun).storage.lottery secondClaim.env.block))
      (testPool.run drawnRun).storage.lottery.startTime
      (testPool.run drawnRun).storage.lottery.endTime
      (reference.store.values (testPool.run drawnRun).storage.entries) :=
  ⟨by decide, (timeWeighted_iff testPool_initial drawnRun secondClaim (by decide)
    ⟨rfl, by decide, by decide, by decide, by decide, by decide, by decide, by decide⟩
    (by decide) (by decide)).mpr (by decide)⟩

/-- A deposit at the very end of the round, drawn from in the same block, has full
weight and not none. -/
theorem not_timeWeighted_late :
    (depositedAt 86400).Reachable ∧ (depositedAt 86400).ReachesDraw firstClaim ∧
    0 < (depositedAt 86400).storage.lottery.duration ∧
    (depositedAt 86400).storage.lottery.duration =
      (depositedAt 86400).storage.lottery.endTime -
        (depositedAt 86400).storage.lottery.startTime ∧
    ¬ TimeWeighted
      (entryWeight (nextRound (depositedAt 86400).storage.lottery firstClaim.env.block))
      (depositedAt 86400).storage.lottery.startTime
      (depositedAt 86400).storage.lottery.endTime
      (reference.store.values (depositedAt 86400).storage.entries) := by
  refine ⟨testPool_reachable _, ⟨rfl, by decide, by decide, by decide, by decide,
    by decide, by decide, by decide⟩, by decide, by decide, ?_⟩
  intro h
  have hzero := h.zero ⟨batman, 3000000, 86400⟩ (by decide) (by decide)
  revert hzero
  decide

end SefiStakepool.Chain
