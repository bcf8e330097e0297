/-
  Contract/Weigh.lean --- when a draw aborts.

  The handler weighs the entries and splits the pot in checked machine arithmetic.
  Each of the two has a closed form, and an exact condition for it not to abort: on
  the times of the entries, and on the pot and the percentage.
-/
import Mathlib.Algebra.Order.BigOperators.Group.List
import Mathlib.Algebra.Order.Group.Nat
import SefiStakepool.Contract.Effect

set_option autoImplicit false

namespace SefiStakepool.Contract

open SefiStakepool.Foundation

variable {X : Crates}

/-! ## Weights -/

/-- The weight of an entry in a round. -/
def weightOf (round : Lottery) (entry : LotteryEntries) : Nat :=
  if round.endTime ≤ entry.entryTime then 0
  else if 1 ≤ (round.endTime - entry.entryTime) / round.duration then entry.amount
  else entry.amount / 1000000 * ((round.endTime - entry.entryTime) * 1000000 / round.duration)

/-- The entry can be weighed: its time is divided by something, and scaled within a `u64`. -/
structure Weighable (round : Lottery) (entry : LotteryEntries) : Prop where
  divisor : entry.entryTime < round.endTime → round.duration ≠ 0
  scaled : entry.entryTime < round.endTime →
    round.endTime - entry.entryTime < round.duration →
      (round.endTime - entry.entryTime) * 1000000 < 2 ^ 64

instance (round : Lottery) (entry : LotteryEntries) : Decidable (Weighable round entry) :=
  decidable_of_iff
    ((entry.entryTime < round.endTime → round.duration ≠ 0) ∧
      (entry.entryTime < round.endTime → round.endTime - entry.entryTime < round.duration →
        (round.endTime - entry.entryTime) * 1000000 < 2 ^ 64))
    ⟨fun ⟨divisor, scaled⟩ => ⟨divisor, scaled⟩, fun h => ⟨h.divisor, h.scaled⟩⟩

section
variable {round : Lottery} {entry : LotteryEntries}

/-- No entry weighs more than its amount. -/
theorem weightOf_le (round : Lottery) (entry : LotteryEntries) :
    weightOf round entry ≤ entry.amount := by
  unfold weightOf
  split
  · exact Nat.zero_le _
  · split
    · exact le_refl _
    · -- less than a whole round is left, so the factor is at most a million
      rename_i hrounds
      have hfactor : (round.endTime - entry.entryTime) * 1000000 / round.duration ≤ 1000000 := by
        by_cases hduration : round.duration = 0
        · rw [hduration, Nat.div_zero]
          exact Nat.zero_le _
        · have hless : round.endTime - entry.entryTime < round.duration :=
            (Nat.div_lt_one_iff (by omega)).mp (by omega)
          exact Nat.div_le_of_le_mul (Nat.mul_le_mul_right _ hless.le)
      calc entry.amount / 1000000 *
            ((round.endTime - entry.entryTime) * 1000000 / round.duration)
          ≤ entry.amount / 1000000 * 1000000 := Nat.mul_le_mul_left _ hfactor
        _ ≤ entry.amount := Nat.div_mul_le_self _ _

/-- An entry that can be weighed has its weight. -/
theorem entryWeight_of_weighable (hfits : entry.amount < 2 ^ 128)
    (h : Weighable round entry) : entryWeight round entry = .ok (weightOf round entry) := by
  have hweight := weightOf_le round entry
  unfold entryWeight weightOf at *
  by_cases hlate : round.endTime ≤ entry.entryTime
  · rw [if_pos hlate, if_pos hlate]
  · rw [if_neg hlate] at hweight ⊢
    rw [if_neg hlate]
    have hduration := h.divisor (by omega)
    simp only [bind_eq_ok, subU_eq_ok, divU_eq_ok]
    refine ⟨_, ⟨by omega, rfl⟩, _, ⟨hduration, rfl⟩, ?_⟩
    by_cases hrounds : 1 ≤ (round.endTime - entry.entryTime) / round.duration
    · rw [if_pos hrounds, if_pos hrounds]
    · rw [if_neg hrounds] at hweight ⊢
      rw [if_neg hrounds]
      have hless : round.endTime - entry.entryTime < round.duration :=
        (Nat.div_lt_one_iff (by omega)).mp (by omega)
      simp only [bind_eq_ok, mulU_eq_ok, divU_eq_ok]
      exact ⟨_, ⟨h.scaled (by omega) hless, rfl⟩, _, ⟨hduration, rfl⟩, by omega, rfl⟩

/-- Weighing any other entry aborts. -/
theorem weighable_of_noPanic (h : NoPanic (entryWeight round entry)) :
    Weighable round entry := by
  unfold entryWeight at h
  by_cases hlate : round.endTime ≤ entry.entryTime
  · exact ⟨fun hlt => by omega, fun hlt => by omega⟩
  · rw [if_neg hlate] at h
    simp only [noPanic_bind, noPanic_subU, noPanic_divU, subU_eq_ok, divU_eq_ok] at h
    obtain ⟨_, h⟩ := h
    obtain ⟨hduration, h⟩ := h _ ⟨by omega, rfl⟩
    refine ⟨fun _ => hduration, fun _ hless => ?_⟩
    have hrest := h _ ⟨hduration, rfl⟩
    rw [if_neg (by rw [Nat.div_eq_of_lt hless]; omega)] at hrest
    simp only [noPanic_bind, noPanic_mulU] at hrest
    exact hrest.1

end

/-! ## Drawing -/

/-- The entry that is drawn in a round, if any has a weight. -/
def drawnEntry (X : Crates) (prngSeed : List UInt8) (round : Lottery)
    (entries : List LotteryEntries) : Option LotteryEntries :=
  if (entries.map (weightOf round)).sum = 0 then none
  else entries[X.sample (X.sha256 (hasherInput prngSeed round)) (entries.map (weightOf round))]?

section
variable {round : Lottery} {entries : List LotteryEntries}

theorem entryWeights_of_weighable (hfits : ∀ x ∈ entries, x.amount < 2 ^ 128)
    (h : ∀ x ∈ entries, Weighable round x) :
    entryWeights round entries = .ok (entries.map (weightOf round)) := by
  induction entries with
  | nil => rfl
  | cons entry entries ih =>
      obtain ⟨hfitsHead, hfitsTail⟩ := List.forall_mem_cons.mp hfits
      obtain ⟨hhead, htail⟩ := List.forall_mem_cons.mp h
      simp only [entryWeights, bind_eq_ok]
      exact ⟨_, entryWeight_of_weighable hfitsHead hhead, _, ih hfitsTail htail, rfl⟩

theorem weighable_of_noPanic_entryWeights (hfits : ∀ x ∈ entries, x.amount < 2 ^ 128)
    (h : NoPanic (entryWeights round entries)) : ∀ x ∈ entries, Weighable round x := by
  induction entries with
  | nil => exact fun x hx => absurd hx (List.not_mem_nil)
  | cons entry entries ih =>
      obtain ⟨hfitsHead, hfitsTail⟩ := List.forall_mem_cons.mp hfits
      simp only [entryWeights, noPanic_bind] at h
      have hhead := weighable_of_noPanic h.1
      have htail := (h.2 _ (entryWeight_of_weighable hfitsHead hhead)).1
      exact List.forall_mem_cons.mpr ⟨hhead, ih hfitsTail htail⟩

theorem amount_lt_of_sum_lt (hfits : (entries.map LotteryEntries.amount).sum < 2 ^ 128) :
    ∀ x ∈ entries, x.amount < 2 ^ 128 := fun _ hx =>
  lt_of_le_of_lt (List.le_sum_of_mem (List.mem_map_of_mem hx)) hfits

/-- Entries that can be weighed, of amounts that sum to a `u128`, can be drawn from. -/
theorem drawWinner_of_weighable (prngSeed : List UInt8)
    (hfits : (entries.map LotteryEntries.amount).sum < 2 ^ 128)
    (h : ∀ x ∈ entries, Weighable round x) :
    drawWinner X prngSeed round entries =
      .ok ((drawnEntry X prngSeed round entries).map LotteryEntries.userAddress) := by
  have hamounts := amount_lt_of_sum_lt hfits
  have htotal : (entries.map (weightOf round)).sum < 2 ^ 128 :=
    lt_of_le_of_lt (List.sum_le_sum fun x _ => weightOf_le round x) hfits
  simp only [drawWinner, bind_eq_ok, weightedIndex, narrow_eq_ok]
  refine ⟨_, entryWeights_of_weighable hamounts h, _, ⟨_, ⟨htotal, rfl⟩, rfl⟩, ?_⟩
  unfold drawnEntry
  by_cases hzero : (entries.map (weightOf round)).sum = 0
  · rw [if_pos hzero, if_pos hzero]
    rfl
  · rw [if_neg hzero, if_neg hzero]
    obtain ⟨weight, hweight, _⟩ := X.sample_spec (X.sha256 (hasherInput prngSeed round))
      (entries.map (weightOf round)) (by omega)
    rw [List.getElem?_map, Option.map_eq_some_iff] at hweight
    obtain ⟨entry, hentry, _⟩ := hweight
    simp only [hentry]
    rfl

theorem weighable_of_noPanic_drawWinner {prngSeed : List UInt8}
    (hfits : (entries.map LotteryEntries.amount).sum < 2 ^ 128)
    (h : NoPanic (drawWinner X prngSeed round entries)) : ∀ x ∈ entries, Weighable round x := by
  simp only [drawWinner, noPanic_bind] at h
  exact weighable_of_noPanic_entryWeights (amount_lt_of_sum_lt hfits) h.1

/-- Drawing and going on with the winner aborts exactly when an entry cannot be weighed,
or going on with the owner of the entry drawn aborts. -/
theorem noPanic_drawWinner_bind {α : Type} {prngSeed : List UInt8}
    {f : Option HumanAddr → StdResult α}
    (hfits : (entries.map LotteryEntries.amount).sum < 2 ^ 128) :
    NoPanic (drawWinner X prngSeed round entries >>= f) ↔
      (∀ x ∈ entries, Weighable round x) ∧
        NoPanic (f ((drawnEntry X prngSeed round entries).map LotteryEntries.userAddress)) := by
  constructor
  · intro h
    have hweighable := weighable_of_noPanic_drawWinner hfits (noPanic_bind.mp h).1
    rw [noPanic_bind_of_ok (drawWinner_of_weighable prngSeed hfits hweighable)] at h
    exact ⟨hweighable, h⟩
  · rintro ⟨hweighable, h⟩
    rw [noPanic_bind_of_ok (drawWinner_of_weighable prngSeed hfits hweighable)]
    exact h

theorem mem_of_drawnEntry {prngSeed : List UInt8} {entry : LotteryEntries}
    (h : drawnEntry X prngSeed round entries = some entry) : entry ∈ entries := by
  unfold drawnEntry at h
  split at h
  · cases h
  · exact List.mem_of_getElem? h

end

/-! ## The prize -/

/-- The pot can be split, and the winner's `total_won` has room for the prize. -/
structure Splits (percentage pot totalWon : Nat) : Prop where
  scaled : percentage * 1000000 < 2 ^ 64
  covered : pot * percentage / 10000 ≤ pot
  credited : pot * percentage / 10000 < pot →
    totalWon + (pot - pot * percentage / 10000) < 2 ^ 128

instance (percentage pot totalWon : Nat) : Decidable (Splits percentage pot totalWon) :=
  decidable_of_iff
    (percentage * 1000000 < 2 ^ 64 ∧ pot * percentage / 10000 ≤ pot ∧
      (pot * percentage / 10000 < pot →
        totalWon + (pot - pot * percentage / 10000) < 2 ^ 128))
    ⟨fun ⟨scaled, covered, credited⟩ => ⟨scaled, covered, credited⟩,
      fun h => ⟨h.scaled, h.covered, h.credited⟩⟩

/-- A share that the pot covers is computed within a `u128`. -/
theorem scaled_lt_of_covered {pot percentage : Nat} (hpot : pot * 10 ^ 10 < 2 ^ 128)
    (hcovered : pot * percentage / 10000 ≤ pot) :
    pot * (percentage * 1000000) < 2 ^ 128 := by
  have hproduct : pot * percentage < (pot + 1) * 10000 := by omega
  by_cases hlarge : 10000 ≤ pot
  · -- a percentage above the whole would take at least one more than the pot
    have hpercentage : percentage ≤ 10000 := by
      by_contra hgt
      have hmore : pot * 10001 ≤ pot * percentage := Nat.mul_le_mul_left _ (by omega)
      omega
    have hscaled : pot * (percentage * 1000000) ≤ pot * 10 ^ 10 :=
      Nat.mul_le_mul_left _ (by omega)
    omega
  · have hscaled : pot * (percentage * 1000000) = pot * percentage * 1000000 :=
      (Nat.mul_assoc ..).symm
    omega

theorem noPanic_triggerShare {pot percentage : Nat} :
    NoPanic (triggerShare pot percentage) ↔
      percentage * 1000000 < 2 ^ 64 ∧ pot * (percentage * 1000000) < 2 ^ 128 := by
  simp only [triggerShare, noPanic_bind, noPanic_mulU, mulU_eq_ok, noPanic_ok, and_imp,
    implies_true, and_true]
  refine and_congr_right fun hscaled => ⟨fun h => h _ hscaled rfl, ?_⟩
  rintro hproduct _ _ rfl
  exact hproduct

theorem triggerShare_eq {pot percentage : Nat} (h : NoPanic (triggerShare pot percentage)) :
    triggerShare pot percentage = .ok (pot * percentage / 10000) := by
  obtain ⟨hscaled, hproduct⟩ := noPanic_triggerShare.mp h
  have hok : ∃ share, triggerShare pot percentage = .ok share := by
    simp only [triggerShare, bind_eq_ok, mulU_eq_ok]
    exact ⟨_, _, ⟨hscaled, rfl⟩, _, ⟨hproduct, rfl⟩, rfl⟩
  obtain ⟨share, hshare⟩ := hok
  rw [hshare, triggerShare_ok hshare]

/-- The two additions that make the pot. -/
theorem pot_eq_ok {pool : SupplyPool} {rewards : Nat} (h : pool.pot rewards * 10 ^ 10 < 2 ^ 128) :
    addU 128 pool.totalRewardsRestaked pool.pendingStakingRewards =
        (.ok (pool.totalRewardsRestaked + pool.pendingStakingRewards) : StdResult Nat) ∧
      addU 128 (pool.totalRewardsRestaked + pool.pendingStakingRewards) rewards =
        (.ok (pool.pot rewards) : StdResult Nat) := by
  unfold SupplyPool.pot at h ⊢
  exact ⟨addU_eq_ok.mpr ⟨by omega, rfl⟩, addU_eq_ok.mpr ⟨by omega, rfl⟩⟩

/-- Paying a winner who has a record aborts exactly when the pot does not split. -/
theorem noPanic_payWinner {querier : Querier} {s : Storage X} {env : Env}
    {winner : HumanAddr} {user : UserInfo X.store.Index} {rewards : Nat}
    (hquery : queryPendingRewards querier env s.config = .ok ⟨⟨rewards⟩⟩)
    (hfound : s.userInfo.lookup winner = some user)
    (hpot : s.supplyPool.pot rewards * 10 ^ 10 < 2 ^ 128)
    (havailable :
      user.availableTokensForWithdraw + s.supplyPool.pot rewards < 2 ^ 128) :
    NoPanic (payWinner querier s env winner) ↔
      Splits s.config.triggererSharePercentage (s.supplyPool.pot rewards) user.totalWon := by
  obtain ⟨hown, hall⟩ := pot_eq_ok hpot
  unfold payWinner
  dsimp only
  rw [noPanic_bind_of_ok hquery, noPanic_bind_of_ok hown, noPanic_bind_of_ok hall]
  generalize s.supplyPool.pot rewards = pot at *
  generalize s.config.triggererSharePercentage = percentage
  constructor
  · intro h
    obtain ⟨hshare, h⟩ := noPanic_bind.mp h
    have hrest := h _ (triggerShare_eq hshare)
    obtain ⟨hcovered, h⟩ := noPanic_bind.mp hrest
    have hcovered := noPanic_subU.mp hcovered
    refine ⟨(noPanic_triggerShare.mp hshare).1, hcovered, fun hless => ?_⟩
    rw [noPanic_bind_of_ok (subU_eq_ok.mpr ⟨hcovered, rfl⟩),
      noPanic_bind_of_ok (ensure_eq_ok (u := ()) |>.mpr (by omega)),
      noPanic_bind_of_ok (unwrap_eq_ok.mpr hfound)] at hrest
    exact noPanic_addU.mp (noPanic_bind.mp hrest).1
  · intro h
    have hshare : NoPanic (triggerShare pot percentage) :=
      noPanic_triggerShare.mpr ⟨h.scaled, scaled_lt_of_covered hpot h.covered⟩
    rw [noPanic_bind_of_ok (triggerShare_eq hshare),
      noPanic_bind_of_ok (subU_eq_ok.mpr ⟨h.covered, rfl⟩)]
    refine noPanic_bind.mpr ⟨noPanic_ensure_err, fun _ hprize => ?_⟩
    have hcredited := h.credited (by have := ensure_eq_ok.mp hprize; omega)
    rw [noPanic_bind_of_ok (unwrap_eq_ok.mpr hfound),
      noPanic_bind_of_ok (addU_eq_ok.mpr ⟨hcredited, rfl⟩),
      noPanic_bind_of_ok (addU_eq_ok.mpr ⟨by omega, rfl⟩)]
    exact noPanic_ok _

/-! ## The handler -/

theorem values_empty : X.store.values X.store.empty = [] := by
  refine List.eq_nil_iff_forall_not_mem.mpr fun x hx => ?_
  obtain ⟨i, hget⟩ := GenerationalStore.mem_values.mp hx
  rw [X.store.get_empty] at hget
  cases hget

/-- A store in which no slot is met has no entries. -/
theorem values_of_iter_nil {data : X.store.Store} (h : (X.store.iter data).length = 0) :
    X.store.values data = [] := by
  unfold GenerationalStore.values GenerationalStore.live
  rw [List.eq_nil_of_length_eq_zero h]
  rfl

/-- Without entries there is nothing to weigh and nobody to pay. -/
theorem survives_nil {prngSeed : List UInt8} {round : Lottery} (pays : LotteryEntries → Prop) :
    (∀ x ∈ ([] : List LotteryEntries), Weighable round x) ∧
      ∀ x ∈ drawnEntry X prngSeed round [], pays x :=
  ⟨fun x hx => absurd hx (List.not_mem_nil), fun x hx => by cases hx⟩

/-- The triggerer's message at the end of a round aborts exactly when the next round has
no end, an entry cannot be weighed, or paying the owner of the entry drawn aborts. -/
theorem noPanic_claimRewards {querier : Querier} {s : Storage X} {env : Env}
    (htriggerer : s.config.triggerer = env.message.sender)
    (hended : s.lottery.endTime ≤ env.block.time)
    (hstarted : s.lottery.startTime ≤ env.block.time)
    (hfits : ((X.store.values s.entries).map LotteryEntries.amount).sum < 2 ^ 128) :
    NoPanic (claimRewards querier s env) ↔
      env.block.time + s.lottery.duration < 2 ^ 64 ∧
      (∀ x ∈ X.store.values s.entries, Weighable (nextRound s.lottery env.block) x) ∧
      ∀ x ∈ drawnEntry X s.config.prngSeed (nextRound s.lottery env.block)
          (X.store.values s.entries),
        NoPanic (payWinner querier { s with lottery := nextRound s.lottery env.block } env
          x.userAddress) := by
  rw [claimRewards_eq htriggerer hended hstarted]
  by_cases hnext : env.block.time + s.lottery.duration < 2 ^ 64
  · rw [noPanic_bind_of_ok (restartLottery_eq_ok.mpr ⟨hnext, rfl⟩), and_iff_right hnext]
    unfold Storage.entries at hfits ⊢
    cases hdata : s.lotteryEntries with
    | none =>
        rw [Option.getD_none, values_empty]
        exact iff_of_true (noPanic_ok _) (survives_nil _)
    | some data =>
        rw [hdata, Option.getD_some] at hfits
        rw [Option.getD_some]
        dsimp only
        by_cases hempty : (X.store.iter data).length = 0
        · rw [if_pos hempty, values_of_iter_nil hempty]
          exact iff_of_true (noPanic_ok _) (survives_nil _)
        · rw [if_neg hempty, noPanic_drawWinner_bind hfits]
          refine and_congr_right fun _ => ?_
          cases drawnEntry X s.config.prngSeed (nextRound s.lottery env.block)
              (X.store.values data) with
          | none => exact iff_of_true (noPanic_ok _) fun x hx => by cases hx
          | some x => simp
  · refine iff_of_false ?_ (fun h => hnext h.1)
    intro h
    exact hnext (noPanic_addU.mp (noPanic_bind.mp (noPanic_bind.mp h).1).1)

end SefiStakepool.Contract
