/-
  Chain/Unstaking.lean --- what `TriggerWithdraw` does, and that it does it.

  A request takes the oldest entries of the sender, as many as it uses up and a part
  of the next, and leaves every other slot alone.  For a staker of a running contract
  it never fails: what it subtracts from is large enough and what it looks up is there.
-/
import SefiStakepool.Chain.Registry
import SefiStakepool.Chain.Solvency

set_option autoImplicit false

namespace SefiStakepool.Chain

open SefiStakepool.Foundation
open SefiStakepool.Contract

variable {X : Crates}

/-! ## Oldest first -/

section
variable {ι : Type} {es : List (ι × LotteryEntries)} {asked k : Nat}

/-- The largest number of entries that `asked` covers is the number it uses up. -/
theorem usesUp_of_largest (hk : k ≤ es.length) (hsum : amounts (es.take k) ≤ asked)
    (hlargest : ∀ l ≤ es.length, amounts (es.take l) ≤ asked → l ≤ k) :
    UsesUp es asked k := by
  refine ⟨hk, hsum, ?_⟩
  intro e he
  by_contra hle
  have hlt : k < es.length := (List.getElem?_eq_some_iff.mp he).1
  have htake : amounts (es.take (k + 1)) = amounts (es.take k) + e.2.amount := by
    simp only [amounts, List.take_add_one, he, Option.toList_some, List.map_append,
      List.sum_append, List.map_cons, List.map_nil, List.sum_cons, List.sum_nil, Nat.add_zero]
  have := hlargest (k + 1) hlt (by omega)
  omega

/-- Changing an entry keeps the indices. -/
theorem map_fst_modifyHead (f : LotteryEntries → LotteryEntries)
    (es : List (ι × LotteryEntries)) :
    (es.modifyHead (Prod.map id f)).map Prod.fst = es.map Prod.fst := by
  cases es with
  | nil => rfl
  | cons e es => rfl

/-- No index is both among the first entries and among the others. -/
theorem not_mem_drop_of_mem_take (hnodup : (es.map Prod.fst).Nodup) {i : ι}
    (hi : i ∈ (es.take k).map Prod.fst) : i ∉ (es.drop k).map Prod.fst := by
  rw [← List.take_append_drop k es, List.map_append] at hnodup
  exact fun hdrop => (List.nodup_append.mp hnodup).2.2 i hi i hdrop rfl

end

/-- Of the queue `es` of `u`, the first `k` entries are used up by `asked`. -/
structure TakesOldest (s s' : Storage X) (u : HumanAddr)
    (es : List (X.store.Index × LotteryEntries)) (k asked : Nat) : Prop where
  vacated : ∀ e ∈ es.take k, X.store.get s'.entries e.1 = none
  entryIndex : (s'.user u).entryIndex = (es.drop k).map Prod.fst
  next : ∀ e, es[k]? = some e →
    X.store.get s'.entries e.1 = some (e.2.less (asked - amounts (es.take k)))
  others : ∀ i, i ∉ (es.take (k + 1)).map Prod.fst →
    X.store.get s'.entries i = X.store.get s.entries i
  delegated : (s'.user u).amountDelegated + asked = (s.user u).amountDelegated
  available : (s'.user u).availableTokensForWithdraw =
    (s.user u).availableTokensForWithdraw + asked
  staked : s'.supplyPool.totalTokensStaked + asked = s.supplyPool.totalTokensStaked

/-- What the loop leaves of a queue, slot by slot. -/
theorem leaves_slots {entries entries' : X.store.Store}
    {es : List (X.store.Index × LotteryEntries)} {asked k : Nat} (h : Reads entries es)
    (hleaves : Leaves entries entries' es (takeOldest es asked)) (hk : UsesUp es asked k) :
    (∀ e ∈ es.take k, X.store.get entries' e.1 = none) ∧
    (∀ e, es[k]? = some e →
      X.store.get entries' e.1 = some (e.2.less (asked - amounts (es.take k)))) ∧
    ∀ i, i ∉ (es.take (k + 1)).map Prod.fst →
      X.store.get entries' i = X.store.get entries i := by
  rw [takeOldest_eq hk] at hleaves
  refine ⟨?_, ?_, ?_⟩
  · intro e he
    refine hleaves.vacated e (List.mem_of_mem_take he) ?_
    rw [map_fst_modifyHead]
    exact not_mem_drop_of_mem_take h.nodup (List.mem_map_of_mem he)
  · intro e he
    obtain ⟨hlt, hget⟩ := List.getElem?_eq_some_iff.mp he
    let lower (entry : LotteryEntries) := entry.less (asked - amounts (es.take k))
    have hmem : Prod.map id lower e ∈ (es.drop k).modifyHead (Prod.map id lower) := by
      rw [List.drop_eq_getElem_cons hlt, hget, List.modifyHead_cons]
      exact List.mem_cons_self ..
    exact hleaves.reads.live _ hmem
  · intro i hi
    by_cases hlisted : i ∈ es.map Prod.fst
    · -- a listed index that is not among the first is among the last, which stay
      obtain ⟨e, he, rfl⟩ := List.mem_map.mp hlisted
      have hlast : e ∈ es.drop (k + 1) := by
        rw [← List.take_append_drop (k + 1) es] at he
        rcases List.mem_append.mp he with hfirst | hlast
        · exact absurd (List.mem_map_of_mem hfirst) hi
        · exact hlast
      have hlt : k < es.length := by
        have hlength := List.length_pos_of_mem hlast
        rw [List.length_drop] at hlength
        omega
      rw [h.live e he]
      refine hleaves.reads.live e ?_
      rw [List.drop_eq_getElem_cons hlt, List.modifyHead_cons]
      exact List.mem_cons_of_mem _ hlast
    · exact hleaves.others i hlisted

/-- After a successful `TriggerWithdraw` of `asked`, by a user whose indices read as
entries that are live and not empty: where `asked` covers the first `k` of them and no
more, these are vacated, the next one is smaller by what is left, every other slot is
unchanged, and the counters and the one redemption are of `asked`. -/
theorem triggerWithdraw_takesOldest {querier : Querier} {s s' : Storage X} {env : Env}
    {amount : Option Nat} {response : HandleResponse}
    {es : List (X.store.Index × LotteryEntries)} {asked k : Nat}
    (h : handle querier s env (.triggerWithdraw amount) = .ok (s', response))
    (hasked : asked = amount.getD (s.user env.message.sender).amountDelegated)
    (hindex : (s.user env.message.sender).entryIndex = es.map Prod.fst)
    (hreads : Reads s.entries es) (hk : k ≤ es.length)
    (hsum : amounts (es.take k) ≤ asked)
    (hlargest : ∀ l ≤ es.length, amounts (es.take l) ≤ asked → l ≤ k) :
    TakesOldest s s' env.message.sender es k asked ∧
      response.messages = [.execute s.config.stakingContract.address
        s.config.stakingContract.contractHash (.redeem asked)] := by
  have husesUp := usesUp_of_largest hk hsum hlargest
  cases handle_effect h with
  | unstake running amount_eq positive delegated staked consumed query =>
      have heq := hasked.trans amount_eq.symm
      subst heq
      obtain ⟨entries', hrun, hleaves⟩ := consumeEntries_leaves hreads asked
      rw [hindex, hrun] at consumed
      cases consumed
      obtain ⟨hvacated, hnext, hothers⟩ := leaves_slots hreads hleaves husesUp
      refine ⟨⟨hvacated, ?_, hnext, hothers, ?_, ?_, ?_⟩, rfl⟩
      · rw [user_insert (s := s) rfl, if_pos rfl, takeOldest_eq husesUp,
          map_fst_modifyHead]
      · rw [user_insert (s := s) rfl, if_pos rfl]
        exact Nat.sub_add_cancel delegated
      · rw [user_insert (s := s) rfl, if_pos rfl]
      · exact Nat.sub_add_cancel staked
  | reconfigure running isAdmin change =>
      rcases change with ⟨_, hmsg, _⟩ | ⟨_, hmsg, _⟩ | ⟨_, hmsg, _⟩ <;> cases hmsg
  | viewingKey msg_eq =>
      rcases msg_eq with ⟨_, _, hmsg, _⟩ | ⟨_, hmsg⟩ <;> cases hmsg

/-- In a reachable state every user's indices read as such entries. -/
theorem reads_of_reachable {w : World X} (hw : w.Reachable) (u : HumanAddr) :
    ∃ es : List (X.store.Index × LotteryEntries),
      (w.storage.user u).entryIndex = es.map Prod.fst ∧ Reads w.storage.entries es := by
  have hentered := entered_of_reachable hw
  obtain ⟨es, hindex, hreads⟩ := (hentered.registered u).reads
  exact ⟨es, hindex.symm, hreads⟩

/-- Batman deposits three times, and Superman once in between. -/
def queueRun : List Tx :=
  [.depositAt 10 0 batman 1000000, .depositAt 20 0 superman 2000000,
    .depositAt 30 0 batman 3000000, .depositAt 40 0 batman 1000000]

/-- Batman's entries then. -/
def batmanQueue : List (reference.store.Index × LotteryEntries) :=
  [(((0, 0) : Arena.Index), ⟨batman, 1000000, 10⟩), (((2, 0) : Arena.Index), ⟨batman, 3000000, 30⟩),
    (((3, 0) : Arena.Index), ⟨batman, 1000000, 40⟩)]

theorem triggerWithdraw_takesOldest_queueRun :
    TakesOldest (testPool.run queueRun).storage
      (testPool.run (queueRun ++ [.at 50 0 batman (.triggerWithdraw (some 1500000))])).storage
      batman batmanQueue 1 1500000 := by
  have hhandle := eq_ok_get (x := handle (fun _ _ => .ok ⟨⟨0⟩⟩) (testPool.run queueRun).storage
    (envAt 50 batman) (.triggerWithdraw (some 1500000))) (by decide)
  have hindex : ((testPool.run queueRun).storage.user batman).entryIndex =
    batmanQueue.map Prod.fst := rfl
  exact (triggerWithdraw_takesOldest (k := 1) hhandle rfl hindex
    ⟨by decide, by decide, by decide⟩ (by decide) (by decide) (by decide)).1

/-! ## A request never fails -/

/-- The counter of staked tokens is at least the sum of the users' amounts. -/
theorem delegated_le_staked {w : World X} (hw : w.Reachable) :
    w.totalDelegated ≤ w.storage.supplyPool.totalTokensStaked := by
  refine Reachable.invariant (I := fun w : World X => w.books.delegated ≤ w.books.staked) hw
    ?_ ?_
  · intro w h
    rw [books_of_initial h]
  · intro w tx h
    have hdrift := aggregate_step w tx
    omega

/-- The handler returns for a request that the record, the counter and the entries
cover, when the sums it makes fit. -/
theorem triggerWithdraw_isOk {querier : Querier} {s : Storage X} {env : Env}
    {amount : Option Nat} {rewards : Nat}
    (hpositive : 0 < amount.getD (s.user env.message.sender).amountDelegated)
    (hdelegated : amount.getD (s.user env.message.sender).amountDelegated ≤
      (s.user env.message.sender).amountDelegated)
    (hstaked : amount.getD (s.user env.message.sender).amountDelegated ≤
      s.supplyPool.totalTokensStaked)
    (havailable : (s.user env.message.sender).availableTokensForWithdraw +
      amount.getD (s.user env.message.sender).amountDelegated < 2 ^ 128)
    (hpending : s.supplyPool.pendingStakingRewards + rewards < 2 ^ 128)
    (hconsumed : ∃ consumed, consumeEntries X (s.user env.message.sender).entryIndex s.entries
      (s.user env.message.sender).entryIndex
      (amount.getD (s.user env.message.sender).amountDelegated) = .ok consumed)
    (hquery : queryPendingRewards querier env s.config = .ok ⟨⟨rewards⟩⟩) :
    ∃ s' response, triggerWithdraw querier s env amount = .ok (s', response) := by
  obtain ⟨consumed, hconsumed⟩ := hconsumed
  have hcollected : collectRewards s.supplyPool.pendingStakingRewards rewards =
      .ok (s.supplyPool.pendingStakingRewards + rewards) := by
    unfold collectRewards
    split
    · exact addU_eq_ok.mpr ⟨hpending, rfl⟩
    · rw [show rewards = 0 by omega]
      rfl
  simp only [triggerWithdraw, bind_eq_ok, ensure_eq_ok, subU_eq_ok, addU_eq_ok,
    Except.ok.injEq, Prod.mk.injEq]
  exact ⟨_, _, (), hpositive, (), hdelegated, _, ⟨hdelegated, rfl⟩, _, ⟨havailable, rfl⟩,
    consumed, hconsumed, _, hquery, _, hcollected, _, ⟨hstaked, rfl⟩, rfl, rfl⟩

/-- In every reachable state in which the contract is running, a request of a staker for
a positive amount, or for none with something delegated, is accepted: provided the reward
query answers and the tokens the pool has and is owed are a `u128`. -/
theorem triggerWithdraw_accepted {w : World X} (hw : w.Reachable)
    (hrunning : w.storage.config.isStopped = false) {tx : Tx} {amount : Option Nat}
    (hmsg : tx.msg = .triggerWithdraw amount)
    (hpositive : 0 < amount.getD (w.storage.user tx.env.message.sender).amountDelegated)
    (hdelegated : amount.getD (w.storage.user tx.env.message.sender).amountDelegated ≤
      (w.storage.user tx.env.message.sender).amountDelegated)
    (hquery : ∃ response, queryPendingRewards tx.querier tx.env w.storage.config = .ok response)
    (hfits : w.held + w.totalStake + w.reported tx < 2 ^ 128) :
    ∃ s response, handle tx.querier w.storage tx.env tx.msg = .ok (s, response) := by
  obtain ⟨⟨⟨rewards⟩⟩, hquery⟩ := hquery
  rw [World.reported_of_query hquery] at hfits
  have hentered := entered_of_reachable hw
  have hsolvent := owed_le_of_reachable hw
  have hstaked := delegated_le_staked hw
  have huser := le_total_user UserInfo.amountDelegated rfl w.storage tx.env.message.sender
  have hliquid := le_total_user UserInfo.availableTokensForWithdraw rfl w.storage
    tx.env.message.sender
  have hhandle : handle tx.querier w.storage tx.env tx.msg =
      triggerWithdraw tx.querier w.storage tx.env amount := by
    rw [handle_of_running hrunning, hmsg]
    rfl
  rw [hhandle]
  unfold World.totalDelegated at hsolvent hstaked
  unfold World.totalAvailable at hsolvent
  exact triggerWithdraw_isOk hpositive hdelegated (by omega) (by omega) (by omega)
    ((hentered.registered tx.env.message.sender).consumeEntries_ok _) hquery

/-- Batman takes tokens out of the stopped contract before it is resumed. -/
def interruptedRun : List Tx :=
  [.depositAt 10 0 batman 3000000, .depositAt 20 70 superman 2000000,
    .at 30 0 admin .stopContract, .at 40 0 admin .emergencyRedeemFromStaking,
    .at 50 0 admin .allowWithdrawWhenStopped, .at 60 0 batman (.withdraw (some 1000000)),
    .at 70 0 admin .redelegateToNewContract, .at 80 0 admin .resumeContract]

theorem triggerWithdraw_accepted_interruptedRun :
    (testPool.run interruptedRun).storage.supplyPool.totalTokensStaked = 5000000 ∧
    (testPool.run interruptedRun).totalDelegated = 4000000 ∧
    ∃ s response, handle (fun _ _ => .ok ⟨⟨30⟩⟩) (testPool.run interruptedRun).storage
      (envAt 90 batman) (.triggerWithdraw none) = .ok (s, response) := by
  have hmsg : (Tx.at 90 30 batman (.triggerWithdraw none)).msg = .triggerWithdraw none := rfl
  exact ⟨by decide, by decide, triggerWithdraw_accepted (testPool_reachable interruptedRun)
    (by decide) hmsg (by decide) (by decide) ⟨_, rfl⟩ (by decide)⟩

end SefiStakepool.Chain
