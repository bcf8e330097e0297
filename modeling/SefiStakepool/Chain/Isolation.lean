/-
  Chain/Isolation.lean --- what a message can do to the data of somebody else.

  All entries live in one store, and who owns an index is known only from the
  lists.  Still nobody's message touches what another user has, but for the two
  things that are meant to: a deposit for that user, and that user's prize.
-/
import SefiStakepool.Chain.Registry
import SefiStakepool.Chain.Ledger

set_option autoImplicit false

namespace SefiStakepool.Chain

open SefiStakepool.Foundation
open SefiStakepool.Contract

variable {X : Crates}

/-- The winning history of a user. -/
def history (s : Storage X) (u : HumanAddr) : List UserWinningHistory :=
  s.userWinningHistory.getD [] u

/-! ## What can happen to a user's data -/

/-- All that is stored for `u` stays. -/
structure Untouched (u : HumanAddr) (s s' : Storage X) : Prop where
  record : s'.userInfo.lookup u = s.userInfo.lookup u
  entries : ∀ i entry, entry.userAddress = u →
    (X.store.get s'.entries i = some entry ↔ X.store.get s.entries i = some entry)
  viewingKey : s'.viewingKeys.lookup u = s.viewingKeys.lookup u
  history : s'.userWinningHistory.lookup u = s.userWinningHistory.lookup u

/-- `u` has one entry more, at the index `i`, and as much more delegated. -/
structure Staked (u : HumanAddr) (amount time : Nat) (i : X.store.Index)
    (s s' : Storage X) : Prop where
  record : s'.userInfo.lookup u = some { s.user u with
    amountDelegated := (s.user u).amountDelegated + amount
    entryIndex := (s.user u).entryIndex ++ [i] }
  fresh : X.store.get s.entries i = none
  entry : X.store.get s'.entries i = some ⟨u, amount, time⟩
  entries : ∀ j, j ≠ i → X.store.get s'.entries j = X.store.get s.entries j
  viewingKey : s'.viewingKeys.lookup u = s.viewingKeys.lookup u
  history : s'.userWinningHistory.lookup u = s.userWinningHistory.lookup u

/-- `u` is credited a prize and has one line of history more. -/
structure Prized (u : HumanAddr) (prize time : Nat) (s s' : Storage X) : Prop where
  record : s'.userInfo.lookup u = some { s.user u with
    availableTokensForWithdraw := (s.user u).availableTokensForWithdraw + prize
    totalWon := (s.user u).totalWon + prize }
  entries : ∀ i, X.store.get s'.entries i = X.store.get s.entries i
  viewingKey : s'.viewingKeys.lookup u = s.viewingKeys.lookup u
  history : s'.userWinningHistory.lookup u =
    some (history s u ++ [⟨asU64 prize, time⟩])

/-- Nothing is taken away from `u`. -/
structure Kept (u : HumanAddr) (s s' : Storage X) : Prop where
  delegated : (s.user u).amountDelegated ≤ (s'.user u).amountDelegated
  available :
    (s.user u).availableTokensForWithdraw ≤ (s'.user u).availableTokensForWithdraw
  won : (s.user u).totalWon ≤ (s'.user u).totalWon
  entries : ∀ i entry, X.store.get s.entries i = some entry → entry.userAddress = u →
    X.store.get s'.entries i = some entry
  viewingKey : s'.viewingKeys.lookup u = s.viewingKeys.lookup u
  history : history s u <+: history s' u

section
variable {u : HumanAddr} {s s' : Storage X}

theorem user_of_lookup_eq (h : s'.userInfo.lookup u = s.userInfo.lookup u) :
    s'.user u = s.user u := by
  simp only [Storage.user, KeyedMap.getD, h]

theorem history_of_lookup_eq
    (h : s'.userWinningHistory.lookup u = s.userWinningHistory.lookup u) :
    history s' u = history s u := by
  simp only [Chain.history, KeyedMap.getD, h]

theorem Untouched.kept (h : Untouched u s s') : Kept u s s' := by
  have huser := user_of_lookup_eq h.record
  refine ⟨by rw [huser], by rw [huser], by rw [huser], ?_, h.viewingKey, ?_⟩
  · exact fun i entry hget howner => (h.entries i entry howner).mpr hget
  · exact history_of_lookup_eq h.history ▸ List.prefix_refl _

theorem Staked.kept {amount time : Nat} {i : X.store.Index}
    (h : Staked u amount time i s s') : Kept u s s' := by
  have huser := user_of_lookup h.record
  refine ⟨?_, by rw [huser], by rw [huser], ?_, h.viewingKey, ?_⟩
  · rw [huser]
    exact Nat.le_add_right _ _
  · intro j entry hget _
    have hne : j ≠ i := by
      intro heq
      rw [heq, h.fresh] at hget
      cases hget
    rw [h.entries j hne]
    exact hget
  · exact history_of_lookup_eq h.history ▸ List.prefix_refl _

theorem Prized.kept {prize time : Nat} (h : Prized u prize time s s') : Kept u s s' := by
  have huser := user_of_lookup h.record
  refine ⟨by rw [huser], ?_, ?_, ?_, h.viewingKey, ?_⟩
  · rw [huser]
    exact Nat.le_add_right _ _
  · rw [huser]
    exact Nat.le_add_right _ _
  · intro i entry hget _
    rw [h.entries i]
    exact hget
  · have hhistory : Chain.history s' u = Chain.history s u ++ [⟨asU64 prize, time⟩] :=
      KeyedMap.getD_of_lookup h.history
    rw [hhistory]
    exact List.prefix_append _ _

/-- A message that writes neither records nor entries nor keys nor histories. -/
theorem Untouched.of_same (huserInfo : s'.userInfo = s.userInfo)
    (hentries : s'.lotteryEntries = s.lotteryEntries)
    (hviewingKeys : s'.viewingKeys = s.viewingKeys)
    (hhistory : s'.userWinningHistory = s.userWinningHistory) : Untouched u s s' := by
  have hsame : s'.entries = s.entries := by
    unfold Storage.entries
    rw [hentries]
  exact ⟨by rw [huserInfo], fun i entry _ => by rw [hsame], by rw [hviewingKeys],
    by rw [hhistory]⟩

end

/-! ## One transaction -/

/-- What a message of somebody else does to the data of `u`. -/
inductive Touches (u : HumanAddr) (w : World X) (tx : Tx) (s : Storage X) : Prop
  | nothing (untouched : Untouched u w.storage s)
  | deposit {sender : HumanAddr} {amount : Nat} {payload : Binary} {i : X.store.Index}
      (msg_eq : tx.msg = .receive sender u amount payload)
      (token : tx.env.message.sender = w.storage.config.token.address)
      (staked : Staked u amount tx.env.block.time i w.storage s)
  | prize
      (winner : w.winner tx = some u)
      (prized : Prized u (w.winnings u tx) tx.env.block.time w.storage s)

theorem touches_of_exec {w w' : World X} {tx : Tx} {response : HandleResponse}
    (hexec : w.exec tx = some (w', response)) (hw : Entered w) {u : HumanAddr}
    (hsender : u ≠ tx.env.message.sender) : Touches u w tx w'.storage := by
  have heffect := World.exec_effect hexec
  have hresponse := World.response_of_exec hexec
  generalize w'.storage = s at heffect
  clear hexec
  obtain ⟨env, msg, querier⟩ := tx
  dsimp only at heffect hsender
  cases heffect with
  | deposit running token decoded minimum query =>
      rename_i sender from_ amount rewards payload
      by_cases hu : u = from_
      · subst hu
        exact .deposit rfl token ⟨AList.lookup_insert _, X.store.get_insert_fresh _ _,
          X.store.get_insert_self _ _, fun j hj => X.store.get_insert_of_ne _ _ _ hj,
          rfl, rfl⟩
      · have hagrees : AgreesBut from_ w.storage.entries (X.store.insert w.storage.entries
          (depositEntry env from_ amount)).2 := agreesBut_insert rfl
        exact .nothing ⟨AList.lookup_insert_ne hu,
          fun i entry howner => hagrees i entry (howner ▸ hu), rfl, rfl⟩
  | unstake running amount_eq positive delegated staked consumed query =>
      have hle := le_trans delegated (hw.delegated_le env.message.sender)
      obtain ⟨_, _, hagrees⟩ :=
        consumeEntries_spec (hw.registered env.message.sender) hle consumed
      exact .nothing ⟨AList.lookup_insert_ne hsender,
        fun i entry howner => hagrees i entry (howner ▸ hsender), rfl, rfl⟩
  | payout open_ amount_eq positive available delegated allowed =>
      exact .nothing ⟨AList.lookup_insert_ne hsender, fun _ _ _ => Iff.rfl, rfl, rfl⟩
  | draw running triggerer ended restart entries drawn query share_eq share_lt found =>
      rename_i winner user lottery data rewards share
      by_cases hu : u = winner
      · subst hu
        have hwinner : w.winner ⟨env, .claimRewards, querier⟩ = some u := by
          simp only [World.winner, hresponse]
        have hprize : w.winnings u ⟨env, .claimRewards, querier⟩ =
            w.storage.supplyPool.pot rewards - share := by
          rw [World.winnings_of_query hwinner query, share_eq]
          rfl
        refine .prize hwinner ?_
        rw [hprize]
        refine ⟨?_, fun _ => rfl, rfl, AList.lookup_insert _⟩
        rw [← user_of_lookup found]
        exact AList.lookup_insert _
      · exact .nothing ⟨AList.lookup_insert_ne hu, fun _ _ _ => Iff.rfl, rfl,
          AList.lookup_insert_ne hu⟩
  | viewingKey msg_eq =>
      exact .nothing ⟨rfl, fun _ _ _ => Iff.rfl, AList.lookup_insert_ne hsender, rfl⟩
  | _ => exact .nothing (.of_same rfl rfl rfl rfl)

/-- A message of somebody else takes nothing away from a user, and changes nothing
of what is stored for the user but by a deposit of the token contract for that user,
which adds one entry and its amount, or by crediting that user's prize. -/
theorem isolated_of_reachable {w : World X} (hw : w.Reachable) (tx : Tx) {u : HumanAddr}
    (hsender : u ≠ tx.env.message.sender) :
    Kept u w.storage (w.step tx).storage ∧ Touches u w tx (w.step tx).storage := by
  have hentered := entered_of_reachable hw
  have htouches : Touches u w tx (w.step tx).storage := by
    rcases World.step_cases w tx with ⟨response, hexec⟩ | ⟨_, hstep⟩
    · exact touches_of_exec hexec hentered hsender
    · rw [hstep]
      exact .nothing (.of_same rfl rfl rfl rfl)
  refine ⟨?_, htouches⟩
  cases htouches with
  | nothing untouched => exact untouched.kept
  | deposit msg_eq token staked => exact staked.kept
  | prize winner prized => exact prized.kept

/-- Batman unstakes everything, from entries on both sides of Superman's. -/
theorem isolated_of_reachable_registryRun :
    let w := testPool.run registryRun
    let tx : Tx := .at 60 0 batman (.triggerWithdraw none)
    (w.exec tx).isSome ∧ Kept superman w.storage (w.step tx).storage ∧
      Touches superman w tx (w.step tx).storage :=
  ⟨by decide, isolated_of_reachable (testPool_reachable registryRun) _ (by decide)⟩

end SefiStakepool.Chain
