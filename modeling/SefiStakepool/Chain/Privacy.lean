/-
  Chain/Privacy.lean --- what a query about a user shows, and to whom.

  An authenticated query reads the storage through the key stored for the address it
  names: with any other key it sees nothing, and with that one no more than the data
  of this user and the mode.  Both say of two storages that they cannot be told apart,
  and both follow from one fact: storages that show a key the same give the same answer.
-/
import SefiStakepool.Chain.Answers

set_option autoImplicit false

namespace SefiStakepool.Chain

open SefiStakepool.Foundation
open SefiStakepool.Contract

variable {X : Crates}

/-! ## What a key shows -/

/-- The key is the one stored for `a`, as far as its hash tells. -/
def Opens (s : Storage X) (a : HumanAddr) (key : String) : Prop :=
  s.viewingKeys.lookup a = some (ViewingKey.toHashed X ⟨key⟩)

instance (s : Storage X) (a : HumanAddr) (key : String) : Decidable (Opens s a key) :=
  inferInstanceAs (Decidable (_ = _))

/-- What there is to see of one user. -/
structure View (X : Crates) where
  user : UserInfo X.store.Index
  history : List UserWinningHistory
  isStopped : Bool
  isStoppedCanWithdraw : Bool

/-- What a key shows of `a`. -/
def shown (s : Storage X) (a : HumanAddr) (key : String) : Option (View X) :=
  if Opens s a key then
    some ⟨s.user a, history s a, s.config.isStopped, s.config.isStoppedCanWithdraw⟩
  else none

/-- The two storages agree on all that is stored for `a`, and on the mode. -/
structure AgreesOn (a : HumanAddr) (s s' : Storage X) : Prop where
  viewingKey : s.viewingKeys.lookup a = s'.viewingKeys.lookup a
  user : s.user a = s'.user a
  history : history s a = history s' a
  isStopped : s.config.isStopped = s'.config.isStopped
  isStoppedCanWithdraw : s.config.isStoppedCanWithdraw = s'.config.isStoppedCanWithdraw

section
variable {querier querier' : Querier} {s s' : Storage X} {a : HumanAddr} {key : String}
  {msg : QueryMsg}

theorem shown_of_not_opens (h : ¬ Opens s a key) : shown s a key = none := if_neg h

theorem AgreesOn.opens_iff (h : AgreesOn a s s') : Opens s a key ↔ Opens s' a key := by
  unfold Opens
  rw [h.viewingKey]

theorem AgreesOn.shown_eq (h : AgreesOn a s s') : shown s a key = shown s' a key := by
  unfold shown
  by_cases hopens : Opens s a key
  · rw [if_pos hopens, if_pos (h.opens_iff.mp hopens), h.user, h.history, h.isStopped,
      h.isStoppedCanWithdraw]
  · rw [if_neg hopens, if_neg (h.opens_iff.not.mp hopens)]

/-! ## The answers -/

/-- A key that is not the stored one, or one where none is stored, is refused. -/
theorem query_of_not_opens (hparams : msg.getValidationParams = .ok (a, ⟨key⟩))
    (h : ¬ Opens s a key) : query querier s msg = .ok viewingKeyError := by
  have hqueries : authenticatedQueries s msg = .ok viewingKeyError := by
    simp only [authenticatedQueries, hparams, Bind.bind, Except.bind]
    cases hlookup : s.viewingKeys.lookup a with
    | none => rfl
    | some expectedKey =>
        have hcheck : ViewingKey.checkViewingKey X ⟨key⟩ expectedKey = false := by
          refine decide_eq_false ?_
          rintro rfl
          exact h hlookup
        simp only [hcheck, Bool.false_eq_true, if_false]
  cases msg with
  | totalRewards | totalDeposits | lotteryInfo | pastRecords | pastAllRecords =>
      cases hparams
  | _ => exact hqueries

/-- Every handler behind the check reads the data of the user it is asked about. -/
theorem authenticatedAnswer_eq (hparams : msg.getValidationParams = .ok (a, ⟨key⟩))
    (huser : s.user a = s'.user a) (hhistory : history s a = history s' a)
    (hmode : s.config.isStoppedCanWithdraw = s'.config.isStoppedCanWithdraw) :
    authenticatedAnswer s msg = authenticatedAnswer s' msg := by
  unfold history at hhistory
  cases msg <;> cases hparams
  · rfl
  · simp only [authenticatedAnswer, queryDeposit, huser]
  · simp only [authenticatedAnswer, queryAvailableFunds, huser, hmode]
  · simp only [authenticatedAnswer, queryUserPastRecords, hhistory]
  · simp only [authenticatedAnswer, queryUserAllPastRecords, hhistory]

/-- What a key is told is a matter of what it is shown. -/
theorem query_eq_of_shown (hparams : msg.getValidationParams = .ok (a, ⟨key⟩))
    (h : shown s a key = shown s' a key) : query querier s msg = query querier' s' msg := by
  unfold shown at h
  by_cases hopens : Opens s a key
  · by_cases hopens' : Opens s' a key
    · rw [if_pos hopens, if_pos hopens', Option.some.injEq, View.mk.injEq] at h
      rw [query_of_key hparams hopens, query_of_key hparams hopens']
      exact authenticatedAnswer_eq hparams h.1 h.2.1 h.2.2.2
    · rw [if_pos hopens, if_neg hopens'] at h
      cases h
  · by_cases hopens' : Opens s' a key
    · rw [if_neg hopens, if_pos hopens'] at h
      cases h
    · rw [query_of_not_opens hparams hopens, query_of_not_opens hparams hopens']

/-- In any two storages, whatever the hash, an authenticated query about `a` is answered
the same if its key is the stored one in neither, and if they agree on all that is stored
for `a` and on the mode. -/
theorem query_noninterference (hparams : msg.getValidationParams = .ok (a, ⟨key⟩)) :
    (¬ Opens s a key → ¬ Opens s' a key →
      query querier s msg = query querier' s' msg) ∧
    (AgreesOn a s s' → query querier s msg = query querier' s' msg) := by
  constructor
  · intro h h'
    refine query_eq_of_shown hparams ?_
    rw [shown_of_not_opens h, shown_of_not_opens h']
  · intro h
    exact query_eq_of_shown hparams h.shown_eq

end

/-- A guessed key does not tell the pool with Batman's deposit and key from the empty
one, and Batman's own key does not show whether Superman has deposited. -/
theorem query_noninterference_keyedRun :
    query (fun _ _ => .ok ⟨⟨0⟩⟩) (testPool.run keyedRun).storage (.balance batman "guess") =
      query (fun _ _ => .ok ⟨⟨0⟩⟩) testPool.storage (.balance batman "guess") ∧
    query (fun _ _ => .ok ⟨⟨0⟩⟩) (testPool.run keyedRun).storage (.balance batman "key") =
      query (fun _ _ => .ok ⟨⟨0⟩⟩)
        (testPool.run (keyedRun ++ [.depositAt 20 0 superman 2000000])).storage
        (.balance batman "key") := by
  have hstored : (testPool.run keyedRun).storage.viewingKeys.lookup batman =
    some (ViewingKey.toHashed reference ⟨"key"⟩) := rfl
  constructor
  · refine (query_noninterference rfl).1 ?_ (by decide)
    rw [Opens, hstored]
    decide +kernel
  · exact (query_noninterference rfl).2 ⟨rfl, rfl, rfl, rfl, rfl⟩

end SefiStakepool.Chain
