/-
  Chain/Answers.lean --- what the queries answer, against what the handlers do.

  The record queries answer the right records, and two of them in a wrong variant
  where there are none.  `Withdraw` pays up to what the balance query answers in the
  two modes it is meant to work in.
-/
import SefiStakepool.Chain.Records

set_option autoImplicit false

namespace SefiStakepool.Chain

open SefiStakepool.Foundation
open SefiStakepool.Contract

variable {X : Crates}

/-! ## Records -/

section
variable {s : Storage X} {u : HumanAddr}

/-- The records of a user, in the order they were made. -/
def userRecords (s : Storage X) (u : HumanAddr) : List (Nat × Nat) :=
  (history s u).map UserWinningHistory.record

/-- The records of all draws, in the order they were made. -/
def pastRecords (s : Storage X) : List (Nat × Nat) :=
  s.lastLotteryResults.map LastLotteryResults.record

theorem take_cap (len : Nat) (records : List (Nat × Nat)) (h : records.length = len) :
    records.take (if 5 < len then 5 else len) = records.take 5 := by
  split
  · rfl
  · rw [List.take_of_length_le (by omega), List.take_of_length_le (by omega)]

theorem queryUserPastRecords_eq :
    queryUserPastRecords s u = .ok (.userPastRecords ((userRecords s u).reverse.take 5)) := by
  unfold queryUserPastRecords userRecords history
  cases hhistory : s.userWinningHistory.getD [] u with
  | nil => rfl
  | cons item rest =>
      rw [queryRecords_backwards (by simp) (by split <;> omega), take_cap _ _ (by simp)]

theorem queryUserAllPastRecords_eq : queryUserAllPastRecords s u =
    .ok (if userRecords s u = [] then .userPastRecords []
      else .userAllPastRecords (userRecords s u)) := by
  unfold queryUserAllPastRecords userRecords history
  cases hhistory : s.userWinningHistory.getD [] u with
  | nil => rfl
  | cons item rest =>
      rw [queryRecords_forwards (by simp)]
      rfl

theorem queryAllPastResults_eq : queryAllPastResults s =
    .ok (if pastRecords s = [] then .pastRecords [] else .pastAllRecords (pastRecords s)) := by
  unfold queryAllPastResults pastRecords
  cases hresults : s.lastLotteryResults with
  | nil => rfl
  | cons item rest =>
      rw [queryRecords_forwards (by simp)]
      rfl

theorem queryPastResults_eq :
    queryPastResults s = .ok (.pastRecords (pastRecords s).reverse) := by
  unfold queryPastResults pastRecords
  cases hresults : s.lastLotteryResults with
  | nil => rfl
  | cons item rest =>
      rw [queryRecords_backwards (by simp) (le_refl _),
        List.take_of_length_le (by simp)]

/-- All four record queries answer the records, each in its own variant. -/
structure RecordsAnswered (querier : Querier) (s : Storage X) (u : HumanAddr)
    (key : String) : Prop where
  userAll : query querier s (.userAllPastRecords u key) =
    .ok (.userAllPastRecords (userRecords s u))
  userPast : query querier s (.userPastRecords u key) =
    .ok (.userPastRecords ((userRecords s u).reverse.take 5))
  all : query querier s .pastAllRecords = .ok (.pastAllRecords (pastRecords s))
  past : query querier s .pastRecords = .ok (.pastRecords (pastRecords s).reverse)

/-- A user who gives the stored key is answered all four queries rightly exactly when
the user has won and so there are records. -/
theorem recordsAnswered_iff {querier : Querier} {key : String}
    (hkey : s.viewingKeys.lookup u = some (ViewingKey.toHashed X ⟨key⟩)) :
    RecordsAnswered querier s u key ↔ history s u ≠ [] ∧ s.lastLotteryResults ≠ [] := by
  have huserAll : query querier s (.userAllPastRecords u key) = queryUserAllPastRecords s u :=
    query_of_key rfl hkey
  have huserPast : query querier s (.userPastRecords u key) = queryUserPastRecords s u :=
    query_of_key rfl hkey
  have huser : userRecords s u = [] ↔ history s u = [] := List.map_eq_nil_iff
  have hpast : pastRecords s = [] ↔ s.lastLotteryResults = [] := List.map_eq_nil_iff
  constructor
  · intro h
    have hvariant := h.userAll
    have hvariant' : queryAllPastResults s = .ok (.pastAllRecords (pastRecords s)) := h.all
    rw [huserAll, queryUserAllPastRecords_eq] at hvariant
    rw [queryAllPastResults_eq] at hvariant'
    refine ⟨?_, ?_⟩
    · intro hnone
      rw [if_pos (huser.mpr hnone)] at hvariant
      cases hvariant
    · intro hnone
      rw [if_pos (hpast.mpr hnone)] at hvariant'
      cases hvariant'
  · rintro ⟨hhistory, hresults⟩
    refine ⟨?_, ?_, ?_, ?_⟩
    · rw [huserAll, queryUserAllPastRecords_eq, if_neg fun h => hhistory (huser.mp h)]
    · rw [huserPast, queryUserPastRecords_eq]
    · have hall : query querier s .pastAllRecords = queryAllPastResults s := rfl
      rw [hall, queryAllPastResults_eq, if_neg fun h => hresults (hpast.mp h)]
    · exact queryPastResults_eq

end

/-- Batman sets a viewing key before anything is drawn. -/
def keyedRun : List Tx :=
  [.at 5 0 batman (.setViewingKey "key" none), .depositAt 10 0 batman 3000000]

theorem recordsAnswered_iff_keyedRun :
    RecordsAnswered (fun _ _ => .ok ⟨⟨0⟩⟩)
      (testPool.run (keyedRun ++ [.at 86400 1000 triggerer .claimRewards])).storage batman
      "key" :=
  (recordsAnswered_iff rfl).mpr ⟨by decide, by decide⟩

/-- Where there are no records, two queries answer in the variant of two others. -/
theorem not_recordsAnswered_keyedRun :
    (testPool.run keyedRun).Reachable ∧
    query (fun _ _ => .ok ⟨⟨0⟩⟩) (testPool.run keyedRun).storage
      (.userAllPastRecords batman "key") = .ok (.userPastRecords []) ∧
    query (fun _ _ => .ok ⟨⟨0⟩⟩) (testPool.run keyedRun).storage .pastAllRecords =
      .ok (.pastRecords []) ∧
    ¬ RecordsAnswered (fun _ _ => .ok ⟨⟨0⟩⟩) (testPool.run keyedRun).storage batman "key" := by
  have huserAll : query (fun _ _ => .ok ⟨⟨0⟩⟩) (testPool.run keyedRun).storage
      (.userAllPastRecords batman "key") =
        queryUserAllPastRecords (testPool.run keyedRun).storage batman :=
    query_of_key rfl rfl
  refine ⟨testPool_reachable _, huserAll.trans rfl, rfl, ?_⟩
  intro h
  have hall := h.all
  revert hall
  decide

/-! ## Withdrawals -/

/-- Withdrawals from a stopped contract are only ever allowed while it is stopped. -/
theorem stopped_of_canWithdraw {w : World X} (hw : w.Reachable)
    (hcan : w.storage.config.isStoppedCanWithdraw = true) :
    w.storage.config.isStopped = true := by
  refine Reachable.invariant (I := fun w : World X =>
    w.storage.config.isStoppedCanWithdraw = true → w.storage.config.isStopped = true) hw
    ?_ ?_ hcan
  · rintro w ⟨⟨env, msg, response, hinit⟩, _⟩ hcan
    rw [(init_fresh hinit).noWithdraw] at hcan
    cases hcan
  · intro w tx h
    rcases World.step_cases w tx with ⟨response, hexec⟩ | ⟨_, hstep⟩
    · exact (World.exec_effect hexec).stopped_of_withdraw h
    · rw [hstep]
      exact h

/-- Available tokens can be withdrawn in either mode. -/
theorem withdrawFrom_available {config : Config} {user : UserInfo X.store.Index}
    {withdrawAmount : Nat} (hle : withdrawAmount ≤ user.availableTokensForWithdraw)
    (hfits : config.isStoppedCanWithdraw = true →
      user.amountDelegated + user.availableTokensForWithdraw < 2 ^ 128) :
    withdrawFrom config user withdrawAmount = .ok { user with
      availableTokensForWithdraw := user.availableTokensForWithdraw - withdrawAmount } := by
  unfold withdrawFrom
  by_cases hcan : config.isStoppedCanWithdraw = true
  · rw [if_neg (not_not.mpr hcan)]
    simp only [bind_eq_ok, ensure_eq_ok, addU_eq_ok]
    refine ⟨_, ⟨hfits hcan, rfl⟩, (), by omega, ?_⟩
    rw [if_neg (by omega)]
    simp only [bind_eq_ok, subU_eq_ok]
    exact ⟨_, ⟨hle, rfl⟩, rfl⟩
  · rw [if_pos hcan]
    simp only [bind_eq_ok, ensure_eq_ok, subU_eq_ok]
    exact ⟨(), hle, _, ⟨hle, rfl⟩, rfl⟩

theorem queryAvailableFunds_eq_ok {s : Storage X} {u : HumanAddr} {avail : Nat} :
    queryAvailableFunds s u = .ok (.availableTokensForWithdrawl avail) ↔
      if s.config.isStoppedCanWithdraw = true then
        (s.user u).availableTokensForWithdraw + (s.user u).amountDelegated < 2 ^ 128 ∧
          avail = (s.user u).availableTokensForWithdraw + (s.user u).amountDelegated
      else avail = (s.user u).availableTokensForWithdraw := by
  unfold queryAvailableFunds
  by_cases hcan : s.config.isStoppedCanWithdraw = true
  · simp only [if_pos hcan, bind_eq_ok, addU_eq_ok, Except.ok.injEq,
      QueryAnswer.availableTokensForWithdrawl.injEq]
    constructor
    · rintro ⟨_, ⟨hfits, rfl⟩, rfl⟩
      exact ⟨hfits, rfl⟩
    · rintro ⟨hfits, rfl⟩
      exact ⟨_, ⟨hfits, rfl⟩, rfl⟩
  · simp only [if_neg hcan, Except.ok.injEq, QueryAnswer.availableTokensForWithdrawl.injEq]
    exact eq_comm

/-- What the balance query answers is what can be taken out of a record, in either mode. -/
theorem withdrawFrom_isOk_iff {s : Storage X} {u : HumanAddr} {avail : Nat}
    (havail : queryAvailableFunds s u = .ok (.availableTokensForWithdrawl avail))
    (withdrawAmount : Nat) :
    (∃ user, withdrawFrom s.config (s.user u) withdrawAmount = .ok user) ↔
      withdrawAmount ≤ avail := by
  have hanswer := queryAvailableFunds_eq_ok.mp havail
  constructor
  · rintro ⟨user, hfrom⟩
    obtain ⟨liquid, unbacked, hsum, hliquid, hunbacked, hallowed, _⟩ := withdrawFrom_ok hfrom
    by_cases hcan : s.config.isStoppedCanWithdraw = true
    · rw [if_pos hcan] at hanswer
      omega
    · rw [if_neg hcan] at hanswer
      have hzero : unbacked = 0 := by
        by_contra hne
        exact hcan (hallowed hne).1
      omega
  · intro hle
    by_cases hlt : (s.user u).availableTokensForWithdraw < withdrawAmount
    · by_cases hcan : s.config.isStoppedCanWithdraw = true
      · rw [if_pos hcan] at hanswer
        exact ⟨_, withdrawFrom_delegated hcan hlt (by omega) (by omega)⟩
      · rw [if_neg hcan] at hanswer
        omega
    · refine ⟨_, withdrawFrom_available (by omega) fun hcan => ?_⟩
      rw [if_pos hcan] at hanswer
      omega

/-- `Withdraw` succeeds when the mode lets it, some tokens are asked for, and the
balance query covers them. -/
theorem withdraw_isOk_iff {s : Storage X} {env : Env} {avail : Nat}
    (havail : queryAvailableFunds s env.message.sender =
      .ok (.availableTokensForWithdrawl avail)) (amount : Option Nat) :
    (∃ s' response, withdraw s env amount = .ok (s', response)) ↔
      ¬ (s.config.isStopped = true ∧ ¬ s.config.isStoppedCanWithdraw = true) ∧
      0 < amount.getD (s.user env.message.sender).availableTokensForWithdraw ∧
      amount.getD (s.user env.message.sender).availableTokensForWithdraw ≤ avail := by
  rw [← withdrawFrom_isOk_iff havail]
  simp only [withdraw, bind_eq_ok, ensure_eq_ok, Except.ok.injEq, Prod.mk.injEq]
  constructor
  · rintro ⟨s', response, _, hopen, _, hpositive, user, hfrom, _⟩
    exact ⟨hopen, hpositive, user, hfrom⟩
  · rintro ⟨hopen, hpositive, user, hfrom⟩
    exact ⟨_, _, (), hopen, (), hpositive, user, hfrom, rfl, rfl⟩

/-- What a successful `Withdraw` pays, and the record it leaves. -/
theorem withdraw_pays {s s' : Storage X} {env : Env} {amount : Option Nat}
    {response : HandleResponse} (h : withdraw s env amount = .ok (s', response)) :
    response.messages = [.transfer env.message.sender
      (amount.getD (s.user env.message.sender).availableTokensForWithdraw) s.config.token] ∧
    ∃ user, withdrawFrom s.config (s.user env.message.sender)
        (amount.getD (s.user env.message.sender).availableTokensForWithdraw) = .ok user ∧
      s'.user env.message.sender = user ∧ s'.config = s.config := by
  simp only [withdraw, bind_eq_ok, ensure_eq_ok] at h
  obtain ⟨_, _, _, _, user, hfrom, h⟩ := h
  cases h
  refine ⟨rfl, user, hfrom, ?_, rfl⟩
  rw [user_insert (s := s) rfl, if_pos rfl]

/-- A withdrawal that the handler accepts. -/
def Accepts (querier : Querier) (s : Storage X) (env : Env) (amount : Option Nat) : Prop :=
  ∃ s' response, handle querier s env (.withdraw amount) = .ok (s', response)

instance (querier : Querier) (s : Storage X) (env : Env) (amount : Option Nat) :
    Decidable (Accepts querier s env amount) :=
  decidable_of_iff' _ exists_ok_iff

/-- In every reachable state, for a sender whom the balance query answers `avail`:
running, or stopped with withdrawals allowed, a withdrawal of a given amount is accepted
exactly when it is positive and at most `avail`, and pays that amount; running, one of
no given amount is accepted exactly when `avail` is positive, pays `avail`, and leaves
the query answering zero; stopped without withdrawals, none is accepted. -/
theorem withdraw_agrees {w : World X} (hw : w.Reachable) (querier : Querier) (env : Env)
    {avail : Nat} (havail : queryAvailableFunds w.storage env.message.sender =
      .ok (.availableTokensForWithdrawl avail)) :
    ((w.storage.config.isStopped = false ∨ w.storage.config.isStoppedCanWithdraw = true) →
      ∀ asked, (Accepts querier w.storage env (some asked) ↔ 0 < asked ∧ asked ≤ avail) ∧
        ∀ s' response, handle querier w.storage env (.withdraw (some asked)) =
          .ok (s', response) → response.messages =
            [.transfer env.message.sender asked w.storage.config.token]) ∧
    (w.storage.config.isStopped = false →
      (Accepts querier w.storage env none ↔ 0 < avail) ∧
        ∀ s' response, handle querier w.storage env (.withdraw none) = .ok (s', response) →
          response.messages = [.transfer env.message.sender avail w.storage.config.token] ∧
          queryAvailableFunds s' env.message.sender =
            .ok (.availableTokensForWithdrawl 0)) ∧
    (w.storage.config.isStopped = true ∧ w.storage.config.isStoppedCanWithdraw = false →
      ∀ amount, ¬ Accepts querier w.storage env amount) := by
  unfold Accepts
  simp only [handle_withdraw, withdraw_isOk_iff havail]
  refine ⟨?_, ?_, ?_⟩
  · intro hmode asked
    refine ⟨?_, fun s' response h => (withdraw_pays h).1⟩
    simp only [Option.getD_some, and_iff_right_iff_imp]
    rintro _ ⟨hstopped, hno⟩
    rcases hmode with hrunning | hcan
    · rw [hrunning] at hstopped
      cases hstopped
    · exact hno hcan
  · intro hrunning
    have hno : ¬ w.storage.config.isStoppedCanWithdraw = true := by
      intro hcan
      rw [stopped_of_canWithdraw hw hcan] at hrunning
      cases hrunning
    have hanswer := queryAvailableFunds_eq_ok.mp havail
    rw [if_neg hno] at hanswer
    subst hanswer
    refine ⟨by simp [hrunning], ?_⟩
    intro s' response h
    obtain ⟨hmessages, user, hfrom, huser, hconfig⟩ := withdraw_pays h
    refine ⟨hmessages, ?_⟩
    rw [Option.getD_none, withdrawFrom_available (le_refl _) fun hcan => absurd hcan hno] at hfrom
    cases hfrom
    rw [queryAvailableFunds_eq_ok, hconfig, if_neg hno, huser]
    exact (Nat.sub_self _).symm
  · rintro ⟨hstopped, hno⟩ amount ⟨hopen, _⟩
    exact hopen ⟨hstopped, by simp [hno]⟩

/-- Part of a deposit is unstaked. -/
def unstakedRun : List Tx :=
  [.depositAt 10 0 batman 3000000, .at 20 0 batman (.triggerWithdraw (some 1000000))]

theorem withdraw_agrees_unstakedRun :
    let s := (testPool.run unstakedRun).storage
    Accepts (fun _ _ => .ok ⟨⟨0⟩⟩) s (envAt 30 batman) (some 1000000) ∧
    ¬ Accepts (fun _ _ => .ok ⟨⟨0⟩⟩) s (envAt 30 batman) (some 1000001) ∧
    Accepts (fun _ _ => .ok ⟨⟨0⟩⟩) s (envAt 30 batman) none := by
  intro s
  have havail : queryAvailableFunds (testPool.run unstakedRun).storage batman =
    .ok (.availableTokensForWithdrawl 1000000) := rfl
  obtain ⟨hsome, hnone, _⟩ := withdraw_agrees (testPool_reachable unstakedRun)
    (fun _ _ => .ok ⟨⟨0⟩⟩) (envAt 30 batman) havail
  have hrunning : (testPool.run unstakedRun).storage.config.isStopped = false := by decide
  refine ⟨(hsome (Or.inl hrunning) 1000000).1.mpr (by decide), ?_,
    (hnone hrunning).1.mpr (by decide)⟩
  rw [(hsome (Or.inl hrunning) 1000001).1]
  decide

/-- The contract is stopped, and then withdrawals are allowed. -/
def closedRun : List Tx := unstakedRun ++ [.at 30 0 admin .stopContract]

def reopenedRun : List Tx := closedRun ++ [.at 40 0 admin .emergencyRedeemFromStaking,
  .at 50 0 admin .allowWithdrawWhenStopped, .at 60 0 batman (.withdraw (some 1000000))]

/-- Stopped, what the query answers cannot be withdrawn; with withdrawals allowed, what
it answers can be withdrawn, but not without saying how much. -/
theorem withdraw_disagrees_closedRun :
    ((testPool.run closedRun).Reachable ∧
      queryAvailableFunds (testPool.run closedRun).storage batman =
        .ok (.availableTokensForWithdrawl 1000000) ∧
      ¬ Accepts (fun _ _ => .ok ⟨⟨0⟩⟩) (testPool.run closedRun).storage (envAt 70 batman)
        (some 1000000)) ∧
    (testPool.run reopenedRun).Reachable ∧
      queryAvailableFunds (testPool.run reopenedRun).storage batman =
        .ok (.availableTokensForWithdrawl 2000000) ∧
      ¬ Accepts (fun _ _ => .ok ⟨⟨0⟩⟩) (testPool.run reopenedRun).storage (envAt 70 batman)
        none :=
  ⟨⟨testPool_reachable _, rfl, by decide⟩, testPool_reachable _, rfl, by decide⟩

end SefiStakepool.Chain
