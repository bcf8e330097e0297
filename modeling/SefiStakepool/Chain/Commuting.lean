/-
  Chain/Commuting.lean --- messages of different users in one block.

  The state is not the same in both orders: entries come to lie in other slots, and a
  deposit replaces and restakes the pending rewards while an unstaking adds to them.
  What a user can see of it is a row of a sheet and its totals, and there a deposit, an
  unstaking or a withdrawal is an entry at the row of its user.
-/
import SefiStakepool.Foundation.Sheet
import SefiStakepool.Chain.Answers
import SefiStakepool.Chain.Pot
import SefiStakepool.Chain.Unstaking

set_option autoImplicit false

namespace SefiStakepool.Chain

open SefiStakepool.Foundation
open SefiStakepool.Contract
open SefiStakepool.Accounting

variable {X : Crates}

/-! ## Messages of a block -/

/-- A message to the pool and the environment it comes in. -/
structure Message where
  env : Env
  msg : HandleMsg

/-- The user whom a deposit, an unstaking or a withdrawal is for. -/
def Message.user (m : Message) : Option HumanAddr :=
  match m.msg with
  | .receive _ from_ _ _ => some from_
  | .triggerWithdraw _ | .withdraw _ => some m.env.message.sender
  | _ => none

/-- The message is one of the block. -/
structure Message.Within (m : Message) (block : BlockInfo) (w : World X) : Prop where
  block_eq : m.env.block = block
  contract : m.env.contract.address = w.storage.config.ownAddr

/-- The transaction of a message while other contracts answer as given. -/
def Message.tx (m : Message) (querier : Querier) : Tx := ⟨m.env, m.msg, querier⟩

namespace Block

/-- The message goes through. -/
def Accepts (ask : Block X → Querier) (b : Block X) (m : Message) : Prop :=
  (b.world.response (m.tx (ask b))).isSome

instance (ask : Block X → Querier) (b : Block X) (m : Message) : Decidable (b.Accepts ask m) :=
  inferInstanceAs (Decidable (_ = true))

/-- The block after the message. -/
def perform (ask : Block X → Querier) (b : Block X) (m : Message) : Block X :=
  b.step (m.tx (ask b))

/-- The tokens the message has transferred to `u`. -/
def paidTo (ask : Block X → Querier) (u : HumanAddr) (b : Block X) (m : Message) : Nat :=
  match b.world.response (m.tx (ask b)) with
  | some response => (response.messages.map (transferTo u)).sum
  | none => 0

/-- The tokens the pool has and is owed. -/
def tokens (b : Block X) : Nat := b.world.held + b.world.totalStake + b.due

end Block

/-! ## Rows and totals -/

/-- The amount and the time of an entry. -/
def lot (entry : LotteryEntries) : Nat × Nat := (entry.amount, entry.entryTime)

/-- What is read at an index. -/
def read (s : Storage X) (i : X.store.Index) : Option (Nat × Nat) :=
  (X.store.get s.entries i).map lot

/-- The entries of a user, read through the user's indices. -/
def queue (s : Storage X) (u : HumanAddr) : List (Nat × Nat) :=
  (s.user u).entryIndex.filterMap (read s)

/-- What a user can see of the own data. -/
structure Row where
  account : Account
  queue : List (Nat × Nat)

/-- What is common to all users. -/
@[ext] structure Totals where
  staked : ℤ
  pot : ℤ
  fee : ℤ
  tokens : ℤ
  due : ℤ

/-- What a message does to the totals: it may collect what is due, and it moves tokens. -/
structure Move where
  collects : Bool
  staked : ℤ
  tokens : ℤ

def Totals.move (t : Totals) (m : Move) : Totals where
  staked := t.staked + m.staked
  pot := t.pot + if m.collects then t.due else 0
  fee := t.fee
  tokens := t.tokens + m.tokens + if m.collects then t.due else 0
  due := if m.collects then 0 else t.due

instance : RightCommutative Totals.move where
  right_comm t m m' := by
    obtain ⟨collects, staked, tokens⟩ := m
    obtain ⟨collects', staked', tokens'⟩ := m'
    cases collects <;> cases collects' <;> apply Totals.ext <;>
      simp only [Totals.move, if_true, Bool.false_eq_true, if_false] <;> omega

/-- The row of a user. -/
def row (s : Storage X) (u : HumanAddr) : Row := ⟨account (s.user u), queue s u⟩

/-- The totals of books, with what is still due. -/
def totals (b : Books) (due : Nat) : Totals where
  staked := b.staked
  pot := b.restaked + b.pending
  fee := b.fee
  tokens := b.held + (b.current + b.elsewhere)
  due := due

/-- The sheet of a block. -/
def Block.sheet (b : Block X) : Sheet HumanAddr Row Totals where
  row := row b.world.storage
  total := totals b.world.books b.due

/-! ## Messages as entries -/

/-- What is left of a queue when `asked` is taken out of it, oldest first. -/
def spend : List (Nat × Nat) → Nat → List (Nat × Nat)
  | [], _ => []
  | (amount, time) :: lots, asked =>
      if amount ≤ asked then spend lots (asked - amount) else (amount - asked, time) :: lots

def depositRule (amount time : Nat) (r : Row) : Option (Sheet.Outcome Row Move Nat) :=
  if 1000000 ≤ amount then
    some {
      row := {
        account := { r.account with delegated := r.account.delegated + amount }
        queue := r.queue ++ [(amount, time)] }
      move := ⟨true, amount, amount⟩
      output := 0 }
  else none

def unstakeRule (amount : Option Nat) (r : Row) : Option (Sheet.Outcome Row Move Nat) :=
  let asked := amount.getD r.account.delegated
  if 0 < asked ∧ asked ≤ r.account.delegated then
    some {
      row := {
        account := { r.account with
          delegated := r.account.delegated - asked
          available := r.account.available + asked }
        queue := spend r.queue asked }
      move := ⟨true, -asked, 0⟩
      output := 0 }
  else none

def payoutRule (amount : Option Nat) (r : Row) : Option (Sheet.Outcome Row Move Nat) :=
  let asked := amount.getD r.account.available
  if 0 < asked ∧ asked ≤ r.account.available then
    some {
      row := { r with account := { r.account with available := r.account.available - asked } }
      move := ⟨false, 0, -asked⟩
      output := asked }
  else none

/-- What a message does in the row of its user; `token` is the token of the pool. -/
def Message.rule (X : Crates) (token : HumanAddr) (m : Message) (r : Row) :
    Option (Sheet.Outcome Row Move Nat) :=
  match m.msg with
  | .receive _ _ amount payload =>
      if m.env.message.sender = token ∧ X.fromBinary payload = .ok .deposit then
        depositRule amount m.env.block.time r
      else none
  | .triggerWithdraw amount => unstakeRule amount r
  | .withdraw amount => payoutRule amount r
  | _ => none

/-- The entry a message of `u` makes. -/
def Message.entry (X : Crates) (token u : HumanAddr) (m : Message) :
    Sheet.Entry HumanAddr Row Move Nat :=
  ⟨u, m.rule X token⟩

/-! ## Queues -/

section
variable {s s' : Storage X} {u v : HumanAddr} {user : UserInfo X.store.Index}
  {es : List (X.store.Index × LotteryEntries)}

theorem read_of_reads (hreads : Reads s.entries es) :
    ∀ e ∈ es, read s e.1 = some (lot e.2) := by
  intro e he
  rw [read, hreads.live e he, Option.map_some]

/-- Reading the indices of a queue reads the queue. -/
theorem queue_of_reads (hindex : (s.user u).entryIndex = es.map Prod.fst)
    (hreads : Reads s.entries es) : queue s u = es.map fun e => lot e.2 := by
  rw [queue, hindex, List.filterMap_map]
  refine (List.filterMap_congr (read_of_reads hreads)).trans ?_
  exact congrFun List.filterMap_eq_map es

/-- There is an entry at every index of a user. -/
theorem map_read (h : Registered s) (u : HumanAddr) :
    (s.user u).entryIndex.map (read s) = (queue s u).map some := by
  obtain ⟨es, hindex, hreads⟩ := (h u).reads
  rw [queue_of_reads hindex.symm hreads, ← hindex, List.map_map, List.map_map]
  exact List.map_congr_left (read_of_reads hreads)

/-- The loop of `trigger_withdraw` spends from the queue. -/
theorem spend_takeOldest (es : List (X.store.Index × LotteryEntries)) (asked : Nat) :
    (takeOldest es asked).map (fun e => lot e.2) = spend (es.map fun e => lot e.2) asked := by
  induction es generalizing asked with
  | nil => rfl
  | cons e es ih =>
      obtain ⟨i, entry⟩ := e
      simp only [takeOldest, List.map_cons, lot, spend]
      split
      · exact ih _
      · rfl

/-- A user keeps the queue that other users' entries are written beside. -/
theorem queue_of_agreesBut (h : Registered s) (huser : s'.user v = s.user v) (hne : v ≠ u)
    (hagrees : AgreesBut u s.entries s'.entries) : queue s' v = queue s v := by
  rw [queue, huser]
  refine List.filterMap_congr fun i hi => ?_
  obtain ⟨entry, hget, howner, _⟩ := (h v).live i hi
  rw [read, read, hget, (hagrees i entry (howner ▸ hne)).mpr hget]

/-- Writing the record and the entries of one user writes one row. -/
theorem row_of_insert (h : Registered s) (hinsert : s'.userInfo = s.userInfo.insert u user)
    (hagrees : AgreesBut u s.entries s'.entries) :
    row s' = Function.update (row s) u ⟨account user, queue s' u⟩ := by
  funext v
  by_cases hv : v = u
  · subst hv
    rw [Function.update_self, row, user_insert hinsert, if_pos rfl]
  · have huser : s'.user v = s.user v := by rw [user_insert hinsert, if_neg (Ne.symm hv)]
    rw [Function.update_of_ne hv, row, row, huser, queue_of_agreesBut h huser hv hagrees]

/-- A deposit lines up its entry at the end. -/
theorem row_of_deposit (h : Registered s) {entry : LotteryEntries}
    (howner : entry.userAddress = u)
    (hinsert : s'.userInfo = s.userInfo.insert u user)
    (hindex : user.entryIndex =
      (s.user u).entryIndex ++ [(X.store.insert s.entries entry).1])
    (hentries : s'.lotteryEntries = some (X.store.insert s.entries entry).2) :
    row s' = Function.update (row s) u ⟨account user, queue s u ++ [lot entry]⟩ := by
  have hstored : s'.entries = (X.store.insert s.entries entry).2 := by
    rw [Storage.entries, hentries, Option.getD_some]
  have huser : s'.user u = user := by rw [user_insert hinsert, if_pos rfl]
  have hqueue : queue s' u = queue s u ++ [lot entry] := by
    rw [queue, huser, hindex, List.filterMap_append]
    congr 1
    · refine List.filterMap_congr fun i hi => ?_
      obtain ⟨old, hget, _⟩ := (h u).live i hi
      have hne : i ≠ (X.store.insert s.entries entry).1 := by
        intro heq
        rw [heq, X.store.get_insert_fresh] at hget
        cases hget
      rw [read, read, hstored, X.store.get_insert_of_ne _ _ _ hne]
    · rw [List.filterMap_cons, read, hstored, X.store.get_insert_self]
      rfl
  rw [row_of_insert h hinsert (hstored ▸ agreesBut_insert howner), hqueue]

/-- An unstaking spends from the queue. -/
theorem row_of_unstake (h : Registered s) {asked : Nat} {entries : X.store.Store}
    (hasked : asked ≤ entryTotal u s.entries)
    (hinsert : s'.userInfo = s.userInfo.insert u user)
    (hconsumed : consumeEntries X (s.user u).entryIndex s.entries (s.user u).entryIndex asked =
      .ok (entries, user.entryIndex))
    (hentries : s'.lotteryEntries = some entries) :
    row s' = Function.update (row s) u ⟨account user, spend (queue s u) asked⟩ := by
  have hstored : s'.entries = entries := by
    rw [Storage.entries, hentries, Option.getD_some]
  have huser : s'.user u = user := by rw [user_insert hinsert, if_pos rfl]
  have hagrees := (consumeEntries_spec (h u) hasked hconsumed).2.2
  have hqueue : queue s' u = spend (queue s u) asked := by
    obtain ⟨es, hindex, hreads⟩ := (h u).reads
    obtain ⟨left, hrun, hleaves⟩ := consumeEntries_leaves hreads asked
    rw [← hindex, hrun, Except.ok.injEq, Prod.mk.injEq] at hconsumed
    obtain ⟨rfl, hindex'⟩ := hconsumed
    rw [← huser] at hindex'
    rw [← hstored] at hleaves
    rw [queue_of_reads hindex.symm hreads, queue_of_reads hindex'.symm hleaves.reads,
      spend_takeOldest]
  rw [row_of_insert h hinsert (hstored ▸ hagrees), hqueue]

/-- A withdrawal leaves the queue alone. -/
theorem row_of_payout (h : Registered s) (hindex : user.entryIndex = (s.user u).entryIndex) :
    row { s with userInfo := s.userInfo.insert u user } =
      Function.update (row s) u ⟨account user, queue s u⟩ := by
  let s' : Storage X := { s with userInfo := s.userInfo.insert u user }
  have hinsert : s'.userInfo = s.userInfo.insert u user := rfl
  have huser : s'.user u = user := by rw [user_insert hinsert, if_pos rfl]
  have hqueue : queue s' u = queue s u := by
    rw [queue, huser, hindex]
    rfl
  exact hqueue ▸ row_of_insert h hinsert (AgreesBut.refl u _)

end

/-! ## What a message does to the sheet -/

section
variable {b : Books} {due amount : Nat} (u : HumanAddr)

theorem totals_deposit (h : b.pending ≤ b.held) :
    totals ((Posting.deposit u amount due).apply b) 0 =
      (totals b due).move ⟨true, amount, amount⟩ := by
  apply Totals.ext <;>
    simp only [totals, Totals.move, Posting.apply, if_true] <;> omega

theorem totals_unstake (hstaked : amount ≤ b.staked) (hcurrent : amount ≤ b.current) :
    totals ((Posting.unstake u amount due).apply b) 0 =
      (totals b due).move ⟨true, -amount, 0⟩ := by
  apply Totals.ext <;>
    simp only [totals, Totals.move, Posting.apply, if_true] <;> omega

theorem totals_payout (h : amount ≤ b.held) :
    totals ((Posting.payout u amount 0).apply b) due =
      (totals b due).move ⟨false, 0, -amount⟩ := by
  apply Totals.ext <;>
    simp only [totals, Totals.move, Posting.apply, Bool.false_eq_true, if_false] <;> omega

end

/-- The block of a contract that was never stopped. -/
structure Steady (b : Block X) : Prop where
  undisturbed : Undisturbed b.world
  entered : Entered b.world

section
variable {b : Block X} {m : Message} {u : HumanAddr} {querier : Querier} {height : Nat}
  {response : HandleResponse}

/-- What an executed message leaves of the sheet, in terms of what it posts. -/
theorem Block.sheet_step {b : Block X} {tx : Tx} {response : HandleResponse}
    (hresponse : b.world.response tx = some response) :
    (b.world.postingOf tx response).Funded b.world.books ∧
      (b.step tx).sheet = ⟨row (b.step tx).world.storage,
        totals ((b.world.postingOf tx response).apply b.world.books) (b.step tx).due⟩ := by
  obtain ⟨⟨w', response'⟩, hexec, rfl⟩ := Option.map_eq_some_iff.mp hresponse
  have hposts := exec_posts hexec
  rw [World.posting_of_exec hexec] at hposts
  have hworld : (b.step tx).world = w' := World.step_of_exec hexec
  refine ⟨hposts.admissible.funded, ?_⟩
  rw [Block.sheet, hworld, hposts.books]

/-- A message that goes through is an entry at the row of its user. -/
theorem Steady.performed (hb : Steady b) (huser : m.user = some u)
    (hadmits : b.Admits height (m.tx querier))
    (hresponse : b.world.response (m.tx querier) = some response) :
    ∃ o, m.rule X b.world.storage.config.token.address (row b.world.storage u) = some o ∧
      (b.step (m.tx querier)).sheet =
        ⟨Function.update (row b.world.storage) u o.row, b.sheet.total.move o.move⟩ ∧
      (∀ x, (response.messages.map (transferTo x)).sum = if u = x then o.output else 0) ∧
      (b.step (m.tx querier)).world.storage.config = b.world.storage.config := by
  have hregistered := hb.entered.registered
  have hreported := hadmits.reported
  have hdue := hadmits.query
  obtain ⟨hfunded, hsheet⟩ := Block.sheet_step hresponse
  rcases b.step_cases (m.tx querier) with ⟨hnone, _⟩ | ⟨response', hsome, heffect, hpaid⟩
  · rw [hnone] at hresponse
    cases hresponse
  · obtain rfl := Option.some.inj (hresponse.symm.trans hsome)
    rw [hsheet, hpaid]
    clear hsheet hpaid hsome hadmits
    generalize (b.step (m.tx querier)).world.storage = s at heffect ⊢
    obtain ⟨env, msg⟩ := m
    dsimp only [Message.tx] at *
    cases heffect with
    | deposit running token decoded minimum query =>
        rename_i sender from_ amount rewards payload
        obtain rfl : from_ = u := Option.some.inj huser
        obtain ⟨⟨rfl⟩⟩ := Except.ok.inj (query.symm.trans hdue)
        simp only [World.postingOf, hreported] at hfunded ⊢
        refine ⟨_, (if_pos ⟨token, decoded⟩).trans (if_pos minimum), ?_, ?_, trivial⟩
        · rw [row_of_deposit hregistered rfl rfl rfl rfl]
          exact congrArg _ (totals_deposit from_ hfunded)
        · simp [transferTo]
    | unstake running amount_eq positive delegated staked consumed query =>
        obtain rfl : env.message.sender = u := Option.some.inj huser
        obtain ⟨⟨rfl⟩⟩ := Except.ok.inj (query.symm.trans hdue)
        subst amount_eq
        have hasked := le_trans delegated (hb.entered.delegated_le env.message.sender)
        simp only [World.postingOf, hreported] at hfunded ⊢
        refine ⟨_, if_pos ⟨positive, delegated⟩, ?_, ?_, trivial⟩
        · rw [row_of_unstake hregistered hasked rfl consumed rfl]
          exact congrArg _ (totals_unstake _ staked hfunded)
        · simp [transferTo]
    | payout open_ amount_eq positive available delegated allowed =>
        rename_i amount liquid unbacked
        obtain rfl : env.message.sender = u := Option.some.inj huser
        -- delegated tokens are only paid out of a stopped contract
        obtain rfl : unbacked = 0 := by
          by_contra hne
          have hcan := (allowed hne).1
          rw [hb.undisturbed.noWithdraw] at hcan
          cases hcan
        rw [World.postingOf_withdraw amount_eq available allowed] at hfunded ⊢
        rw [Nat.add_zero] at amount_eq positive
        subst amount_eq
        refine ⟨_, if_pos ⟨positive, available⟩, ?_, ?_, rfl⟩
        · rw [row_of_payout hregistered]
          · exact congrArg _ (totals_payout _ hfunded)
          · rfl
        · simp [transferTo, row, account]
    | reconfigure running isAdmin change =>
        rcases change with ⟨_, rfl, _⟩ | ⟨_, rfl, _⟩ | ⟨_, rfl, _⟩ <;> cases huser
    | viewingKey msg_eq =>
        rcases msg_eq with ⟨_, _, rfl, _⟩ | ⟨_, rfl⟩ <;> cases huser
    | _ => cases huser

/-- A user's record and the counters are part of the tokens the pool has. -/
theorem Steady.covered (hb : Steady b) (u : HumanAddr) :
    (b.world.storage.user u).amountDelegated ≤ b.world.storage.supplyPool.totalTokensStaked ∧
    (b.world.storage.user u).availableTokensForWithdraw +
        b.world.storage.supplyPool.totalTokensStaked +
        b.world.storage.supplyPool.totalRewardsRestaked +
        b.world.storage.supplyPool.pendingStakingRewards ≤
      b.world.held + b.world.totalStake := by
  obtain ⟨hcurrent, helsewhere, hstaked, hpayable⟩ := hb.undisturbed.regular
  have hstake := books_stake b.world
  have hdelegated := le_total_user UserInfo.amountDelegated rfl b.world.storage u
  have havailable := le_total_user UserInfo.availableTokensForWithdraw rfl b.world.storage u
  simp only [World.books, booksOver] at *
  omega

/-- The handler returns for a deposit that comes from the token contract and is large
enough, when the sums it makes fit. -/
theorem deposit_isOk {s : Storage X} {env : Env} {from_ : HumanAddr} {amount rewards : Nat}
    (htoken : env.message.sender = s.config.token.address) (hminimum : 1000000 ≤ amount)
    (hdelegated : (s.user from_).amountDelegated + amount < 2 ^ 128)
    (hstake : amount + s.supplyPool.pendingStakingRewards < 2 ^ 128)
    (hstaked : s.supplyPool.totalTokensStaked + amount < 2 ^ 128)
    (hrestaked : s.supplyPool.totalRewardsRestaked + s.supplyPool.pendingStakingRewards
      < 2 ^ 128)
    (hquery : queryPendingRewards querier env s.config = .ok ⟨⟨rewards⟩⟩) :
    ∃ s' response, deposit querier s env from_ amount = .ok (s', response) := by
  simp only [deposit, bind_eq_ok, ensure_eq_ok, addU_eq_ok, Except.ok.injEq, Prod.mk.injEq]
  exact ⟨_, _, (), htoken, (), hminimum, _, ⟨hdelegated, rfl⟩, _, hquery, _, ⟨hstake, rfl⟩, _,
    ⟨hstaked, rfl⟩, _, ⟨hrestaked, rfl⟩, rfl, rfl⟩

/-- A message that is an entry of the sheet is handled. -/
theorem Steady.handled (hb : Steady b) (huser : m.user = some u)
    (hadmits : b.Admits height (m.tx querier))
    (hfits : b.tokens + b.world.incoming (m.tx querier) < 2 ^ 128)
    {o : Sheet.Outcome Row Move Nat}
    (ho : m.rule X b.world.storage.config.token.address (row b.world.storage u) = some o) :
    ∃ s response, handle querier b.world.storage m.env m.msg = .ok (s, response) := by
  have hquery := hadmits.query
  obtain ⟨hstaked, hcovered⟩ := hb.covered u
  obtain ⟨env, msg⟩ := m
  rw [handle_of_running hb.undisturbed.running]
  unfold Block.tokens at hfits
  dsimp only [Message.tx] at hquery
  cases msg with
  | receive sender from_ amount payload =>
      obtain rfl : from_ = u := Option.some.inj huser
      simp only [Message.rule, depositRule, Option.ite_none_right_eq_some] at ho
      obtain ⟨⟨htoken, hdecoded⟩, hminimum, _⟩ := ho
      have hincoming : b.world.incoming
          (Message.tx ⟨env, .receive sender from_ amount payload⟩ querier) = amount :=
        if_pos htoken
      rw [hincoming] at hfits
      have hdelegated : (b.world.storage.user from_).amountDelegated + amount < 2 ^ 128 := by
        omega
      obtain ⟨s, response, hdeposit⟩ := deposit_isOk htoken hminimum hdelegated (by omega)
        (by omega) (by omega) hquery
      refine ⟨s, response, ?_⟩
      simp only [handleRunning, receive, hdecoded]
      exact hdeposit
  | triggerWithdraw amount =>
      obtain rfl : env.message.sender = u := Option.some.inj huser
      simp only [Message.rule, unstakeRule, Option.ite_none_right_eq_some] at ho
      obtain ⟨⟨hpositive, hdelegated⟩, _⟩ := ho
      simp only [row, account] at hpositive hdelegated
      refine triggerWithdraw_isOk hpositive hdelegated (le_trans hdelegated hstaked) ?_ ?_
        ((hb.entered.registered _).consumeEntries_ok _) hquery
      · dsimp only
        omega
      · omega
  | withdraw amount =>
      obtain rfl : env.message.sender = u := Option.some.inj huser
      simp only [Message.rule, payoutRule, Option.ite_none_right_eq_some] at ho
      have hno : ¬ b.world.storage.config.isStoppedCanWithdraw = true := by
        simp [hb.undisturbed.noWithdraw]
      have havail : queryAvailableFunds b.world.storage env.message.sender =
          .ok (.availableTokensForWithdrawl
            (b.world.storage.user env.message.sender).availableTokensForWithdraw) := by
        rw [queryAvailableFunds_eq_ok, if_neg hno]
      refine (withdraw_isOk_iff havail amount).mpr ⟨?_, ho.1⟩
      simp [hb.undisturbed.running]
  | _ => cases huser

end

/-- What an entry gives out to `x`. -/
def outputTo (x : HumanAddr) (s : Sheet HumanAddr Row Totals)
    (e : Sheet.Entry HumanAddr Row Move Nat) : Nat :=
  if e.key = x then ((s.outcome e).map Sheet.Outcome.output).getD 0 else 0

/-- In the block, the message is the entry of the sheet. -/
structure Posted (ask : Block X → Querier) (b : Block X) (m : Message)
    (e : Sheet.Entry HumanAddr Row Move Nat) : Prop where
  accepts : b.Accepts ask m ↔ (b.sheet.outcome e).isSome
  sheet : (b.perform ask m).sheet = b.sheet.post Totals.move e
  paid : ∀ x, b.paidTo ask x m = outputTo x b.sheet e
  config : (b.perform ask m).world.storage.config = b.world.storage.config

section
variable {ask : Block X → Querier} {block : BlockInfo} {b : Block X} {m : Message}
  {u : HumanAddr}

theorem Message.Within.admits (h : m.Within block b.world)
    (hask : ∀ b : Block X, b.Reports block.height (ask b)) :
    b.Admits block.height (m.tx (ask b)) :=
  ⟨h.contract, congrArg BlockInfo.height h.block_eq, hask b⟩

/-- In the block of a contract that was never stopped, as long as the tokens are a `u128`,
a message of a user is its entry of the sheet: it goes through when that is not refused. -/
theorem Steady.posted (hb : Steady b) (hask : ∀ b : Block X, b.Reports block.height (ask b))
    (huser : m.user = some u) (hwithin : m.Within block b.world)
    (hfits : b.tokens + b.world.incoming (m.tx (ask b)) < 2 ^ 128) :
    Posted ask b m (m.entry X b.world.storage.config.token.address u) := by
  have hadmits := hwithin.admits hask
  have houtcome : b.sheet.outcome (m.entry X b.world.storage.config.token.address u) =
    m.rule X b.world.storage.config.token.address (row b.world.storage u) := rfl
  cases hresponse : b.world.response (m.tx (ask b)) with
  | some response =>
      obtain ⟨o, ho, hsheet, hpaid, hconfig⟩ := hb.performed huser hadmits hresponse
      rw [← houtcome] at ho
      refine ⟨?_, ?_, ?_, hconfig⟩
      · rw [Block.Accepts, hresponse, ho]
        exact Iff.rfl
      · rw [Sheet.post_of_some ho]
        exact hsheet
      · intro x
        simp only [Block.paidTo, hresponse, hpaid x, outputTo, ho]
        rfl
  | none =>
      have hnone : m.rule X b.world.storage.config.token.address (row b.world.storage u) =
          none := by
        cases ho : m.rule X b.world.storage.config.token.address (row b.world.storage u) with
        | none => rfl
        | some o =>
            -- an entry of the sheet is handled, and what is handled is covered
            obtain ⟨s, response, hhandle⟩ := hb.handled huser hadmits hfits ho
            have hsome := honours_of_undisturbed hb.undisturbed (m.tx (ask b)) s response hhandle
            rw [World.response, Option.map_eq_none_iff] at hresponse
            rw [hresponse] at hsome
            cases hsome
      rw [← houtcome] at hnone
      have hstep : b.perform ask m = b := by
        rcases b.step_cases (m.tx (ask b)) with ⟨_, hstep⟩ | ⟨response, hsome, _⟩
        · exact hstep
        · rw [hresponse] at hsome
          cases hsome
      refine ⟨?_, ?_, ?_, by rw [hstep]⟩
      · rw [Block.Accepts, hresponse, hnone]
        exact Iff.rfl
      · rw [Sheet.post_of_none hnone, hstep]
      · intro x
        simp only [Block.paidTo, hresponse, outputTo, hnone]
        exact (ite_self 0).symm

/-- The contract of the block stays one that was never stopped. -/
theorem Steady.perform (hb : Steady b) (huser : m.user = some u) :
    Steady (b.perform ask m) := by
  have hstops : ¬ b.world.Stops (m.tx (ask b)) := by
    rintro ⟨hmsg, _⟩
    obtain ⟨env, msg⟩ := m
    dsimp only [Message.tx] at hmsg
    subst hmsg
    cases huser
  exact ⟨hb.undisturbed.step _ hstops, hb.entered.step _⟩

/-- The tokens of the pool are totals of the sheet. -/
theorem Block.tokens_eq (b : Block X) :
    (b.tokens : ℤ) = b.sheet.total.tokens + b.sheet.total.due := by
  have hstake := books_stake b.world
  simp only [Block.tokens, Block.sheet, totals]
  simp only [World.books, booksOver] at *
  omega

/-- A message moves no more tokens to the pool than it comes with. -/
theorem rule_tokens_le {w : World X} (querier : Querier) {r : Row}
    {o : Sheet.Outcome Row Move Nat}
    (h : m.rule X w.storage.config.token.address r = some o) :
    o.move.tokens ≤ w.incoming (m.tx querier) := by
  obtain ⟨env, msg⟩ := m
  cases msg with
  | receive sender from_ amount payload =>
      simp only [Message.rule, depositRule, Option.ite_none_right_eq_some, Option.some.injEq] at h
      obtain ⟨⟨htoken, _⟩, _, rfl⟩ := h
      have hincoming : w.incoming
          (Message.tx ⟨env, .receive sender from_ amount payload⟩ querier) = amount :=
        if_pos htoken
      exact Int.le_of_eq (congrArg Int.ofNat hincoming.symm)
  | triggerWithdraw amount =>
      simp only [Message.rule, unstakeRule, Option.ite_none_right_eq_some, Option.some.injEq] at h
      obtain ⟨_, rfl⟩ := h
      exact Int.natCast_nonneg _
  | withdraw amount =>
      simp only [Message.rule, payoutRule, Option.ite_none_right_eq_some, Option.some.injEq] at h
      obtain ⟨_, rfl⟩ := h
      dsimp only
      omega
  | _ => cases h

/-- The tokens of the pool grow by no more than what comes with the message. -/
theorem Posted.tokens_le
    (h : Posted ask b m (m.entry X b.world.storage.config.token.address u)) :
    (b.perform ask m).tokens ≤ b.tokens + b.world.incoming (m.tx (ask b)) := by
  have hbefore := b.tokens_eq
  have hafter := (b.perform ask m).tokens_eq
  rw [h.sheet] at hafter
  cases ho : b.sheet.outcome (m.entry X b.world.storage.config.token.address u) with
  | none =>
      rw [Sheet.post_of_none ho] at hafter
      omega
  | some o =>
      have hle := rule_tokens_le (ask b) ho
      rw [Sheet.post_of_some ho] at hafter
      simp only [Totals.move] at hafter
      split at hafter <;> omega

end

/-! ## Either order -/

section
variable {ask : Block X → Querier} {block : BlockInfo} {b : Block X}
  {first second : Message} {u v : HumanAddr}

/-- After a message of another user, a message is still the same entry. -/
theorem Steady.posted_second (hb : Steady b)
    (hask : ∀ b : Block X, b.Reports block.height (ask b)) (hfirst : first.user = some u)
    (hsecond : second.user = some v) (hwithin : first.Within block b.world)
    (hwithin' : second.Within block b.world)
    (hsupply : b.tokens + b.world.incoming (first.tx (ask b)) +
      b.world.incoming (second.tx (ask b)) < 2 ^ 128) :
    Posted ask (b.perform ask first) second
      (second.entry X b.world.storage.config.token.address v) := by
  have hone := hb.posted hask hfirst hwithin (by omega)
  have hconfig := hone.config
  have htokens := hone.tokens_le
  have hincoming : (b.perform ask first).world.incoming
      (second.tx (ask (b.perform ask first))) = b.world.incoming (second.tx (ask b)) := by
    unfold World.incoming
    rw [hconfig]
    rfl
  rw [← hconfig]
  refine (hb.perform hfirst).posted hask hsecond ⟨hwithin'.block_eq, ?_⟩ (by omega)
  rw [hconfig]
  exact hwithin'.contract

/-- What an entry gives out does not depend on an entry at another key. -/
theorem outputTo_post_of_ne {s : Sheet HumanAddr Row Totals}
    {e e' : Sheet.Entry HumanAddr Row Move Nat} (h : e'.key ≠ e.key) (x : HumanAddr) :
    outputTo x (s.post Totals.move e) e' = outputTo x s e' := by
  rw [outputTo, Sheet.outcome_post_of_ne h]
  rfl

end

/-- What users can see is the same in both. -/
structure SeenAlike (b b' : Block X) : Prop where
  delegated : ∀ x, (b.world.storage.user x).amountDelegated =
    (b'.world.storage.user x).amountDelegated
  available : ∀ x, (b.world.storage.user x).availableTokensForWithdraw =
    (b'.world.storage.user x).availableTokensForWithdraw
  won : ∀ x, (b.world.storage.user x).totalWon = (b'.world.storage.user x).totalWon
  queue : ∀ x, (b.world.storage.user x).entryIndex.map (read b.world.storage) =
    (b'.world.storage.user x).entryIndex.map (read b'.world.storage)
  staked : b.world.storage.supplyPool.totalTokensStaked =
    b'.world.storage.supplyPool.totalTokensStaked
  fee : b.world.storage.supplyPool.triggeringCost = b'.world.storage.supplyPool.triggeringCost
  pot : b.world.storage.supplyPool.totalRewardsRestaked +
      b.world.storage.supplyPool.pendingStakingRewards =
    b'.world.storage.supplyPool.totalRewardsRestaked +
      b'.world.storage.supplyPool.pendingStakingRewards
  tokens : b.world.held + b.world.totalStake = b'.world.held + b'.world.totalStake
  due : b.due = b'.due

/-- The sheet is what users can see. -/
theorem seenAlike_of_sheet {b b' : Block X} (hb : Steady b) (hb' : Steady b')
    (h : b.sheet = b'.sheet) : SeenAlike b b' := by
  have hrow : ∀ x, row b.world.storage x = row b'.world.storage x :=
    fun x => congrFun (congrArg Sheet.row h) x
  have htotal : totals b.world.books b.due = totals b'.world.books b'.due :=
    congrArg Sheet.total h
  have hstaked := congrArg Totals.staked htotal
  have hfee := congrArg Totals.fee htotal
  have hpot := congrArg Totals.pot htotal
  have htokens := congrArg Totals.tokens htotal
  have hdue := congrArg Totals.due htotal
  have hstake := books_stake b.world
  have hstake' := books_stake b'.world
  simp only [totals] at hstaked hfee hpot htokens hdue
  refine ⟨fun x => congrArg (fun r => r.account.delegated) (hrow x),
    fun x => congrArg (fun r => r.account.available) (hrow x),
    fun x => congrArg (fun r => r.account.won) (hrow x),
    ?_, ?_, ?_, ?_, ?_, Int.ofNat_inj.mp hdue⟩
  · intro x
    have hqueue : queue b.world.storage x = queue b'.world.storage x :=
      congrArg Row.queue (hrow x)
    rw [map_read hb.entered.registered, map_read hb'.entered.registered, hqueue]
  · exact Int.ofNat_inj.mp hstaked
  · exact Int.ofNat_inj.mp hfee
  · simp only [World.books, booksOver] at hpot
    omega
  · simp only [World.books, booksOver] at *
    omega

/-- In a state reached without stopping the contract, take any two messages of one block
from two users, each a deposit, an unstaking or a withdrawal, while the staking contract
reports what is still due in the block and all tokens involved are part of a supply that
is a `u128`.  Each is accepted first exactly when it is accepted second, and both orders
end alike for every user, with the same tokens transferred to each. -/
theorem either_order {w : World X} (hw : w.Initial) {txs : List Tx}
    (hrun : Along World.step (fun w tx => ¬ w.Stops tx) w txs) {b : Block X}
    (hb : b.world = w.run txs) {block : BlockInfo} {ask : Block X → Querier}
    (hask : ∀ b : Block X, b.Reports block.height (ask b)) {first second : Message}
    {u v : HumanAddr} (hfirst : first.user = some u) (hsecond : second.user = some v)
    (hne : u ≠ v) (hwithin : first.Within block b.world)
    (hwithin' : second.Within block b.world)
    (hsupply : b.tokens + b.world.incoming (first.tx (ask b)) +
      b.world.incoming (second.tx (ask b)) < 2 ^ 128) :
    (b.Accepts ask first ↔ (b.perform ask second).Accepts ask first) ∧
    (b.Accepts ask second ↔ (b.perform ask first).Accepts ask second) ∧
    SeenAlike ((b.perform ask first).perform ask second)
      ((b.perform ask second).perform ask first) ∧
    ∀ x, b.paidTo ask x first + (b.perform ask first).paidTo ask x second =
      b.paidTo ask x second + (b.perform ask second).paidTo ask x first := by
  have hsteady : Steady b := by
    refine ⟨?_, ?_⟩
    · rw [hb]
      exact undisturbed_of_run hw hrun
    · exact entered_of_reachable ⟨w, txs, hw, hb⟩
  have hsupply' : b.tokens + b.world.incoming (second.tx (ask b)) +
      b.world.incoming (first.tx (ask b)) < 2 ^ 128 := by omega
  have hone := hsteady.posted hask hfirst hwithin (by omega)
  have htwo := hsteady.posted hask hsecond hwithin' (by omega)
  have honetwo := hsteady.posted_second hask hfirst hsecond hwithin hwithin' hsupply
  have htwoone := hsteady.posted_second hask hsecond hfirst hwithin' hwithin hsupply'
  refine ⟨?_, ?_, seenAlike_of_sheet ((hsteady.perform hfirst).perform hsecond)
    ((hsteady.perform hsecond).perform hfirst) ?_, ?_⟩
  · rw [hone.accepts, htwoone.accepts, htwo.sheet, Sheet.outcome_post_of_ne hne]
  · rw [htwo.accepts, honetwo.accepts, hone.sheet, Sheet.outcome_post_of_ne (Ne.symm hne)]
  · rw [honetwo.sheet, htwoone.sheet, hone.sheet, htwo.sheet]
    exact Sheet.post_comm hne
  · intro x
    rw [hone.paid, htwo.paid, honetwo.paid, htwoone.paid, hone.sheet, htwo.sheet,
      outputTo_post_of_ne (Ne.symm hne), outputTo_post_of_ne hne]
    exact Nat.add_comm _ _

/-- A block with 400 rewards due and 70 pending. -/
def sharedBlock : Block reference where
  world := testPool.run [.depositAt 10 0 batman 3000000, .depositAt 20 70 superman 2000000]
  due := 400

/-- The staking contract reports what is due. -/
def reportDue (b : Block reference) : Querier := fun _ _ => .ok ⟨⟨b.due⟩⟩

/-- Batman unstakes everything, which frees the slot of his entry. -/
def unstakeAll : Message := ⟨envAt 30 batman, .triggerWithdraw none⟩

/-- Superman deposits once more. -/
def depositMore : Message :=
  ⟨envAt 30 sefi.address, .receive superman superman 1000000 depositPayload⟩

/-- The two orders put the new entry into different slots and restake different parts of
the pot. -/
theorem either_order_sharedBlock :
    let b := (sharedBlock.perform reportDue unstakeAll).perform reportDue depositMore
    let b' := (sharedBlock.perform reportDue depositMore).perform reportDue unstakeAll
    sharedBlock.Accepts reportDue unstakeAll ∧ sharedBlock.Accepts reportDue depositMore ∧
    SeenAlike b b' ∧
    (b.world.storage.user superman).entryIndex ≠ (b'.world.storage.user superman).entryIndex ∧
    b.world.storage.supplyPool.totalRewardsRestaked ≠
      b'.world.storage.supplyPool.totalRewardsRestaked := by
  have hreports : ∀ b : Block reference,
      b.Reports (envAt 30 batman).block.height (reportDue b) := fun _ => rfl
  have hunstake : unstakeAll.Within (envAt 30 batman).block sharedBlock.world := ⟨rfl, rfl⟩
  have hdeposit : depositMore.Within (envAt 30 batman).block sharedBlock.world := ⟨rfl, rfl⟩
  have h := either_order testPool_initial (by decide) rfl hreports rfl rfl (by decide)
    hunstake hdeposit (by decide)
  exact ⟨by decide, by decide, h.2.2.1, by decide, by decide⟩

end SefiStakepool.Chain
