/-
  Chain/Requests.lean --- any number of messages of users in one block.

  In the block of a contract that was never stopped, a deposit, an unstaking or a
  withdrawal is an entry of the sheet, and so is each of any number of them.  What users
  can see therefore depends on the messages of each user alone: not on how they are
  shuffled into those of others, nor on what the entry store does with its slots.
-/
import Mathlib.Algebra.Order.BigOperators.Group.List
import Mathlib.Algebra.Order.Group.Nat
import SefiStakepool.Foundation.Shuffle
import SefiStakepool.Chain.Commuting

set_option autoImplicit false

namespace SefiStakepool.Chain

open SefiStakepool.Foundation
open SefiStakepool.Contract
open SefiStakepool.Accounting

variable {X : Crates}

/-- A deposit, an unstaking or a withdrawal, and the user it is for. -/
structure Request where
  message : Message
  user : HumanAddr
  user_eq : message.user = some user

namespace Request

/-- The tokens that come with a request; `token` is the token of the pool. -/
def carried (token : HumanAddr) (r : Request) : Nat :=
  match r.message.msg with
  | .receive _ _ amount _ => if r.message.env.message.sender = token then amount else 0
  | _ => 0

/-- The entry the request makes. -/
def entry (X : Crates) (token : HumanAddr) (r : Request) : Sheet.Entry HumanAddr Row Move Nat :=
  r.message.entry X token r.user

end Request

namespace Block

/-- The block after a request. -/
def serve (ask : Block X → Querier) (b : Block X) (r : Request) : Block X :=
  b.perform ask r.message

/-- What a request is answered: nothing if it is refused, else the tokens it is paid. -/
def answer (ask : Block X → Querier) (b : Block X) (r : Request) : Option Nat :=
  if b.Accepts ask r.message then some (b.paidTo ask r.user r.message) else none

/-- What the requests of `u` are answered, in order. -/
def answersTo (ask : Block X → Querier) (u : HumanAddr) (b : Block X) (rs : List Request) :
    List (Option Nat) :=
  collectAlong (serve ask) (fun b r => if r.user = u then [b.answer ask r] else []) b rs

end Block

/-! ## One request -/

section
variable {ask : Block X → Querier} {block : BlockInfo} {b : Block X} {r : Request}

theorem incoming_eq_carried (w : World X) (querier : Querier) :
    w.incoming (r.message.tx querier) = r.carried w.storage.config.token.address := rfl

/-- A request is answered what comes of its entry. -/
theorem answer_of_posted
    (h : Posted ask b r.message (r.entry X b.world.storage.config.token.address)) :
    b.answer ask r = (b.sheet.outcome (r.entry X b.world.storage.config.token.address)).map
      Sheet.Outcome.output := by
  have hpaid := h.paid r.user
  unfold Block.answer
  cases ho : b.sheet.outcome (r.entry X b.world.storage.config.token.address) with
  | none =>
      have hrefused : ¬ b.Accepts ask r.message := by simp [h.accepts, ho]
      rw [if_neg hrefused, Option.map_none]
  | some o =>
      have haccepted : b.Accepts ask r.message := by simp [h.accepts, ho]
      have hkey : (r.entry X b.world.storage.config.token.address).key = r.user := rfl
      rw [outputTo, if_pos hkey, ho] at hpaid
      rw [if_pos haccepted, hpaid]
      rfl

/-- The requests are of the block, and with the tokens they carry the tokens of the pool
are a `u128`. -/
structure Fitting (block : BlockInfo) (b : Block X) (rs : List Request) : Prop where
  within : ∀ r ∈ rs, r.message.Within block b.world
  supply : b.tokens + (rs.map (Request.carried b.world.storage.config.token.address)).sum
    < 2 ^ 128

theorem Fitting.posted {rs : List Request} (h : Fitting block b (r :: rs)) (hb : Steady b)
    (hask : ∀ b : Block X, b.Reports block.height (ask b)) :
    Posted ask b r.message (r.entry X b.world.storage.config.token.address) := by
  have hsupply := h.supply
  rw [List.map_cons, List.sum_cons] at hsupply
  refine hb.posted hask r.user_eq (h.within r (by simp)) ?_
  rw [incoming_eq_carried]
  omega

/-- What fits before a request, fits after it. -/
theorem Fitting.tail {rs : List Request} (h : Fitting block b (r :: rs)) (hb : Steady b)
    (hask : ∀ b : Block X, b.Reports block.height (ask b)) :
    Fitting block (b.serve ask r) rs := by
  have hposted := h.posted hb hask
  have hconfig : (b.serve ask r).world.storage.config = b.world.storage.config := hposted.config
  have htokens : (b.serve ask r).tokens ≤
      b.tokens + r.carried b.world.storage.config.token.address := hposted.tokens_le
  have hsupply := h.supply
  rw [List.map_cons, List.sum_cons] at hsupply
  refine ⟨?_, ?_⟩
  · intro r' hr'
    have hwithin := h.within r' (by simp [hr'])
    exact ⟨hwithin.block_eq, by rw [hconfig]; exact hwithin.contract⟩
  · rw [hconfig]
    omega

end

/-! ## Any number of requests -/

section
variable {ask : Block X → Querier} {block : BlockInfo} {b : Block X} {rs rs' : List Request}

/-- What an entry is answered in the row at its key. -/
def replyTo (r : Row) (e : Sheet.Entry HumanAddr Row Move Nat) : List (Option Nat) :=
  [(e.rule r).map Sheet.Outcome.output]

/-- A block of requests is a run of the sheet. -/
structure Replayed (ask : Block X → Querier) (b : Block X) (rs : List Request) : Prop where
  steady : Steady (run (Block.serve ask) b rs)
  sheet : (run (Block.serve ask) b rs).sheet = run (Sheet.post Totals.move) b.sheet
    (rs.map (Request.entry X b.world.storage.config.token.address))
  answers : ∀ u, b.answersTo ask u rs = collectAlong (Sheet.post Totals.move)
    (fun s e => if e.key = u then replyTo (s.row u) e else []) b.sheet
    (rs.map (Request.entry X b.world.storage.config.token.address))

theorem Steady.replayed (hb : Steady b)
    (hask : ∀ b : Block X, b.Reports block.height (ask b)) (h : Fitting block b rs) :
    Replayed ask b rs := by
  induction rs generalizing b with
  | nil => exact ⟨hb, rfl, fun _ => rfl⟩
  | cons r rs ih =>
      have hposted := h.posted hb hask
      have hconfig : (b.serve ask r).world.storage.config = b.world.storage.config :=
        hposted.config
      have hsheet : (b.serve ask r).sheet = b.sheet.post Totals.move
        (r.entry X b.world.storage.config.token.address) := hposted.sheet
      have hrest := ih (b := b.serve ask r) (hb.perform r.user_eq) (h.tail hb hask)
      refine ⟨hrest.steady, ?_, ?_⟩
      · rw [run_cons, hrest.sheet, hconfig, hsheet, List.map_cons, run_cons]
      · intro u
        have htail := hrest.answers u
        rw [hconfig, hsheet] at htail
        simp only [Block.answersTo, collectAlong, List.map_cons] at htail ⊢
        rw [htail, answer_of_posted hposted]
        have hkey : (r.entry X b.world.storage.config.token.address).key = r.user := rfl
        rw [hkey]
        by_cases huser : r.user = u
        · subst huser
          rfl
        · rw [if_neg huser, if_neg huser]

/-- Shuffled requests are shuffled entries. -/
theorem shuffled_entries (h : Shuffled Request.user rs rs') (token : HumanAddr) :
    Shuffled Sheet.Entry.key (rs.map (Request.entry X token)) (rs'.map (Request.entry X token)) := by
  intro u
  have hu := congrArg (List.map (Request.entry X token)) (h u)
  unfold inputsAt at hu ⊢
  rw [List.filter_map, List.filter_map]
  exact hu

/-- Requests that fit do so in any order. -/
theorem Fitting.of_shuffled (h : Fitting block b rs) (hshuffled : Shuffled Request.user rs rs') :
    Fitting block b rs' := by
  have hperm := hshuffled.perm
  refine ⟨fun r hr => h.within r (hperm.mem_iff.mpr hr), ?_⟩
  rw [← (hperm.map (Request.carried b.world.storage.config.token.address)).sum_eq]
  exact h.supply

section
variable (s : Sheet HumanAddr Row Totals) (u : HumanAddr)
  (es : List (Sheet.Entry HumanAddr Row Move Nat))

theorem row_own (e : Sheet.Entry HumanAddr Row Move Nat) (h : e.key = u) :
    (s.post Totals.move e).row u = Sheet.follow (s.row u) e := by
  subst h
  exact Sheet.row_post_self

theorem row_other (e : Sheet.Entry HumanAddr Row Move Nat) (h : e.key ≠ u) :
    (s.post Totals.move e).row u = s.row u :=
  Sheet.row_post_of_ne (Ne.symm h)

/-- A row comes of the entries at its key. -/
theorem row_alone : (run (Sheet.post Totals.move) s es).row u =
    run Sheet.follow (s.row u) (inputsAt Sheet.Entry.key u es) :=
  @view_run _ _ _ _ _ _ _ (fun s : Sheet HumanAddr Row Totals => s.row u) _ _
    (fun s => row_own s u) (fun s => row_other s u) s es

/-- What comes of the entries at one key comes of them without the others. -/
theorem replies_alone : collectAlong (Sheet.post Totals.move)
      (fun s e => if e.key = u then replyTo (s.row u) e else []) s es =
    collectAlong Sheet.follow replyTo (s.row u) (inputsAt Sheet.Entry.key u es) :=
  @collectAlong_at _ _ _ _ _ _ _ _ (fun s : Sheet HumanAddr Row Totals => s.row u) _ _ _
    (fun s => row_own s u) (fun s => row_other s u) s es

end

/-- Requests that fit among others fit without them. -/
theorem Fitting.alone (h : Fitting block b rs) (u : HumanAddr) :
    Fitting block b (inputsAt Request.user u rs) := by
  have hsublist : (inputsAt Request.user u rs).Sublist rs := List.filter_sublist
  have hsum := (hsublist.map
    (Request.carried b.world.storage.config.token.address)).sum_le_sum fun _ _ => Nat.zero_le _
  exact ⟨fun r hr => h.within r (hsublist.mem hr),
    lt_of_le_of_lt (Nat.add_le_add_left hsum _) h.supply⟩

theorem inputsAt_entries (token u : HumanAddr) :
    inputsAt Sheet.Entry.key u (rs.map (Request.entry X token)) =
      (inputsAt Request.user u rs).map (Request.entry X token) := by
  unfold inputsAt
  rw [List.filter_map]
  rfl

theorem inputsAt_idem (u : HumanAddr) :
    inputsAt Request.user u (inputsAt Request.user u rs) = inputsAt Request.user u rs := by
  simp [inputsAt]

/-- A state reached without stopping the contract. -/
theorem steady_of_run {w : World X} (hw : w.Initial) {txs : List Tx}
    (hrun : Along World.step (fun w tx => ¬ w.Stops tx) w txs) (hb : b.world = w.run txs) :
    Steady b := by
  refine ⟨?_, entered_of_reachable ⟨w, txs, hw, hb⟩⟩
  rw [hb]
  exact undisturbed_of_run hw hrun

end

/-! ## What they depend on -/

section
variable {w : World X} {txs : List Tx} {b : Block X} {block : BlockInfo}
  {ask : Block X → Querier} {rs rs' : List Request}

/-- In a state reached without stopping the contract, any number of deposits, unstakings
and withdrawals of one block, shuffled in any way that keeps the order of each user's own:
they are answered alike, end alike for every user, and pay each user the same, provided
that all tokens involved are part of a supply that is a `u128`. -/
theorem served_shuffled (hw : w.Initial)
    (hrun : Along World.step (fun w tx => ¬ w.Stops tx) w txs) (hb : b.world = w.run txs)
    (hask : ∀ b : Block X, b.Reports block.height (ask b)) (hfits : Fitting block b rs)
    (hshuffled : Shuffled Request.user rs rs') :
    SeenAlike (run (Block.serve ask) b rs) (run (Block.serve ask) b rs') ∧
      ∀ u, b.answersTo ask u rs = b.answersTo ask u rs' := by
  have hsteady := steady_of_run hw hrun hb
  have hreplayed := hsteady.replayed hask hfits
  have hreplayed' := hsteady.replayed hask (hfits.of_shuffled hshuffled)
  have hentries := shuffled_entries (X := X) hshuffled b.world.storage.config.token.address
  refine ⟨seenAlike_of_sheet hreplayed.steady hreplayed'.steady ?_, ?_⟩
  · rw [hreplayed.sheet, hreplayed'.sheet]
    exact run_eq_of_shuffled (fun _ _ _ hne => Sheet.post_comm hne) hentries b.sheet
  · intro u
    rw [hreplayed.answers, hreplayed'.answers, replies_alone, replies_alone, hentries u]

/-- There, a user is answered and left with what the own messages alone would have come
to, whatever others send in between. -/
theorem served_alone (hw : w.Initial)
    (hrun : Along World.step (fun w tx => ¬ w.Stops tx) w txs) (hb : b.world = w.run txs)
    (hask : ∀ b : Block X, b.Reports block.height (ask b)) (hfits : Fitting block b rs)
    (u : HumanAddr) :
    b.answersTo ask u rs = b.answersTo ask u (inputsAt Request.user u rs) ∧
      row (run (Block.serve ask) b rs).world.storage u =
        row (run (Block.serve ask) b (inputsAt Request.user u rs)).world.storage u := by
  have hsteady := steady_of_run hw hrun hb
  have hreplayed := hsteady.replayed hask hfits
  have halone := hsteady.replayed hask (hfits.alone u)
  constructor
  · rw [hreplayed.answers, halone.answers, replies_alone, replies_alone, inputsAt_entries,
      inputsAt_entries, inputsAt_idem]
  · have hrow := congrFun (congrArg Sheet.row hreplayed.sheet) u
    have hrow' := congrFun (congrArg Sheet.row halone.sheet) u
    rw [row_alone, inputsAt_entries] at hrow hrow'
    rw [inputsAt_idem] at hrow'
    exact hrow.trans hrow'.symm

end

/-- Batman unstakes and withdraws, Superman deposits and unstakes part of it. -/
def batmanUnstakes : Request := ⟨⟨envAt 30 batman, .triggerWithdraw (some 1000000)⟩, batman, rfl⟩
def batmanWithdraws : Request := ⟨⟨envAt 30 batman, .withdraw none⟩, batman, rfl⟩
def supermanDeposits : Request := ⟨depositMore, superman, rfl⟩
def supermanUnstakes : Request :=
  ⟨⟨envAt 30 superman, .triggerWithdraw (some 2500000)⟩, superman, rfl⟩

/-- One after the other, and in turns. -/
def oneByOne : List Request := [batmanUnstakes, batmanWithdraws, supermanDeposits, supermanUnstakes]
def inTurns : List Request := [supermanDeposits, batmanUnstakes, supermanUnstakes, batmanWithdraws]

theorem oneByOne_shuffled : Shuffled Request.user oneByOne inTurns := by
  intro u
  by_cases hbatman : batman = u
  · subst hbatman
    rfl
  · by_cases hsuperman : superman = u
    · subst hsuperman
      rfl
    · simp [inputsAt, oneByOne, inTurns, batmanUnstakes, batmanWithdraws, supermanDeposits,
        supermanUnstakes, hbatman, hsuperman]

theorem oneByOne_fitting : Fitting (envAt 30 batman).block sharedBlock oneByOne := by
  refine ⟨?_, by decide⟩
  intro r hr
  simp only [oneByOne, List.mem_cons, List.not_mem_nil, or_false] at hr
  rcases hr with rfl | rfl | rfl | rfl <;> exact ⟨rfl, rfl⟩

theorem reportDue_reports (b : Block reference) :
    b.Reports (envAt 30 batman).block.height (reportDue b) := rfl

theorem served_shuffled_inTurns :
    SeenAlike (run (Block.serve reportDue) sharedBlock oneByOne)
      (run (Block.serve reportDue) sharedBlock inTurns) ∧
    sharedBlock.answersTo reportDue batman inTurns = [some 0, some 1000000] := by
  obtain ⟨hseen, hanswers⟩ := served_shuffled testPool_initial (by decide) rfl
    reportDue_reports oneByOne_fitting oneByOne_shuffled
  exact ⟨hseen, (hanswers batman).symm.trans (by decide)⟩

theorem served_alone_oneByOne :
    sharedBlock.answersTo reportDue superman oneByOne =
      sharedBlock.answersTo reportDue superman [supermanDeposits, supermanUnstakes] :=
  (served_alone testPool_initial (by decide) rfl reportDue_reports oneByOne_fitting superman).1

/-- Of the crates, an entry of the sheet needs the decoding of deposits alone. -/
theorem rule_of_decode {X X' : Crates}
    (hdecode : ∀ payload, X.fromBinary payload = .ok .deposit ↔
      X'.fromBinary payload = .ok .deposit) (token : HumanAddr) (m : Message) :
    m.rule X token = m.rule X' token := by
  funext r
  obtain ⟨env, msg⟩ := m
  cases msg with
  | receive sender from_ amount payload => simp only [Message.rule, hdecode]
  | _ => rfl

/-- Two pools of the same token, on crates of their own, neither of which was ever stopped:
whatever their entry stores, their hashes and their samples do, if they can be told apart by
no user before a block of requests, they cannot be told apart after it, and give the same
answers.  A pool that was stopped may look the same with its stake redeemed, and refuse what
the other one serves. -/
theorem served_by_any_crates {X X' : Crates}
    (hdecode : ∀ payload, X.fromBinary payload = .ok .deposit ↔
      X'.fromBinary payload = .ok .deposit)
    {w : World X} {w' : World X'} (hw : w.Initial) (hw' : w'.Initial) {txs txs' : List Tx}
    (hrun : Along World.step (fun w tx => ¬ w.Stops tx) w txs)
    (hrun' : Along World.step (fun w tx => ¬ w.Stops tx) w' txs')
    {b : Block X} {b' : Block X'} (hb : b.world = w.run txs) (hb' : b'.world = w'.run txs')
    {block : BlockInfo} {ask : Block X → Querier} {ask' : Block X' → Querier}
    (hask : ∀ b : Block X, b.Reports block.height (ask b))
    (hask' : ∀ b : Block X', b.Reports block.height (ask' b)) {rs : List Request}
    (hfits : Fitting block b rs) (hfits' : Fitting block b' rs)
    (htoken : b.world.storage.config.token.address = b'.world.storage.config.token.address)
    (hsheet : b.sheet = b'.sheet) :
    (run (Block.serve ask) b rs).sheet = (run (Block.serve ask') b' rs).sheet ∧
      ∀ u, b.answersTo ask u rs = b'.answersTo ask' u rs := by
  have hreplayed := (steady_of_run hw hrun hb).replayed hask hfits
  have hreplayed' := (steady_of_run hw' hrun' hb').replayed hask' hfits'
  have hentry : ∀ token, Request.entry X token = Request.entry X' token :=
    fun token => funext fun r => congrArg (Sheet.Entry.mk r.user) (rule_of_decode hdecode token _)
  constructor
  · rw [hreplayed.sheet, hreplayed'.sheet, hsheet, htoken, hentry]
  · intro u
    rw [hreplayed.answers, hreplayed'.answers, hsheet, htoken, hentry]

/-- The reference crates with another hash. -/
def variant : Crates where
  store := reference.store
  sha256 bytes := (bytes.take 32).reverse
  randBytes := reference.randBytes
  base64Encode := reference.base64Encode
  sample := reference.sample
  fromBinary := reference.fromBinary
  sample_spec := reference.sample_spec

/-- The test pool on the variant. -/
def variantPool : World variant :=
  World.opened ((init variant (envAt 0 admin)
    { admin := some admin
      triggerer := some triggerer
      token := sefi
      stakingContract
      viewingKey := "123"
      prngSeed := "I'm Batman".toUTF8.toList
      triggererSharePercentage := 100 }).toOption.get (by decide))

theorem variantPool_initial : variantPool.Initial := World.opened_initial (eq_ok_get _)

/-- Nothing can be seen in a new pool. -/
theorem sheet_of_initial {X : Crates} {w : World X} (hw : w.Initial) (due : Nat) :
    (Block.mk w due).sheet =
      ⟨fun _ => ⟨⟨0, 0, 0⟩, []⟩, totals ⟨0, 0, 0, 0, 0, 0, w.held, 0, 0⟩ due⟩ := by
  have hrow : row w.storage = fun _ => ⟨⟨0, 0, 0⟩, []⟩ := by
    funext u
    rw [row, queue, user_of_initial hw]
    rfl
  rw [Block.sheet, hrow, books_of_initial hw]

/-- The first deposits of a pool, and an unstaking. -/
def firstRequests : List Request :=
  [supermanDeposits,
    ⟨⟨envAt 30 sefi.address, .receive batman batman 3000000 depositPayload⟩, batman, rfl⟩,
    ⟨⟨envAt 30 superman, .triggerWithdraw none⟩, superman, rfl⟩]

theorem firstRequests_within {X : Crates} {w : World X}
    (h : w.storage.config.ownAddr = ⟨"cosmos2contract"⟩) :
    ∀ r ∈ firstRequests, r.message.Within (envAt 30 batman).block w := by
  intro r hr
  simp only [firstRequests, List.mem_cons, List.not_mem_nil, or_false] at hr
  rcases hr with rfl | rfl | rfl <;> exact ⟨rfl, h.symm⟩

theorem served_by_any_crates_variantPool :
    (run (Block.serve reportDue) ⟨testPool, 0⟩ firstRequests).sheet =
      (run (Block.serve fun b : Block variant => fun _ _ => .ok ⟨⟨b.due⟩⟩) ⟨variantPool, 0⟩
        firstRequests).sheet := by
  have hsheet : (Block.mk testPool 0).sheet = (Block.mk variantPool 0).sheet := by
    have hheld : testPool.held = 0 := rfl
    have hheld' : variantPool.held = 0 := rfl
    rw [sheet_of_initial testPool_initial, sheet_of_initial variantPool_initial, hheld, hheld']
  have hreports : ∀ b : Block variant, b.Reports (envAt 30 batman).block.height
      (fun _ _ => .ok ⟨⟨b.due⟩⟩) := fun _ => rfl
  have hfits : Fitting (envAt 30 batman).block ⟨testPool, 0⟩ firstRequests :=
    ⟨firstRequests_within rfl, by decide⟩
  have hfits' : Fitting (envAt 30 batman).block ⟨variantPool, 0⟩ firstRequests :=
    ⟨firstRequests_within rfl, by decide⟩
  have hnone : Along World.step (fun w tx => ¬ w.Stops tx) testPool [] := trivial
  have hnone' : Along World.step (fun w tx => ¬ w.Stops tx) variantPool [] := trivial
  have htoken : testPool.storage.config.token.address = sefi.address := rfl
  have htoken' : variantPool.storage.config.token.address = sefi.address := rfl
  have hdecode : ∀ payload, reference.fromBinary payload = .ok .deposit ↔
      variant.fromBinary payload = .ok .deposit := fun _ => Iff.rfl
  exact (served_by_any_crates hdecode testPool_initial variantPool_initial hnone
    hnone' rfl rfl reportDue_reports hreports hfits hfits'
    (htoken.trans htoken'.symm) hsheet).1

end SefiStakepool.Chain
