/-
  Chain/Authority.lean --- what a message that is not from the admin can change.

  Every admin message checks its sender, and one of them drops the result: anyone
  can allow withdrawals from a stopped contract.  Nothing else gets through.
-/
import SefiStakepool.Chain.Refinement
import SefiStakepool.Chain.Reference

set_option autoImplicit false

namespace SefiStakepool.Chain

open SefiStakepool.Foundation
open SefiStakepool.Contract

variable {X : Crates}

namespace World

/-- The message is not from the admin. -/
def Foreign (w : World X) (tx : Tx) : Prop :=
  tx.env.message.sender ≠ w.storage.config.admin

instance (w : World X) (tx : Tx) : Decidable (w.Foreign tx) :=
  inferInstanceAs (Decidable (_ ≠ _))

/-- When it is handled, the message keeps the configuration and the length of the
rounds; and it pays nobody, unless it is a user's withdrawal. -/
def Guarded (w : World X) (tx : Tx) : Prop :=
  ∀ s response, handle tx.querier w.storage tx.env tx.msg = .ok (s, response) →
    s.config = w.storage.config ∧ s.lottery.duration = w.storage.lottery.duration ∧
    ∀ recipient amount token, .transfer recipient amount token ∈ response.messages →
      ∃ asked, tx.msg = .withdraw asked

/-- The message allows withdrawals from a contract that is stopped and does not
allow them yet. -/
def OpensWithdrawals (w : World X) (tx : Tx) : Prop :=
  tx.msg = .allowWithdrawWhenStopped ∧ w.storage.config.isStopped = true ∧
    w.storage.config.isStoppedCanWithdraw = false

instance (w : World X) (tx : Tx) : Decidable (w.OpensWithdrawals tx) :=
  inferInstanceAs (Decidable (_ ∧ _))

end World

/-- `AllowWithdrawWhenStopped` is handled whoever sends it. -/
theorem handle_allow (w : World X) {tx : Tx} (hmsg : tx.msg = .allowWithdrawWhenStopped)
    (hstopped : w.storage.config.isStopped = true) :
    handle tx.querier w.storage tx.env tx.msg =
      .ok ({ w.storage with config := { w.storage.config with isStoppedCanWithdraw := true } },
        { messages := [], data := .allowWithdrawWhenStopped .success }) := by
  rw [handle_of_stopped hstopped, hmsg]
  rfl

/-- A message that is not from the admin is guarded, unless it opens withdrawals. -/
theorem guarded_iff {w : World X} {tx : Tx} (hforeign : w.Foreign tx) :
    w.Guarded tx ↔ ¬ w.OpensWithdrawals tx := by
  constructor
  · rintro hguarded ⟨hmsg, hstopped, hclosed⟩
    obtain ⟨hconfig, _, _⟩ := hguarded _ _ (handle_allow w hmsg hstopped)
    have hopen := congrArg Config.isStoppedCanWithdraw hconfig
    rw [hclosed] at hopen
    cases hopen
  · intro hnot s response hhandle
    by_cases hmsg : tx.msg = .allowWithdrawWhenStopped
    · cases hstopped : w.storage.config.isStopped with
      | false =>
          rw [handle_of_running hstopped, hmsg] at hhandle
          cases hhandle
      | true =>
          have hopen : w.storage.config.isStoppedCanWithdraw = true := by
            by_contra hclosed
            exact hnot ⟨hmsg, hstopped, by simpa using hclosed⟩
          rw [handle_allow w hmsg hstopped] at hhandle
          cases hhandle
          refine ⟨?_, rfl, by simp⟩
          simp only [← hopen]
    · exact (handle_effect hhandle).guarded hforeign hmsg

/-- Over any run, from any state: the messages that are not from the admin are all
guarded exactly when none of them opens withdrawals. -/
theorem foreign_guarded_iff (w : World X) (txs : List Tx) :
    Along World.step (fun w tx => w.Foreign tx → w.Guarded tx) w txs ↔
      Along World.step (fun w tx => w.Foreign tx → ¬ w.OpensWithdrawals tx) w txs :=
  along_congr (I := fun _ => True) (fun _ _ _ => trivial)
    (fun _ _ _ => forall_congr' guarded_iff) trivial txs

/-- A user opens the withdrawals from a pool that the admin has stopped. -/
theorem config_changed_by_user :
    (testPool.run [.at 10 0 admin .stopContract]).Reachable ∧
    (testPool.run [.at 10 0 admin .stopContract]).Foreign
      (.at 20 0 batman .allowWithdrawWhenStopped) ∧
    ((testPool.run [.at 10 0 admin .stopContract]).step
        (.at 20 0 batman .allowWithdrawWhenStopped)).storage.config ≠
      (testPool.run [.at 10 0 admin .stopContract]).storage.config :=
  ⟨testPool_reachable _, by decide, fun h =>
    absurd (congrArg Config.isStoppedCanWithdraw h) (by decide)⟩

end SefiStakepool.Chain
