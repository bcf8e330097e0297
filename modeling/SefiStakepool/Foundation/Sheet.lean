/-
  Foundation/Sheet.lean --- rows that are written one at a time, over a common total.

  An entry concerns the row of one key: from that row alone it is refused, or comes out
  with a new row, a move of the total and an output.  Entries at different keys therefore
  do not see each other, and where the moves of the total commute, so do the entries.
-/
import Mathlib.Logic.Function.Basic
import Mathlib.Logic.OpClass

set_option autoImplicit false

namespace SefiStakepool.Foundation

/-- A row for every key, and a total. -/
structure Sheet (κ ρ τ : Type) where
  row : κ → ρ
  total : τ

namespace Sheet

/-- What comes of an entry that is not refused. -/
structure Outcome (ρ μ ω : Type) where
  row : ρ
  move : μ
  output : ω

/-- An entry at a key; `none` is a refusal. -/
structure Entry (κ ρ μ ω : Type) where
  key : κ
  rule : ρ → Option (Outcome ρ μ ω)

variable {κ ρ τ μ ω : Type}

/-- What comes of an entry in a sheet. -/
def outcome (s : Sheet κ ρ τ) (e : Entry κ ρ μ ω) : Option (Outcome ρ μ ω) :=
  e.rule (s.row e.key)

/-- What becomes of a row by an entry at its key. -/
def follow (r : ρ) (e : Entry κ ρ μ ω) : ρ :=
  match e.rule r with
  | some o => o.row
  | none => r

variable [DecidableEq κ] (act : τ → μ → τ)

/-- The sheet after an entry; a refused one leaves it as it is. -/
def post (s : Sheet κ ρ τ) (e : Entry κ ρ μ ω) : Sheet κ ρ τ :=
  match s.outcome e with
  | some o => ⟨Function.update s.row e.key o.row, act s.total o.move⟩
  | none => s

variable {act} {s : Sheet κ ρ τ} {e e' : Entry κ ρ μ ω}

theorem post_of_some {o : Outcome ρ μ ω} (h : s.outcome e = some o) :
    s.post act e = ⟨Function.update s.row e.key o.row, act s.total o.move⟩ := by
  simp only [post, h]

theorem post_of_none (h : s.outcome e = none) : s.post act e = s := by
  simp only [post, h]

/-- An entry writes no row but its own. -/
theorem row_post_of_ne {k : κ} (h : k ≠ e.key) : (s.post act e).row k = s.row k := by
  cases ho : s.outcome e with
  | none => rw [post_of_none ho]
  | some o =>
      rw [post_of_some ho]
      exact Function.update_of_ne h _ _

/-- An entry writes its own row from that row alone. -/
theorem row_post_self : (s.post act e).row e.key = follow (s.row e.key) e := by
  unfold follow
  cases ho : s.outcome e with
  | none =>
      rw [post_of_none ho]
      unfold outcome at ho
      rw [ho]
  | some o =>
      rw [post_of_some ho]
      unfold outcome at ho
      rw [ho]
      exact Function.update_self _ _ _

/-- An entry at another key is not seen. -/
theorem outcome_post_of_ne (h : e'.key ≠ e.key) :
    (s.post act e).outcome e' = s.outcome e' := by
  rw [outcome, row_post_of_ne h]
  rfl

/-- Entries at different keys can be made in either order. -/
theorem post_comm [RightCommutative act] (h : e.key ≠ e'.key) :
    (s.post act e).post act e' = (s.post act e').post act e := by
  have hsecond : (s.post act e).outcome e' = s.outcome e' := outcome_post_of_ne (Ne.symm h)
  have hfirst : (s.post act e').outcome e = s.outcome e := outcome_post_of_ne h
  cases ho : s.outcome e with
  | none =>
      rw [post_of_none ho, post_of_none (hfirst.trans ho)]
  | some o =>
      cases ho' : s.outcome e' with
      | none => rw [post_of_none ho', post_of_none (hsecond.trans ho')]
      | some o' =>
          rw [post_of_some (hsecond.trans ho'), post_of_some (hfirst.trans ho),
            post_of_some ho, post_of_some ho']
          simp only [mk.injEq]
          exact ⟨Function.update_comm h _ _ _, RightCommutative.right_comm _ _ _⟩

end Sheet

end SefiStakepool.Foundation
