/-
  Foundation/Shuffle.lean --- inputs of several parties, shuffled into each other.

  Every input has a key: the party it is from, or the place it concerns.  Two lists of
  inputs are shuffles of each other when each key has the same inputs in the same order
  in both.  A machine whose steps at different keys commute cannot tell them apart, and
  what is seen at one key depends on the inputs at that key alone.
-/
import SefiStakepool.Foundation.Machine

set_option autoImplicit false

namespace SefiStakepool.Foundation

variable {σ ε κ : Type}

section
variable {step : σ → ε → σ} {key : ε → κ}

/-- An input passes the inputs at other keys. -/
theorem run_middle (hcomm : ∀ s x y, key x ≠ key y → step (step s x) y = step (step s y) x)
    {x : ε} {before : List ε} (hne : ∀ y ∈ before, key y ≠ key x) (after : List ε) (s : σ) :
    run step s (before ++ x :: after) = run step s (x :: (before ++ after)) := by
  induction before generalizing s with
  | nil => rfl
  | cons y before ih =>
      obtain ⟨hy, hbefore⟩ := List.forall_mem_cons.mp hne
      have hpassed := ih hbefore (step s y)
      simp only [List.cons_append, run_cons] at hpassed ⊢
      rw [hpassed, hcomm s y x hy]

end

variable [DecidableEq κ]

/-- The inputs at one key, in order. -/
def inputsAt (key : ε → κ) (k : κ) (xs : List ε) : List ε := xs.filter fun x => key x = k

/-- Every key has the same inputs in the same order. -/
def Shuffled (key : ε → κ) (xs ys : List ε) : Prop :=
  ∀ k, inputsAt key k xs = inputsAt key k ys

section
variable {key : ε → κ} {k : κ} {x : ε} {xs ys zs : List ε}

theorem inputsAt_cons_self (h : key x = k) :
    inputsAt key k (x :: xs) = x :: inputsAt key k xs :=
  List.filter_cons_of_pos (by simpa using h)

theorem inputsAt_cons_of_ne (h : key x ≠ k) : inputsAt key k (x :: xs) = inputsAt key k xs :=
  List.filter_cons_of_neg (by simpa using h)

theorem inputsAt_append : inputsAt key k (xs ++ ys) = inputsAt key k xs ++ inputsAt key k ys :=
  List.filter_append _ _

/-- The first input of one list stands in the other with no input at its key before it,
and what is left of both lists is still shuffled. -/
theorem Shuffled.uncons (h : Shuffled key (x :: xs) ys) :
    ∃ before after, ys = before ++ x :: after ∧ (∀ y ∈ before, key y ≠ key x) ∧
      Shuffled key xs (before ++ after) := by
  have hfirst := h (key x)
  rw [inputsAt_cons_self rfl] at hfirst
  obtain ⟨before, after, rfl, hbefore, _, hrest⟩ := List.filter_eq_cons_iff.mp hfirst.symm
  have hne : ∀ y ∈ before, key y ≠ key x := fun y hy => by simpa using hbefore y hy
  refine ⟨before, after, rfl, hne, ?_⟩
  intro k
  have hk := h k
  rw [inputsAt_append] at hk ⊢
  by_cases hkey : key x = k
  · subst hkey
    have hnone : inputsAt key (key x) before = [] :=
      List.filter_eq_nil_iff.mpr fun y hy => by simpa using hne y hy
    rw [hnone, List.nil_append]
    exact hrest.symm
  · rw [inputsAt_cons_of_ne hkey, inputsAt_cons_of_ne hkey] at hk
    exact hk

/-- Nothing is a shuffle of no inputs but no inputs. -/
theorem Shuffled.eq_nil (h : Shuffled key [] ys) : ys = [] := by
  cases ys with
  | nil => rfl
  | cons y ys =>
      have hfirst := h (key y)
      rw [inputsAt_cons_self rfl] at hfirst
      cases hfirst

theorem Shuffled.perm (h : Shuffled key xs ys) : xs.Perm ys := by
  induction xs generalizing ys with
  | nil => rw [h.eq_nil]
  | cons x xs ih =>
      obtain ⟨before, after, rfl, _, hrest⟩ := h.uncons
      exact ((ih hrest).cons x).trans List.perm_middle.symm

end

/-! ## Machines -/

section
variable {step : σ → ε → σ} {key : ε → κ}

/-- Where steps at different keys commute, shuffled inputs lead to the same state. -/
theorem run_eq_of_shuffled
    (hcomm : ∀ s x y, key x ≠ key y → step (step s x) y = step (step s y) x)
    {xs ys : List ε} (h : Shuffled key xs ys) (s : σ) : run step s xs = run step s ys := by
  induction xs generalizing ys s with
  | nil => rw [h.eq_nil]
  | cons x xs ih =>
      obtain ⟨before, after, rfl, hne, hrest⟩ := h.uncons
      rw [run_middle hcomm hne, run_cons, run_cons]
      exact ih hrest (step s x)

variable {ρ α : Type} {view : σ → ρ} {follow : ρ → ε → ρ} {k : κ}

/-- What only the inputs at `k` change, they change alone. -/
theorem view_run (hown : ∀ s x, key x = k → view (step s x) = follow (view s) x)
    (hother : ∀ s x, key x ≠ k → view (step s x) = view s) (s : σ) (xs : List ε) :
    view (run step s xs) = run follow (view s) (inputsAt key k xs) := by
  induction xs generalizing s with
  | nil => rfl
  | cons x xs ih =>
      rw [run_cons, ih]
      by_cases hkey : key x = k
      · rw [inputsAt_cons_self hkey, hown s x hkey, run_cons]
      · rw [inputsAt_cons_of_ne hkey, hother s x hkey]

/-- What is seen at `k` is seen without the other inputs. -/
theorem collectAlong_at {see : ρ → ε → List α}
    (hown : ∀ s x, key x = k → view (step s x) = follow (view s) x)
    (hother : ∀ s x, key x ≠ k → view (step s x) = view s) (s : σ) (xs : List ε) :
    collectAlong step (fun s x => if key x = k then see (view s) x else []) s xs =
      collectAlong follow see (view s) (inputsAt key k xs) := by
  induction xs generalizing s with
  | nil => rfl
  | cons x xs ih =>
      simp only [collectAlong]
      by_cases hkey : key x = k
      · rw [inputsAt_cons_self hkey, if_pos hkey, ih, hown s x hkey]
        rfl
      · rw [inputsAt_cons_of_ne hkey, if_neg hkey, ih, hother s x hkey, List.nil_append]

end

end SefiStakepool.Foundation
