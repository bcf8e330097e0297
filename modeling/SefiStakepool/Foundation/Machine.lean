/-
  Foundation/Machine.lean --- runs of a deterministic machine over a list of
  inputs, and what one step has to preserve for a whole run to preserve it.

  The machine is a total step function: an input it refuses leaves the state as
  it was.  Quantities that accumulate along a run (what was paid in, what was
  paid out) are not part of the state; `sumAlong` adds them up over the run.
-/
import Mathlib.Tactic.Common

set_option autoImplicit false

namespace SefiStakepool.Foundation

variable {σ ι : Type}

/-- The state after the inputs have been taken in order. -/
def run (step : σ → ι → σ) (s : σ) (xs : List ι) : σ := xs.foldl step s

/-- The sum of `f` over the steps of a run, each at the state before it. -/
def sumAlong (step : σ → ι → σ) (f : σ → ι → Nat) : σ → List ι → Nat
  | _, [] => 0
  | s, x :: xs => f s x + sumAlong step f (step s x) xs

/-- What `f` gives at the steps of a run, in order, each at the state before it. -/
def collectAlong {α : Type} (step : σ → ι → σ) (f : σ → ι → List α) : σ → List ι → List α
  | _, [] => []
  | s, x :: xs => f s x ++ collectAlong step f (step s x) xs

/-- Every step of the run meets `P`, at the state before it. -/
def Along (step : σ → ι → σ) (P : σ → ι → Prop) : σ → List ι → Prop
  | _, [] => True
  | s, x :: xs => P s x ∧ Along step P (step s x) xs

/-- A state some run leads to from a state meeting `init`. -/
def Reachable (step : σ → ι → σ) (init : σ → Prop) (s : σ) : Prop :=
  ∃ s₀ xs, init s₀ ∧ s = run step s₀ xs

section
variable {step : σ → ι → σ}

@[simp] theorem run_nil (s : σ) : run step s [] = s := rfl

@[simp] theorem run_cons (s : σ) (x : ι) (xs : List ι) :
    run step s (x :: xs) = run step (step s x) xs := rfl

theorem run_append (s : σ) (xs ys : List ι) :
    run step s (xs ++ ys) = run step (run step s xs) ys := by
  simp [run, List.foldl_append]

theorem along_append {P : σ → ι → Prop} (s : σ) (xs ys : List ι) :
    Along step P s (xs ++ ys) ↔
      Along step P s xs ∧ Along step P (run step s xs) ys := by
  induction xs generalizing s with
  | nil => simp [Along]
  | cons x xs ih => simp [Along, ih, and_assoc]

theorem collectAlong_append {α : Type} {f : σ → ι → List α} (s : σ) (xs ys : List ι) :
    collectAlong step f s (xs ++ ys) =
      collectAlong step f s xs ++ collectAlong step f (run step s xs) ys := by
  induction xs generalizing s with
  | nil => rfl
  | cons x xs ih => simp [collectAlong, ih]

instance decidableAlong {P : σ → ι → Prop} [∀ s x, Decidable (P s x)] :
    ∀ (s : σ) (xs : List ι), Decidable (Along step P s xs)
  | _, [] => .isTrue trivial
  | s, x :: xs =>
      @instDecidableAnd (P s x) (Along step P (step s x) xs) _
        (decidableAlong (step s x) xs)

/-! ## Invariants -/

/-- What every step preserves, a run preserves. -/
theorem run_invariant {I : σ → Prop} (hstep : ∀ s x, I s → I (step s x))
    {s : σ} (hs : I s) (xs : List ι) : I (run step s xs) := by
  induction xs generalizing s with
  | nil => exact hs
  | cons x xs ih => exact ih (hstep s x hs)

/-- What every step meeting `P` preserves, a run of such steps preserves. -/
theorem run_invariant_along {I : σ → Prop} {P : σ → ι → Prop}
    (hstep : ∀ s x, I s → P s x → I (step s x)) {s : σ} {xs : List ι}
    (hs : I s) (hP : Along step P s xs) : I (run step s xs) := by
  induction xs generalizing s with
  | nil => exact hs
  | cons x xs ih => exact ih (hstep s x hs hP.1) hP.2

/-- An invariant that speaks of the time, and is only ever lost by going back in
time, holds at the end of a run whose inputs come in order. -/
theorem run_invariant_clock {I : Nat → σ → Prop} {clock : ι → Nat}
    (hlater : ∀ m n s, m ≤ n → I m s → I n s)
    (hstep : ∀ s x, I (clock x) s → I (clock x) (step s x)) {s : σ} {xs : List ι} {now : Nat}
    (hs : I now s) (hnow : ∀ x ∈ xs, now ≤ clock x)
    (horder : (xs.map clock).Pairwise (· ≤ ·)) : ∃ later, I later (run step s xs) := by
  induction xs generalizing s now with
  | nil => exact ⟨now, hs⟩
  | cons x xs ih =>
      rw [List.map_cons, List.pairwise_cons] at horder
      obtain ⟨hfirst, horder⟩ := horder
      refine ih (hstep s x (hlater _ _ _ (hnow x (by simp)) hs)) ?_ horder
      exact fun y hy => hfirst _ (List.mem_map_of_mem hy)

/-- What every step keeps of a growing record, a run keeps of the whole record. -/
theorem run_invariant_collect {α : Type} {I : List α → σ → Prop} {f : σ → ι → List α}
    (hstep : ∀ record s x, I record s → I (record ++ f s x) (step s x)) {record : List α}
    {s : σ} (hs : I record s) (xs : List ι) :
    I (record ++ collectAlong step f s xs) (run step s xs) := by
  induction xs generalizing record s with
  | nil => simpa [collectAlong] using hs
  | cons x xs ih =>
      have htail := ih (hstep record s x hs)
      rwa [List.append_assoc] at htail

/-- A property that a step keeps exactly when it meets `P` holds all along a run
exactly when all steps meet `P`. -/
theorem forall_prefix_iff {I : σ → Prop} {P : σ → ι → Prop}
    (hstep : ∀ s x, I s → (I (step s x) ↔ P s x)) {s : σ} (hs : I s) {xs : List ι} :
    (∀ pre, pre <+: xs → I (run step s pre)) ↔ Along step P s xs := by
  induction xs generalizing s with
  | nil =>
      refine iff_of_true ?_ trivial
      intro pre hpre
      rw [List.prefix_nil.mp hpre]
      exact hs
  | cons x xs ih =>
      constructor
      · intro hall
        have hnext : I (step s x) := hall [x] (by simp)
        refine ⟨(hstep s x hs).mp hnext, (ih hnext).mp ?_⟩
        exact fun pre hpre => hall (x :: pre) (List.cons_prefix_cons.mpr ⟨rfl, hpre⟩)
      · rintro ⟨hfirst, hrest⟩ pre hpre
        have hnext := (hstep s x hs).mpr hfirst
        rcases List.prefix_cons_iff.mp hpre with rfl | ⟨tail, rfl, htail⟩
        · exact hs
        · exact (ih hnext).mpr hrest tail htail

theorem forall_mem_collectAlong_iff {α : Type} {f : σ → ι → List α} {p : α → Prop}
    {s : σ} {xs : List ι} :
    (∀ a ∈ collectAlong step f s xs, p a) ↔ Along step (fun s x => ∀ a ∈ f s x, p a) s xs := by
  induction xs generalizing s with
  | nil => simp [collectAlong, Along]
  | cons x xs ih =>
      simp only [collectAlong, List.forall_mem_append, Along]
      exact and_congr_right fun _ => ih

/-- Where each step records nothing or one thing that follows what was recorded last, the
record of a run is a chain, and its end says of the state what was said before. -/
theorem isChain_collectAlong {α : Type} {I : α → σ → Prop} {R : α → α → Prop}
    {f : σ → ι → List α} (hstep : ∀ a s x, I a s → f s x = [] ∧ I a (step s x) ∨
      ∃ b, f s x = [b] ∧ R a b ∧ I b (step s x)) {a : α} {s : σ} (hs : I a s) (xs : List ι) :
    List.IsChain R (a :: collectAlong step f s xs) ∧
      I ((collectAlong step f s xs).getLastD a) (run step s xs) := by
  induction xs generalizing a s with
  | nil => exact ⟨List.IsChain.singleton a, hs⟩
  | cons x xs ih =>
      rw [run_cons, collectAlong]
      rcases hstep a s x hs with ⟨hnone, hkept⟩ | ⟨b, hone, hfollows, hkept⟩
      · rw [hnone, List.nil_append]
        exact ih hkept
      · obtain ⟨hchain, hend⟩ := ih hkept
        rw [hone, List.singleton_append, List.getLastD_cons]
        exact ⟨List.isChain_cons_cons.mpr ⟨hfollows, hchain⟩, hend⟩

theorem Reachable.invariant {init I : σ → Prop} {s : σ}
    (h : Reachable step init s) (hinit : ∀ s, init s → I s)
    (hstep : ∀ s x, I s → I (step s x)) : I s := by
  obtain ⟨s₀, xs, h₀, rfl⟩ := h
  exact run_invariant hstep (hinit s₀ h₀) xs

theorem Reachable.after_run {init : σ → Prop} {s : σ} (h : Reachable step init s)
    (xs : List ι) : Reachable step init (run step s xs) := by
  obtain ⟨s₀, ys, h₀, rfl⟩ := h
  exact ⟨s₀, ys ++ xs, h₀, (run_append s₀ ys xs).symm⟩

/-- Two step conditions that agree wherever the invariant holds agree along
every run. -/
theorem along_congr {I : σ → Prop} {P Q : σ → ι → Prop}
    (hstep : ∀ s x, I s → I (step s x)) (hPQ : ∀ s x, I s → (P s x ↔ Q s x))
    {s : σ} (hs : I s) (xs : List ι) :
    Along step P s xs ↔ Along step Q s xs := by
  induction xs generalizing s with
  | nil => exact Iff.rfl
  | cons x xs ih => exact and_congr (hPQ s x hs) (ih (hstep s x hs))

/-- A step condition every member of the input list meets holds along the run. -/
theorem along_of_forall_mem {P : σ → ι → Prop} {Q : ι → Prop}
    (hQP : ∀ s x, Q x → P s x) (s : σ) {xs : List ι} (h : ∀ x ∈ xs, Q x) :
    Along step P s xs := by
  induction xs generalizing s with
  | nil => trivial
  | cons x xs ih =>
      exact ⟨hQP s x (h x (by simp)), ih (step s x) fun y hy => h y (by simp [hy])⟩

/-- A family of step conditions holds along a run when each of them does. -/
theorem along_forall {κ : Type} {P : κ → σ → ι → Prop} {s : σ} {xs : List ι} :
    Along step (fun s x => ∀ k, P k s x) s xs ↔ ∀ k, Along step (P k) s xs := by
  induction xs generalizing s with
  | nil => simp [Along]
  | cons x xs ih =>
      simp only [Along, ih]
      exact forall_and.symm

theorem Along.and {P Q : σ → ι → Prop} {s : σ} {xs : List ι}
    (hP : Along step P s xs) (hQ : Along step Q s xs) :
    Along step (fun s x => P s x ∧ Q s x) s xs := by
  induction xs generalizing s with
  | nil => trivial
  | cons x xs ih => exact ⟨⟨hP.1, hQ.1⟩, ih hP.2 hQ.2⟩

theorem Along.imp {P Q : σ → ι → Prop} (hPQ : ∀ s x, P s x → Q s x) {s : σ} {xs : List ι}
    (h : Along step P s xs) : Along step Q s xs := by
  induction xs generalizing s with
  | nil => trivial
  | cons x xs ih => exact ⟨hPQ s x h.1, ih h.2⟩

/-- Where a step moves a view of the state as the label of its input says, a run moves it
as the labels of its inputs say. -/
theorem view_run_map {ρ κ : Type} {view : σ → ρ} {label : ι → κ} {follow : ρ → κ → ρ}
    (hstep : ∀ s x, view (step s x) = follow (view s) (label x)) (s : σ) (xs : List ι) :
    view (run step s xs) = run follow (view s) (xs.map label) := by
  induction xs generalizing s with
  | nil => rfl
  | cons x xs ih => rw [run_cons, ih, hstep, List.map_cons, run_cons]

/-- A machine that follows another one: where every step makes a move of the other machine
on a view of the state, and a permitted one, a run makes a run of permitted moves. -/
theorem view_run_collect {ρ κ : Type} {view : σ → ρ} {move : σ → ι → κ} {follow : ρ → κ → ρ}
    {Permits : ρ → κ → Prop}
    (hstep : ∀ s x, view (step s x) = follow (view s) (move s x) ∧ Permits (view s) (move s x))
    (s : σ) (xs : List ι) :
    view (run step s xs) =
        run follow (view s) (collectAlong step (fun s x => [move s x]) s xs) ∧
      Along follow Permits (view s) (collectAlong step (fun s x => [move s x]) s xs) := by
  induction xs generalizing s with
  | nil => exact ⟨rfl, trivial⟩
  | cons x xs ih =>
      obtain ⟨hview, hpermits⟩ := hstep s x
      obtain ⟨hrun, halong⟩ := ih (step s x)
      rw [hview] at hrun halong
      exact ⟨hrun, hpermits, halong⟩

/-- What every input overwrites or leaves is, after a run, what was written last. -/
theorem run_last_write {α : Type} {I : σ → Prop} {view : σ → Option α} {write : ι → Option α}
    (hI : ∀ s x, I s → I (step s x))
    (hstep : ∀ s x, I s → view (step s x) = (write x).or (view s)) {s : σ} (hs : I s)
    (xs : List ι) : view (run step s xs) = (xs.filterMap write).getLast?.or (view s) := by
  induction xs generalizing s with
  | nil => rfl
  | cons x xs ih =>
      rw [run_cons, ih (hI s x hs), hstep s x hs]
      cases hwrite : write x with
      | none => rw [List.filterMap_cons_none hwrite, Option.none_or]
      | some a =>
          rw [List.filterMap_cons_some hwrite, List.getLast?_cons]
          cases (xs.filterMap write).getLast? <;> rfl

/-- Where a step from a state with `I` meets `P` exactly when it meets `Q` and keeps `I`,
a run of steps meeting `P` is one that meets `Q` and keeps `I` at every step. -/
theorem along_iff_kept {I : σ → Prop} {P Q : σ → ι → Prop}
    (hstep : ∀ s x, I s → (P s x ↔ Q s x ∧ I (step s x))) {s : σ} (hs : I s) (xs : List ι) :
    Along step P s xs ↔ Along step (fun s x => Q s x ∧ I (step s x)) s xs := by
  induction xs generalizing s with
  | nil => exact Iff.rfl
  | cons x xs ih =>
      simp only [Along]
      rw [hstep s x hs]
      exact and_congr_right fun hboth => ih hboth.2

/-! ## Accounts along a run -/

/-- Double-entry bookkeeping over a run: when in every step the change of `φ`
plus what goes out equals the change of `ψ` plus what comes in, the same holds
over the run.  The invariant `I` may be used in each step. -/
theorem run_balance_of_invariant {I : σ → Prop} (φ ψ : σ → Nat)
    (inflow outflow : σ → ι → Nat) (hI : ∀ s x, I s → I (step s x))
    (hstep : ∀ s x, I s →
      φ (step s x) + ψ s + outflow s x = φ s + ψ (step s x) + inflow s x)
    {s : σ} (hs : I s) (xs : List ι) :
    φ (run step s xs) + ψ s + sumAlong step outflow s xs =
      φ s + ψ (run step s xs) + sumAlong step inflow s xs := by
  induction xs generalizing s with
  | nil => simp [sumAlong]
  | cons x xs ih =>
      have hhead := hstep s x hs
      have htail := ih (hI s x hs)
      simp only [run_cons, sumAlong]
      omega

theorem run_balance (φ ψ : σ → Nat) (inflow outflow : σ → ι → Nat)
    (hstep : ∀ s x, φ (step s x) + ψ s + outflow s x = φ s + ψ (step s x) + inflow s x)
    (s : σ) (xs : List ι) :
    φ (run step s xs) + ψ s + sumAlong step outflow s xs =
      φ s + ψ (run step s xs) + sumAlong step inflow s xs :=
  run_balance_of_invariant (I := fun _ => True) φ ψ inflow outflow
    (fun _ _ _ => trivial) (fun s x _ => hstep s x) trivial xs

/-- A quantity to which every step meeting `P` adds what `f` says. -/
theorem run_eq_add_sumAlong {P : σ → ι → Prop} {φ : σ → Nat} {f : σ → ι → Nat}
    (hstep : ∀ s x, P s x → φ (step s x) = φ s + f s x) {s : σ} {xs : List ι}
    (h : Along step P s xs) : φ (run step s xs) = φ s + sumAlong step f s xs := by
  induction xs generalizing s with
  | nil => rfl
  | cons x xs ih =>
      have hhead := hstep s x h.1
      have htail := ih h.2
      simp only [run_cons, sumAlong]
      omega

theorem sumAlong_eq_zero_iff {f : σ → ι → Nat} {s : σ} {xs : List ι} :
    sumAlong step f s xs = 0 ↔ Along step (fun s x => f s x = 0) s xs := by
  induction xs generalizing s with
  | nil => simp [sumAlong, Along]
  | cons x xs ih => simp [sumAlong, Along, ih]

theorem sumAlong_add {f g : σ → ι → Nat} {s : σ} {xs : List ι} :
    sumAlong step (fun s x => f s x + g s x) s xs =
      sumAlong step f s xs + sumAlong step g s xs := by
  induction xs generalizing s with
  | nil => rfl
  | cons x xs ih =>
      simp only [sumAlong, ih]
      omega

@[simp] theorem sumAlong_zero {s : σ} {xs : List ι} :
    sumAlong step (fun _ _ => 0) s xs = 0 := by
  induction xs generalizing s with
  | nil => rfl
  | cons x xs ih => simp [sumAlong, ih]

end

end SefiStakepool.Foundation
