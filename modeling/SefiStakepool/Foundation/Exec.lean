/-
  Foundation/Exec.lean --- calls that return, refuse or abort, and the checked
  machine arithmetic they are written with.

  A call either returns a value, returns an error of its own error type, or
  aborts.  The two failures are kept apart because a caller can see the first
  and nobody can handle the second.  Unsigned machine integers are naturals;
  every operation that can leave the width of its type is checked, and a failed
  check aborts.
-/
import Mathlib.Algebra.GroupWithZero.Nat
import Mathlib.Tactic.Common

set_option autoImplicit false

namespace SefiStakepool.Foundation

/-- Why a call did not return a value. -/
inductive Fault (ε : Type) where
  /-- the call returned an error -/
  | err (error : ε)
  /-- the call aborted -/
  | panic
  deriving DecidableEq, Repr

/-- A call that returns an `α`, returns an error, or aborts. -/
abbrev Exec (ε α : Type) : Type := Except (Fault ε) α

variable {ε α β : Type}

/-- A bind returns exactly when both parts do. -/
theorem bind_eq_ok {φ : Type} {x : Except φ α} {f : α → Except φ β} {b : β} :
    (x >>= f) = .ok b ↔ ∃ a, x = .ok a ∧ f a = .ok b := by
  cases x with
  | ok a => simp [Bind.bind, Except.bind]
  | error e => simp [Bind.bind, Except.bind]

/-- A call that returns, returns the value it has. -/
theorem eq_ok_get {φ : Type} {x : Except φ α} (h : x.toOption.isSome) :
    x = .ok (x.toOption.get h) := by
  cases x with
  | ok a => rfl
  | error e => cases h

/-- Whether a call returns a pair can be seen. -/
theorem exists_ok_iff {φ : Type} {x : Except φ (α × β)} :
    (∃ a b, x = .ok (a, b)) ↔ x.toOption.isSome := by
  cases x with
  | ok p => exact iff_of_true ⟨p.1, p.2, rfl⟩ rfl
  | error e => simp [Except.toOption]

/-- Carry on when `c` holds, fail with `fault` otherwise. -/
def ensure (c : Prop) [Decidable c] (fault : Fault ε) : Exec ε Unit :=
  if c then .ok () else .error fault

theorem ensure_eq_ok {c : Prop} [Decidable c] {fault : Fault ε} {u : Unit} :
    ensure c fault = .ok u ↔ c := by
  unfold ensure
  split <;> simp_all

/-- The value, or an abort when there is none. -/
def unwrap : Option α → Exec ε α
  | some a => .ok a
  | none => .error .panic

theorem unwrap_eq_ok {o : Option α} {a : α} :
    (unwrap o : Exec ε α) = .ok a ↔ o = some a := by
  cases o <;> simp [unwrap]

/-! ## Checked machine arithmetic -/

/-- Keep `n` when it fits an unsigned type of `width` bits. -/
def narrow (width n : Nat) : Exec ε Nat :=
  if n < 2 ^ width then .ok n else .error .panic

/-- Addition in an unsigned type of `width` bits. -/
def addU (width a b : Nat) : Exec ε Nat := narrow width (a + b)

/-- Multiplication in an unsigned type of `width` bits. -/
def mulU (width a b : Nat) : Exec ε Nat := narrow width (a * b)

/-- Unsigned subtraction: a negative difference aborts. -/
def subU (a b : Nat) : Exec ε Nat :=
  if b ≤ a then .ok (a - b) else .error .panic

/-- Unsigned division: a zero divisor aborts. -/
def divU (a b : Nat) : Exec ε Nat :=
  if b = 0 then .error .panic else .ok (a / b)

theorem narrow_eq_ok {width n m : Nat} :
    (narrow width n : Exec ε Nat) = .ok m ↔ n < 2 ^ width ∧ n = m := by
  unfold narrow
  split
  · rename_i h
    simp [h]
  · rename_i h
    simp only [reduceCtorEq, false_iff, not_and]
    exact fun hlt => absurd hlt h

theorem addU_eq_ok {width a b c : Nat} :
    (addU width a b : Exec ε Nat) = .ok c ↔ a + b < 2 ^ width ∧ a + b = c :=
  narrow_eq_ok

theorem mulU_eq_ok {width a b c : Nat} :
    (mulU width a b : Exec ε Nat) = .ok c ↔ a * b < 2 ^ width ∧ a * b = c :=
  narrow_eq_ok

theorem subU_eq_ok {a b c : Nat} :
    (subU a b : Exec ε Nat) = .ok c ↔ b ≤ a ∧ a - b = c := by
  unfold subU
  split
  · rename_i h
    simp [h]
  · rename_i h
    simp only [reduceCtorEq, false_iff, not_and]
    exact fun hle => absurd hle h

theorem divU_eq_ok {a b c : Nat} :
    (divU a b : Exec ε Nat) = .ok c ↔ b ≠ 0 ∧ a / b = c := by
  unfold divU
  split <;> simp_all

/-! ## Aborts -/

/-- The call returns or refuses. -/
def NoPanic (x : Exec ε α) : Prop := x ≠ .error .panic

instance (x : Exec ε α) : Decidable (NoPanic x) :=
  match x with
  | .ok _ => isTrue (by simp [NoPanic])
  | .error (.err _) => isTrue (by simp [NoPanic])
  | .error .panic => isFalse (by simp [NoPanic])

theorem noPanic_ok (a : α) : NoPanic (.ok a : Exec ε α) := by simp [NoPanic]

theorem noPanic_err (e : ε) : NoPanic (.error (.err e) : Exec ε α) := by simp [NoPanic]

/-- A call that returns does not abort. -/
theorem noPanic_of_eq_ok {x : Exec ε α} {a : α} (h : x = .ok a) : NoPanic x :=
  h ▸ noPanic_ok a

/-- A bind does not abort when the first part does not, and the second part does not
on what the first returns. -/
theorem noPanic_bind {x : Exec ε α} {f : α → Exec ε β} :
    NoPanic (x >>= f) ↔ NoPanic x ∧ ∀ a, x = .ok a → NoPanic (f a) := by
  cases x with
  | ok a => simp [NoPanic, Bind.bind, Except.bind]
  | error e => simp [NoPanic, Bind.bind, Except.bind]

/-- Past a part that returns, only the rest can abort. -/
theorem noPanic_bind_of_ok {x : Exec ε α} {f : α → Exec ε β} {a : α} (h : x = .ok a) :
    NoPanic (x >>= f) ↔ NoPanic (f a) := by
  subst h
  rfl

theorem noPanic_ensure_err {c : Prop} [Decidable c] {e : ε} :
    NoPanic (ensure c (.err e)) := by
  unfold ensure
  split
  · exact noPanic_ok ()
  · exact noPanic_err e

theorem noPanic_narrow {width n : Nat} :
    NoPanic (narrow width n : Exec ε Nat) ↔ n < 2 ^ width := by
  unfold narrow
  split
  · exact iff_of_true (noPanic_ok n) ‹_›
  · exact iff_of_false (fun h => h rfl) ‹_›

theorem noPanic_addU {width a b : Nat} :
    NoPanic (addU width a b : Exec ε Nat) ↔ a + b < 2 ^ width :=
  noPanic_narrow

theorem noPanic_mulU {width a b : Nat} :
    NoPanic (mulU width a b : Exec ε Nat) ↔ a * b < 2 ^ width :=
  noPanic_narrow

theorem noPanic_subU {a b : Nat} : NoPanic (subU a b : Exec ε Nat) ↔ b ≤ a := by
  unfold subU
  split
  · exact iff_of_true (noPanic_ok _) ‹_›
  · exact iff_of_false (fun h => h rfl) ‹_›

theorem noPanic_divU {a b : Nat} : NoPanic (divU a b : Exec ε Nat) ↔ b ≠ 0 := by
  unfold divU
  split
  · exact iff_of_false (fun h => h rfl) (not_not.mpr ‹_›)
  · exact iff_of_true (noPanic_ok _) ‹_›

end SefiStakepool.Foundation
