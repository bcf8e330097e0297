/-
  Foundation/Raffle.lean --- drawing by weight as a raffle.

  A weighted index takes a point below the sum of the weights and gives the position at
  which the running total passes it.  Dealing every item as many tickets as it weighs
  turns that into the choice of one ticket, so that how often an item or a kind of items
  can come up is a matter of counting.
-/
import Mathlib.Algebra.GroupWithZero.Nat
import Mathlib.Tactic.Common

set_option autoImplicit false

namespace SefiStakepool.Foundation

variable {α : Type}

/-- The position at which the running total of the weights passes the point. -/
def pick : List Nat → Nat → Nat
  | [], _ => 0
  | weight :: weights, point => if point < weight then 0 else pick weights (point - weight) + 1

/-- Every item, as many times as it weighs. -/
def tickets : List Nat → List α → List α
  | weight :: weights, item :: items => List.replicate weight item ++ tickets weights items
  | _, _ => []

/-- What the items that meet `p` weigh together. -/
def weightWhere (p : α → Bool) : List Nat → List α → Nat
  | weight :: weights, item :: items =>
      (if p item = true then weight else 0) + weightWhere p weights items
  | _, _ => 0

section
variable {weights : List Nat} {items : List α}

/-- There are as many tickets as the sum of the weights. -/
theorem length_tickets (h : weights.length = items.length) :
    (tickets weights items).length = weights.sum := by
  induction weights generalizing items with
  | nil => rfl
  | cons weight weights ih =>
      cases items with
      | nil => cases h
      | cons item items =>
          rw [tickets, List.length_append, List.length_replicate, List.sum_cons,
            ih (Nat.succ.inj h)]

/-- The ticket at a point is the item that the point picks. -/
theorem getElem?_tickets (h : weights.length = items.length) {point : Nat}
    (hlt : point < weights.sum) : (tickets weights items)[point]? = items[pick weights point]? := by
  induction weights generalizing items point with
  | nil => exact absurd hlt (Nat.not_lt_zero point)
  | cons weight weights ih =>
      cases items with
      | nil => cases h
      | cons item items =>
          rw [List.sum_cons] at hlt
          unfold tickets pick
          by_cases hfirst : point < weight
          · rw [if_pos hfirst, List.getElem?_append_left (by simpa using hfirst),
              List.getElem?_replicate_of_lt hfirst]
            rfl
          · rw [if_neg hfirst, List.getElem?_append_right (by simpa using hfirst),
              List.length_replicate, ih (Nat.succ.inj h) (by omega), List.getElem?_cons_succ]

/-- Items that meet `p` have as many tickets as they weigh together. -/
theorem countP_tickets (p : α → Bool) :
    (tickets weights items).countP p = weightWhere p weights items := by
  induction weights generalizing items with
  | nil => rfl
  | cons weight weights ih =>
      cases items with
      | nil => rfl
      | cons item items =>
          rw [tickets, weightWhere, List.countP_append, List.countP_replicate, ih]

end

end SefiStakepool.Foundation
