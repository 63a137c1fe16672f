import Mathlib.Data.List.Basic

/-!
# Double-ended queues

A queue has room for a number of elements and grows when one more is pushed.  If the oldest element is
removed whenever it is full it never grows, and holds the newest elements.
-/

namespace Lib

variable {α : Type}

structure VecDeque (α : Type) where
  capacity : Nat
  items : List α

namespace VecDeque

/-- `grow` is how much room there is after a reallocation. -/
def pushBack (grow : Nat → Nat) (q : VecDeque α) (a : α) : VecDeque α where
  capacity := if q.items.length = q.capacity then grow q.capacity else q.capacity
  items := q.items ++ [a]

def popFront (q : VecDeque α) : VecDeque α := { q with items := q.items.tail }

def isFull (q : VecDeque α) : Bool := decide (q.items.length = q.capacity)

/-- The elements with a new one at the end; the first one makes room for it in a full queue. -/
def pushed (q : VecDeque α) (a : α) : VecDeque α :=
  { q with items := q.items.drop (q.items.length + 1 - q.capacity) ++ [a] }

variable {q : VecDeque α}

theorem length_pushed_le (a : α) (hroom : 0 < q.capacity) :
    (q.pushed a).items.length ≤ q.capacity := by
  show (q.items.drop (q.items.length + 1 - q.capacity) ++ [a]).length ≤ q.capacity
  rw [List.length_append, List.length_drop, List.length_singleton]
  omega

-- There is no reallocation.
theorem pushBack_eq_pushed (grow : Nat → Nat) (a : α) (hroom : 0 < q.capacity)
    (hbounded : q.items.length ≤ q.capacity) :
    (if q.isFull then q.popFront else q).pushBack grow a = q.pushed a := by
  by_cases hfull : q.items.length = q.capacity
  · have hisFull : q.isFull = true := decide_eq_true hfull
    have hone : q.items.length + 1 - q.capacity = 1 := by omega
    have hroom' : q.items.tail.length ≠ q.capacity := by
      rw [List.length_tail]
      omega
    rw [if_pos hisFull, pushed, hone, List.drop_one, pushBack, popFront, if_neg hroom']
  · have hisFull : ¬q.isFull = true := by
      rw [isFull, decide_eq_true_iff]
      exact hfull
    have hzero : q.items.length + 1 - q.capacity = 0 := by omega
    rw [if_neg hisFull, pushed, hzero, List.drop_zero, pushBack, if_neg hfull]

/-- A queue with the newest of these elements. -/
def newest (capacity : Nat) (all : List α) : VecDeque α where
  capacity := capacity
  items := all.drop (all.length - capacity)

theorem newest_nil (capacity : Nat) : newest capacity ([] : List α) = ⟨capacity, []⟩ := by
  rw [newest, List.drop_nil]

theorem pushed_newest {capacity : Nat} (hroom : 0 < capacity) (all : List α) (a : α) :
    (newest capacity all).pushed a = newest capacity (all ++ [a]) := by
  have hlength : (all ++ [a]).length = all.length + 1 := List.length_append
  have hdropped : all.length + 1 - capacity =
      all.length - capacity + (all.length - (all.length - capacity) + 1 - capacity) := by omega
  have hle : all.length + 1 - capacity ≤ all.length := by omega
  rw [newest, newest, pushed, hlength, List.drop_append_of_le_length hle, List.drop_drop,
    List.length_drop, hdropped]

end VecDeque

/-- The last element with the property is changed; `none` when the change is not possible. -/
def changeLast (p : α → Bool) (f : α → Option α) : List α → Option (List α)
  | [] => some []
  | x :: xs =>
    if xs.any p then (changeLast p f xs).map (x :: ·)
    else if p x then (f x).map (· :: xs)
    else some (x :: xs)

-- The search starts at the end.
theorem changeLast_concat {p : α → Bool} {f : α → Option α} {x : α} (h : p x = true)
    (xs : List α) : changeLast p f (xs ++ [x]) = (f x).map (fun y ↦ xs ++ [y]) := by
  induction xs with
  | nil =>
    show changeLast p f [x] = _
    rw [changeLast, List.any_nil, if_neg Bool.false_ne_true, if_pos h]
    rfl
  | cons y ys ih =>
    have hany : (ys ++ [x]).any p = true := by
      apply List.any_eq_true.mpr
      exact ⟨x, List.mem_append_right ys List.mem_cons_self, h⟩
    show changeLast p f (y :: (ys ++ [x])) = _
    rw [changeLast, if_pos hany, ih, Option.map_map]
    rfl

end Lib
