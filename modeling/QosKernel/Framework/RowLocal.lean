import QosKernel.Framework.Slots
import QosKernel.Framework.Trap

/-! # Operations on one row of a table

The state holds a table, and an operation gets the index of a row. It is
`Local` if it reads and writes no other row: put somewhere else, among other
rows, the row fares in the same way. Local operations leave all other rows
alone, and do not notice if two rows change places.

A run of calls that do not notice a change of the state returns the same
answers after it.
-/
namespace Framework
variable {State Row Out Call : Type} {n : Nat}
/-- A table in a state. -/
structure Rows (State : Type) (n : Nat) (Row : Type) where
  get : State → Fin n → Row
  put : State → (Fin n → Row) → State
  get_put : ∀ s rows, get (put s rows) = rows
  put_get : ∀ s, put s (get s) = s

namespace Rows
variable (T : Rows State n Row) {op : State → Fin n → Checked (Out × State)} {s : State}
  {i : Fin n}
/-- Two rows change places. -/
def exchange (a b : Fin n) (s : State) : State := T.put s fun k => T.get s (Equiv.swap a b k)

theorem exchange_self {a b : Fin n} (h : T.get s a = T.get s b) : T.exchange a b s = s := by
  have hrows : (fun k => T.get s (Equiv.swap a b k)) = T.get s := by
    funext k
    rcases eq_or_ne k a with rfl | ha
    · rw [Equiv.swap_apply_left, h]
    rcases eq_or_ne k b with rfl | hb
    · rw [Equiv.swap_apply_right, h]
    rw [Equiv.swap_apply_of_ne_of_ne ha hb]
  rw [exchange, hrows, T.put_get]

/-- What an operation returns, with row `i` put into row `j` of other rows. -/
def moved (rows : Fin n → Row) (i j : Fin n) (r : Out × State) : Out × State :=
  (r.1, T.put r.2 (set rows j (T.get r.2 i)))

def Local (op : State → Fin n → Checked (Out × State)) : Prop :=
  ∀ s i rows j, rows j = T.get s i → op (T.put s rows) j = T.moved rows i j <$> op s i

variable {T}
theorem Local.own (h : T.Local op) {r : Out × State} (hr : op s i = .ok r) :
    T.get r.2 = set (T.get s) i (T.get r.2 i) := by
  have hsame := h s i (T.get s) i rfl
  rw [T.put_get, hr] at hsame
  have hstate := congrArg (fun r => T.get r.2) (Except.ok.inj hsame)
  rw [moved, T.get_put] at hstate
  exact hstate

/-- A local operation does not notice that rows change places. -/
theorem Local.exchange (h : T.Local op) (a b : Fin n) :
    op (T.exchange a b s) (Equiv.swap a b i) = Prod.map id (T.exchange a b) <$> op s i := by
  rw [Rows.exchange, h s i _ _ (by rw [Equiv.swap_apply_self])]
  cases hr : op s i with
  | error trap => rfl
  | ok r =>
  -- only row `i` is written, so both ways lead to the same rows
  have hrows : set (fun k => T.get s (Equiv.swap a b k)) (Equiv.swap a b i) (T.get r.2 i) =
      fun k => T.get r.2 (Equiv.swap a b k) := by
    funext k
    rw [h.own hr]
    by_cases hk : k = Equiv.swap a b i
    · rw [hk, set_self, Equiv.swap_apply_self, set_self]
    have hne : Equiv.swap a b k ≠ i := fun he => hk (by rw [← he, Equiv.swap_apply_self])
    rw [set_ne hk, set_ne hne]
  show Except.ok (T.moved _ i _ r) = Except.ok (Prod.map id (T.exchange a b) r)
  rw [moved, hrows]
  rfl
end Rows
/-! ### Runs of calls -/
variable {step : State → Call → Checked (Out × State)}
/-- The answers of calls made one after the other, and the last state. -/
def runAll (step : State → Call → Checked (Out × State)) (s : State) :
    List Call → Checked (List Out × State)
  | [] => .ok ([], s)
  | c :: cs => do
    let r ← step s c
    let rest ← runAll step r.2 cs
    return (r.1 :: rest.1, rest.2)

theorem runAll_map {f : State → State} {g : Call → Call}
    (h : ∀ s c, step (f s) (g c) = Prod.map id f <$> step s c) (s : State) (cs : List Call) :
    runAll step (f s) (cs.map g) = Prod.map id f <$> runAll step s cs := by
  induction cs generalizing s with
  | nil => rfl
  | cons c cs ih =>
  rw [List.map_cons, runAll, runAll, h]
  cases step s c with
  | error trap => rfl
  | ok r =>
  show (runAll step (f r.2) (cs.map g) >>= _) = _ <$> (runAll step r.2 cs >>= _)
  rw [ih]
  cases runAll step r.2 cs with
  | error trap | ok rest => rfl

/-- The answers in a state that the change leaves as it is. -/
theorem runAll_answers {f : State → State} {g : Call → Call}
    (h : ∀ s c, step (f s) (g c) = Prod.map id f <$> step s c) {s : State} (hs : f s = s)
    (cs : List Call) : Prod.fst <$> runAll step s (cs.map g) = Prod.fst <$> runAll step s cs := by
  have hrun := runAll_map h s cs
  rw [hs] at hrun
  rw [hrun]
  cases runAll step s cs with
  | error trap | ok r => rfl
end Framework
