import Mathlib.Data.List.Infix

/-! # One queue for many channels

The ends of channels send packets into one queue, and take packets from
its front. `Traffic` is the history of such a queue: which end sent each
packet that is still in it, and what every end has sent and received.

Nothing in the queue keeps the channels apart. If every packet is taken by
the other end of the channel of its sender, each end receives what the
other end sent, in order: such steps keep `Isolated`.
-/
namespace Framework
/-- Packets may also be sent and taken by somebody who is not an end of a
channel. -/
structure Traffic (E α : Type) where
  flight : List (Option E × List α)
  sent : E → List α
  received : E → List α

namespace Traffic
variable {E α : Type} [DecidableEq E]
def empty : Traffic E α := ⟨[], fun _ => [], fun _ => []⟩

/-- `data` is added to the account of `e`. -/
def credit (account : E → List α) (e : Option E) (data : List α) : E → List α :=
  fun x => if e = some x then account x ++ data else account x

section
variable (t : Traffic E α) (e : Option E) (data : List α)
def put : Traffic E α :=
  { t with flight := t.flight ++ [(e, data)], sent := credit t.sent e data }

def take : Traffic E α :=
  { t with flight := t.flight.tail, received := credit t.received e data }
end
/-- What `e` has sent and nobody has taken yet. -/
def inFlight (t : Traffic E α) (e : E) : List α :=
  (t.flight.filter fun p => p.1 = some e).flatMap Prod.snd

variable {t : Traffic E α} {peer : E → E} {e : Option E} {data : List α}
/-- Every end has received the start of what the other end sent, and the rest
is in flight. -/
def Isolated (peer : E → E) (t : Traffic E α) : Prop :=
  ∀ e, t.sent (peer e) = t.received e ++ t.inFlight (peer e)

theorem isolated_empty : (empty : Traffic E α).Isolated peer := fun _ => rfl

theorem inFlight_put (x : E) :
    (t.put e data).inFlight x = if e = some x then t.inFlight x ++ data else t.inFlight x := by
  unfold inFlight put
  rw [List.filter_append, List.flatMap_append]
  by_cases he : e = some x
  all_goals simp [he]

theorem Isolated.put (h : t.Isolated peer) : (t.put e data).Isolated peer := by
  intro x
  rw [inFlight_put]
  show credit t.sent e data (peer x) = t.received x ++ _
  unfold credit
  by_cases he : e = some (peer x)
  · rw [if_pos he, if_pos he, h x, List.append_assoc]
  rw [if_neg he, if_neg he]
  exact h x

/-- What is taken was sent by the other end, so it is what comes next on the
channel. -/
theorem Isolated.take (h : t.Isolated peer) (hpeer : Function.Injective peer)
    {rest : List (Option E × List α)} (hflight : t.flight = (e.map peer, data) :: rest) :
    (t.take e data).Isolated peer := by
  intro x
  have hx := h x
  show t.sent (peer x) = credit t.received e data x ++
    (t.flight.tail.filter fun p => p.1 = some (peer x)).flatMap Prod.snd
  rw [hx]
  unfold inFlight credit
  rw [hflight, List.tail_cons]
  -- the packet counts for `x` exactly if `x` takes it
  by_cases he : e = some x
  · simp [he]
  have hne : e.map peer ≠ some (peer x) := by
    intro heq
    obtain ⟨y, rfl, hy⟩ := Option.map_eq_some_iff.mp heq
    exact he (congrArg some (hpeer hy))
  simp [he, hne]

theorem Isolated.received_prefix (h : t.Isolated peer) (x : E) : t.received x <+: t.sent (peer x) :=
  ⟨t.inFlight (peer x), (h x).symm⟩
end Traffic
end Framework
