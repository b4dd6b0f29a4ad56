import Stepwise.Trace
/-!
# The store of a run

Everything a running step can touch: the state of user code, the one-shot channels behind
continuations, completions that are scheduled for a later turn, and the trace. A channel has two
ends. The sending end is held until it is used once, by a completion or by being dropped; the other
end waits until it is dropped.
-/

namespace Stepwise

/-- Names the channel that a continuation completes. -/
structure Handle where
  id : Nat
deriving DecidableEq, Repr

/-- The sending end of a channel. -/
inductive Sender where
  | held
  | sent (settlement : Settlement)
  | dropped

structure Channel where
  sender : Sender
  /-- Whether the other end still waits. -/
  waiting : Bool

/-- What a waiter finds: a settlement that was sent, or that the sending end was dropped. -/
def Channel.settlement? (c : Channel) : Option Settlement :=
  match c.sender with
  | .held => none
  | .sent settlement => some settlement
  | .dropped => some (.error .abandoned)

structure Store (υ : Type) where
  user : υ
  channels : Array Channel := #[]
  /-- Completions to be sent at the next turn, oldest first. -/
  due : List (Handle × Settlement) := []
  /-- Completions to be sent at the turn after the next one, oldest first. -/
  deferred : List (Handle × Settlement) := []
  trace : Array Event := #[]

/-- What a program can ask of the store besides the state of user code. -/
inductive Request where
  | openChannel
  | settle (handle : Handle) (settlement : Settlement)
  /-- Drops the sending end. -/
  | discard (handle : Handle)
  /-- Drops the waiting end. -/
  | deafen (handle : Handle)
  | isWaiting (handle : Handle)
  | defer (handle : Handle) (settlement : Settlement)
  | report (notice : Notice)

/-- The type of the answer to a request. -/
@[reducible] def Request.Reply : Request → Type
  | openChannel => Handle
  | isWaiting _ => Bool
  | _ => Unit

namespace Store

variable {υ : Type}

def channel? (st : Store υ) (handle : Handle) : Option Channel :=
  st.channels[handle.id]?

def updateChannel (st : Store υ) (handle : Handle) (update : Channel → Channel) : Store υ :=
  { st with channels := st.channels.modify handle.id update }

def report (st : Store υ) (spans : List Span) (notice : Notice) : Store υ :=
  { st with trace := st.trace.push ⟨notice, spans⟩ }

def openChannel (st : Store υ) : Handle × Store υ :=
  (⟨st.channels.size⟩, { st with channels := st.channels.push ⟨.held, true⟩ })

/--
Completes through a handle. A handle that was used before has no effect, and a completion that
nobody waits for is only reported.
-/
def settle (st : Store υ) (spans : List Span) (handle : Handle) (settlement : Settlement) :
    Store υ :=
  match st.channel? handle with
  | some ⟨.held, true⟩ => st.updateChannel handle ({ · with sender := .sent settlement })
  | some ⟨.held, false⟩ =>
    (st.updateChannel handle ({ · with sender := .dropped })).report spans .waiterGone
  | _ => st

def discard (st : Store υ) (handle : Handle) : Store υ :=
  match st.channel? handle with
  | some ⟨.held, _⟩ => st.updateChannel handle ({ · with sender := .dropped })
  | _ => st

def deafen (st : Store υ) (handle : Handle) : Store υ :=
  st.updateChannel handle ({ · with waiting := false })

def isWaiting (st : Store υ) (handle : Handle) : Bool :=
  match st.channel? handle with
  | some channel => channel.waiting
  | none => false

/-- What the waiting end of a channel would find now. -/
def settlement? (st : Store υ) (handle : Handle) : Option Settlement :=
  (st.channel? handle).bind Channel.settlement?

def defer (st : Store υ) (handle : Handle) (settlement : Settlement) : Store υ :=
  { st with deferred := st.deferred ++ [(handle, settlement)] }

/-- Sends completions in order, outside of every span. -/
def send (completions : List (Handle × Settlement)) (st : Store υ) : Store υ :=
  completions.foldl (fun st (handle, settlement) => st.settle [] handle settlement) st

/-- Sends the completions that are due; those deferred since the last turn are due at the next. -/
def turn (st : Store υ) : Store υ :=
  { st with due := st.deferred, deferred := [] }.send st.due

/-- Sends all completions that are scheduled. -/
def deliver (st : Store υ) : Store υ :=
  { st with due := [], deferred := [] }.send (st.due ++ st.deferred)

/-- Sets a second component of state beside the state of user code. -/
def attach {ρ : Type} (st : Store υ) (r : ρ) : Store (υ × ρ) :=
  { user := (st.user, r), channels := st.channels, due := st.due, deferred := st.deferred,
    trace := st.trace }

/-- Takes the second component of state away again. -/
def detach {ρ : Type} (st : Store (υ × ρ)) : ρ × Store υ :=
  (st.user.2,
    { user := st.user.1, channels := st.channels, due := st.due, deferred := st.deferred,
      trace := st.trace })

/-- Answers a request made under the given spans. -/
def answer (st : Store υ) (spans : List Span) : (r : Request) → r.Reply × Store υ
  | .openChannel => st.openChannel
  | .settle handle settlement => ((), st.settle spans handle settlement)
  | .discard handle => ((), st.discard handle)
  | .deafen handle => ((), st.deafen handle)
  | .isWaiting handle => (st.isWaiting handle, st)
  | .defer handle settlement => ((), st.defer handle settlement)
  | .report notice => ((), st.report spans notice)

end Store

end Stepwise
