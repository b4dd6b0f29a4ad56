import Stepwise.Session.Bench
/-!
# A continuation by itself

One continuation and its waiter, each of which goes away once it was used.
-/

namespace Stepwise.Session

structure OneShot where
  store : Store Unit
  handle : Handle
  /-- Whether the continuation was not used yet. -/
  held : Bool
  /-- The waiter, until it found the settlement or was dropped. -/
  waiter : Option (Parked Unit Settlement)

namespace OneShot

inductive Command where
  | isWaiting
  | settle (how : Completing)
  | poll
  | dropWaiter

inductive Reply where
  /-- Whether somebody waits, unless the continuation was used. -/
  | waiting (state : Option Bool)
  | settled (wasHeld : Bool)
  | gone
  | pending
  | found (settlement : Settlement)
  | dropped (wasThere : Bool)

def fresh : OneShot :=
  let (handle, store) := Store.openChannel { user := () }
  { store, handle, held := true
    waiter := some (.waiter handle) }

def perform (s : OneShot) : Command → Reply × OneShot
  | .isWaiting => (.waiting (if s.held then some (s.store.isWaiting s.handle) else none), s)
  | .settle how =>
    if s.held then
      (.settled true, { s with store := complete s.store s.handle how, held := false })
    else (.settled false, s)
  | .poll =>
    match s.waiter with
    | none => (.gone, s)
    | some waiter =>
      match waiter.poll s.store with
      | .done store settlement => (.found settlement, { s with store, waiter := none })
      | .pending store rest => (.pending, { s with store, waiter := some rest })
      | .panicked store _ => (.gone, { s with store, waiter := none })
      | .exhausted store => (.gone, { s with store, waiter := none })
  | .dropWaiter =>
    match s.waiter with
    | none => (.dropped false, s)
    | some waiter => (.dropped true, { s with store := waiter.drop s.store, waiter := none })

/-- The events since the last command, oldest first. -/
def close (s : OneShot) : List Event × OneShot :=
  (s.store.trace.toList, { s with store := { s.store with trace := #[] } })

end OneShot

end Stepwise.Session
