import Stablecoin.Engine.Basic
import Stablecoin.Journal
import Stablecoin.Request

/-!
# Plans and receipts

A transaction is planned without changing anything: which coins move, which records are written,
which event is recorded and what is answered. Carrying a plan out applies the coin movements first;
only if the ledger accepts them all are the records and the event written.
-/
namespace Stablecoin

structure Plan where
  /-- The coin movements, zero coins included. -/
  moves : List LedgerOp
  update : RecordUpdate
  event : Event
  /-- What the journal says of the transaction once it is done. -/
  notice : String
  response : Response
  deriving DecidableEq, Repr

/-- What an operation returned, left behind and wrote on the way. -/
structure Receipt (α : Type) where
  result : Result α
  engine : Engine
  /-- The batch that the ledger was given, if it was given one. -/
  submitted : Option (List LedgerOp) := none
  journal : List LogLine := []

namespace Event

/-- The line that recording an event writes. -/
def line (event : Event) : LogLine := .about .info "record_event" event.name

end Event

namespace Engine

/-- The engine with one more recorded event. -/
def record (e : Engine) (event : Event) : Engine := { e with events := e.events.record event }

/-- The receipt of an operation that failed and changed nothing. Faults are not logged. -/
def refused {α : Type} (e : Engine) (operation : String) (failure : Failure)
    (submitted : Option (List LedgerOp)) (before : List LogLine) : Receipt α where
  result := .error failure
  engine := e
  submitted := submitted
  journal := match failure with
    | .rejected cause => before ++ [.about .debug operation ("rejected: " ++ cause.message)]
    | .faulted _ => before

/-- Carries out a plan: coins, then records, then the event. -/
def carryOut (e : Engine) (operation : String) (plan : Plan) : Receipt Response :=
  let batch := dropZeros plan.moves
  match e.ledger.apply batch with
  -- Records and events wait for the ledger, so a refusal leaves all of them alone.
  | .error error =>
    e.refused operation (.rejected (.ledger error)) (some batch)
      [.about .debug "commit" (plan.event.name ++ " rolled back: " ++ error.message)]
  | .ok ledger =>
    { result := .ok plan.response
      engine := { e with ledger, store := e.store.update plan.update }.record plan.event
      submitted := some batch
      journal := [plan.event.line, .about .info operation plan.notice] }

end Engine

end Stablecoin
