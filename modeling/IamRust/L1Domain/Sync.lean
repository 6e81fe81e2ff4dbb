import IamRust.L2Store.Records

/-!
# Sync state

mirrors crates/domain/src/sync.rs
-/
namespace IamRust

/-- mirrors crates/domain/src/sync.rs:32-36 -/
structure SyncState where
  cursor : Nat := 0
  seen : Finset Uuid := ∅

/-- The state is only written on success.
mirrors crates/domain/src/sync.rs:43-53 -/
def SyncState.apply (d : SyncState) (event : SyncEvent) : Except DomainError (Bool × SyncState) :=
  if event.id ∈ d.seen then .ok (false, d)
  else if event.cursor ≤ d.cursor then .error .staleCursor
  else .ok (true, { cursor := event.cursor, seen := insert event.id d.seen })

/-- The state after the call, failed or not. -/
def SyncState.next (d : SyncState) (event : SyncEvent) : SyncState :=
  match d.apply event with
  | .ok r => r.2
  | .error _ => d

end IamRust
