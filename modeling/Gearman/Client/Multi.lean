import Gearman.Client.Ketama

/-!
# The server pool

How a client picks the server of a submission. Whether a server is healthy is
read from its actor when it is asked.
-/

namespace Gearman.Client

/-- `ServerSelection`. -/
inductive ServerSelection
  | roundRobin
  | byUnique
  deriving DecidableEq, Repr

structure ServerPool where
  /-- How many servers there are. -/
  servers : Nat
  /-- The atomic counter of `next_healthy`. -/
  cursor : UInt64
  ring : Option Ring

namespace ServerPool

/-- `ServerPool::next_healthy`. -/
def nextHealthy (pool : ServerPool) (isHealthy : Nat → Bool) : Option Nat × ServerPool :=
  let len := pool.servers
  if len = 0 then (none, pool)
  else
    let start := pool.cursor.toNat % len
    (((List.range len).map fun offset => (start + offset) % len).find? isHealthy,
      { pool with cursor := pool.cursor + 1 })

/-- `ServerPool::select_for_submit`. -/
def selectForSubmit (md5 : Md5) (pool : ServerPool) (isHealthy : Nat → Bool)
    (unique : Option String) : Option Nat × ServerPool :=
  match pool.ring, unique with
  | some ring, some unique =>
    if unique ≠ "" then (ring.select md5 (asBytes unique) isHealthy, pool)
    else pool.nextHealthy isHealthy
  | _, _ => pool.nextHealthy isHealthy

/-- A unique id goes where the ring says. -/
theorem selectForSubmit_unique (md5 : Md5) {pool : ServerPool} {ring : Ring} {unique : String}
    (hring : pool.ring = some ring) (hunique : unique ≠ "") (isHealthy : Nat → Bool) :
    (pool.selectForSubmit md5 isHealthy (some unique)).1 =
      ring.select md5 (asBytes unique) isHealthy := by
  simp [selectForSubmit, hring, hunique]

end ServerPool

end Gearman.Client
