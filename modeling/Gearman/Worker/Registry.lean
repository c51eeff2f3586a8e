import Gearman.Protocol.Packet

/-!
# Registered functions

The functions a worker handles, by name, and the packets that advertise them.
Handlers are opaque: a type parameter `H` stands for `Arc<dyn JobHandler>`.
-/

namespace Gearman.Worker

open Protocol

/-- `std::time::Duration`. -/
structure Duration where
  secs : UInt64
  nanos : UInt32
  nanos_lt : nanos < 1000000000
  deriving DecidableEq, Repr

structure RegisteredHandler (H : Type) where
  handler : H
  timeout : Option Duration

/-- `HashMap<String, RegisteredHandler>`, its entries in some order. -/
structure Registry (H : Type) where
  entries : List (String × RegisteredHandler H)
  nodup : (entries.map Prod.fst).Nodup

namespace Registry

variable {H : Type}

def empty : Registry H := ⟨[], List.nodup_nil⟩

/-- `HashMap::get`. -/
def get (r : Registry H) (function : String) : Option (RegisteredHandler H) :=
  r.entries.lookup function

/-- `HashMap::remove`. -/
def remove (r : Registry H) (function : String) : Registry H where
  entries := r.entries.filter fun e => e.1 ≠ function
  nodup := (List.filter_sublist.map Prod.fst).nodup r.nodup

/-- `HashMap::insert`. -/
def insert (r : Registry H) (function : String) (reg : RegisteredHandler H) : Registry H where
  entries := (function, reg) :: (r.remove function).entries
  nodup := by
    rw [List.map_cons, List.nodup_cons]
    refine ⟨?_, (r.remove function).nodup⟩
    simp [remove]

/-- `WorkerBuilder::register`. -/
def register (r : Registry H) (function : String) (handler : H) : Registry H :=
  r.insert function ⟨handler, none⟩

/-- `WorkerBuilder::register_with_timeout`. -/
def registerWithTimeout (r : Registry H) (function : String) (handler : H) (timeout : Duration) :
    Registry H :=
  r.insert function ⟨handler, some timeout⟩

end Registry

/-- The packet `register_functions` sends for one entry. -/
def registerPacket {H : Type} (name : String) (reg : RegisteredHandler H) : Packet :=
  match reg.timeout with
  | some timeout => .request .canDoTimeout [asBytes name, asBytes (decimal timeout.secs.toNat)]
  | none => .request .canDo [asBytes name]

end Gearman.Worker
