import Gearman.Lib.Delimited
import Gearman.Protocol.Header

/-!
# Ketama server selection

The consistent-hash ring a client routes unique ids on. MD5 is a parameter, and
so is the order in which the unstable sort of `Ring::new` leaves equal points.
-/

namespace Gearman.Client

open Protocol (fromBeBytes)

/-- `Md5::digest`: sixteen bytes for any input. -/
abbrev Md5 := Bytes → Vector UInt8 16

/-- `md5_u32`: the first four bytes of the digest, little-endian. -/
def md5U32 (md5 : Md5) (key : Bytes) : UInt32 :=
  fromBeBytes ((md5 key).toList.take 4).reverse

/-- `REPLICAS_PER_SERVER`. -/
def replicasPerServer : Nat := 4

/-- `DEFAULT_PORT`. -/
def defaultPort : UInt16 := 4730

/-- `split_host_port`. -/
def splitHostPort (addr : String) : String × UInt16 :=
  let (host, port) : String × Option String :=
    match addr.toList with
    | '[' :: rest =>
      match Delimited.cut ']' rest with
      | some (host, ':' :: port) => (.ofList host, some (.ofList port))
      | some (host, _) => (.ofList host, none)
      | none => (addr, none)
    | chars =>
      -- the last colon is the first from the back
      match Delimited.cut ':' chars.reverse with
      | some (port, host) =>
        if ':' ∉ host then (.ofList host.reverse, some (.ofList port.reverse)) else (addr, none)
      | none => (addr, none)
  (host, ((port.bind parseU16).filter (· ≠ 0)).getD defaultPort)

example : splitHostPort "10.0.0.1:04731" = ("10.0.0.1", 4731) := by decide +kernel
example : splitHostPort "[::1]:4731" = ("::1", 4731) := by decide +kernel

/-- The four points of a digest, little-endian. -/
def digestPoints (digest : Vector UInt8 16) : List UInt32 :=
  (List.range 4).map fun chunk =>
    fromBeBytes ((digest.toList.drop (4 * chunk)).take 4).reverse

/-- The points `Ring::new` places for one server, in the order it pushes them. -/
def serverPoints (md5 : Md5) (addr : String) : List UInt32 :=
  let (host, port) := splitHostPort addr
  (List.range replicasPerServer).flatMap fun replica =>
    digestPoints (md5 (asBytes s!"{host}:{decimal port.toNat}-{decimal replica}"))

/-- The points of a server list with the index of their server, before the sort. -/
def unsortedPoints (md5 : Md5) (servers : List String) : List (UInt32 × Nat) :=
  servers.zipIdx.flatMap fun (addr, index) =>
    (serverPoints md5 addr).map fun point => (point, index)

/-- Points with the index of their server, sorted by point. -/
structure Ring where
  points : List (UInt32 × Nat)
  sorted : points.Pairwise fun p q => p.1 ≤ q.1

namespace Ring

/-- `ring` is a result of `Ring::new` for the server list. -/
def Built (md5 : Md5) (servers : List String) (ring : Ring) : Prop :=
  ring.points.Perm (unsortedPoints md5 servers)

/-- The order of `sort_unstable_by_key`. -/
def pointLe (p q : UInt32 × Nat) : Bool := decide (p.1 ≤ q.1)

theorem pointLe_trans (p q r : UInt32 × Nat) (hpq : pointLe p q = true) (hqr : pointLe q r = true) :
    pointLe p r = true :=
  decide_eq_true (UInt32.le_trans (of_decide_eq_true hpq) (of_decide_eq_true hqr))

theorem pointLe_total (p q : UInt32 × Nat) : (pointLe p q || pointLe q p) = true := by
  unfold pointLe
  rcases UInt32.le_total p.1 q.1 with h | h
  · rw [decide_eq_true h, Bool.true_or]
  · rw [decide_eq_true h, Bool.or_true]

/-- `Ring::new`, with a stable sort. -/
def new (md5 : Md5) (servers : List String) : Ring where
  points := (unsortedPoints md5 servers).mergeSort pointLe
  sorted := (List.pairwise_mergeSort pointLe_trans pointLe_total _).imp of_decide_eq_true

theorem built_new (md5 : Md5) (servers : List String) : (new md5 servers).Built md5 servers :=
  List.mergeSort_perm _ _

/-- The server of the point at `i`. -/
def serverAt (ring : Ring) (i : Nat) : Option Nat := ring.points[i]?.map Prod.snd

/-- The servers of all points in ring order, from the point at `start` round. -/
def walk (ring : Ring) (start : Nat) : List Nat :=
  (List.range ring.points.length).filterMap fun offset =>
    ring.serverAt ((start + offset) % ring.points.length)

/-- `Ring::next_after`: the first server other than `failed`, from just past its
first point. -/
def nextAfter (ring : Ring) (failed : Nat) : Option Nat :=
  let after := (ring.points.findIdx? fun p => p.2 == failed).getD 0
  (ring.walk (after + 1)).find? fun server => server != failed

/-- The loop of `select`. No server is tried twice, so as many rounds as there
are points and one are enough. -/
def chain (ring : Ring) (isHealthy : Nat → Bool) : Nat → Nat → List Nat → Option Nat
  | 0, _, _ => none
  | n + 1, candidate, tried =>
    if candidate ∈ tried then none
    else if isHealthy candidate then some candidate
    else
      match ring.nextAfter candidate with
      | some next => ring.chain isHealthy n next (tried ++ [candidate])
      | none => none

/-- `Ring::select`. -/
def select (md5 : Md5) (ring : Ring) (unique : Bytes) (isHealthy : Nat → Bool) : Option Nat :=
  let len := ring.points.length
  let hash := md5U32 md5 unique
  -- `partition_point`, on points that are sorted
  let start := (ring.points.findIdx fun p => !decide (p.1 < hash)) % len
  -- only an empty ring has no point there
  (ring.serverAt start).bind fun candidate =>
    (ring.chain isHealthy (len + 1) candidate []).or ((ring.walk start).find? isHealthy)

variable {ring : Ring} {isHealthy isHealthy' : Nat → Bool}

/-! ## Enough rounds -/

theorem mem_walk {start server : Nat} (h : server ∈ ring.walk start) :
    server ∈ ring.points.map Prod.snd := by
  obtain ⟨offset, -, hat⟩ := List.mem_filterMap.mp h
  obtain ⟨p, hp, rfl⟩ := Option.map_eq_some_iff.mp hat
  exact List.mem_map_of_mem (List.mem_of_getElem? hp)

/-- Points of servers that have not been tried. -/
def untried (ring : Ring) (tried : List Nat) : Nat :=
  (ring.points.map Prod.snd).countP fun server => decide (server ∉ tried)

theorem untried_concat_lt {candidate : Nat} {tried : List Nat}
    (hmem : candidate ∈ ring.points.map Prod.snd) (hnew : candidate ∉ tried) :
    ring.untried (tried ++ [candidate]) < ring.untried tried := by
  unfold untried
  obtain ⟨before, after, hsplit⟩ := List.append_of_mem hmem
  have hle : ∀ servers : List Nat,
      servers.countP (fun server => decide (server ∉ tried ++ [candidate])) ≤
        servers.countP fun server => decide (server ∉ tried) := by
    intro servers
    refine List.countP_mono_left fun server _ h => ?_
    simp only [decide_eq_true_eq, List.mem_append, not_or] at h ⊢
    exact h.1
  have hbefore := hle before
  have hafter := hle after
  simp only [hsplit, List.countP_append, List.countP_cons, List.mem_append,
    List.mem_singleton, or_true, not_true_eq_false, decide_false, Bool.false_eq_true, if_false,
    hnew, not_false_eq_true, decide_true, if_true] at hbefore hafter ⊢
  omega

/-- More rounds than there are untried points change nothing. -/
theorem chain_enough (n m candidate : Nat) (tried : List Nat)
    (hmem : candidate ∈ ring.points.map Prod.snd) (hn : ring.untried tried < n)
    (hm : ring.untried tried < m) :
    ring.chain isHealthy n candidate tried = ring.chain isHealthy m candidate tried := by
  induction n generalizing m candidate tried with
  | zero => omega
  | succ n ih =>
    obtain ⟨m, rfl⟩ : ∃ k, m = k + 1 := ⟨m - 1, by omega⟩
    unfold chain
    by_cases htried : candidate ∈ tried
    · rw [if_pos htried, if_pos htried]
    · rw [if_neg htried, if_neg htried]
      have hlt := untried_concat_lt hmem htried
      cases hnext : ring.nextAfter candidate with
      | none => rfl
      | some next =>
        have hnextMem := mem_walk (List.mem_of_find?_eq_some hnext)
        dsimp only
        rw [ih m next (tried ++ [candidate]) hnextMem (by omega) (by omega)]

/-- The loop of `select` never stops for want of rounds. -/
theorem chain_rounds {candidate i : Nat} (h : ring.serverAt i = some candidate) (extra : Nat) :
    ring.chain isHealthy (ring.points.length + 1) candidate [] =
      ring.chain isHealthy (ring.points.length + 1 + extra) candidate [] := by
  have hle : ring.untried [] ≤ ring.points.length := by
    have hcount := List.countP_le_length (l := ring.points.map Prod.snd)
      (p := fun server => decide (server ∉ []))
    rwa [List.length_map] at hcount
  obtain ⟨p, hp, rfl⟩ := Option.map_eq_some_iff.mp h
  apply chain_enough
  · exact List.mem_map_of_mem (List.mem_of_getElem? hp)
  · omega
  · omega

/-! ## Fewer healthy servers -/

/-- Servers that go down leave the chain as it is up to the server it picks. -/
theorem chain_mono (hdown : ∀ i, isHealthy' i = true → isHealthy i = true) (n candidate : Nat)
    (tried : List Nat) :
    (ring.chain isHealthy n candidate tried = none →
      ring.chain isHealthy' n candidate tried = none) ∧
    ∀ j, ring.chain isHealthy n candidate tried = some j → isHealthy' j = true →
      ring.chain isHealthy' n candidate tried = some j := by
  induction n generalizing candidate tried with
  | zero => exact ⟨fun _ => rfl, fun j h => by cases h⟩
  | succ n ih =>
    unfold chain
    by_cases htried : candidate ∈ tried
    · rw [if_pos htried, if_pos htried]
      exact ⟨fun _ => rfl, fun j h => by cases h⟩
    · rw [if_neg htried, if_neg htried]
      by_cases hup : isHealthy candidate = true
      · rw [if_pos hup]
        refine ⟨(fun h => by cases h), fun j h hj => ?_⟩
        cases h
        rw [if_pos hj]
      · have hdown' : ¬isHealthy' candidate = true := fun h => hup (hdown candidate h)
        rw [if_neg hup, if_neg hdown']
        cases ring.nextAfter candidate with
        | none => exact ⟨fun _ => rfl, fun j h => by cases h⟩
        | some next => exact ih next (tried ++ [candidate])

/-- A healthy server that is picked is also picked with fewer servers healthy. -/
theorem select_mono (md5 : Md5) (hdown : ∀ i, isHealthy' i = true → isHealthy i = true)
    {unique : Bytes} {j : Nat} (h : ring.select md5 unique isHealthy = some j)
    (hj : isHealthy' j = true) : ring.select md5 unique isHealthy' = some j := by
  obtain ⟨candidate, hcandidate, h⟩ := Option.bind_eq_some_iff.mp h
  refine Option.bind_eq_some_iff.mpr ⟨candidate, hcandidate, ?_⟩
  obtain ⟨hnone, hsome⟩ := ring.chain_mono hdown (ring.points.length + 1) candidate []
  rcases Option.or_eq_some_iff.mp h with h | ⟨hchain, h⟩
  · exact Option.or_eq_some_iff.mpr (.inl (hsome j h hj))
  · refine Option.or_eq_some_iff.mpr (.inr ⟨hnone hchain, ?_⟩)
    obtain ⟨-, before, after, hwalk, hbefore⟩ := List.find?_eq_some_iff_append.mp h
    refine List.find?_eq_some_iff_append.mpr ⟨hj, before, after, hwalk, fun i hi => ?_⟩
    have hunhealthy := hbefore i hi
    rw [Bool.not_eq_true'] at hunhealthy ⊢
    exact Bool.eq_false_iff.mpr fun hup => by rw [hdown i hup] at hunhealthy; cases hunhealthy

end Ring

end Gearman.Client
