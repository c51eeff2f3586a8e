import Gearman.Client.Multi
import Gearman.Lib.Clockwise
import Mathlib.Data.List.Find

/-!
# Routing

The pick of a ring in its three stages: the primary pick, the fail-over chain and
the sweep. The chain restarts at the first point of every server that is down, so
it may come round to a server it tried without having seen all of them. Its loop
ends all the same, each round with one more server tried, and the sweep reaches
every server, since each has points on the ring. `routing_complete` puts this
together for the whole of `select_for_submit`. A pick stands as long as servers
only go down and it stays up itself (`unique_keeps_server`).
-/

namespace Gearman.Client

namespace Ring

/-! ## The stages of a pick -/

/-- The index of the first point of a unique id. -/
def start (md5 : Md5) (ring : Ring) (unique : Bytes) : Nat :=
  (ring.points.findIdx fun p => !decide (p.1 < md5U32 md5 unique)) % ring.points.length

/-- The server a unique id goes to with all servers up. -/
def primary (md5 : Md5) (ring : Ring) (unique : Bytes) : Option Nat :=
  ring.serverAt (ring.start md5 unique)

/-- The first healthy server in ring order from the hash. -/
def sweep (md5 : Md5) (ring : Ring) (unique : Bytes) (isHealthy : Nat → Bool) : Option Nat :=
  (ring.walk (ring.start md5 unique)).find? isHealthy

/-- The fail-over chain from a server on. -/
def failOver (ring : Ring) (isHealthy : Nat → Bool) (candidate : Nat) : Option Nat :=
  ring.chain isHealthy (ring.points.length + 1) candidate []

theorem select_eq (md5 : Md5) (ring : Ring) (unique : Bytes) (isHealthy : Nat → Bool) :
    ring.select md5 unique isHealthy = (ring.primary md5 unique).bind fun candidate =>
      (ring.failOver isHealthy candidate).or (ring.sweep md5 unique isHealthy) := rfl

/-- The servers of the points, in ring order. -/
def servers (ring : Ring) : List Nat := ring.points.map Prod.snd

theorem serverAt_eq (ring : Ring) (i : Nat) : ring.serverAt i = ring.servers[i]? := by
  rw [serverAt, servers, List.getElem?_map]

/-- A walk is the ring turned. -/
theorem walk_eq_rotate (ring : Ring) (start : Nat) :
    ring.walk start = ring.servers.rotate start := by
  have hmap : (List.range ring.points.length).map
      (fun offset => ring.serverAt ((start + offset) % ring.points.length)) =
        (ring.servers.rotate start).map some := by
    apply List.ext_getElem
    · rw [List.length_map, List.length_map, List.length_rotate, List.length_range, servers,
        List.length_map]
    · intro i hi _
      have hi : i < ring.servers.length := by simpa [servers] using hi
      have hlength : ring.points.length = ring.servers.length := (List.length_map ..).symm
      rw [List.getElem_map, List.getElem_map, List.getElem_range, serverAt_eq, hlength,
        Nat.add_comm, ← List.getElem?_rotate hi]
      exact List.getElem?_eq_getElem _
  calc ring.walk start
      = ((List.range ring.points.length).map fun offset =>
          ring.serverAt ((start + offset) % ring.points.length)).filterMap id := by
        rw [List.filterMap_map]
        rfl
    _ = ring.servers.rotate start := by
        rw [hmap, List.filterMap_map]
        exact List.filterMap_some

/-! ## The points of a server list -/

@[simp] theorem length_serverPoints (md5 : Md5) (addr : String) :
    (serverPoints md5 addr).length = 16 := by
  simp [serverPoints, replicasPerServer, digestPoints]

theorem mem_unsortedPoints {md5 : Md5} {servers : List String} {p : UInt32 × Nat} :
    p ∈ unsortedPoints md5 servers ↔
      ∃ addr, servers[p.2]? = some addr ∧ p.1 ∈ serverPoints md5 addr := by
  simp only [unsortedPoints, List.mem_flatMap, List.mem_map, Prod.exists,
    List.mem_zipIdx_iff_getElem?]
  constructor
  · rintro ⟨addr, index, hat, point, hpoint, rfl⟩
    exact ⟨addr, hat, hpoint⟩
  · rintro ⟨addr, hat, hpoint⟩
    exact ⟨addr, p.2, hat, p.1, hpoint, rfl⟩

variable {md5 : Md5} {list : List String} {ring : Ring}

theorem Built.mem_points (h : ring.Built md5 list) {p : UInt32 × Nat} :
    p ∈ ring.points ↔ ∃ addr, list[p.2]? = some addr ∧ p.1 ∈ serverPoints md5 addr := by
  rw [h.mem_iff, mem_unsortedPoints]

/-- Every server of the list has points on the ring, and nobody else. -/
theorem Built.mem_servers (h : ring.Built md5 list) {server : Nat} :
    server ∈ ring.servers ↔ server < list.length := by
  simp only [servers, List.mem_map]
  constructor
  · rintro ⟨p, hp, rfl⟩
    obtain ⟨addr, hat, -⟩ := h.mem_points.mp hp
    exact (List.getElem?_eq_some_iff.mp hat).1
  · intro hlt
    obtain ⟨point, hpoint⟩ := List.exists_mem_of_length_pos
      (l := serverPoints md5 list[server]) (by rw [length_serverPoints]; omega)
    exact ⟨(point, server), h.mem_points.mpr ⟨_, List.getElem?_eq_getElem hlt, hpoint⟩, rfl⟩

/-! ## The loop of the chain -/

theorem mem_servers_of_serverAt {i server : Nat} (h : ring.serverAt i = some server) :
    server ∈ ring.servers :=
  List.mem_of_getElem? (ring.serverAt_eq i ▸ h)

theorem mem_servers_of_primary {unique : Bytes} {server : Nat}
    (h : ring.primary md5 unique = some server) : server ∈ ring.servers :=
  mem_servers_of_serverAt h

theorem mem_servers_of_nextAfter {failed server : Nat} (h : ring.nextAfter failed = some server) :
    server ∈ ring.servers :=
  mem_walk (List.mem_of_find?_eq_some h)

/-- The loop of `select`, from a candidate and the servers tried on, ends after a
number of rounds, with a server or without one. -/
inductive Loop (ring : Ring) (isHealthy : Nat → Bool) :
    Nat → List Nat → Nat → Option Nat → Prop
  | again {candidate : Nat} {tried : List Nat} (htried : candidate ∈ tried) :
      Loop ring isHealthy candidate tried 0 none
  | found {candidate : Nat} {tried : List Nat} (htried : candidate ∉ tried)
      (hup : isHealthy candidate = true) : Loop ring isHealthy candidate tried 1 (some candidate)
  | stuck {candidate : Nat} {tried : List Nat} (htried : candidate ∉ tried)
      (hdown : isHealthy candidate = false) (hnext : ring.nextAfter candidate = none) :
      Loop ring isHealthy candidate tried 1 none
  | next {candidate next rounds : Nat} {tried : List Nat} {result : Option Nat}
      (htried : candidate ∉ tried) (hdown : isHealthy candidate = false)
      (hnext : ring.nextAfter candidate = some next)
      (hrest : Loop ring isHealthy next (tried ++ [candidate]) rounds result) :
      Loop ring isHealthy candidate tried (rounds + 1) result

/-- Each round tries another of the `k` servers, so there are no more than `k`. -/
theorem loop_chain {isHealthy : Nat → Bool} {k : Nat} (hservers : ∀ s ∈ ring.servers, s < k)
    (n candidate : Nat) (tried : List Nat) (hcandidate : candidate < k) (hnodup : tried.Nodup)
    (htried : ∀ s ∈ tried, s < k) (hn : k < n + tried.length) :
    ∃ rounds, rounds + tried.length ≤ k ∧
      ring.Loop isHealthy candidate tried rounds (ring.chain isHealthy n candidate tried) := by
  have hbound : ∀ l : List Nat, l.Nodup → (∀ s ∈ l, s < k) → l.length ≤ k := by
    intro l hl hlt
    have hle := hl.length_le_of_subset fun s hs => List.mem_range.mpr (hlt s hs)
    rwa [List.length_range] at hle
  have hle := hbound tried hnodup htried
  induction n generalizing candidate tried with
  | zero => omega
  | succ n ih =>
    unfold chain
    by_cases hmem : candidate ∈ tried
    · rw [if_pos hmem]
      exact ⟨0, by omega, .again hmem⟩
    · rw [if_neg hmem]
      have hlt := hbound (candidate :: tried) (List.nodup_cons.mpr ⟨hmem, hnodup⟩)
        (List.forall_mem_cons.mpr ⟨hcandidate, htried⟩)
      rw [List.length_cons] at hlt
      by_cases hup : isHealthy candidate = true
      · rw [if_pos hup]
        exact ⟨1, by omega, .found hmem hup⟩
      · rw [if_neg hup]
        rw [Bool.not_eq_true] at hup
        rcases hnext : ring.nextAfter candidate with _ | next
        · exact ⟨1, by omega, .stuck hmem hup hnext⟩
        · obtain ⟨rounds, hrounds, hloop⟩ := ih next (tried ++ [candidate])
            (hservers next (mem_servers_of_nextAfter hnext))
            (List.nodup_append.mpr ⟨hnodup, List.nodup_singleton _, fun s hs t ht => by
              rw [List.mem_singleton.mp ht]
              exact fun heq => hmem (heq ▸ hs)⟩)
            (fun s hs => by
              rcases List.mem_append.mp hs with hs | hs
              · exact htried s hs
              · exact List.mem_singleton.mp hs ▸ hcandidate)
            (by rw [List.length_append, List.length_singleton]; omega)
            (by rw [List.length_append, List.length_singleton]; omega)
          rw [List.length_append, List.length_singleton] at hrounds
          exact ⟨rounds + 1, by omega, .next hmem hup hnext hloop⟩

theorem Loop.healthy {isHealthy : Nat → Bool} {candidate rounds server : Nat} {tried : List Nat}
    (h : ring.Loop isHealthy candidate tried rounds (some server)) :
    isHealthy server = true ∧ (candidate ∈ ring.servers → server ∈ ring.servers) := by
  generalize hresult : some server = result at h
  induction h with
  | again _ | stuck _ _ _ => cases hresult
  | found _ hup =>
    cases hresult
    exact ⟨hup, id⟩
  | next _ _ hnext _ ih =>
    obtain ⟨hup, hmem⟩ := ih hresult
    exact ⟨hup, fun _ => hmem (mem_servers_of_nextAfter hnext)⟩

/-- The loop ends within as many rounds as there are servers. -/
theorem Built.failOver_ends (h : ring.Built md5 list) (isHealthy : Nat → Bool) {candidate : Nat}
    (hcandidate : candidate < list.length) :
    ∃ rounds ≤ list.length,
      ring.Loop isHealthy candidate [] rounds (ring.failOver isHealthy candidate) := by
  have hpoints : list.length ≤ ring.servers.length := by
    have hsub : List.range list.length ⊆ ring.servers := fun s hs =>
      h.mem_servers.mpr (List.mem_range.mp hs)
    have hle := List.nodup_range.length_le_of_subset hsub
    rwa [List.length_range] at hle
  rw [servers, List.length_map] at hpoints
  exact loop_chain (fun s hs => h.mem_servers.mp hs) _ _ _ hcandidate List.nodup_nil
    (fun s hs => by cases hs) (by rw [List.length_nil]; omega)

/-! ## Every healthy server is reached -/

theorem mem_walk_iff {start server : Nat} : server ∈ ring.walk start ↔ server ∈ ring.servers := by
  rw [walk_eq_rotate, List.mem_rotate]

/-- The primary pick of a ring that has points. -/
theorem exists_primary (md5 : Md5) (unique : Bytes) {server : Nat} (h : server ∈ ring.servers) :
    ∃ candidate, ring.primary md5 unique = some candidate := by
  have hpos : 0 < ring.points.length := by
    have hlength := List.length_pos_of_mem h
    rwa [servers, List.length_map] at hlength
  refine ⟨_, (ring.serverAt_eq _).trans (List.getElem?_eq_getElem ?_)⟩
  rw [servers, List.length_map]
  exact Nat.mod_lt _ hpos

theorem Built.select_some (h : ring.Built md5 list) {unique : Bytes} {isHealthy : Nat → Bool}
    {server : Nat} (hselect : ring.select md5 unique isHealthy = some server) :
    server < list.length ∧ isHealthy server = true := by
  rw [select_eq] at hselect
  obtain ⟨candidate, hprimary, hselect⟩ := Option.bind_eq_some_iff.mp hselect
  have hcandidate := mem_servers_of_primary hprimary
  rcases Option.or_eq_some_iff.mp hselect with hchain | ⟨-, hsweep⟩
  · obtain ⟨rounds, -, hloop⟩ := h.failOver_ends isHealthy (h.mem_servers.mp hcandidate)
    rw [hchain] at hloop
    exact ⟨h.mem_servers.mp (hloop.healthy.2 hcandidate), hloop.healthy.1⟩
  · exact ⟨h.mem_servers.mp (mem_walk_iff.mp (List.mem_of_find?_eq_some hsweep)),
      List.find?_some hsweep⟩

theorem Built.select_none (h : ring.Built md5 list) {unique : Bytes} {isHealthy : Nat → Bool}
    (hselect : ring.select md5 unique isHealthy = none) {server : Nat}
    (hserver : server < list.length) : isHealthy server = false := by
  have hmem := h.mem_servers.mpr hserver
  obtain ⟨candidate, hprimary⟩ := exists_primary md5 unique hmem
  rw [select_eq, hprimary, Option.bind_some, Option.or_eq_none_iff] at hselect
  exact Bool.not_eq_true _ ▸ List.find?_eq_none.mp hselect.2 server (mem_walk_iff.mpr hmem)

/-! ## Which servers are asked -/

theorem chain_congr {isHealthy isHealthy' : Nat → Bool}
    (heq : ∀ s ∈ ring.servers, isHealthy s = isHealthy' s) (n : Nat) {candidate : Nat}
    (hcandidate : candidate ∈ ring.servers) (tried : List Nat) :
    ring.chain isHealthy n candidate tried = ring.chain isHealthy' n candidate tried := by
  induction n generalizing candidate tried with
  | zero => rfl
  | succ n ih =>
    unfold chain
    rw [heq candidate hcandidate]
    rcases hnext : ring.nextAfter candidate with _ | next
    · rfl
    · dsimp only
      rw [ih (mem_servers_of_nextAfter hnext)]

/-- Only the servers of the ring are asked whether they are healthy. -/
theorem select_congr (md5 : Md5) (unique : Bytes) {isHealthy isHealthy' : Nat → Bool}
    (heq : ∀ s ∈ ring.servers, isHealthy s = isHealthy' s) :
    ring.select md5 unique isHealthy = ring.select md5 unique isHealthy' := by
  rw [select_eq, select_eq]
  rcases hprimary : ring.primary md5 unique with _ | candidate
  · rfl
  · have hsweep : ring.sweep md5 unique isHealthy = ring.sweep md5 unique isHealthy' :=
      List.find?_congr fun s hs => heq s (mem_walk_iff.mp hs)
    rw [Option.bind_some, Option.bind_some, hsweep, failOver,
      chain_congr heq _ (mem_servers_of_primary hprimary), ← failOver]

/-- A server that goes down where it is not the pick does not move the pick. -/
theorem select_stays (md5 : Md5) {unique : Bytes} {isHealthy isHealthy' : Nat → Bool}
    (hdown : ∀ s ∈ ring.servers, isHealthy' s = true → isHealthy s = true) {server : Nat}
    (hselect : ring.select md5 unique isHealthy = some server)
    (hup : isHealthy' server = true) : ring.select md5 unique isHealthy' = some server := by
  -- a server that is not on the ring may as well be up
  have hcongr : ring.select md5 unique isHealthy =
      ring.select md5 unique fun s => isHealthy s || decide (s ∉ ring.servers) :=
    select_congr md5 unique fun s hs => by
      rw [decide_eq_false (not_not_intro hs), Bool.or_false]
  rw [hcongr] at hselect
  refine select_mono md5 (fun s hs => ?_) hselect hup
  by_cases hmem : s ∈ ring.servers
  · rw [hdown s hmem hs, Bool.true_or]
  · rw [decide_eq_true hmem, Bool.or_true]

end Ring

/-- A digest that tells keys by their first byte. -/
def firstLetter : Md5 := fun key => Vector.replicate 16 (key.headD 0)

namespace ServerPool

variable {md5 : Md5} {pool : ServerPool}

/-- The round-robin walk passes every server. -/
theorem nextHealthy_some {isHealthy : Nat → Bool} {server : Nat}
    (h : (pool.nextHealthy isHealthy).1 = some server) :
    server < pool.servers ∧ isHealthy server = true := by
  unfold nextHealthy at h
  dsimp only at h
  split at h
  · cases h
  · next hne =>
    obtain ⟨offset, -, rfl⟩ := List.mem_map.mp (List.mem_of_find?_eq_some h)
    exact ⟨Nat.mod_lt _ (Nat.pos_of_ne_zero hne), List.find?_some h⟩

theorem nextHealthy_none {isHealthy : Nat → Bool} (h : (pool.nextHealthy isHealthy).1 = none)
    {server : Nat} (hserver : server < pool.servers) : isHealthy server = false := by
  unfold nextHealthy at h
  dsimp only at h
  rw [if_neg (by omega)] at h
  have hstart := Nat.mod_lt pool.cursor.toNat (Nat.zero_lt_of_lt hserver)
  have hall := List.find?_eq_none.mp h
  apply Bool.not_eq_true _ ▸ hall server
  rw [List.mem_map]
  -- the server is so many places behind the cursor, or in front of it
  rcases Nat.lt_or_ge server (pool.cursor.toNat % pool.servers) with hlt | hge
  · refine ⟨server + pool.servers - pool.cursor.toNat % pool.servers,
      List.mem_range.mpr (by omega), ?_⟩
    rw [show pool.cursor.toNat % pool.servers +
      (server + pool.servers - pool.cursor.toNat % pool.servers) = server + pool.servers by omega,
      Nat.add_mod_right, Nat.mod_eq_of_lt hserver]
  · refine ⟨server - pool.cursor.toNat % pool.servers, List.mem_range.mpr (by omega), ?_⟩
    rw [show pool.cursor.toNat % pool.servers +
      (server - pool.cursor.toNat % pool.servers) = server by omega, Nat.mod_eq_of_lt hserver]

theorem nextHealthy_congr {isHealthy isHealthy' : Nat → Bool}
    (heq : ∀ s < pool.servers, isHealthy s = isHealthy' s) :
    (pool.nextHealthy isHealthy).1 = (pool.nextHealthy isHealthy').1 := by
  unfold nextHealthy
  dsimp only
  split
  · rfl
  · next hne =>
    refine List.find?_congr fun s hs => ?_
    obtain ⟨offset, -, rfl⟩ := List.mem_map.mp hs
    exact heq _ (Nat.mod_lt _ (Nat.pos_of_ne_zero hne))

/-- A submission is routed on the ring or round-robin. -/
theorem selectForSubmit_cases (md5 : Md5) (pool : ServerPool) (unique : Option String) :
    (∃ ring ∈ pool.ring, ∃ u, unique = some u ∧ u ≠ "" ∧ ∀ isHealthy,
      (pool.selectForSubmit md5 isHealthy unique).1 = ring.select md5 (asBytes u) isHealthy) ∨
    ∀ isHealthy,
      (pool.selectForSubmit md5 isHealthy unique).1 = (pool.nextHealthy isHealthy).1 := by
  rcases hring : pool.ring with _ | ring
  · exact .inr fun isHealthy => by simp only [selectForSubmit, hring]
  · rcases unique with _ | u
    · exact .inr fun isHealthy => by simp only [selectForSubmit, hring]
    · by_cases hu : u = ""
      · refine .inr fun isHealthy => ?_
        simp only [selectForSubmit, hring]
        rw [if_neg (not_not_intro hu)]
      · exact .inl ⟨ring, rfl, u, rfl, hu, fun isHealthy =>
          selectForSubmit_unique md5 hring hu isHealthy⟩

/-- **Routing is complete.** With any cursor, in both modes and for any unique id,
a submission goes to a healthy server of the list if there is one and nowhere if
there is none, only servers of the list are asked, and the loop of the fail-over
chain ends after at most one round for each server. -/
theorem routing_complete (md5 : Md5) {servers : List String} {pool : ServerPool}
    (hservers : pool.servers = servers.length) (hring : ∀ ring ∈ pool.ring, ring.Built md5 servers)
    (isHealthy : Nat → Bool) (unique : Option String) :
    ((∃ i < servers.length, isHealthy i = true) →
      ∃ i < servers.length, isHealthy i = true ∧
        (pool.selectForSubmit md5 isHealthy unique).1 = some i) ∧
    ((∀ i < servers.length, isHealthy i = false) →
      (pool.selectForSubmit md5 isHealthy unique).1 = none) ∧
    (∀ isHealthy', (∀ i < servers.length, isHealthy i = isHealthy' i) →
      (pool.selectForSubmit md5 isHealthy unique).1 =
        (pool.selectForSubmit md5 isHealthy' unique).1) ∧
    ∀ ring ∈ pool.ring, ∀ candidate < servers.length, ∃ rounds ≤ servers.length,
      ring.Loop isHealthy candidate [] rounds (ring.failOver isHealthy candidate) := by
  have hsome : ∀ i, (pool.selectForSubmit md5 isHealthy unique).1 = some i →
      i < servers.length ∧ isHealthy i = true := by
    intro i h
    rcases selectForSubmit_cases md5 pool unique with ⟨ring, hmem, u, -, -, heq⟩ | heq
    · exact (hring ring hmem).select_some (heq isHealthy ▸ h)
    · exact hservers ▸ nextHealthy_some (heq isHealthy ▸ h)
  have hnone : (pool.selectForSubmit md5 isHealthy unique).1 = none →
      ∀ i < servers.length, isHealthy i = false := by
    intro h i hi
    rcases selectForSubmit_cases md5 pool unique with ⟨ring, hmem, u, -, -, heq⟩ | heq
    · exact (hring ring hmem).select_none (heq isHealthy ▸ h) hi
    · exact nextHealthy_none (heq isHealthy ▸ h) (hservers ▸ hi)
  refine ⟨fun ⟨i, hi, hup⟩ => ?_, fun hdown => ?_, fun isHealthy' hsame => ?_,
    fun ring hmem candidate hcandidate => (hring ring hmem).failOver_ends isHealthy hcandidate⟩
  · rcases hselect : (pool.selectForSubmit md5 isHealthy unique).1 with _ | j
    · rw [hnone hselect i hi] at hup
      cases hup
    · exact ⟨j, (hsome j hselect).1, (hsome j hselect).2, rfl⟩
  · rcases hselect : (pool.selectForSubmit md5 isHealthy unique).1 with _ | j
    · rfl
    · have hup := (hsome j hselect).2
      rw [hdown j (hsome j hselect).1] at hup
      cases hup
  · rcases selectForSubmit_cases md5 pool unique with ⟨ring, hmem, u, -, -, heq⟩ | heq
    · rw [heq, heq]
      exact Ring.select_congr md5 _ fun s hs => hsame s ((hring ring hmem).mem_servers.mp hs)
    · rw [heq, heq]
      exact nextHealthy_congr fun s hs => hsame s (hservers ▸ hs)

/-- Three servers on a ring. -/
def threeServers : List String := ["a", "b:4731", "[::1]"]

def threePool : ServerPool := ⟨3, 7, some (.new firstLetter threeServers)⟩

theorem routing_complete_lastUp :
    (threePool.selectForSubmit firstLetter (fun i => i == 2) (some "job")).1 = some 2 := by
  have hservers : threePool.servers = threeServers.length := rfl
  have hring : ∀ ring ∈ threePool.ring, ring.Built firstLetter threeServers :=
    fun ring h => Option.some.inj h ▸ Ring.built_new _ _
  obtain ⟨i, -, hup, hselect⟩ :=
    (routing_complete firstLetter hservers hring (fun i => i == 2) (some "job")).1
      ⟨2, by decide, rfl⟩
  obtain rfl : i = 2 := beq_iff_eq.mp hup
  exact hselect

/-- **Failures elsewhere do not move a unique id.** As long as servers only go
down and the chosen one stays up, its submissions go there, whichever stage of
the pick chose it. -/
theorem unique_keeps_server (md5 : Md5) (ring : Ring) (unique : Bytes) :
    (∀ (isHealthy isHealthy' : Nat → Bool) (server : Nat),
      (∀ s ∈ ring.servers, isHealthy' s = true → isHealthy s = true) →
      ring.select md5 unique isHealthy = some server → isHealthy' server = true →
      ring.select md5 unique isHealthy' = some server) ∧
    ∀ (pool : Nat → ServerPool) (isHealthy : Nat → Nat → Bool) (u : String) (server : Nat),
      (∀ n, (pool n).ring = some ring) → asBytes u = unique → u ≠ "" →
      (∀ n, ∀ s ∈ ring.servers, isHealthy (n + 1) s = true → isHealthy n s = true) →
      ((pool 0).selectForSubmit md5 (isHealthy 0) (some u)).1 = some server →
      ∀ n, isHealthy n server = true →
        ((pool n).selectForSubmit md5 (isHealthy n) (some u)).1 = some server := by
  refine ⟨fun isHealthy isHealthy' server hdown => Ring.select_stays md5 hdown, ?_⟩
  rintro pool isHealthy u server hring rfl hu hdown hselect n hup
  have hdown' : ∀ s ∈ ring.servers, isHealthy n s = true → isHealthy 0 s = true := by
    intro s hs
    clear hup
    induction n with
    | zero => exact id
    | succ n ih => exact fun h => ih (hdown n s hs h)
  rw [selectForSubmit_unique md5 (hring 0) hu] at hselect
  rw [selectForSubmit_unique md5 (hring n) hu]
  exact Ring.select_stays md5 hdown' hselect hup

theorem unique_keeps_server_twoUp :
    Ring.select firstLetter ⟨[(1, 0), (2, 1)], by decide⟩ [] (fun s => s == 0) = some 0 :=
  (unique_keeps_server firstLetter ⟨[(1, 0), (2, 1)], by decide⟩ []).1
    (fun _ => true) (fun s => s == 0) 0 (fun _ _ _ => rfl) rfl rfl

end ServerPool

end Gearman.Client
