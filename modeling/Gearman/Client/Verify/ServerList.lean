import Gearman.Client.Verify.Ketama
import Mathlib.Data.List.Perm.Basic

/-!
# Rings of different server lists

What a change of the server list does to the picks, for any MD5 under which no
two servers of a list share a point. With one server more, the next point on the
way round is the same one or a point of the new server, so ids move only onto it
(`pick_moves_with_its_server`). With the servers in another order, the ring is
the same up to the indices, and so is every stage of a pick
(`pick_independent_of_order`).
-/

namespace Gearman.Client

namespace Ring

open Clockwise

/-- No two servers of the list share a point. -/
def PointsDistinct (md5 : Md5) (list : List String) : Prop :=
  list.Pairwise fun a b => ∀ point ∈ serverPoints md5 a, point ∉ serverPoints md5 b

instance (md5 : Md5) (list : List String) : Decidable (PointsDistinct md5 list) :=
  -- through the points of the server, not through all of `UInt32`
  letI : DecidableRel fun a b : String =>
      ∀ point ∈ serverPoints md5 a, point ∉ serverPoints md5 b :=
    fun _ _ => List.decidableBAll _ _
  List.instDecidablePairwise list

variable {md5 : Md5} {list : List String} {ring : Ring}

/-- A point tells its server. -/
theorem PointsDistinct.index_eq (h : PointsDistinct md5 list) {i j : Nat} {a b : String}
    {point : UInt32} (hi : list[i]? = some a) (hj : list[j]? = some b)
    (ha : point ∈ serverPoints md5 a) (hb : point ∈ serverPoints md5 b) : i = j := by
  obtain ⟨hi', rfl⟩ := List.getElem?_eq_some_iff.mp hi
  obtain ⟨hj', rfl⟩ := List.getElem?_eq_some_iff.mp hj
  have hpairs := List.pairwise_iff_getElem.mp h
  rcases Nat.lt_trichotomy i j with hlt | heq | hgt
  · exact absurd hb (hpairs i j hi' hj' hlt point ha)
  · exact heq
  · exact absurd ha (hpairs j i hj' hi' hgt point hb)

theorem Built.point_eq (h : ring.Built md5 list) (hdistinct : PointsDistinct md5 list)
    {p q : UInt32 × Nat} (hp : p ∈ ring.points) (hq : q ∈ ring.points) (heq : p.1 = q.1) :
    p = q := by
  obtain ⟨a, ha, hpa⟩ := h.mem_points.mp hp
  obtain ⟨b, hb, hqb⟩ := h.mem_points.mp hq
  exact Prod.ext heq (hdistinct.index_eq ha hb hpa (heq ▸ hqb))

/-! ## With all servers up -/

/-- With all servers up the pick is the primary pick. -/
theorem select_allUp (md5 : Md5) (ring : Ring) (unique : Bytes) :
    ring.select md5 unique (fun _ => true) = ring.primary md5 unique := by
  rw [select_eq]
  rcases ring.primary md5 unique with _ | candidate
  · rfl
  · rw [Option.bind_some, failOver, chain, if_neg List.not_mem_nil]
    rfl

/-- The place of a point on the circle. -/
def place (p : UInt32 × Nat) : Nat := p.1.toNat

/-- The primary pick owns the next point on the way round from the hash. -/
theorem primary_isNext {unique : Bytes} {server : Nat}
    (h : ring.primary md5 unique = some server) :
    ∃ p, p.2 = server ∧ IsNext place (md5U32 md5 unique).toNat ring.points p := by
  obtain ⟨p, hp, rfl⟩ := Option.map_eq_some_iff.mp h
  exact ⟨p, rfl, isNext_search (ring.sorted.imp UInt32.le_iff_toNat_le.mp) hp⟩

/-- And whoever owns the next point is the primary pick. -/
theorem Built.primary_eq (h : ring.Built md5 list) (hdistinct : PointsDistinct md5 list)
    {unique : Bytes} {p : UInt32 × Nat}
    (hp : IsNext place (md5U32 md5 unique).toNat ring.points p) :
    ring.primary md5 unique = some p.2 := by
  obtain ⟨server, hprimary⟩ :=
    exists_primary md5 unique (List.mem_map_of_mem (f := Prod.snd) hp.mem)
  obtain ⟨q, rfl, hq⟩ := primary_isNext hprimary
  rw [hprimary, h.point_eq hdistinct hq.mem hp.mem (UInt32.toNat_inj.mp (hq.key_eq hp))]

/-! ## One server less -/

/-- The index that the `i`-th server of a list without its `k`-th has in the whole list. -/
def skip (k i : Nat) : Nat := if i < k then i else i + 1

theorem getElem?_skip (list : List String) (k i : Nat) :
    list[skip k i]? = (list.eraseIdx k)[i]? := by
  rw [List.getElem?_eraseIdx, skip]
  split <;> rfl

theorem exists_skip {k i : Nat} (h : i ≠ k) : ∃ j, i = skip k j := by
  unfold skip
  rcases Nat.lt_or_gt_of_ne h with hlt | hgt
  · exact ⟨i, (if_pos hlt).symm⟩
  · refine ⟨i - 1, ?_⟩
    rw [if_neg (by omega)]
    omega

theorem PointsDistinct.eraseIdx (h : PointsDistinct md5 list) (k : Nat) :
    PointsDistinct md5 (list.eraseIdx k) :=
  List.Pairwise.sublist (List.eraseIdx_sublist list k) h

/-- The ring of the shorter list is the part of the ring that is not of the server
removed. -/
theorem mem_points_skip {ring' : Ring} {k : Nat} (h : ring.Built md5 list)
    (h' : ring'.Built md5 (list.eraseIdx k)) {point : UInt32} {i : Nat} :
    (point, i) ∈ ring'.points ↔ (point, skip k i) ∈ ring.points := by
  rw [h.mem_points, h'.mem_points, getElem?_skip]

theorem primary_eraseIdx {ring' : Ring} {k : Nat} (hdistinct : PointsDistinct md5 list)
    (h : ring.Built md5 list) (h' : ring'.Built md5 (list.eraseIdx k)) (unique : Bytes)
    (hk : ring.primary md5 unique ≠ some k) :
    ring.primary md5 unique = (ring'.primary md5 unique).map (skip k) := by
  rcases hprimary : ring.primary md5 unique with _ | server
  · rcases hprimary' : ring'.primary md5 unique with _ | server'
    · rfl
    · -- a server of the shorter list is one of the longer
      obtain ⟨p, rfl, hp⟩ := primary_isNext hprimary'
      have hmem := (mem_points_skip h h').mp hp.mem
      have hserver : skip k p.2 ∈ ring.servers := List.mem_map_of_mem (f := Prod.snd) hmem
      obtain ⟨server, hsome⟩ := exists_primary md5 unique hserver
      cases hsome.symm.trans hprimary
  · obtain ⟨⟨point, _⟩, rfl, hp⟩ := primary_isNext hprimary
    rw [hprimary] at hk
    obtain ⟨j, rfl⟩ := exists_skip fun heq => hk (congrArg some heq)
    -- the next point is on the smaller ring, so it is the next one there
    have hmem := (mem_points_skip h h').mpr hp.mem
    have hsub : ring'.points.map (fun q => (q.1, skip k q.2)) ⊆ ring.points := by
      intro q hq
      obtain ⟨q', hq', rfl⟩ := List.mem_map.mp hq
      exact (mem_points_skip h h').mp hq'
    have hnext := (isNext_map (fun _ _ => rfl) hmem).mp
      (hp.of_subset hsub (List.mem_map_of_mem (f := fun q => (q.1, skip k q.2)) hmem))
    rw [h'.primary_eq (hdistinct.eraseIdx k) hnext]
    rfl

/-- **A new server only takes ids.** With all servers up, a server appended to the
list changes the pick of an id only to itself, and a server removed changes the
pick of those ids only that it was the pick of. -/
theorem pick_moves_with_its_server (md5 : Md5) (unique : Bytes) :
    (∀ (list : List String) (added : String) (ring ring' : Ring),
      PointsDistinct md5 (list ++ [added]) → ring.Built md5 list →
      ring'.Built md5 (list ++ [added]) →
      ring'.select md5 unique (fun _ => true) = ring.select md5 unique (fun _ => true) ∨
        ring'.select md5 unique (fun _ => true) = some list.length) ∧
    ∀ (list : List String) (k : Nat) (ring ring' : Ring),
      PointsDistinct md5 list → ring.Built md5 list → ring'.Built md5 (list.eraseIdx k) →
      ring.select md5 unique (fun _ => true) ≠ some k →
      ring.select md5 unique (fun _ => true) =
        (ring'.select md5 unique (fun _ => true)).map (skip k) := by
  refine ⟨fun list added ring ring' hdistinct h h' => ?_,
    fun list k ring ring' hdistinct h h' => ?_⟩
  · rw [select_allUp, select_allUp]
    by_cases hown : ring'.primary md5 unique = some list.length
    · exact .inr hown
    · left
      have herase : (list ++ [added]).eraseIdx list.length = list := by
        rw [List.eraseIdx_append_of_length_le (Nat.le_refl _), Nat.sub_self]
        exact List.append_nil list
      rw [primary_eraseIdx hdistinct h' (herase.symm ▸ h) unique hown]
      -- the servers of the list come before the new one
      rcases hprimary : ring.primary md5 unique with _ | server
      · rfl
      · have hlt := h.mem_servers.mp (mem_servers_of_primary hprimary)
        rw [Option.map_some, skip, if_pos hlt]
  · rw [select_allUp, select_allUp]
    exact primary_eraseIdx hdistinct h h' unique

theorem pick_moves_with_its_server_appended (unique : Bytes) :
    (new firstLetter ["a", "b"]).select firstLetter unique (fun _ => true) =
        (new firstLetter ["a"]).select firstLetter unique (fun _ => true) ∨
      (new firstLetter ["a", "b"]).select firstLetter unique (fun _ => true) = some 1 :=
  (pick_moves_with_its_server firstLetter unique).1 ["a"] "b" (new firstLetter ["a"])
    (new firstLetter ["a", "b"]) (by decide +kernel) (built_new firstLetter ["a"])
    (built_new firstLetter ["a", "b"])

/-! ## Another order -/

/-- The indices of `ring` changed by `σ`. -/
def Relabelled (σ : Nat → Nat) (ring ring' : Ring) : Prop :=
  ring'.points = ring.points.map fun p => (p.1, σ p.2)

section relabelled

variable {σ : Nat → Nat} (hσ : Function.Injective σ) {ring' : Ring}
  (h : Relabelled σ ring ring') {isHealthy isHealthy' : Nat → Bool}
  (hhealth : ∀ s ∈ ring.servers, isHealthy' (σ s) = isHealthy s)

include h

theorem Relabelled.length_points : ring'.points.length = ring.points.length := by
  rw [h, List.length_map]

theorem Relabelled.servers : ring'.servers = ring.servers.map σ := by
  rw [Ring.servers, Ring.servers, h, List.map_map, List.map_map]
  rfl

theorem Relabelled.walk (start : Nat) : ring'.walk start = (ring.walk start).map σ := by
  rw [walk_eq_rotate, walk_eq_rotate, h.servers, List.map_rotate]

theorem Relabelled.start (unique : Bytes) : ring'.start md5 unique = ring.start md5 unique := by
  rw [Ring.start, Ring.start, h.length_points, h, List.findIdx_map]
  rfl

theorem Relabelled.primary (unique : Bytes) :
    ring'.primary md5 unique = (ring.primary md5 unique).map σ := by
  rw [Ring.primary, Ring.primary, h.start, serverAt_eq, serverAt_eq, h.servers, List.getElem?_map]

include hσ in
theorem Relabelled.nextAfter (failed : Nat) :
    ring'.nextAfter (σ failed) = (ring.nextAfter failed).map σ := by
  have hbeq : ∀ s, (σ s == σ failed) = (s == failed) := by
    intro s
    rw [Bool.eq_iff_iff, beq_iff_eq, beq_iff_eq]
    exact hσ.eq_iff
  have hne : (fun s => s != σ failed) ∘ σ = fun s => s != failed :=
    funext fun s => congrArg not (hbeq s)
  have hfirst : (ring'.points.findIdx? fun p => p.2 == σ failed) =
      ring.points.findIdx? fun p => p.2 == failed := by
    rw [h, List.findIdx?_map]
    exact congrArg (ring.points.findIdx? ·) (funext fun p => hbeq p.2)
  rw [Ring.nextAfter, Ring.nextAfter, hfirst, h.walk, List.find?_map, hne]

include hhealth in
theorem Relabelled.sweep (unique : Bytes) :
    ring'.sweep md5 unique isHealthy' = (ring.sweep md5 unique isHealthy).map σ := by
  have hcongr : (ring.walk (ring.start md5 unique)).find? (isHealthy' ∘ σ) =
      (ring.walk (ring.start md5 unique)).find? isHealthy :=
    List.find?_congr fun s hs => hhealth s (mem_walk_iff.mp hs)
  rw [Ring.sweep, Ring.sweep, h.start, h.walk, List.find?_map, hcongr]

include hσ hhealth in
/-- The chain takes the same steps. -/
theorem Relabelled.chain (n : Nat) {candidate : Nat} (hcandidate : candidate ∈ ring.servers)
    (tried : List Nat) :
    ring'.chain isHealthy' n (σ candidate) (tried.map σ) =
      (ring.chain isHealthy n candidate tried).map σ := by
  induction n generalizing candidate tried with
  | zero => rfl
  | succ n ih =>
    unfold Ring.chain
    rw [hhealth candidate hcandidate, h.nextAfter hσ]
    have hmem := List.mem_map_of_injective hσ (a := candidate) (l := tried)
    by_cases htried : candidate ∈ tried
    · rw [if_pos (hmem.mpr htried), if_pos htried]
      rfl
    · rw [if_neg (mt hmem.mp htried), if_neg htried]
      by_cases hup : isHealthy candidate = true
      · rw [if_pos hup, if_pos hup]
        rfl
      · rw [if_neg hup, if_neg hup]
        rcases hnext : ring.nextAfter candidate with _ | next
        · rfl
        · have hrest := ih (mem_servers_of_nextAfter hnext) (tried ++ [candidate])
          rwa [List.map_append] at hrest

include hσ hhealth in
theorem Relabelled.failOver {candidate : Nat} (hcandidate : candidate ∈ ring.servers) :
    ring'.failOver isHealthy' (σ candidate) = (ring.failOver isHealthy candidate).map σ := by
  rw [Ring.failOver, Ring.failOver, h.length_points]
  exact h.chain hσ hhealth _ hcandidate []

include hσ hhealth in
theorem Relabelled.select (unique : Bytes) :
    ring'.select md5 unique isHealthy' = (ring.select md5 unique isHealthy).map σ := by
  rw [select_eq, select_eq, h.primary, h.sweep hhealth]
  rcases hprimary : ring.primary md5 unique with _ | candidate
  · rfl
  · rw [Option.map_some, Option.bind_some, Option.bind_some,
      h.failOver hσ hhealth (mem_servers_of_primary hprimary)]
    rcases ring.failOver isHealthy candidate with _ | server <;> rfl

end relabelled

/-- Where the server at an index of `list` stands in `list'`. -/
def moved (list list' : List String) (i : Nat) : Nat :=
  match list[i]? with
  | some addr => list'.idxOf addr
  | none => i

section permuted

variable {list' : List String} (hperm : list.Perm list') (hdistinct : PointsDistinct md5 list)

include hdistinct in
theorem PointsDistinct.nodup : list.Nodup := by
  refine hdistinct.imp fun {a b} hab heq => ?_
  obtain ⟨point, hpoint⟩ := List.exists_mem_of_length_pos
    (l := serverPoints md5 a) (by rw [length_serverPoints]; omega)
  exact hab point hpoint (heq ▸ hpoint)

include hperm hdistinct in
theorem PointsDistinct.perm : PointsDistinct md5 list' := by
  refine (hperm.pairwise_iff ?_).mp hdistinct
  exact fun hab point hb ha => hab point ha hb

theorem moved_eq {i : Nat} {addr : String} (hi : list[i]? = some addr) :
    moved list list' i = list'.idxOf addr := by
  rw [moved, hi]

include hperm in
/-- The same server. -/
theorem getElem?_moved {i : Nat} {addr : String} (hi : list[i]? = some addr) :
    list'[moved list list' i]? = some addr := by
  rw [moved_eq hi, List.getElem?_idxOf (hperm.mem_iff.mp (List.mem_of_getElem? hi))]

include hperm in
theorem moved_injective (hnodup : list.Nodup) : Function.Injective (moved list list') := by
  have hlt : ∀ {i addr}, list[i]? = some addr → moved list list' i < list.length := by
    intro i addr hi
    rw [hperm.length_eq]
    exact (List.getElem?_eq_some_iff.mp (getElem?_moved hperm hi)).1
  intro i j hij
  rcases hi : list[i]? with _ | a <;> rcases hj : list[j]? with _ | b
  · rwa [moved, moved, hi, hj] at hij
  · have hge := List.getElem?_eq_none_iff.mp hi
    have hj' := hlt hj
    rw [← hij, moved, hi] at hj'
    exact absurd hge (Nat.not_le.mpr hj')
  · have hge := List.getElem?_eq_none_iff.mp hj
    have hi' := hlt hi
    rw [hij, moved, hj] at hi'
    exact absurd hge (Nat.not_le.mpr hi')
  · have ha := getElem?_moved hperm hi
    rw [hij, getElem?_moved hperm hj] at ha
    cases ha
    exact (List.getElem?_inj (List.getElem?_eq_some_iff.mp hi).1 hnodup).mp (hi.trans hj.symm)

/-- The points of a list without duplicates, with servers by their address. -/
theorem unsortedPoints_eq {list : List String} (hnodup : list.Nodup) :
    unsortedPoints md5 list =
      list.flatMap fun addr =>
        (serverPoints md5 addr).map fun point => (point, list.idxOf addr) := by
  have hzip : list.zipIdx = list.map fun addr => (addr, list.idxOf addr) := by
    apply List.ext_getElem
    · rw [List.length_zipIdx, List.length_map]
    · intro i hi _
      rw [List.length_zipIdx] at hi
      rw [List.getElem_zipIdx, List.getElem_map, hnodup.idxOf_getElem i hi, Nat.zero_add]
  rw [unsortedPoints, hzip, List.flatMap_map]

include hperm hdistinct in
/-- The ring of the permuted list is the ring with the indices of the permuted list. -/
theorem Built.relabelled {ring' : Ring} (h : ring.Built md5 list) (h' : ring'.Built md5 list') :
    Relabelled (moved list list') ring ring' := by
  have hunsorted : (unsortedPoints md5 list').Perm
      ((unsortedPoints md5 list).map fun p => (p.1, moved list list' p.2)) := by
    rw [unsortedPoints_eq (hdistinct.perm hperm).nodup, unsortedPoints_eq hdistinct.nodup,
      List.map_flatMap]
    refine hperm.symm.flatMap fun addr hmem => List.Perm.of_eq ?_
    rw [List.map_map]
    refine List.map_congr_left fun point _ => ?_
    have hmem := hperm.mem_iff.mpr hmem
    exact Prod.ext rfl (moved_eq (List.getElem?_idxOf hmem)).symm
  have hring : ring'.points.Perm (ring.points.map fun p => (p.1, moved list list' p.2)) :=
    (h'.trans hunsorted).trans (h.symm.map _)
  refine hring.eq_of_pairwise (fun p q hp hq hpq hqp => ?_) ring'.sorted ?_
  · exact h'.point_eq (hdistinct.perm hperm) hp (hring.mem_iff.mpr hq)
      (UInt32.le_antisymm hpq hqp)
  · rw [List.pairwise_map]
    exact ring.sorted

end permuted

/-- **Routing does not depend on the order of the list.** With every server as
healthy as in the other list, the primary pick, each step of the fail-over chain
and what it comes to, the sweep and the whole pick are the same server. -/
theorem pick_independent_of_order (md5 : Md5) {list list' : List String} (hperm : list.Perm list')
    (hdistinct : PointsDistinct md5 list) {ring ring' : Ring} (h : ring.Built md5 list)
    (h' : ring'.Built md5 list') {isHealthy isHealthy' : Nat → Bool}
    (hhealth : ∀ (i j : Nat) (addr : String), list[i]? = some addr → list'[j]? = some addr →
      isHealthy i = isHealthy' j) (unique : Bytes) :
    (ring.primary md5 unique).bind (list[·]?) = (ring'.primary md5 unique).bind (list'[·]?) ∧
    (∀ (i j : Nat) (addr : String), list[i]? = some addr → list'[j]? = some addr →
      (ring.nextAfter i).bind (list[·]?) = (ring'.nextAfter j).bind (list'[·]?) ∧
        (ring.failOver isHealthy i).bind (list[·]?) =
          (ring'.failOver isHealthy' j).bind (list'[·]?)) ∧
    (ring.sweep md5 unique isHealthy).bind (list[·]?) =
      (ring'.sweep md5 unique isHealthy').bind (list'[·]?) ∧
    (ring.select md5 unique isHealthy).bind (list[·]?) =
      (ring'.select md5 unique isHealthy').bind (list'[·]?) := by
  have hring := h.relabelled hperm hdistinct h'
  have hσ := moved_injective hperm hdistinct.nodup
  have hat : ∀ s ∈ ring.servers, ∃ addr, list[s]? = some addr := fun s hs =>
    ⟨_, List.getElem?_eq_getElem (h.mem_servers.mp hs)⟩
  have hhealth' : ∀ s ∈ ring.servers, isHealthy' (moved list list' s) = isHealthy s := by
    intro s hs
    obtain ⟨addr, hs⟩ := hat s hs
    exact (hhealth _ _ addr hs (getElem?_moved hperm hs)).symm
  -- a pick among the servers of the ring, and the pick with its index moved
  have hsame : ∀ pick : Option Nat, (∀ s, pick = some s → s ∈ ring.servers) →
      pick.bind (list[·]?) = (pick.map (moved list list')).bind (list'[·]?) := by
    intro pick hpick
    rcases pick with _ | s
    · rfl
    · obtain ⟨addr, hs⟩ := hat s (hpick s rfl)
      exact hs.trans (getElem?_moved hperm hs).symm
  refine ⟨?_, fun i j addr hi hj => ?_, ?_, ?_⟩
  · rw [hring.primary]
    exact hsame _ fun s => mem_servers_of_primary
  · have hi' : i ∈ ring.servers := h.mem_servers.mpr (List.getElem?_eq_some_iff.mp hi).1
    obtain rfl : j = moved list list' i :=
      ((List.getElem?_inj (List.getElem?_eq_some_iff.mp hj).1 (hdistinct.perm hperm).nodup).mp
        (hj.trans (getElem?_moved hperm hi).symm))
    rw [hring.nextAfter hσ, hring.failOver hσ hhealth' hi']
    refine ⟨hsame _ fun s => mem_servers_of_nextAfter, hsame _ fun s hs => ?_⟩
    obtain ⟨rounds, -, hloop⟩ := h.failOver_ends isHealthy (h.mem_servers.mp hi')
    rw [hs] at hloop
    exact hloop.healthy.2 hi'
  · rw [hring.sweep hhealth']
    exact hsame _ fun s hs => mem_walk_iff.mp (List.mem_of_find?_eq_some hs)
  · rw [hring.select hσ hhealth']
    exact hsame _ fun s hs => h.mem_servers.mpr (h.select_some hs).1

theorem pick_independent_of_order_swapped :
    ((new firstLetter ["a", "b"]).select firstLetter [98] (fun _ => true)).bind (["a", "b"][·]?) =
      ((new firstLetter ["b", "a"]).select firstLetter [98] (fun _ => true)).bind
        (["b", "a"][·]?) :=
  (pick_independent_of_order firstLetter (.swap _ _ _ : List.Perm ["a", "b"] ["b", "a"])
    (by decide +kernel) (built_new _ _) (built_new _ _) (fun _ _ _ _ _ => rfl) [98]).2.2.2

end Ring

end Gearman.Client
