import Gearman.Client.RoundRobin
import Gearman.Lib.WrappingCounter

/-!
# Fair turns

While all servers are up, the pick of a turn is the server that the counter stood at,
whatever other tasks do between. So `len` turns in a row pick each of the `len` servers
once, unless the counter wraps among them and the number of servers does not divide
the value it wraps at. Then one server is picked twice and another not at all.
-/

namespace Gearman.Client

namespace SharedPool

variable {w len : Nat}

/-- All servers are up before the step. -/
def AllHealthy (len : Nat) (s : SharedPool w) (_ : PickAct) : Prop :=
  ∀ server < len, s.isHealthy server = true

/-- The server the counter stands at in a turn, if it stood at `first` before all. -/
def server (len : Nat) (first : BitVec w) (turn : Nat) : Nat :=
  (first + BitVec.ofNat w turn).toNat % len

/-- A pick that has been begun is at the server of its turn. -/
structure Scan.InTurn (len : Nat) (first : BitVec w) (scan : Scan) : Prop where
  pos : 0 < len
  start : scan.start = server len first scan.turn
  offset : scan.offset = 0

/-- So are all picks that are begun or done. -/
structure InTurn (len : Nat) (first : BitVec w) (s : SharedPool w) : Prop where
  cursor : s.cursor = first + BitVec.ofNat w s.turns
  scans : ∀ task, ∀ scan ∈ s.scans task, Scan.InTurn len first scan
  picks : ∀ turn, ∀ pick ∈ s.picks turn, pick = some (server len first turn)

variable {first : BitVec w}

theorem inTurn_start (isHealthy : Nat → Bool) : InTurn len first (start first isHealthy) where
  cursor := (BitVec.add_zero first).symm
  scans _ _ h := by cases h
  picks _ _ h := by cases h

/-- A scan begins at the server of its turn. -/
theorem inTurn_fetchAdd {s s' : SharedPool w} {task : Nat} (h : InTurn len first s)
    (hstep : step len s (.fetchAdd task) = some s') : InTurn len first s' := by
  rw [step] at hstep
  split at hstep
  · cases hstep
  · next hfree =>
    obtain rfl := Option.some.inj hstep
    refine ⟨?_, fun task' scan hscan => ?_, h.picks⟩
    · dsimp only
      rw [h.cursor, BitVec.add_assoc, BitVec.ofNat_add]
      rfl
    · dsimp only at hscan
      by_cases htask : task' = task
      · subst htask
        rw [Function.update_self] at hscan
        obtain rfl := Option.some.inj hscan
        refine ⟨Nat.pos_of_ne_zero fun hlen => hfree (.inl hlen), ?_, rfl⟩
        dsimp only
        rw [h.cursor, server]
      · rw [Function.update_of_ne htask] at hscan
        exact h.scans task' scan hscan

/-- The first server a scan asks is up. -/
theorem inTurn_look {s s' : SharedPool w} {task : Nat} (h : InTurn len first s)
    (hhealthy : ∀ server < len, s.isHealthy server = true)
    (hstep : step len s (.look task) = some s') : InTurn len first s' := by
  obtain ⟨scan, hscan, hnext⟩ := Option.map_eq_some_iff.mp hstep
  obtain ⟨hpos, hstart, hoffset⟩ := h.scans task scan hscan
  have hplace : (scan.start + scan.offset) % len = server len first scan.turn := by
    rw [hoffset, Nat.add_zero, hstart, server, Nat.mod_mod]
  have hup : s.isHealthy (server len first scan.turn) = true :=
    hhealthy _ (Nat.mod_lt _ hpos)
  dsimp only at hnext
  rw [hplace, hup, if_pos (hoffset ▸ hpos), if_pos rfl] at hnext
  subst hnext
  refine ⟨h.cursor, fun task' scan' hscan' => ?_, fun turn pick hpick => ?_⟩
  · dsimp only [finish] at hscan'
    by_cases htask : task' = task
    · subst htask
      rw [Function.update_self] at hscan'
      cases hscan'
    · rw [Function.update_of_ne htask] at hscan'
      exact h.scans task' scan' hscan'
  · dsimp only [finish] at hpick
    by_cases hturn : turn = scan.turn
    · subst hturn
      rw [Function.update_self] at hpick
      exact (Option.some.inj hpick).symm
    · rw [Function.update_of_ne hturn] at hpick
      exact h.picks turn pick hpick

theorem inTurn_step {s : SharedPool w} {act : PickAct} {s' : SharedPool w}
    (h : InTurn len first s) (hhealthy : AllHealthy len s act) (hstep : step len s act = some s') :
    InTurn len first s' := by
  cases act with
  | fetchAdd task => exact inTurn_fetchAdd h hstep
  | look task => exact inTurn_look h hhealthy hstep
  | setHealthy server up =>
    obtain rfl := Option.some.inj hstep
    exact ⟨h.cursor, h.scans, h.picks⟩

/-- The servers of turns in a row are the places of a wrapping counter. -/
theorem server_add (first : BitVec w) (turn i : Nat) :
    server len first (turn + i)
      = WrappingCounter.place (2 ^ w) len (first + BitVec.ofNat w turn).toNat i := by
  rw [server, WrappingCounter.place, BitVec.ofNat_add, ← BitVec.add_assoc, BitVec.toNat_add,
    BitVec.toNat_ofNat, Nat.add_mod_mod]

/-- **A fair round.** In a run with all servers up, whichever tasks take their steps in
between, the picks of `len` turns in a row are the `len` servers, each once, if and only
if the counter does not wrap among them or the number of servers divides the number of
its values. -/
theorem round_fair_iff {isHealthy : Nat → Bool} {acts : List PickAct} {s : SharedPool w}
    {turn : Nat} (hrun : Machine.run (step len) (start first isHealthy) acts = some s)
    (hhealthy : Machine.Meets (step len) (AllHealthy len) (start first isHealthy) acts)
    (hdone : ∀ i < len, (s.picks (turn + i)).isSome = true) :
    ((List.range len).map fun i => (s.picks (turn + i)).join).Perm ((List.range len).map some) ↔
      (first + BitVec.ofNat w turn).toNat + len ≤ 2 ^ w ∨ len ∣ 2 ^ w := by
  have hturn : InTurn len first s :=
    Machine.invariant_of_meets (fun _ _ _ => inTurn_step) (inTurn_start isHealthy) hhealthy hrun
  have hpicks : ((List.range len).map fun i => (s.picks (turn + i)).join)
      = ((List.range len).map
          (WrappingCounter.place (2 ^ w) len (first + BitVec.ofNat w turn).toNat)).map some := by
    rw [List.map_map]
    refine List.map_congr_left fun i hi => ?_
    obtain ⟨pick, hpick⟩ := Option.isSome_iff_exists.mp (hdone i (List.mem_range.mp hi))
    rw [hpick, hturn.picks _ pick hpick, server_add]
    rfl
  rw [hpicks, List.map_perm_map_iff (Option.some_injective Nat),
    WrappingCounter.perm_range_iff (BitVec.isLt _)]

/-- Two tasks: the second to take its turn is the first to get its server. -/
def overtaken : List PickAct := [.fetchAdd 0, .fetchAdd 1, .look 1, .look 0]

theorem meets_overtaken (first : BitVec w) :
    Machine.Meets (step 2) (AllHealthy 2) (start first fun _ => true) overtaken :=
  .cons (fun _ _ => rfl) rfl <| .cons (fun _ _ => rfl) rfl <| .cons (fun _ _ => rfl) rfl <|
    .cons (fun _ _ => rfl) rfl trivial

theorem round_fair_overtaken :
    ∃ s, Machine.run (step 2) (start (BitVec.allOnes 64) fun _ => true) overtaken = some s ∧
      (((List.range 2).map fun i => (s.picks (0 + i)).join).Perm ((List.range 2).map some) ↔
        (BitVec.allOnes 64 + BitVec.ofNat 64 0).toNat + 2 ≤ 2 ^ 64 ∨ 2 ∣ 2 ^ 64) :=
  ⟨_, rfl, round_fair_iff rfl (meets_overtaken _) (by decide)⟩

/-- Three servers, and the counter at `usize::MAX`: the server picked last before it
wraps is picked first after it. -/
theorem round_unfair :
    ∃ acts s, Machine.run (step 3) (start (BitVec.allOnes 64) fun _ => true) acts = some s ∧
      Machine.Meets (step 3) (AllHealthy 3) (start (BitVec.allOnes 64) fun _ => true) acts ∧
      (∀ i < 3, (s.picks (0 + i)).isSome = true) ∧
      ((List.range 3).map fun i => (s.picks (0 + i)).join) = [some 0, some 0, some 1] ∧
      ¬((List.range 3).map fun i => (s.picks (0 + i)).join).Perm ((List.range 3).map some) :=
  ⟨[.fetchAdd 0, .look 0, .fetchAdd 0, .look 0, .fetchAdd 0, .look 0], _, rfl,
    .cons (fun _ _ => rfl) rfl <| .cons (fun _ _ => rfl) rfl <| .cons (fun _ _ => rfl) rfl <|
      .cons (fun _ _ => rfl) rfl <| .cons (fun _ _ => rfl) rfl <|
      .cons (fun _ _ => rfl) rfl trivial,
    by decide, by decide, by decide⟩

end SharedPool

end Gearman.Client
