import Gearman.Client.Multi
import Gearman.Lib.Machine
import Mathlib.Logic.Function.Basic

/-!
# Picks side by side

`next_healthy` as the submissions of several tasks run it at once: each takes its turn
off the shared counter in one atomic step, and then asks the servers one after the
other, while other tasks do the same and servers come and go. A turn has a number,
which no task sees: how many were taken before it.
-/

namespace Gearman.Client

/-- A `next_healthy` after its `fetch_add`. -/
structure Scan where
  turn : Nat
  start : Nat
  /-- How many servers it has found down. -/
  offset : Nat

/-- A server pool and the tasks that pick from it; `w` is the width of `usize`. -/
structure SharedPool (w : Nat) where
  cursor : BitVec w
  isHealthy : Nat → Bool
  scans : Nat → Option Scan
  turns : Nat
  /-- What the `next_healthy` of a turn returned, once it has. -/
  picks : Nat → Option (Option Nat)

inductive PickAct
  | fetchAdd (task : Nat)
  /-- A task asks the next server of its scan, or finds that there is none left. -/
  | look (task : Nat)
  | setHealthy (server : Nat) (up : Bool)

namespace SharedPool

variable {w : Nat}

def start (cursor : BitVec w) (isHealthy : Nat → Bool) : SharedPool w where
  cursor := cursor
  isHealthy := isHealthy
  scans _ := none
  turns := 0
  picks _ := none

def finish (s : SharedPool w) (task turn : Nat) (pick : Option Nat) : SharedPool w :=
  { s with
    scans := Function.update s.scans task none
    picks := Function.update s.picks turn (some pick) }

/-- One step of a task or a server, in a pool of `len` servers. -/
def step (len : Nat) (s : SharedPool w) : PickAct → Option (SharedPool w)
  | .fetchAdd task =>
    -- without servers `next_healthy` returns before it
    if len = 0 ∨ (s.scans task).isSome then none
    else
      let scan : Scan := ⟨s.turns, s.cursor.toNat % len, 0⟩
      some
        { s with
          cursor := s.cursor + 1
          scans := Function.update s.scans task (some scan)
          turns := s.turns + 1 }
  | .look task =>
    (s.scans task).map fun scan =>
      if scan.offset < len then
        let idx := (scan.start + scan.offset) % len
        if s.isHealthy idx then s.finish task scan.turn (some idx)
        else
          let scan := { scan with offset := scan.offset + 1 }
          { s with scans := Function.update s.scans task (some scan) }
      else s.finish task scan.turn none
  | .setHealthy server up => some { s with isHealthy := Function.update s.isHealthy server up }

/-! ## A task alone -/

theorem run_looks {len task : Nat} {scan : Scan} (left : Nat) {s : SharedPool w}
    (hscan : s.scans task = some scan) (hleft : len - scan.offset = left) :
    ∃ looks s', Machine.run (step len) s (List.replicate looks (.look task)) = some s' ∧
      s'.cursor = s.cursor ∧
      s'.picks scan.turn = some (((List.range' scan.offset left).map fun offset =>
        (scan.start + offset) % len).find? s.isHealthy) := by
  induction left generalizing s scan with
  | zero =>
    refine ⟨1, s.finish task scan.turn none, ?_, rfl, ?_⟩
    · have hend : ¬scan.offset < len := by omega
      simp [Machine.run, step, hscan, hend]
    · simp [finish]
  | succ left ih =>
    have hlt : scan.offset < len := by omega
    rw [List.range'_succ, List.map_cons]
    cases hup : s.isHealthy ((scan.start + scan.offset) % len) with
    | true =>
      refine ⟨1, s.finish task scan.turn (some ((scan.start + scan.offset) % len)), ?_, rfl, ?_⟩
      · simp [Machine.run, step, hscan, hlt, hup]
      · simp [finish, hup]
    | false =>
      let scan' : Scan := { scan with offset := scan.offset + 1 }
      let next : SharedPool w := { s with scans := Function.update s.scans task (some scan') }
      have hnext : step len s (.look task) = some next := by
        simp [step, hscan, hlt, hup, next, scan']
      have hscan' : next.scans task = some scan' := Function.update_self ..
      obtain ⟨looks, s', hrun, hcursor, hpick⟩ := ih hscan' (by dsimp only [scan']; omega)
      refine ⟨looks + 1, s', ?_, hcursor, ?_⟩
      · rw [List.replicate_succ, Machine.run_cons, hnext, Option.bind_some, hrun]
      · rw [hpick, List.find?_cons_of_neg (by rw [hup]; exact Bool.false_ne_true)]

theorem selectForSubmit_unrouted (md5 : Md5) (pool : ServerPool) {unique : Option String}
    (h : pool.ring = none ∨ unique.getD "" = "") (isHealthy : Nat → Bool) :
    pool.selectForSubmit md5 isHealthy unique = pool.nextHealthy isHealthy := by
  unfold ServerPool.selectForSubmit
  split
  · next ring unique hring =>
    have hempty : unique = "" := by
      rcases h with h | h
      · rw [h] at hring
        cases hring
      · exact h
    rw [if_neg (not_not.mpr hempty)]
  · rfl

/-- A task whose steps no other comes between picks what a submission without a routed
unique id does. -/
theorem run_alone (md5 : Md5) {len task : Nat} (hlen : len ≠ 0) {s : SharedPool 64}
    (hidle : s.scans task = none) {ring : Option Ring} {unique : Option String}
    (hunrouted : ring = none ∨ unique.getD "" = "") :
    let submitted :=
      ServerPool.selectForSubmit md5 ⟨len, .ofBitVec s.cursor, ring⟩ s.isHealthy unique
    ∃ looks s',
      Machine.run (step len) s (.fetchAdd task :: List.replicate looks (.look task)) = some s' ∧
      s'.picks s.turns = some submitted.1 ∧ s'.cursor = submitted.2.cursor.toBitVec := by
  intro submitted
  have hsubmitted : submitted
      = ServerPool.nextHealthy ⟨len, .ofBitVec s.cursor, ring⟩ s.isHealthy :=
    selectForSubmit_unrouted md5 ⟨len, .ofBitVec s.cursor, ring⟩ hunrouted _
  rw [hsubmitted]
  let scan : Scan := ⟨s.turns, s.cursor.toNat % len, 0⟩
  let begun : SharedPool 64 :=
    { s with
      cursor := s.cursor + 1
      scans := Function.update s.scans task (some scan)
      turns := s.turns + 1 }
  have hbegun : step len s (.fetchAdd task) = some begun := by
    rw [step, if_neg]
    simp [hlen, hidle]
  have hscan : begun.scans task = some scan := Function.update_self ..
  obtain ⟨looks, s', hrun, hcursor, hpick⟩ := run_looks len hscan (Nat.sub_zero len)
  refine ⟨looks, s', ?_, ?_, ?_⟩
  · rw [Machine.run_cons, hbegun, Option.bind_some, hrun]
  · rw [hpick]
    simp [ServerPool.nextHealthy, hlen, scan, begun, List.range_eq_range']
  · rw [hcursor]
    simp [ServerPool.nextHealthy, hlen, begun]

end SharedPool

end Gearman.Client
