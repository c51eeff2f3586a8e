import Gearman.Worker.Verify.GrabLoop

/-!
# Which assignments are dispatched

`run_grab_loop` reads packets at two points: after a `GRAB_JOB*`, where an
assignment is dispatched, and after a `PRE_SLEEP`, where it is dropped with a
warning. Which point it is at depends on the packets read so far alone.
-/

namespace Gearman.Worker

open Protocol
open GrabLoop (assignment)

/-! ## Packet sequences -/

/-- Whether the worker sleeps after reading these packets: a `NO_JOB` read awake
puts it to sleep, and any packet wakes it up. -/
def asleepAfter (asleep : Bool) (read : List Packet) : Bool :=
  read.foldl (fun asleep pkt => !asleep && pkt.ptype = .noJob) asleep

/-- The assignments among the packets that are read awake. -/
def awakeAssigns : Bool → List Packet → List Packet
  | _, [] => []
  | asleep, pkt :: read =>
    (if !asleep && isAssign pkt.ptype then [pkt] else []) ++
      awakeAssigns (!asleep && pkt.ptype = .noJob) read

/-- No assignment is read asleep. -/
def NoneAsleep (asleep : Bool) (read : List Packet) : Prop :=
  ∀ before pkt after, read = before ++ pkt :: after → isAssign pkt.ptype = true →
    asleepAfter asleep before = false

theorem asleepAfter_concat (asleep : Bool) (read : List Packet) (pkt : Packet) :
    asleepAfter asleep (read ++ [pkt]) = (!asleepAfter asleep read && pkt.ptype = .noJob) := by
  rw [asleepAfter, List.foldl_append]
  rfl

theorem awakeAssigns_concat (asleep : Bool) (read : List Packet) (pkt : Packet) :
    awakeAssigns asleep (read ++ [pkt]) =
      awakeAssigns asleep read ++
        if !asleepAfter asleep read && isAssign pkt.ptype then [pkt] else [] := by
  induction read generalizing asleep with
  | nil => simp [awakeAssigns, asleepAfter]
  | cons p read ih =>
    rw [List.cons_append, awakeAssigns, ih, awakeAssigns, List.append_assoc]
    rfl

theorem awakeAssigns_sublist (asleep : Bool) (read : List Packet) :
    (awakeAssigns asleep read).Sublist (read.filter fun pkt => isAssign pkt.ptype) := by
  induction read generalizing asleep with
  | nil => exact List.Sublist.refl _
  | cons pkt read ih =>
    rw [awakeAssigns, List.filter_cons]
    cases hassign : isAssign pkt.ptype with
    | false =>
      simp only [Bool.and_false, Bool.false_eq_true, if_false, List.nil_append]
      exact ih _
    | true =>
      cases asleep with
      | false => exact (ih _).cons_cons pkt
      | true => exact (ih _).cons pkt

theorem noneAsleep_cons (asleep : Bool) (pkt : Packet) (read : List Packet) :
    NoneAsleep asleep (pkt :: read) ↔
      (isAssign pkt.ptype = true → asleep = false) ∧
        NoneAsleep (!asleep && pkt.ptype = .noJob) read := by
  constructor
  · intro h
    refine ⟨h [] pkt read rfl, fun before p after hread => ?_⟩
    exact h (pkt :: before) p after (by rw [hread, List.cons_append])
  · intro ⟨hhead, htail⟩ before p after hread
    cases before with
    | nil =>
      obtain ⟨rfl, -⟩ := List.cons.inj hread
      exact hhead
    | cons q before =>
      obtain ⟨rfl, htail'⟩ := List.cons.inj hread
      exact htail before p after htail'

/-- All assignments are read awake exactly if none is read asleep. -/
theorem awakeAssigns_eq_filter (asleep : Bool) (read : List Packet) :
    awakeAssigns asleep read = read.filter (fun pkt => isAssign pkt.ptype) ↔
      NoneAsleep asleep read := by
  induction read generalizing asleep with
  | nil =>
    refine ⟨fun _ before p after h => ?_, fun _ => rfl⟩
    cases before <;> cases h
  | cons pkt read ih =>
    rw [noneAsleep_cons, ← ih, awakeAssigns, List.filter_cons]
    cases hassign : isAssign pkt.ptype with
    | false => simp
    | true =>
      cases asleep with
      | false => simp
      | true =>
        -- the assignment is lost, and nothing later makes up for it
        have hshort := (awakeAssigns_sublist (!true && pkt.ptype = .noJob) read).length_le
        constructor
        · intro h
          have hlength := congrArg List.length h
          simp only [Bool.not_true, Bool.false_and, Bool.false_eq_true, if_false, if_true,
            List.nil_append, List.length_cons] at hlength hshort
          omega
        · intro h
          cases h.1 rfl

/-! ## Runs -/

/-- The grab loop with the packets it has read and those handed to `dispatch_job`. -/
structure GrabTrace (H : Type) where
  loop : GrabLoop H
  read : List Packet
  dispatched : List Packet

namespace GrabTrace

variable {H : Type} {mode : GrabMode}

def start (conn : Connection) : GrabTrace H := ⟨.start conn, [], []⟩

/-- The packet a step hands to `dispatch_job`. -/
def handed (i : GrabInput H) (l : GrabLoop H) : List Packet :=
  match i, l.pc with
  | .recv _, .dispatch pkt => [pkt]
  | _, _ => []

def step (mode : GrabMode) (t : GrabTrace H) (i : GrabInput H) : Option (GrabTrace H) :=
  (t.loop.step mode i).map fun l => ⟨l, t.read ++ i.packet.toList, t.dispatched ++ handed i l⟩

/-- Between two reads the loop is awake, except behind a `NO_JOB`. -/
def Attentive (pc : GrabPc H) (asleep : Bool) : Prop :=
  match pc with
  | .preSleep | .asleep => asleep = true
  | .done _ => True
  | _ => asleep = false

structure Inv (t : GrabTrace H) : Prop where
  attentive : Attentive t.loop.pc (asleepAfter false t.read)
  dispatched : t.dispatched = awakeAssigns false t.read

theorem attentive_sendOr {l : GrabLoop H} {pkt : Packet} {io : Io} {next : GrabPc H}
    {asleep : Bool} (h : Attentive next asleep) : Attentive (l.sendOr pkt io next).pc asleep := by
  rcases l.sendOr_cases pkt io next with ⟨-, hsend⟩ | ⟨b, hsend⟩ <;> rw [hsend]
  · exact h
  · trivial

theorem attentive_sendAnd {l : GrabLoop H} {pkt : Packet} {io : Io} {next : GrabPc H}
    {asleep : Bool} (h : Attentive next asleep) : Attentive (l.sendAnd pkt io next).pc asleep := h

/-- Where the packet behind a `GRAB_JOB*` leads. -/
theorem attentive_onAnswer (pkt : Packet) :
    Attentive (GrabLoop.onAnswer (H := H) pkt) (pkt.ptype = .noJob) := by
  unfold GrabLoop.onAnswer
  split
  · rename_i hassign
    refine decide_eq_false fun hno => ?_
    rw [hno] at hassign
    cases hassign
  · split
    · exact decide_eq_true ‹_›
    · exact decide_eq_false ‹_›

theorem handed_onAnswer (pkt : Packet) (l : GrabLoop H) :
    handed (H := H) (.recv (.ok (some pkt))) { l with pc := GrabLoop.onAnswer pkt } =
      if isAssign pkt.ptype then [pkt] else [] := by
  unfold GrabLoop.onAnswer
  split
  · rfl
  · split <;> rfl

theorem inv_step {t t' : GrabTrace H} {i : GrabInput H} (ht : t.Inv)
    (h : t.step mode i = some t') : t'.Inv := by
  obtain ⟨l, hstep, rfl⟩ := Option.map_eq_some_iff.mp h
  have hattentive := ht.attentive
  have quiet : ∀ l' : GrabLoop H, i.packet = none → handed i l' = [] →
      Attentive l'.pc (asleepAfter false t.read) →
      Inv ⟨l', t.read ++ i.packet.toList, t.dispatched ++ handed i l'⟩ := by
    intro l' hread hhanded hl'
    rw [hread, hhanded, Option.toList_none, List.append_nil, List.append_nil]
    exact ⟨hl', ht.dispatched⟩
  cases GrabLoop.steps_of_step hstep with
  | report _ => exact quiet _ rfl rfl hattentive
  | shutdown hpc =>
    rw [hpc] at hattentive
    refine quiet _ rfl rfl ?_
    dsimp only
    split
    · trivial
    · exact hattentive
  | withdraw hpc =>
    rw [hpc] at hattentive
    exact quiet _ rfl rfl (attentive_sendOr hattentive)
  | lagged _ => exact quiet _ rfl rfl hattentive
  | flushed hpc | unregistered hpc _ | registered hpc _ | returned hpc =>
    rw [hpc] at hattentive
    exact quiet _ rfl rfl hattentive
  | grab hpc =>
    rw [hpc] at hattentive
    exact quiet _ rfl rfl (attentive_sendOr hattentive)
  | @answer pkt hpc =>
    have hawake : asleepAfter false t.read = false := by rwa [hpc] at hattentive
    refine ⟨?_, ?_⟩
    · simp only [GrabInput.packet, Option.toList_some, asleepAfter_concat, hawake, Bool.not_false,
        Bool.true_and]
      exact attentive_onAnswer pkt
    · simp only [GrabInput.packet, Option.toList_some, awakeAssigns_concat, hawake,
        handed_onAnswer, ht.dispatched, Bool.not_false, Bool.true_and]
  | @lost pkt _ hlost =>
    refine quiet _ ?_ rfl trivial
    match pkt with
    | .ok (some p) => exact absurd rfl (hlost p)
    | .ok none | .error _ => rfl
  | respond hpc =>
    rw [hpc] at hattentive
    exact quiet _ rfl rfl (attentive_sendAnd hattentive)
  | preSleep hpc =>
    rw [hpc] at hattentive
    exact quiet _ rfl rfl (attentive_sendOr hattentive)
  | wake hpc =>
    have hasleep : asleepAfter false t.read = true := by rwa [hpc] at hattentive
    refine ⟨?_, ?_⟩
    · simp only [GrabInput.packet, Option.toList_some, asleepAfter_concat, hasleep]
      rfl
    · simp only [GrabInput.packet, Option.toList_some, awakeAssigns_concat, hasleep, handed,
        ht.dispatched]
      rfl
  | changed hpc => exact quiet _ rfl rfl trivial

theorem inv_start (conn : Connection) : (start (H := H) conn).Inv := ⟨rfl, rfl⟩

/-- **Which assignments are dispatched.** In every run all the assignments read
are handed to `dispatch_job`, in order, if and only if none of them was read
asleep, as the packet behind a `NO_JOB` that answered a grab. -/
theorem dispatched_iff_noneAsleep (mode : GrabMode) {conn : Connection} {is : List (GrabInput H)}
    {t : GrabTrace H} (h : Machine.run (step mode) (start conn) is = some t) :
    t.dispatched = t.read.filter (fun pkt => isAssign pkt.ptype) ↔ NoneAsleep false t.read := by
  have ht : t.Inv := Machine.invariant (fun _ _ _ ht hs => inv_step ht hs) (inv_start conn) h
  rw [ht.dispatched]
  exact awakeAssigns_eq_filter false t.read

/-- A worker that is assigned a job. -/
def assigned : List (GrabInput Unit) :=
  [.shutdown false, .unregistered .none .accepted, .sent .accepted, .recv (.ok (some assignment))]

theorem dispatched_iff_noneAsleep_assigned :
    ∃ t, Machine.run (step .uniq) (start .fromStream) assigned = some t ∧
      (t.dispatched = t.read.filter (fun pkt => isAssign pkt.ptype) ↔ NoneAsleep false t.read) ∧
      t.dispatched = [assignment] := by
  have hrun : Machine.run (step .uniq) (start .fromStream) assigned = some _ := rfl
  exact ⟨_, hrun, dispatched_iff_noneAsleep .uniq hrun, rfl⟩

/-- A worker that is assigned a job while it sleeps, for a grab that an `ERROR`
was taken to answer. -/
def assignedAsleep : List (GrabInput Unit) :=
  [.shutdown false, .unregistered .none .accepted, .sent .accepted,
    .recv (.ok (some (.response .error [asBytes "JOB_NOT_FOUND", []]))),
    .shutdown false, .unregistered .none .accepted, .sent .accepted,
    .recv (.ok (some (.response .noJob []))), .sent .accepted, .recv (.ok (some assignment))]

theorem assignment_dropped :
    ∃ t, Machine.run (step .uniq) (start .fromStream) assignedAsleep = some t ∧
      assignment ∈ t.read ∧ t.dispatched = [] :=
  ⟨_, rfl, by decide, rfl⟩

end GrabTrace

end Gearman.Worker
