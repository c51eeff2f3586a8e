import Gearman.Client.Verify.Actor
import Gearman.Client.Verify.AtMostOnce
import Gearman.Lib.Backoff

/-!
# What a server actor's connections carry

Over all the connections of a server actor the commands go out in the order in
which they were queued, each connection first greeting its server if exceptions
were asked for. The `connected` flag tells exactly when commands are taken, and
the waits between attempts double from one failure in a row to the next.
-/

namespace Gearman.Client

open Protocol

/-- The connection the actor owns. -/
def Phase.conn : Phase → Option Connection
  | .negotiate conn | .negotiated conn | .ready conn | .entering conn | .looping conn _ => some conn
  | _ => none

/-- The phases between the set-up of a connection and the end of its `actor_loop`. -/
def Phase.serves : Phase → Bool
  | .entering _ | .looping _ _ | .ended _ => true
  | _ => false

/-- What a connection carries before any command. -/
def greeting (withExceptions : Bool) : List Packet := if withExceptions then [optionReq] else []

/-- A server actor with what its connections carried. -/
structure CarriedRun where
  actor : Actor
  /-- What went out on the connections given up, oldest first. -/
  closed : List (List Packet)
  /-- The commands queued so far. -/
  submitted : List ClientCommand
  /-- The waits since a connection was last set up. -/
  waits : Nat

namespace CarriedRun

def new : CarriedRun := ⟨.new, [], [], 0⟩

/-- What goes out on the connection the actor owns. -/
def current (a : Actor) : List (List Packet) := a.phase.conn.toList.map Connection.written

/-- The waits after a step from one phase to another. -/
def waited (waits : Nat) : Phase → Phase → Nat
  | .sleeping, .connecting => waits + 1
  | .entering _, .looping _ _ => 0
  | _, _ => waits

def after (r : CarriedRun) (i : ActorInput) (a : Actor) : CarriedRun where
  actor := a
  closed := r.closed ++ if a.phase.conn.isNone then current r.actor else []
  submitted := r.submitted ++ i.queued
  waits := waited r.waits r.actor.phase a.phase

def step (withExceptions : Bool) (r : CarriedRun) (i : ActorInput) : Option CarriedRun :=
  (r.actor.step withExceptions i).map fun next => r.after i next.1

/-- What went out on each connection, oldest first. -/
def connections (r : CarriedRun) : List (List Packet) := r.closed ++ current r.actor

/-- What went out after the greeting. -/
def commandsOn (withExceptions : Bool) (l : List Packet) : List Packet :=
  l.drop (greeting withExceptions).length

/-- How far the actor's connection is set up. -/
def Opened (withExceptions : Bool) : Phase → Prop
  | .negotiate conn => withExceptions = true ∧ conn.written = []
  | .negotiated conn => withExceptions = true ∧ conn.written = [optionReq]
  | .ready conn | .entering conn => conn.written = greeting withExceptions
  | .looping conn _ => greeting withExceptions <+: conn.written
  | _ => True

structure Inv (withExceptions : Bool) (r : CarriedRun) : Prop where
  opened : Opened withExceptions r.actor.phase
  greeted : ∀ l ∈ r.connections, l = [] ∨ greeting withExceptions <+: l
  ordered : (r.connections.flatMap (commandsOn withExceptions) ++
    r.actor.queue.map ClientCommand.packet).Sublist (r.submitted.map ClientCommand.packet)
  connected : r.actor.connected = r.actor.phase.serves
  backoff : r.actor.backoff = Backoff.delay 100 maxBackoff r.waits

variable {withExceptions : Bool} {r r' : CarriedRun} {i : ActorInput} {a : Actor}

theorem inv_new : new.Inv withExceptions where
  opened := trivial
  greeted l hl := by cases hl
  ordered := .slnil
  connected := rfl
  backoff := (Backoff.delay_zero (by decide)).symm

/-- A step that puts nothing on a connection, whether it gives one up or not. -/
theorem inv_silent (hr : r.Inv withExceptions) (hopened : Opened withExceptions a.phase)
    (hcurrent : a.phase.conn = none ∨ current a = current r.actor)
    (hordered : (r.connections.flatMap (commandsOn withExceptions) ++
      a.queue.map ClientCommand.packet).Sublist
        ((r.submitted ++ i.queued).map ClientCommand.packet))
    (hconnected : a.connected = a.phase.serves)
    (hbackoff : a.backoff = Backoff.delay 100 maxBackoff (r.after i a).waits) :
    (r.after i a).Inv withExceptions := by
  have hconnections : (r.after i a).connections = r.connections := by
    unfold connections after
    rcases hcurrent with hnone | hsame
    · simp [hnone, current]
    · dsimp only
      rw [hsame]
      cases hconn : a.phase.conn with
      | some conn => simp
      | none =>
        have hempty : current r.actor = [] := by
          rw [← hsame, current, hconn]
          rfl
        simp [hempty]
  refine ⟨hopened, ?_, ?_, hconnected, hbackoff⟩
  · rw [hconnections]
    exact hr.greeted
  · rw [hconnections]
    exact hordered

/-- A step that leaves queue, flag and waits alone. -/
theorem inv_quiet (hr : r.Inv withExceptions) (hopened : Opened withExceptions a.phase)
    (hcurrent : a.phase.conn = none ∨ current a = current r.actor)
    (hqueue : a.queue = r.actor.queue) (hi : i.queued = [])
    (hserves : a.phase.serves = r.actor.phase.serves)
    (hconnected : a.connected = r.actor.connected) (hbackoff : a.backoff = r.actor.backoff)
    (hwaits : (r.after i a).waits = r.waits) : (r.after i a).Inv withExceptions := by
  refine inv_silent hr hopened hcurrent ?_ ?_ ?_
  · rw [hi, List.append_nil, hqueue]
    exact hr.ordered
  · rw [hconnected, hserves]
    exact hr.connected
  · rw [hbackoff, hwaits]
    exact hr.backoff

/-- A step that puts a packet on the connection: a greeting, or the command
that was first in the queue. -/
theorem inv_write (l : List Packet) (pkt : Packet) (hr : r.Inv withExceptions)
    (hopened : Opened withExceptions a.phase) (hbefore : current r.actor = [l])
    (hafter : current a = [l ++ [pkt]]) (hgreeted : greeting withExceptions <+: l ++ [pkt])
    (hordered : commandsOn withExceptions (l ++ [pkt]) ++ a.queue.map ClientCommand.packet =
      commandsOn withExceptions l ++ r.actor.queue.map ClientCommand.packet)
    (hi : i.queued = []) (hserves : a.phase.serves = r.actor.phase.serves)
    (hconnected : a.connected = r.actor.connected) (hbackoff : a.backoff = r.actor.backoff)
    (hwaits : (r.after i a).waits = r.waits) : (r.after i a).Inv withExceptions := by
  have hsome : a.phase.conn.isNone = false := by
    cases hconn : a.phase.conn with
    | none =>
      rw [current, hconn] at hafter
      cases hafter
    | some conn => rfl
  have hconnections : (r.after i a).connections = r.closed ++ [l ++ [pkt]] := by
    simp only [connections, after, hsome, Bool.false_eq_true, if_false, List.append_nil, hafter]
  have hold : r.connections = r.closed ++ [l] := by
    rw [connections, hbefore]
  refine ⟨hopened, ?_, ?_, ?_, ?_⟩
  · rw [hconnections]
    intro k hk
    rcases List.mem_append.mp hk with hk | hk
    · exact hr.greeted k (List.mem_append_left _ hk)
    · rw [List.mem_singleton.mp hk]
      exact .inr hgreeted
  · have hqueued := hr.ordered
    rw [hold, List.flatMap_append, List.flatMap_singleton, List.append_assoc, ← hordered] at hqueued
    rw [hconnections, List.flatMap_append, List.flatMap_singleton, List.append_assoc]
    simpa only [after, hi, List.append_nil] using hqueued
  · exact hconnected.trans (hr.connected.trans hserves.symm)
  · rw [hwaits]
    exact hbackoff.trans hr.backoff

/-- A connection comes up. -/
theorem inv_open {conn : Connection} (hr : r.Inv withExceptions)
    (hopened : Opened withExceptions a.phase) (hbefore : r.actor.phase.conn = none)
    (hafter : a.phase.conn = some conn) (hconn : conn.written = [])
    (hqueue : a.queue = r.actor.queue) (hi : i.queued = [])
    (hserves : a.phase.serves = r.actor.phase.serves)
    (hconnected : a.connected = r.actor.connected) (hbackoff : a.backoff = r.actor.backoff)
    (hwaits : (r.after i a).waits = r.waits) : (r.after i a).Inv withExceptions := by
  have hconnections : (r.after i a).connections = r.connections ++ [[]] := by
    simp [connections, after, current, hbefore, hafter, hconn]
  refine ⟨hopened, ?_, ?_, ?_, ?_⟩
  · rw [hconnections]
    intro l hl
    rcases List.mem_append.mp hl with hl | hl
    · exact hr.greeted l hl
    · exact .inl (List.mem_singleton.mp hl)
  · have hqueued := hr.ordered
    rw [hconnections, List.flatMap_append, List.flatMap_singleton]
    simpa [after, commandsOn, hi, hqueue] using hqueued
  · exact hconnected.trans (hr.connected.trans hserves.symm)
  · rw [hwaits]
    exact hbackoff.trans hr.backoff

theorem greeting_prefix_concat {l : List Packet} (pkt : Packet)
    (h : greeting withExceptions <+: l) :
    greeting withExceptions <+: l ++ [pkt] ∧
      commandsOn withExceptions (l ++ [pkt]) = commandsOn withExceptions l ++ [pkt] := by
  refine ⟨h.trans (List.prefix_append l _), ?_⟩
  exact List.drop_append_of_le_length h.length_le

/-- What an iteration of `actor_loop` does to the connection. -/
theorem actorLoop_conn (conn : Connection) (s : LoopState) (j : LoopInput) :
    (∃ outcome es, actorLoop conn s j = (.break outcome, es)) ∨
      ∃ conn' s' es, actorLoop conn s j = (.next conn' s', es) ∧
        (conn'.written = conn.written ∧ j.taken = [] ∨
          ∃ cmd io, j = .command (some cmd) io ∧
            conn'.written = conn.written ++ [cmd.packet]) := by
  cases j with
  | tick closed => exact .inr ⟨_, _, _, rfl, .inl ⟨rfl, rfl⟩⟩
  | command cmd io =>
    cases cmd with
    | none => exact .inl ⟨_, _, rfl⟩
    | some cmd =>
      rcases conn.send_cases cmd.packet io with ⟨-, -, -, h⟩ | ⟨e, b, h, -⟩
      · exact .inr ⟨_, _, _, by simp only [actorLoop, h]; rfl, .inr ⟨cmd, io, rfl, rfl⟩⟩
      · exact .inl ⟨_, _, by simp only [actorLoop, h]; rfl⟩
  | recv pkt =>
    rcases pkt with e | _ | packet
    · exact .inl ⟨_, _, rfl⟩
    · exact .inl ⟨_, _, rfl⟩
    · exact .inr ⟨_, _, _, rfl, .inl ⟨rfl, rfl⟩⟩

/-- An iteration of `actor_loop`, on the queue it leaves. -/
theorem inv_iterate {conn : Connection} {s : LoopState} {j : LoopInput}
    {queue : List ClientCommand} (hr : r.Inv withExceptions)
    (hp : r.actor.phase = .looping conn s) (hqueue : r.actor.queue = j.taken ++ queue)
    (hi : i.queued = []) :
    (r.after i ({ r.actor with queue := queue }.iterate conn s j).1).Inv withExceptions := by
  have hopened : greeting withExceptions <+: conn.written := by
    have hopened := hr.opened
    rw [hp] at hopened
    exact hopened
  have hwaits : ∀ phase, (∃ outcome, phase = .ended outcome) ∨
      (∃ conn s, phase = .looping conn s) → waited r.waits r.actor.phase phase = r.waits := by
    rw [hp]
    rintro phase (⟨outcome, rfl⟩ | ⟨conn, s, rfl⟩) <;> rfl
  have hserves : r.actor.phase.serves = true := by
    rw [hp]
    rfl
  have hbefore : current r.actor = [conn.written] := by
    rw [current, hp]
    rfl
  unfold Actor.iterate
  rcases actorLoop_conn conn s j with ⟨outcome, es, h⟩ | ⟨conn', s', es, h, hconn'⟩ <;> rw [h]
  · refine inv_silent hr trivial (.inl rfl) ?_ ?_ ?_
    · have hordered := hr.ordered
      rw [hqueue] at hordered
      rw [hi, List.append_nil]
      refine .trans (List.Sublist.append_left ?_ _) hordered
      rw [List.map_append]
      exact List.sublist_append_right _ _
    · rw [hr.connected, hserves]
      rfl
    · exact hr.backoff.trans (by rw [after, hwaits _ (.inl ⟨outcome, rfl⟩)])
  · rcases hconn' with ⟨hwritten, htaken⟩ | ⟨cmd, io, rfl, hwritten⟩
    · refine inv_quiet hr ?_ (.inr ?_) ?_ hi hserves.symm rfl rfl
        (hwaits _ (.inr ⟨conn', s', rfl⟩))
      · change greeting withExceptions <+: conn'.written
        rw [hwritten]
        exact hopened
      · rw [hbefore, ← hwritten]
        rfl
      · rw [hqueue, htaken, List.nil_append]
    · obtain ⟨hgreeted, hcommands⟩ := greeting_prefix_concat cmd.packet hopened
      refine inv_write conn.written cmd.packet hr ?_ hbefore ?_ hgreeted ?_ hi
        hserves.symm rfl rfl (hwaits _ (.inr ⟨conn', s', rfl⟩))
      · change greeting withExceptions <+: conn'.written
        rw [hwritten]
        exact hgreeted
      · rw [← hwritten]
        rfl
      · rw [hcommands, hqueue, List.append_assoc]
        rfl

theorem waited_self (waits : Nat) (phase : Phase) : waited waits phase phase = waits := by
  cases phase <;> rfl

theorem inv_step (hr : r.Inv withExceptions) (h : r.step withExceptions i = some r') :
    r'.Inv withExceptions := by
  obtain ⟨⟨a, es⟩, hs, rfl⟩ := Option.map_eq_some_iff.mp h
  have hopened := hr.opened
  have hordered := hr.ordered
  dsimp only
  cases Actor.steps_of_step hs with
  | @queue cmd _ =>
    refine inv_silent hr hopened (.inr rfl) ?_ hr.connected ?_
    · simp only [ActorInput.queued, List.map_append, ← List.append_assoc]
      exact hordered.append (List.Sublist.refl _)
    · simpa only [after, waited_self] using hr.backoff
  | dropSenders =>
    exact inv_quiet hr hopened (.inr rfl) rfl rfl rfl rfl rfl (waited_self _ _)
  | refused hp =>
    exact inv_quiet hr trivial (.inl rfl) rfl rfl (by rw [hp]; rfl) rfl rfl
      (by rw [after, hp]; rfl)
  | negotiate hp hw =>
    exact inv_open hr ⟨hw, rfl⟩ (by rw [hp]; rfl) rfl rfl rfl rfl (by rw [hp]; rfl) rfl rfl
      (by rw [after, hp]; rfl)
  | connected hp hw =>
    refine inv_open hr ?_ (by rw [hp]; rfl) rfl rfl rfl rfl (by rw [hp]; rfl) rfl rfl
      (by rw [after, hp]; rfl)
    change [] = greeting withExceptions
    rw [hw]
    rfl
  | @asked conn conn' io hp hsent =>
    rw [hp] at hopened
    obtain ⟨hw, hempty⟩ := hopened
    have hwritten : conn'.written = [] ++ [optionReq] := hempty ▸ Connection.written_of_send hsent
    have hgreeting : greeting withExceptions = [] ++ [optionReq] := by
      rw [hw]
      rfl
    refine inv_write [] optionReq hr ⟨hw, hwritten⟩ ?_ ?_ ?_ ?_ rfl (by rw [hp]; rfl) rfl rfl
      (by rw [after, hp]; rfl)
    · rw [current, hp, ← hempty]
      rfl
    · rw [← hwritten]
      rfl
    · exact hgreeting ▸ List.prefix_rfl
    · rw [commandsOn, commandsOn, hgreeting]
      rfl
  | unasked hp hs =>
    exact inv_quiet hr trivial (.inl rfl) rfl rfl (by rw [hp]; rfl) rfl rfl
      (by rw [after, hp]; rfl)
  | negotiated hp hn =>
    rw [hp] at hopened
    obtain ⟨hw, hwritten⟩ := hopened
    refine inv_quiet hr ?_ (.inr (by rw [current, current, hp]; rfl)) rfl rfl (by rw [hp]; rfl) rfl
      rfl (by rw [after, hp]; rfl)
    exact hwritten.trans (by rw [hw]; rfl)
  | unnegotiated hp hn =>
    exact inv_quiet hr trivial (.inl rfl) rfl rfl (by rw [hp]; rfl) rfl rfl
      (by rw [after, hp]; rfl)
  | recv hp => exact inv_iterate hr hp rfl rfl
  | tick hp => exact inv_iterate hr hp rfl rfl
  | command hp hq => exact inv_iterate hr hp hq rfl
  | close hp hq hs => exact inv_iterate hr hp rfl rfl
  | ready hp =>
    rw [hp] at hopened
    refine inv_silent hr hopened (.inr (by rw [current, current, hp]; rfl)) ?_ rfl ?_
    · simpa [ActorInput.queued] using hordered
    · exact hr.backoff.trans (by rw [after, hp]; rfl)
  | enter hp =>
    rw [hp] at hopened
    refine inv_silent hr ?_ (.inr (by rw [current, current, hp]; rfl)) ?_ ?_ ?_
    · change _ = greeting withExceptions at hopened
      change greeting withExceptions <+: _
      exact hopened ▸ List.prefix_rfl
    · simpa [ActorInput.queued] using hordered
    · exact hr.connected.trans (by rw [hp]; rfl)
    · have hfirst : 100 ≤ maxBackoff := by decide
      rw [after, hp]
      exact (Backoff.delay_zero hfirst).symm
  | dropped hp =>
    refine inv_silent hr trivial (.inl rfl) ?_ rfl ?_
    · simpa [ActorInput.queued] using hordered
    · exact hr.backoff.trans (by rw [after, hp]; rfl)
  | lost hp =>
    refine inv_silent hr trivial (.inl rfl) ?_ rfl ?_
    · simpa [ActorInput.queued] using hordered
    · exact hr.backoff.trans (by rw [after, hp]; rfl)
  | settle hp =>
    exact inv_quiet hr trivial (.inl rfl) rfl rfl (by rw [hp]; rfl) rfl rfl
      (by rw [after, hp]; rfl)
  | slept hp =>
    refine inv_silent hr trivial (.inl rfl) ?_ ?_ ?_
    · simpa [ActorInput.queued] using hordered
    · exact hr.connected.trans (by rw [hp]; rfl)
    · have hbackoff := hr.backoff
      rw [after, hp]
      change min (r.actor.backoff * 2) maxBackoff = Backoff.delay 100 maxBackoff (r.waits + 1)
      rw [hbackoff, Backoff.delay_succ]

/-- **Reconnecting keeps the order.** In every run of a server actor, over any
number of connections, each connection that carries anything carries its
greeting first; what the connections carry after that, one connection after the
other, are packets of the queued commands in the order in which they were
queued, with those still in the queue behind them; the actor says it is
connected exactly from the end of a connection's set-up to the end of its
`actor_loop`; and before the next attempt it waits 100 ms, doubled for each wait
since a connection was last set up, but 30 s at most. -/
theorem reconnects_keep_order (withExceptions : Bool) {is : List ActorInput} {r : CarriedRun}
    (h : Machine.run (step withExceptions) new is = some r) :
    (∀ l ∈ r.connections, l = [] ∨ greeting withExceptions <+: l) ∧
    (r.connections.flatMap (commandsOn withExceptions) ++
      r.actor.queue.map ClientCommand.packet).Sublist (r.submitted.map ClientCommand.packet) ∧
    r.actor.connected = r.actor.phase.serves ∧
    r.actor.backoff = min (100 * 2 ^ r.waits) 30000 := by
  have hr : r.Inv withExceptions :=
    Machine.invariant (fun _ _ _ hr hs => inv_step hr hs) inv_new h
  exact ⟨hr.greeted, hr.ordered, hr.connected, hr.backoff⟩

/-- Two commands are queued; the first goes out, the second after a reconnect. -/
def lostBetween : List ActorInput :=
  [.connect true, .sent .accepted, .recv (.ok (some (.response .optionRes [asBytes "exceptions"]))),
    .go, .go, .queue (.status (.request .getStatus [asBytes "H:1"]) 0),
    .queue (.status (.request .getStatus [asBytes "H:2"]) 1), .command .accepted,
    .recv (.ok none), .go, .go, .go, .connect true, .sent .accepted,
    .recv (.ok (some (.response .error []))), .go, .go, .command .accepted]

theorem reconnects_keep_order_lostBetween :
    ∃ r, Machine.run (step true) new lostBetween = some r ∧ r.connections.length = 2 ∧
      r.actor.connected = true ∧
      (r.connections.flatMap (commandsOn true)).Sublist
        (r.submitted.map ClientCommand.packet) := by
  have hrun : Machine.run (step true) new lostBetween = some _ := rfl
  obtain ⟨-, hordered, hconnected, -⟩ := reconnects_keep_order true hrun
  exact ⟨_, hrun, rfl, hconnected, (List.sublist_append_left _ _).trans hordered⟩

end CarriedRun

end Gearman.Client
