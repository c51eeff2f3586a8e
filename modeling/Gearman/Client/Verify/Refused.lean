import Gearman.Client.Verify.AtMostOnce

/-!
# Commands that cannot be encoded

`conn.send` fails in two ways: the codec refuses the packet, or the stream
fails. `actor_loop` treats both as the end of the connection. So a packet over
the cap, of which no byte is written, takes every other request and every event
stream of that connection with it.
-/

namespace Gearman.Client

open Protocol

namespace Actor

/-- After the step that took `cmd` off the queue, its caller has the error, and
everybody else is as before. -/
structure Spares (a : Actor) (es : List Effect) (conn : Connection) (s : LoopState)
    (cmd : ClientCommand) (e : GearmanError) : Prop where
  caller : resolutions es = [(cmd.reply, .error e)]
  others : a.phase = .looping conn s

theorem resolutions_failAllPending (pending : List PendingReply) :
    resolutions (failAllPending pending) =
      pending.map fun p => (p.reply, .error .connectionClosed) := by
  induction pending with
  | nil => rfl
  | cons p pending ih => exact congrArg (_ :: ·) ih

/-- `conn.send` of a packet the codec refuses writes nothing. -/
theorem send_of_encode_error {conn : Connection} {pkt : Packet} {io : Io} {e : GearmanError}
    {dst : Bytes} (h : GearmanCodec.new.encode pkt [] = (.error e, dst)) :
    conn.send pkt io = (.error e, { conn with tried := conn.tried ++ [pkt] }) := by
  unfold Connection.send
  rw [h]

section

variable {a : Actor} {conn : Connection} {s : LoopState} {cmd : ClientCommand}
  {queue : List ClientCommand} {e : GearmanError} {dst : Bytes}

/-- The actor ends the loop with the command that is refused. -/
theorem step_refused (withExceptions : Bool) (io : Io) (hp : a.phase = .looping conn s)
    (hq : a.queue = cmd :: queue)
    (h : GearmanCodec.new.encode cmd.packet [] = (.error e, dst)) :
    a.step withExceptions (.command io) =
      some ({ a with queue := queue, phase := .ended .connectionLost },
        .handed cmd.reply :: .replied cmd.reply (.error e) :: failAllPending s.pending) := by
  have hloop : actorLoop conn s (.command (some cmd) io) = (.break .connectionLost,
      .handed cmd.reply :: .replied cmd.reply (.error e) :: failAllPending s.pending) := by
    rw [actorLoop, send_of_encode_error h]
  simp only [step, hp, hq, iterate, hloop]

/-- **A command that cannot be encoded ends the connection.** Whatever is
pending and subscribed, its caller gets the error of the codec, every other
caller `ConnectionClosed`, and the actor leaves `actor_loop`, with every event
stream, to reconnect. At no such command and in no state are the others spared. -/
theorem refused_command_ends_connection (withExceptions : Bool) (io : Io)
    (hp : a.phase = .looping conn s) (hq : a.queue = cmd :: queue)
    (h : GearmanCodec.new.encode cmd.packet [] = (.error e, dst)) :
    ∃ a' es, a.step withExceptions (.command io) = some (a', es) ∧
      a'.phase = .ended .connectionLost ∧ a'.queue = queue ∧
      resolutions es = (cmd.reply, .error e) ::
        s.pending.map (fun p => (p.reply, .error .connectionClosed)) ∧
      ¬a'.Spares es conn s cmd e := by
  refine ⟨_, _, step_refused withExceptions io hp hq h, rfl, rfl, ?_, fun hspares => ?_⟩
  · rw [← resolutions_failAllPending]
    rfl
  · cases hspares.others

end

end Actor

namespace ServerRun

/-- A payload at the cap, which leaves no room for the function name. -/
def oversized : Submission :=
  submit "echo" none (List.replicate defaultMaxPayloadSize.toNat 0) .foreground

theorem encode_oversized (reply : ReplyId) (events : StreamId) :
    GearmanCodec.new.encode (oversized.command reply events).packet [] =
      (.error (.payloadTooLarge defaultMaxPayloadSize), []) := by
  have hbody : (oversized.command reply events).packet.encodedBodyLen =
      defaultMaxPayloadSize.toNat + 6 := by
    have hparts : (oversized.command reply events).packet.args =
        [asBytes "echo", [], List.replicate defaultMaxPayloadSize.toNat 0] := rfl
    rw [Packet.encodedBodyLen, hparts, List.map_cons, List.map_cons, List.map_cons,
      List.length_replicate]
    have hname : (asBytes "echo").length = 4 := by decide
    simp only [hname, List.length_nil, List.map_nil, List.sum_cons, List.sum_nil, List.length_cons]
    omega
  have hcap : GearmanCodec.new.maxPayloadSize.toNat = defaultMaxPayloadSize.toNat := rfl
  unfold GearmanCodec.encode
  rw [if_neg (fun h => h rfl), hbody, if_pos (by omega)]
  rfl

/-- A foreground job is running and a status request is unanswered when the
oversized payload is submitted. -/
def busyRun : List ActorInput :=
  [.queue ((submit "echo" none [] .foreground).command 0 0), .connect true, .go, .go,
    .command .accepted, .recv (.ok (some (.response .jobCreated [asBytes "H"]))),
    .queue (getStatus ⟨0, "H", none⟩ 1), .command .accepted, .queue (oversized.command 2 1)]

theorem busyRun_reaches :
    ∃ r conn s, Machine.run (step false) new busyRun = some r ∧ r.actor.phase = .looping conn s ∧
      r.actor.queue = [oversized.command 2 1] ∧ s.pending = [.status 1] ∧
      s.jobs "H" = some ⟨[some 0], 0⟩ :=
  ⟨_, _, _, rfl, rfl, rfl, rfl, rfl⟩

theorem refused_command_ends_connection_busyRun :
    ∃ r conn s a' es, Machine.run (step false) new busyRun = some r ∧
      r.actor.phase = .looping conn s ∧
      r.actor.step false (.command .accepted) = some (a', es) ∧
      resolutions es = [(2, .error (.payloadTooLarge defaultMaxPayloadSize)),
        (1, .error .connectionClosed)] := by
  obtain ⟨r, conn, s, hrun, hp, hq, hpending, -⟩ := busyRun_reaches
  obtain ⟨a', es, hstep, -, -, hres, -⟩ :=
    Actor.refused_command_ends_connection false .accepted hp hq (encode_oversized 2 1)
  refine ⟨r, conn, s, a', es, hrun, hp, hstep, ?_⟩
  rw [hres, hpending]
  rfl

/-- The status request is told that the peer closed the connection, and the
stream of the running job ends. -/
theorem oversized_takes_others_down :
    ∃ r conn s a' es, Machine.run (step false) new busyRun = some r ∧
      r.actor.phase = .looping conn s ∧ s.pending = [.status 1] ∧
      s.jobs "H" = some ⟨[some 0], 0⟩ ∧
      r.actor.step false (.command .accepted) = some (a', es) ∧
      (1, .error .connectionClosed) ∈ resolutions es ∧
      ¬a'.Spares es conn s (oversized.command 2 1) (.payloadTooLarge defaultMaxPayloadSize) := by
  obtain ⟨r, conn, s, hrun, hp, hq, hpending, hjobs⟩ := busyRun_reaches
  refine ⟨r, conn, s, _, _, hrun, hp, hpending, hjobs,
    Actor.step_refused false .accepted hp hq (encode_oversized 2 1), ?_, fun hspares => ?_⟩
  · rw [hpending]
    exact List.mem_cons_of_mem _ List.mem_cons_self
  · cases hspares.others

end ServerRun

end Gearman.Client
