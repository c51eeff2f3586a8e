import Gearman.Client.Actor

/-!
# Steps of a server actor

What one step of `run_server_actor` can do, phase by phase.
-/

namespace Gearman.Client

open Protocol

namespace Actor

variable {withExceptions : Bool} {a a' : Actor} {i : ActorInput} {es : List Effect}

/-- Any packet will do for a reply to the `OPTION_REQ`. -/
theorem negotiationReply_packet (packet : Packet) :
    ∃ reply, negotiationReply (.ok (some packet)) = .ok reply := by
  unfold negotiationReply
  dsimp only
  split
  · exact ⟨_, rfl⟩
  · split <;> exact ⟨_, rfl⟩

/-- All that a step can do. -/
inductive Steps (withExceptions : Bool) (a : Actor) : ActorInput → Actor → List Effect → Prop
  | queue {cmd : ClientCommand} (h : a.senders = true) :
      Steps withExceptions a (.queue cmd) { a with queue := a.queue ++ [cmd] } []
  | dropSenders : Steps withExceptions a .dropSenders { a with senders := false } []
  | refused (hp : a.phase = .connecting) :
      Steps withExceptions a (.connect false) { a with phase := .settling } []
  | negotiate (hp : a.phase = .connecting) (h : withExceptions = true) :
      Steps withExceptions a (.connect true) { a with phase := .negotiate .fromStream } []
  | connected (hp : a.phase = .connecting) (h : withExceptions = false) :
      Steps withExceptions a (.connect true) { a with phase := .ready .fromStream } []
  | asked {conn conn' : Connection} {io : Io} (hp : a.phase = .negotiate conn)
      (h : conn.send optionReq io = (.ok (), conn')) :
      Steps withExceptions a (.sent io) { a with phase := .negotiated conn' } []
  | unasked {conn conn' : Connection} {io : Io} {e : GearmanError}
      (hp : a.phase = .negotiate conn) (h : conn.send optionReq io = (.error e, conn')) :
      Steps withExceptions a (.sent io) { a with phase := .settling } []
  | negotiated {conn : Connection} {pkt : Received} {reply : Negotiation}
      (hp : a.phase = .negotiated conn) (h : negotiationReply pkt = .ok reply) :
      Steps withExceptions a (.recv pkt) { a with phase := .ready conn } [.negotiated reply]
  | unnegotiated {conn : Connection} {pkt : Received} {e : GearmanError}
      (hp : a.phase = .negotiated conn) (h : negotiationReply pkt = .error e) :
      Steps withExceptions a (.recv pkt) { a with phase := .settling } []
  | recv {conn : Connection} {s : LoopState} {pkt : Received} (hp : a.phase = .looping conn s) :
      Steps withExceptions a (.recv pkt) (a.iterate conn s (.recv pkt)).1
        (a.iterate conn s (.recv pkt)).2
  | tick {conn : Connection} {s : LoopState} {closed : StreamId → Bool}
      (hp : a.phase = .looping conn s) :
      Steps withExceptions a (.tick closed) (a.iterate conn s (.tick closed)).1
        (a.iterate conn s (.tick closed)).2
  | command {conn : Connection} {s : LoopState} {cmd : ClientCommand} {queue : List ClientCommand}
      {io : Io} (hp : a.phase = .looping conn s) (hq : a.queue = cmd :: queue) :
      Steps withExceptions a (.command io)
        ({ a with queue := queue }.iterate conn s (.command (some cmd) io)).1
        ({ a with queue := queue }.iterate conn s (.command (some cmd) io)).2
  | close {conn : Connection} {s : LoopState} {io : Io} (hp : a.phase = .looping conn s)
      (hq : a.queue = []) (h : a.senders = false) :
      Steps withExceptions a (.command io) (a.iterate conn s (.command none io)).1
        (a.iterate conn s (.command none io)).2
  | ready {conn : Connection} (hp : a.phase = .ready conn) :
      Steps withExceptions a .go { a with phase := .entering conn, connected := true } []
  | enter {conn : Connection} (hp : a.phase = .entering conn) :
      Steps withExceptions a .go
        { a with phase := .looping conn .new, attempted := true, backoff := 100 } []
  | dropped (hp : a.phase = .ended .clientDropped) :
      Steps withExceptions a .go { a with phase := .returned, connected := false } []
  | lost (hp : a.phase = .ended .connectionLost) :
      Steps withExceptions a .go { a with phase := .settling, connected := false } []
  | settle (hp : a.phase = .settling) :
      Steps withExceptions a .go { a with phase := .sleeping, attempted := true } []
  | slept (hp : a.phase = .sleeping) :
      Steps withExceptions a .go
        { a with phase := .connecting, backoff := min (a.backoff * 2) maxBackoff } []

theorem steps_of_eq {b : Actor} {fs : List Effect} (hs : Steps withExceptions a i b fs)
    (h : some (b, fs) = some (a', es)) : Steps withExceptions a i a' es := by
  obtain ⟨rfl, rfl⟩ := Prod.mk.inj (Option.some.inj h)
  exact hs

theorem steps_of_step (h : a.step withExceptions i = some (a', es)) :
    Steps withExceptions a i a' es := by
  cases i with
  | queue cmd =>
    obtain ⟨hsenders, h⟩ := Option.ite_none_right_eq_some.mp h
    exact steps_of_eq (.queue hsenders) h
  | dropSenders => exact steps_of_eq .dropSenders h
  | connect ok =>
    rcases hp : a.phase <;> simp only [step, hp, reduceCtorEq] at h
    cases ok <;> cases hw : withExceptions <;> rw [hw] at h
    · exact steps_of_eq (.refused hp) h
    · exact steps_of_eq (.refused hp) h
    · exact steps_of_eq (.connected hp rfl) h
    · exact steps_of_eq (.negotiate hp rfl) h
  | sent io =>
    rcases hp : a.phase <;> simp only [step, hp, reduceCtorEq] at h
    split at h
    · exact steps_of_eq (.unasked hp ‹_›) h
    · exact steps_of_eq (.asked hp ‹_›) h
  | recv pkt =>
    rcases hp : a.phase <;> simp only [step, hp, reduceCtorEq] at h
    · split at h
      · exact steps_of_eq (.negotiated hp ‹_›) h
      · exact steps_of_eq (.unnegotiated hp ‹_›) h
    · exact steps_of_eq (.recv hp) h
  | tick closed =>
    rcases hp : a.phase <;> simp only [step, hp, reduceCtorEq] at h
    exact steps_of_eq (.tick hp) h
  | command io =>
    rcases hp : a.phase <;> rcases hq : a.queue <;> simp only [step, hp, hq, reduceCtorEq] at h
    · obtain ⟨hsenders, h⟩ := Option.ite_none_left_eq_some.mp h
      exact steps_of_eq (.close hp hq (Bool.not_eq_true _ ▸ hsenders)) h
    · exact steps_of_eq (.command hp hq) h
  | go =>
    rcases hp : a.phase with _ | _ | _ | _ | _ | _ | ⟨_ | _⟩ | _ | _ | _ <;>
      simp only [step, hp, reduceCtorEq] at h
    · exact steps_of_eq (.ready hp) h
    · exact steps_of_eq (.enter hp) h
    · exact steps_of_eq (.lost hp) h
    · exact steps_of_eq (.dropped hp) h
    · exact steps_of_eq (.settle hp) h
    · exact steps_of_eq (.slept hp) h

end Actor

end Gearman.Client
