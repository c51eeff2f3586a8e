import Gearman.Protocol.Codec

/-!
# Connections

A framed connection as the actors use it. `Framed` encodes a packet into its
write buffer and flushes the buffer to the stream; what a failed flush leaves
behind stays in front of everything sent later, so after an I/O error no
further packet gets through. How the stream takes a packet is an input.
-/

namespace Gearman

open Protocol

/-- How the stream takes the bytes of a packet. -/
inductive Io
  | accepted
  | failed
  deriving DecidableEq, Repr

/-- What `Connection::recv` returns: a packet, the end of the stream, or an error. -/
abbrev Received := Except GearmanError (Option Packet)

structure Connection where
  /-- The packets handed to `send`, oldest first. -/
  tried : List Packet
  /-- The packets the stream has accepted in full, oldest first. -/
  written : List Packet
  /-- A write has failed. -/
  broken : Bool
  deriving DecidableEq, Repr

namespace Connection

/-- `Connection::from_stream`. -/
def fromStream : Connection := ⟨[], [], false⟩

/-- `Connection::send`: the packet is encoded with the default codec, then written. -/
def send (conn : Connection) (pkt : Packet) (io : Io) : Except GearmanError Unit × Connection :=
  let conn := { conn with tried := conn.tried ++ [pkt] }
  match GearmanCodec.new.encode pkt [] with
  | (.error e, _) => (.error e, conn)
  | (.ok (), _) =>
    if conn.broken then (.error .io, conn)
    else
      match io with
      | .accepted => (.ok (), { conn with written := conn.written ++ [pkt] })
      | .failed => (.error .io, { conn with broken := true })

/-- Whatever becomes of it, the packet has been handed over. -/
@[simp] theorem tried_send (conn : Connection) (pkt : Packet) (io : Io) :
    (conn.send pkt io).2.tried = conn.tried ++ [pkt] := by
  unfold send
  dsimp only
  split
  · rfl
  · split
    · rfl
    · split <;> rfl

theorem send_accepted {conn : Connection} {pkt : Packet} (hacc : GearmanCodec.new.Accepts pkt)
    (hintact : conn.broken = false) :
    conn.send pkt .accepted =
      (.ok (), { conn with
        tried := conn.tried ++ [pkt], written := conn.written ++ [pkt] }) := by
  simp [send, GearmanCodec.encode_of_accepts hacc, hintact]

/-- Of a packet the codec refuses nothing gets to the stream. -/
theorem send_refused {pkt : Packet} (h : ¬GearmanCodec.new.Accepts pkt) (conn : Connection)
    (io : Io) :
    ∃ e, conn.send pkt io = (.error e, { conn with tried := conn.tried ++ [pkt] }) := by
  obtain ⟨e, he⟩ := GearmanCodec.encode_of_not_accepts h []
  exact ⟨e, by simp only [send, he]⟩

/-- A stream that takes the packet stays as it was. -/
theorem broken_send_accepted (conn : Connection) (pkt : Packet) :
    (conn.send pkt .accepted).2.broken = conn.broken := by
  by_cases hacc : GearmanCodec.new.Accepts pkt
  · rcases conn with ⟨tried, written, _ | _⟩ <;>
      simp [send, GearmanCodec.encode_of_accepts hacc]
  · obtain ⟨e, he⟩ := send_refused hacc conn .accepted
    rw [he]

/-- All that a `send` can do: write the packet on an intact connection, or fail
and write nothing. -/
theorem send_cases (conn : Connection) (pkt : Packet) (io : Io) :
    (GearmanCodec.new.Accepts pkt ∧ conn.broken = false ∧ io = .accepted ∧
      conn.send pkt io =
        (.ok (), { conn with
          tried := conn.tried ++ [pkt], written := conn.written ++ [pkt] })) ∨
    ∃ e b, conn.send pkt io =
        (.error e, { conn with tried := conn.tried ++ [pkt], broken := b }) ∧
      (conn.broken = true → b = true) ∧ (GearmanCodec.new.Accepts pkt → b = true) := by
  by_cases hacc : GearmanCodec.new.Accepts pkt
  · rcases conn with ⟨tried, written, _ | _⟩
    · cases io with
      | accepted => exact .inl ⟨hacc, rfl, rfl, send_accepted hacc rfl⟩
      | failed =>
        refine .inr ⟨.io, true, ?_, fun _ => rfl, fun _ => rfl⟩
        simp [send, GearmanCodec.encode_of_accepts hacc]
    · refine .inr ⟨.io, true, ?_, fun _ => rfl, fun _ => rfl⟩
      simp [send, GearmanCodec.encode_of_accepts hacc]
  · obtain ⟨e, he⟩ := send_refused hacc conn io
    exact .inr ⟨e, conn.broken, he, fun h => h, fun h => absurd h hacc⟩

theorem written_of_send {conn conn' : Connection} {pkt : Packet} {io : Io}
    (h : conn.send pkt io = (.ok (), conn')) : conn'.written = conn.written ++ [pkt] := by
  rcases conn.send_cases pkt io with ⟨-, -, -, hsend⟩ | ⟨e, b, hsend, -⟩
  · rw [hsend] at h
    cases h
    rfl
  · rw [hsend] at h
    cases h

end Connection

end Gearman
