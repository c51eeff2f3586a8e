import Gearman.Worker.Verify.WorkerConnection

/-!
# Unregister notifications and `CANT_DO`

A notification of a function that a connection has advertised is either followed
by a `CANT_DO` on that connection or still to be received. What a step of the
grab loop does to this: `flush_unregistrations` trades the one for the other, and
only a receiver that lags drops a notification with nothing in exchange.
-/

namespace Gearman.Worker

open Protocol

/-- A `CAN_DO` or `CAN_DO_TIMEOUT` for this function has been written. -/
def Advertised (conn : Connection) (function : String) : Prop :=
  ∃ pkt ∈ conn.written, (pkt.ptype = .canDo ∨ pkt.ptype = .canDoTimeout) ∧
    pkt.args.head? = some (asBytes function)

/-- A `CANT_DO` for this function has been written. -/
def Withdrawn (conn : Connection) (function : String) : Prop :=
  .request .cantDo [asBytes function] ∈ conn.written

/-- Of the notifications behind the first `n`, those of an advertised function
have been acted on or are still to come. -/
def Covered (conn : Connection) (notifications : Broadcast String) (n : Nat) : Prop :=
  ∀ f ∈ notifications.sent.drop n, Advertised conn f →
    Withdrawn conn f ∨ f ∈ notifications.queued

/-! ## The channel -/

theorem covered_send {conn : Connection} {b : Broadcast String} {n : Nat} (h : Covered conn b n)
    (hnext : b.next ≤ b.sent.length) (function : String) : Covered conn (b.send function) n := by
  intro f hf hadvertised
  rw [Broadcast.queued_send hnext]
  have hmem : f ∈ b.sent.drop n ∨ f = function := by
    have hf : f ∈ (b.sent ++ [function]).drop n := hf
    rw [List.drop_append] at hf
    rcases List.mem_append.mp hf with hf | hf
    · exact .inl hf
    · exact .inr (List.mem_singleton.mp (List.mem_of_mem_drop hf))
  rcases hmem with hf | rfl
  · rcases h f hf hadvertised with h | h
    · exact .inl h
    · exact .inr (List.mem_append_left _ h)
  · exact .inr (List.mem_append_right _ List.mem_cons_self)

/-! ## The grab loop -/

section

variable {H : Type} {mode : GrabMode} {l l' : GrabLoop H} {j : GrabInput H}

/-- The connection after a step: more `CANT_DO`s, no new advertisement. -/
structure Grows (conn conn' : Connection) : Prop where
  advertised : ∀ f, Advertised conn' f → Advertised conn f
  withdrawn : ∀ f, Withdrawn conn f → Withdrawn conn' f

theorem Grows.refl (conn : Connection) : Grows conn conn := ⟨fun _ => id, fun _ => id⟩

theorem Grows.of_written {conn conn' : Connection} (h : conn'.written = conn.written) :
    Grows conn conn' where
  advertised f hf := by rwa [Advertised, h] at hf
  withdrawn f hf := by rwa [Withdrawn, h]

theorem Grows.of_concat {conn conn' : Connection} {pkt : Packet}
    (h : conn'.written = conn.written ++ [pkt]) (hcan : pkt.ptype ≠ .canDo)
    (htimeout : pkt.ptype ≠ .canDoTimeout) : Grows conn conn' where
  advertised f := by
    intro ⟨p, hp, htype, harg⟩
    rw [h] at hp
    rcases List.mem_append.mp hp with hp | hp
    · exact ⟨p, hp, htype, harg⟩
    · rw [List.mem_singleton.mp hp] at htype
      rcases htype with htype | htype
      · exact absurd htype hcan
      · exact absurd htype htimeout
  withdrawn f hf := by
    rw [Withdrawn, h]
    exact List.mem_append_left _ hf

theorem grows_sendOr {pkt : Packet} (hcan : pkt.ptype ≠ .canDo)
    (htimeout : pkt.ptype ≠ .canDoTimeout) (l : GrabLoop H) (io : Io) (next : GrabPc H) :
    Grows l.conn (l.sendOr pkt io next).conn := by
  rcases l.sendOr_cases pkt io next with ⟨-, h⟩ | ⟨b, h⟩ <;> rw [h]
  · exact .of_concat rfl hcan htimeout
  · exact .of_written rfl

theorem grows_sendAnd {pkt : Packet} (hcan : pkt.ptype ≠ .canDo)
    (htimeout : pkt.ptype ≠ .canDoTimeout) (l : GrabLoop H) (io : Io) (next : GrabPc H) :
    Grows l.conn (l.sendAnd pkt io next).conn := by
  rcases l.sendAnd_cases pkt io next with ⟨-, -, h⟩ | ⟨b, h, -⟩ <;> rw [h]
  · exact .of_concat rfl hcan htimeout
  · exact .of_written rfl

theorem grows_step (hl : l.Responds) (h : l.step mode j = some l') : Grows l.conn l'.conn := by
  cases GrabLoop.steps_of_step h with
  | @report handle report io _ =>
    cases report <;>
      exact grows_sendAnd (by simp [Report.packet, Packet.request])
        (by simp [Report.packet, Packet.request]) l io l.pc
  | withdraw _ | preSleep _ =>
    exact grows_sendOr (by simp [Packet.request]) (by simp [Packet.request]) l _ _
  | grab _ => cases mode <;> exact grows_sendOr (by decide) (by decide) l _ _
  | @respond response io hpc =>
    have hterminal := hl response hpc
    refine grows_sendAnd (fun htype => ?_) (fun htype => ?_) l io .head <;>
      rw [htype] at hterminal <;> cases hterminal
  | _ => exact .refl _

end

/-! ## The loop among its notifications -/

/-- If the receiver lags now, every notification it misses of an advertised
function is one too many: the function is withdrawn, or a later notification of
it is kept. -/
def KeepsUp (conn : Connection) (notifications : Broadcast String) : Prop :=
  ∀ f ∈ notifications.missed notificationCap, Advertised conn f →
    Withdrawn conn f ∨ f ∈ (notifications.tryRecv notificationCap).2.queued

theorem Covered.grows {conn conn' : Connection} {b : Broadcast String} {n : Nat}
    (h : Covered conn b n) (hgrows : Grows conn conn') : Covered conn' b n :=
  fun f hf hadvertised =>
    (h f hf (hgrows.advertised f hadvertised)).imp_left (hgrows.withdrawn f)

section

variable {H : Type} {mode : GrabMode} {s : WorkerConnection H} {i : ConnectionInput H}
  {j : GrabInput H} {l l' : GrabLoop H} {notifications : Broadcast String} {notified : Bool}
  {n : Nat}

/-- The head of the queue is traded for its `CANT_DO`. -/
theorem covered_withdraw {conn conn' : Connection} {b b' : Broadcast String} {function : String}
    {rest : List String} (h : Covered conn b n) (hqueued : b.queued = function :: rest)
    (hsent : b'.sent = b.sent) (hrest : b'.queued = rest)
    (hconn : conn'.written = conn.written ++ [.request .cantDo [asBytes function]]) :
    Covered conn' b' n := by
  have hgrows : Grows conn conn' :=
    .of_concat hconn (by simp [Packet.request]) (by simp [Packet.request])
  intro f hf hadvertised
  rw [hsent] at hf
  rcases h.grows hgrows f hf hadvertised with h | h
  · exact .inl h
  · rw [hqueued] at h
    rcases List.mem_cons.mp h with rfl | h
    · refine .inl ?_
      rw [Withdrawn, hconn]
      exact List.mem_append_right _ List.mem_cons_self
    · exact .inr (hrest ▸ h)

/-- What a receiver that keeps up misses is not missed. -/
theorem covered_lag {conn : Connection} {b : Broadcast String} (h : Covered conn b n)
    (hkeeps : KeepsUp conn b)
    (hqueued : b.queued = b.missed notificationCap ++ (b.tryRecv notificationCap).2.queued) :
    Covered conn (b.tryRecv notificationCap).2 n := by
  intro f hf hadvertised
  rw [Broadcast.sent_tryRecv] at hf
  rcases h f hf hadvertised with h | h
  · exact .inl h
  · rw [hqueued] at h
    rcases List.mem_append.mp h with h | h
    · exact hkeeps f h hadvertised
    · exact .inr h

/-- One turn of `flush_unregistrations`. -/
theorem covered_tryRecv {io : Io} {b : Broadcast String}
    (h : l.step mode (.unregistered (H := H)
      (unregistration (b.tryRecv notificationCap).1) io) = some l')
    (hcovered : Covered l.conn b n) (hkeeps : KeepsUp l.conn b) :
    l'.pc = .done .connectionLost ∨ Covered l'.conn (b.tryRecv notificationCap).2 n := by
  have hlag := covered_lag hcovered hkeeps
  have hsent := Broadcast.sent_tryRecv notificationCap b
  have hreceives := b.receives notificationCap
  generalize (b.tryRecv notificationCap).1 = found at hreceives h
  generalize (b.tryRecv notificationCap).2 = after at hreceives hlag hsent ⊢
  cases hreceives with
  | @ok message rest _ hqueued hrest =>
    have h : l.step mode (.unregistered (.ok message) io : GrabInput H) = some l' := h
    cases GrabLoop.steps_of_step h with
    | withdraw _ =>
      rcases l.sendOr_cases (.request .cantDo [asBytes message]) io .flush with
        ⟨-, hsend⟩ | ⟨broken, hsend⟩ <;> rw [hsend]
      · exact .inr (covered_withdraw hcovered hqueued hsent hrest rfl)
      · exact .inl rfl
  | lagged _ hqueued =>
    have h : l.step mode (.unregistered .lagged io : GrabInput H) = some l' := h
    cases GrabLoop.steps_of_step h with
    | lagged _ => exact .inr (hlag hqueued)
  | empty _ =>
    have h : l.step mode (.unregistered .none io : GrabInput H) = some l' := h
    cases GrabLoop.steps_of_step h with
    | flushed _ => exact .inr hcovered

/-- The loop keeps its notifications covered until it loses its connection. -/
theorem covered_grab (hl : l.Responds) (hfeeds : s.Feeds i j notifications notified)
    (h : l.step mode j = some l') (hcovered : Covered l.conn s.notifications n)
    (hkeeps : ∀ io, i = .tryRecv io → KeepsUp l.conn s.notifications) :
    l'.pc = .done .connectionLost ∨ Covered l'.conn notifications n := by
  have hgrows := grows_step hl h
  cases hfeeds with
  | tryRecv io => exact covered_tryRecv h hcovered (hkeeps io rfl)
  | _ => exact .inr (hcovered.grows hgrows)

/-- A loop that has lost its connection does nothing but serve `Reporter`s. -/
theorem lost_step (hl : l.pc = .done .connectionLost) (h : l.step mode j = some l') :
    l'.pc = .done .connectionLost := by
  have hmoves := GrabLoop.moves_of_step h
  rw [hl] at hmoves
  exact GrabLoop.moves_done hmoves

/-- `try_recv` moves on within what was sent. -/
theorem next_le_feeds (hfeeds : s.Feeds i j notifications notified)
    (h : s.notifications.next ≤ s.notifications.sent.length) :
    notifications.sent = s.notifications.sent ∧ notifications.next ≤ notifications.sent.length := by
  cases hfeeds with
  | tryRecv io =>
    exact ⟨Broadcast.sent_tryRecv _ _, Broadcast.next_le_tryRecv h⟩
  | _ => exact ⟨rfl, h⟩

end

end Gearman.Worker
