import Pyomb.Transport.Stream

/-! The server's connections: the sockets themselves, and the collections that shadow them,
which accepting, serving and the inactivity sweep keep. What the peers and the operating
system decide comes in as an argument, an accepted address, a handshake, what a read
returned; whatever is not caught comes out as an error. -/

namespace Pyomb

/-- What has become of a socket. `reset` is a live socket whose peer has reset it, `aborted`
one that `reset()` closed, and `detached` a plain socket that lost its descriptor to a failed
handshake. -/
inductive SockState where
  | live | reset | closed | aborted | detached
  deriving DecidableEq, Repr

/-- `select` and `getsockname` need a descriptor. -/
def SockState.HasDescriptor (s : SockState) : Prop := s = .live ∨ s = .reset

instance : DecidablePred SockState.HasDescriptor := fun s => by
  unfold SockState.HasDescriptor
  infer_instance

/-- What leaves a step of the loop uncaught. -/
inductive LoopError where
  | osError | valueError | modbusError
  deriving DecidableEq, Repr

/-- How `SSLContext.wrap_socket` ends. -/
inductive Handshake where
  | done | sslError | osError
  deriving DecidableEq, Repr

/-- The settings the loop reads. -/
structure ServerSettings where
  tls : Bool := false
  processConnections : Bool := true
  connectionLimit : ℤ := 10
  inactiveTimeout : ℚ := 1

/-- The listener, the collections keyed by connection, and the sockets of the process, which
are numbered as they are opened. -/
structure Connections where
  srv : ℕ
  readList : List ℕ
  clients : List ℕ := []
  peerNames : ℕ → Option (String × ℕ) := fun _ => none
  lastActivityTime : ℕ → Option ℚ := fun _ => none
  newConnectionEvent : Bool := false
  sockets : ℕ → SockState
  opened : ℕ

namespace Connections

variable (cfg : ServerSettings)

def openListener : Connections where
  srv := 0
  readList := [0]
  sockets := Function.update (fun _ => .closed) 0 .live
  opened := 1

def setState (w : Connections) (conn : ℕ) (s : SockState) : Connections :=
  { w with sockets := Function.update w.sockets conn s }

@[simp] theorem sockets_setState (w : Connections) (conn : ℕ) (s : SockState) :
    (w.setState conn s).sockets = Function.update w.sockets conn s := rfl

@[simp] theorem srv_setState (w : Connections) (conn : ℕ) (s : SockState) :
    (w.setState conn s).srv = w.srv := rfl

def openSock (w : Connections) (s : SockState) : Connections :=
  { w.setState w.opened s with opened := w.opened + 1 }

/-- `disconnect`, where it returns: a TLS socket is unwrapped first, which is a `ValueError`
once it has been closed and waits for a peer that does not respond. Whatever else the shutdown
raises is an `OSError` and caught. -/
def disconnect (w : Connections) (conn : ℕ) : Except LoopError Connections :=
  if cfg.tls ∧ (w.sockets conn = .closed ∨ w.sockets conn = .aborted) then .error .valueError
  else .ok (w.setState conn .closed)

theorem disconnect_of_hasDescriptor {w : Connections} {conn : ℕ}
    (h : (w.sockets conn).HasDescriptor) :
    w.disconnect cfg conn = .ok (w.setState conn .closed) := by
  refine if_neg fun hno => ?_
  rcases h with h | h <;> simp [h] at hno

def drop (w : Connections) (conn : ℕ) : Connections :=
  { w with
    readList := w.readList.erase conn
    clients := w.clients.erase conn
    peerNames := Function.update w.peerNames conn none
    lastActivityTime := Function.update w.lastActivityTime conn none }

def forget (w : Connections) (conn : ℕ) : Except LoopError Connections :=
  (w.disconnect cfg conn).map (·.drop conn)

/-- The end of `_accept`: record the connection. -/
def register (w : Connections) (conn : ℕ) (addr : String × ℕ) (now : ℚ) : Connections :=
  { w with
    peerNames := Function.update w.peerNames conn (some addr)
    readList := if cfg.processConnections then w.readList ++ [conn] else w.readList
    lastActivityTime :=
      if cfg.processConnections then Function.update w.lastActivityTime conn (some now)
      else w.lastActivityTime
    clients := w.clients ++ [conn]
    newConnectionEvent := true }

/-- `_accept`, by what `srv.accept()` returns, `none` where it raises, and how the handshake
ends. A failed handshake leaves the plain socket detached, and only an `SSLError` is caught. -/
def accept (w : Connections) (incoming : Option (String × ℕ)) (handshake : Handshake) (now : ℚ) :
    Except LoopError Connections :=
  match incoming with
  | none => .error .osError
  | some addr =>
    if cfg.connectionLimit ≤ (w.readList.length : ℤ) - 1 then .ok (w.openSock .closed)
    else if cfg.tls then
      match handshake with
      | .done => .ok (((w.openSock .detached).openSock .live).register cfg (w.opened + 1) addr now)
      | .sslError => .ok ((w.openSock .detached).register cfg w.opened addr now)
      | .osError => .error .osError
    else .ok ((w.openSock .live).register cfg w.opened addr now)

def touch (w : Connections) (conn : ℕ) (now : ℚ) : Connections :=
  { w with lastActivityTime := Function.update w.lastActivityTime conn (some now) }

/-- `_serve`, by what `receive` and `on_data` do. Of the first, an `OSError` and a Modbus error
are caught; of the second, everything. -/
def serve {ε : Type} (w : Connections) (conn : ℕ) (now : ℚ) (received : Except (Exc ε) Bytes)
    (answered : Except (Exc ε) Unit) : Except LoopError Connections :=
  match received with
  | .error (.os _) => w.forget cfg conn
  | .error e => if e.isModbusBase then w.forget cfg conn else .error .modbusError
  | .ok [] => w.forget cfg conn
  | .ok (_ :: _) =>
    match answered with
    | .ok () => .ok (w.touch conn now)
    | .error _ => (w.touch conn now).forget cfg conn

def Drops {ε : Type} (received : Except (Exc ε) Bytes) (answered : Except (Exc ε) Unit) : Prop :=
  match received with
  | .error (.os _) => True
  | .error e => e.isModbusBase = true
  | .ok [] => True
  | .ok (_ :: _) => answered ≠ .ok ()

/-- The test of `_sweep_inactive`; a connection that was never registered is not timed out. -/
def Inactive (w : Connections) (conn : ℕ) (now : ℚ) : Prop :=
  conn ≠ w.srv ∧ ∃ lastSeen, w.lastActivityTime conn = some lastSeen ∧
    lastSeen + cfg.inactiveTimeout < now

def sweep (w : Connections) (conn : ℕ) (now : ℚ) : Except LoopError Connections :=
  if conn = w.srv then .ok w
  else
    match w.lastActivityTime conn with
    | none => .ok w
    | some lastSeen =>
      if lastSeen + cfg.inactiveTimeout < now then w.forget cfg conn else .ok w

variable {cfg} in
theorem sweep_of_active {w : Connections} {conn : ℕ} {now : ℚ} (h : ¬ w.Inactive cfg conn now) :
    w.sweep cfg conn now = .ok w := by
  unfold sweep
  split_ifs with hsrv
  · rfl
  · split
    · rfl
    · next lastSeen hlast => exact if_neg fun hlt => h ⟨hsrv, lastSeen, hlast, hlt⟩

variable {cfg} in
/-- With one client, just heard from, no connection is past its timeout. -/
theorem active_of_pair {w : Connections} {client : ℕ} {now : ℚ}
    (htimeout : 0 ≤ cfg.inactiveTimeout) (hlist : w.readList = [w.srv, client])
    (h : w.lastActivityTime client = some now) :
    ∀ conn ∈ w.readList, ¬ w.Inactive cfg conn now := by
  intro conn hconn ⟨hsrv, lastSeen, hlast, hlt⟩
  rw [hlist] at hconn
  obtain rfl := (List.mem_pair.mp hconn).resolve_left hsrv
  rw [h] at hlast
  cases hlast
  linarith

/-- `reset()` on one client: the option raises on a socket without a descriptor, which is
caught. -/
def abort (w : Connections) (conn : ℕ) : Connections :=
  if (w.sockets conn).HasDescriptor then w.setState conn .aborted else w

/-! ### What every step keeps -/

/-- The listener is first in the read list, which names no socket twice, and is no client. -/
structure Kept (w : Connections) : Prop where
  head : ∃ conns, w.readList = w.srv :: conns
  nodup : w.readList.Nodup
  opened : ∀ conn ∈ w.readList, conn < w.opened
  clients : w.srv ∉ w.clients

/-- The sockets of the read list are the server's to close: it has closed none of them, and
none has lost its descriptor to a handshake. -/
def Held (s : SockState) : Prop := s = .live ∨ s = .reset ∨ s = .aborted

/-- The connections while the loop runs. -/
structure Up (w : Connections) : Prop extends Kept w where
  srv_live : w.sockets w.srv = .live
  held : ∀ conn ∈ w.readList, Held (w.sockets conn)

/-- After an update what is asked about an argument is asked of the new value or of the old. -/
theorem update_cases {α : Type*} {P : α → Prop} {f : ℕ → α} {c conn : ℕ} {a : α}
    (hself : c = conn → P a) (hother : c ≠ conn → P (f c)) : P (Function.update f conn a c) := by
  by_cases heq : c = conn
  · rw [heq, Function.update_self]
    exact hself heq
  · rw [Function.update_of_ne heq]
    exact hother heq

structure Spares (w w' : Connections) (conn : ℕ) : Prop where
  srv : w'.srv = w.srv
  readList : ∀ c ∈ w.readList, c ≠ conn → c ∈ w'.readList

variable {w w' : Connections} {conn : ℕ}

theorem Spares.refl (w : Connections) (conn : ℕ) : Spares w w conn := ⟨rfl, fun _ h _ => h⟩

theorem Up.of_setState {s : SockState} (h : Up w) (hsrv : conn ≠ w.srv) (hs : Held s) :
    Up (w.setState conn s) where
  toKept := ⟨h.head, h.nodup, h.opened, h.clients⟩
  srv_live := by
    rw [sockets_setState, srv_setState, Function.update_of_ne hsrv.symm]
    exact h.srv_live
  held c hc := by
    rw [sockets_setState]
    exact update_cases (P := Held) (fun _ => hs) fun _ => h.held c hc

theorem Up.touch (h : Up w) (conn : ℕ) (now : ℚ) : Up (w.touch conn now) :=
  ⟨⟨h.head, h.nodup, h.opened, h.clients⟩, h.srv_live, h.held⟩

/-- `forget` closes a client and takes it out of everything, unless it is a TLS connection
that `reset()` has closed. -/
theorem Up.forget (h : Up w) (hconn : conn ∈ w.readList) (hsrv : conn ≠ w.srv)
    (htls : cfg.tls = true → w.sockets conn ≠ .aborted) :
    ∃ w', w.forget cfg conn = .ok w' ∧ Up w' ∧ Spares w w' conn := by
  have hopen : ¬ (cfg.tls ∧ (w.sockets conn = .closed ∨ w.sockets conn = .aborted)) := by
    rintro ⟨ht, hc | ha⟩
    · have := h.held conn hconn
      simp [Held, hc] at this
    · exact htls ht ha
  refine ⟨(w.setState conn .closed).drop conn, ?_, ?_, rfl, fun c hc hne => ?_⟩
  · rw [Connections.forget, disconnect, if_neg hopen]
    rfl
  · obtain ⟨conns, hconns⟩ := h.head
    have hmem {c : ℕ} (hc : c ∈ w.readList.erase conn) : c ∈ w.readList ∧ c ≠ conn :=
      ⟨List.mem_of_mem_erase hc, fun heq => h.nodup.not_mem_erase (heq ▸ hc)⟩
    refine ⟨⟨⟨conns.erase conn, ?_⟩, h.nodup.erase conn, fun c hc => h.opened c (hmem hc).1,
      fun hc => h.clients (List.mem_of_mem_erase hc)⟩, ?_, fun c hc => ?_⟩
    · show w.readList.erase conn = w.srv :: conns.erase conn
      rw [hconns, List.erase_cons_tail (by simpa using hsrv.symm)]
    · show Function.update w.sockets conn .closed w.srv = .live
      rw [Function.update_of_ne hsrv.symm]
      exact h.srv_live
    · show Held (Function.update w.sockets conn .closed c)
      rw [Function.update_of_ne (hmem hc).2]
      exact h.held c (hmem hc).1
  · exact (List.mem_erase_of_ne hne).mpr hc

theorem Kept.srv_mem (h : Kept w) : w.srv ∈ w.readList := by
  obtain ⟨conns, hconns⟩ := h.head
  exact hconns ▸ List.mem_cons_self

theorem Up.openSock (h : Up w) (s : SockState) : Up (w.openSock s) := by
  have hne {c : ℕ} (hc : c ∈ w.readList) : c ≠ w.opened := (h.opened c hc).ne
  refine ⟨⟨h.head, h.nodup, fun c hc => (h.opened c hc).trans (Nat.lt_succ_self _), h.clients⟩,
    ?_, fun c hc => ?_⟩
  · show Function.update w.sockets w.opened s w.srv = .live
    rw [Function.update_of_ne (hne h.srv_mem)]
    exact h.srv_live
  · show Held (Function.update w.sockets w.opened s c)
    rw [Function.update_of_ne (hne hc)]
    exact h.held c hc

theorem Up.register (h : Up w) (hopened : conn < w.opened) (hfresh : conn ∉ w.readList)
    (hheld : Held (w.sockets conn)) (addr : String × ℕ) (now : ℚ) :
    Up (w.register cfg conn addr now) := by
  have hsrv : w.srv ≠ conn := fun heq => hfresh (heq ▸ h.srv_mem)
  have hclients : w.srv ∉ w.clients ++ [conn] := by simp [h.clients, hsrv]
  cases hp : cfg.processConnections with
  | false =>
    refine ⟨⟨?_, ?_, ?_, hclients⟩, h.srv_live, ?_⟩ <;> simp only [Connections.register, hp,
      Bool.false_eq_true, if_false]
    · exact h.head
    · exact h.nodup
    · exact h.opened
    · exact h.held
  | true =>
    obtain ⟨conns, hconns⟩ := h.head
    refine ⟨⟨⟨conns ++ [conn], ?_⟩, ?_, ?_, hclients⟩, h.srv_live, ?_⟩ <;>
      simp only [Connections.register, hp, if_true, List.forall_mem_append, List.forall_mem_singleton]
    · rw [hconns, List.cons_append]
    · exact List.nodup_append'.mpr ⟨h.nodup, List.nodup_singleton _, by simpa using hfresh⟩
    · exact ⟨h.opened, hopened⟩
    · exact ⟨h.held, hheld⟩

theorem subset_register (w : Connections) (conn : ℕ) (addr : String × ℕ) (now : ℚ) {c : ℕ}
    (hc : c ∈ w.readList) : c ∈ (w.register cfg conn addr now).readList := by
  simp only [register]
  split_ifs
  · exact List.mem_append_left _ hc
  · exact hc

/-- A connection just opened can be recorded. -/
theorem Up.takeIn (h : Up w) (addr : String × ℕ) (now : ℚ) :
    Up ((w.openSock .live).register cfg w.opened addr now) ∧
      ∀ c ∈ w.readList, c ∈ ((w.openSock .live).register cfg w.opened addr now).readList := by
  have hfresh : w.opened ∉ w.readList := fun hc => lt_irrefl _ (h.opened _ hc)
  have hheld : Held ((w.openSock .live).sockets w.opened) := .inl (Function.update_self ..)
  exact ⟨(h.openSock .live).register cfg (Nat.lt_succ_self _) hfresh hheld addr now,
    fun c hc => subset_register cfg (w.openSock .live) _ _ _ hc⟩

/-- `_accept` takes the connection in or refuses it, where nothing about it fails. -/
theorem Up.accept (h : Up w) (addr : String × ℕ) {handshake : Handshake}
    (hdone : cfg.tls = true → handshake = .done) (now : ℚ) :
    ∃ w', w.accept cfg (some addr) handshake now = .ok w' ∧ Up w' ∧ w'.srv = w.srv ∧
      ∀ c ∈ w.readList, c ∈ w'.readList := by
  by_cases hlimit : cfg.connectionLimit ≤ (w.readList.length : ℤ) - 1
  · refine ⟨w.openSock .closed, ?_, h.openSock .closed, rfl, fun c hc => hc⟩
    simp [Connections.accept, hlimit]
  cases ht : cfg.tls with
  | false =>
    obtain ⟨hup, hsub⟩ := h.takeIn cfg addr now
    refine ⟨_, ?_, hup, rfl, hsub⟩
    simp [Connections.accept, hlimit, ht]
  | true =>
    obtain ⟨hup, hsub⟩ := (h.openSock .detached).takeIn cfg addr now
    refine ⟨_, ?_, hup, rfl, hsub⟩
    simp only [Connections.accept, hlimit, if_false, ht, if_true, hdone ht]
    rfl

/-- `_serve` drops the connection, raises what it does not catch, or notes that it was heard
from; where the handler raises, it is noted first and then dropped. -/
theorem serve_cases {ε : Type} (w : Connections) (conn : ℕ) (now : ℚ)
    (received : Except (Exc ε) Bytes) (answered : Except (Exc ε) Unit) :
    (w.serve cfg conn now received answered = w.forget cfg conn ∧
      ∀ b data, received ≠ .ok (b :: data)) ∨
    (w.serve cfg conn now received answered = .error .modbusError ∧
      ∃ e, received = .error e ∧ e.isModbusBase = false) ∨
    (w.serve cfg conn now received answered = (w.touch conn now).forget cfg conn ∧
      ∃ b data e, received = .ok (b :: data) ∧ answered = .error e) ∨
    (w.serve cfg conn now received answered = .ok (w.touch conn now) ∧
      ∃ b data, received = .ok (b :: data) ∧ answered = .ok ()) := by
  rcases received with e | _ | ⟨b, data⟩
  · cases e with
    | struct | index | other => exact .inr (.inl ⟨rfl, _, rfl, rfl⟩)
    | _ => exact .inl ⟨rfl, by simp⟩
  · exact .inl ⟨rfl, by simp⟩
  · cases answered with
    | error e => exact .inr (.inr (.inl ⟨rfl, b, data, e, rfl, rfl⟩))
    | ok => exact .inr (.inr (.inr ⟨rfl, b, data, rfl, rfl⟩))

/-- `_serve` keeps a client or drops it, whatever it sends and whatever the handler does. -/
theorem Up.serve (h : Up w) (hconn : conn ∈ w.readList) (hsrv : conn ≠ w.srv)
    (htls : cfg.tls = true → w.sockets conn ≠ .aborted) (now : ℚ) {ε σ : Type}
    {sock : Source ε σ} {fragSize : ℤ} {s s' : σ} {received : Except (Exc ε) Bytes}
    (hreceive : ModbusTcpStream.receive sock fragSize s = some (received, s'))
    (answered : Except (Exc ε) Unit) :
    ∃ w', w.serve cfg conn now received answered = .ok w' ∧ Up w' ∧ Spares w w' conn := by
  rcases serve_cases cfg w conn now received answered with
    ⟨heq, -⟩ | ⟨-, e, rfl, he⟩ | ⟨heq, -⟩ | ⟨heq, -⟩
  · rw [heq]
    exact h.forget cfg hconn hsrv htls
  · rw [ModbusTcpStream.receive_error sock hreceive] at he
    cases he
  · obtain ⟨w', heq', hup, hspares⟩ := (h.touch conn now).forget cfg hconn hsrv htls
    exact ⟨w', heq.trans heq', hup, hspares.srv, hspares.readList⟩
  · exact ⟨_, heq, h.touch conn now, rfl, fun c hc _ => hc⟩

theorem Up.sweep (h : Up w) (hconn : conn ∈ w.readList) {now : ℚ}
    (htls : cfg.tls = true → w.Inactive cfg conn now → w.sockets conn ≠ .aborted) :
    ∃ w', w.sweep cfg conn now = .ok w' ∧ Up w' ∧ Spares w w' conn := by
  have hkeep : ∃ w', (.ok w : Except LoopError Connections) = .ok w' ∧ Up w' ∧ Spares w w' conn :=
    ⟨w, rfl, h, .refl w conn⟩
  unfold Connections.sweep
  by_cases hsrv : conn = w.srv
  · rw [if_pos hsrv]
    exact hkeep
  rw [if_neg hsrv]
  cases hlast : w.lastActivityTime conn with
  | none => exact hkeep
  | some lastSeen =>
    dsimp only
    split_ifs with hlt
    · exact h.forget cfg hconn hsrv fun ht => htls ht ⟨hsrv, lastSeen, hlast, hlt⟩
    · exact hkeep

end Connections

end Pyomb
