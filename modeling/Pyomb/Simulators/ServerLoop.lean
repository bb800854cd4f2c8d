import Pyomb.Runs
import Pyomb.Simulators.Connections

/-! The server's loop against its peers and its owner. The loop is a program counter over
the connections, and between any two of its steps a peer may reset its connection and the
owner may call `stop()` or be part way through `reset()`. The loop leaves by an exception
only in ways that a peer or the owner brings about: an accept that raises, a handshake that
fails, a peer gone when the status line names it, a connection that `reset()` closed under
it. In runs without these it ends where it was told to, with everything closed, once every
peer it has to disconnect over TLS responds. -/

namespace Pyomb

/-- Where the loop stands. The connections still to go through are listed. -/
inductive Pc where
  | test
  | selecting
  | accepting (now : ℚ) (ready : List ℕ)
  | serving (now : ℚ) (rest : List ℕ)
  | sweeping (now : ℚ) (rest : List ℕ)
  | printing (now : ℚ)
  | naming (now : ℚ) (rest : List ℕ)
  | closing (rest : List ℕ)
  | stopped
  | raised (e : LoopError)
  deriving DecidableEq

/-- The server: its connections, its events, the clients a call of `reset()` still has to
close, and the loop. Of a peer, `responds` says whether it would answer the close_notify of
`unwrap()`, or has closed or reset its side, so that `unwrap()` returns. -/
structure Server extends Connections where
  responds : ℕ → Bool := fun _ => true
  quitEvent : Bool := false
  startedEvent : Bool := true
  lastPrintTime : ℚ
  resetting : Option (List ℕ) := none
  pc : Pc := .test

/-- Who moves, with what the peer decided where the loop accepts. -/
inductive Move where
  | loop
  | accept (incoming : Option (String × ℕ)) (handshake : Handshake)
  | peer (conn : ℕ)
  | turn (conn : ℕ)
  | owner
  deriving DecidableEq

namespace Server

variable (cfg : ServerSettings)

def start (now : ℚ) : Server := { Connections.openListener with lastPrintTime := now }

def next (w : Server) (r : Except LoopError Connections) (pc : Pc) : Server :=
  match r with
  | .ok c => { w with toConnections := c, pc := pc }
  | .error e => { w with pc := .raised e }

/-- Disconnecting this peer waits: `unwrap()` on a blocking socket reads until it responds. -/
def Waits (w : Server) (conn : ℕ) : Prop :=
  cfg.tls = true ∧ conn ≠ w.srv ∧ w.sockets conn = .live ∧ w.responds conn = false

inductive Step : Server → Move → Server → Prop
  /-- `while not self.quit_event.is_set()`. -/
  | quit {w : Server} (hpc : w.pc = .test) (hq : w.quitEvent = true) :
      Step w .loop { w with pc := .closing w.readList }
  | enter {w : Server} (hpc : w.pc = .test) (hq : w.quitEvent = false) :
      Step w .loop { w with pc := .selecting }
  /-- `select` raises on a socket without a descriptor. -/
  | selectRaises {w : Server} {conn : ℕ} (hpc : w.pc = .selecting) (hconn : conn ∈ w.readList)
      (hfd : ¬ (w.sockets conn).HasDescriptor) :
      Step w .loop { w with pc := .raised .valueError }
  | select {w : Server} {ready : List ℕ} (hpc : w.pc = .selecting)
      (hfd : ∀ conn ∈ w.readList, (w.sockets conn).HasDescriptor)
      (hready : ready.Sublist w.readList) (now : ℚ) :
      Step w .loop { w with pc := .accepting now ready }
  /-- Nothing to accept. -/
  | pass {w : Server} {now : ℚ} {ready : List ℕ} (hpc : w.pc = .accepting now ready)
      (hsrv : w.srv ∉ ready) : Step w .loop { w with pc := .serving now ready }
  /-- `_accept`, once the handshake has ended. -/
  | accept {w : Server} {now : ℚ} {ready : List ℕ} (hpc : w.pc = .accepting now ready)
      (hsrv : w.srv ∈ ready) (incoming : Option (String × ℕ)) (handshake : Handshake) :
      Step w (.accept incoming handshake)
        (w.next (w.accept cfg incoming handshake now) (.serving now (ready.filter (· ≠ w.srv))))
  | serve {w : Server} {now : ℚ} {conn : ℕ} {rest : List ℕ} (hpc : w.pc = .serving now (conn :: rest))
      {ε σ : Type} {sock : Source ε σ} {fragSize : ℤ} {s s' : σ} {received : Except (Exc ε) Bytes}
      (hreceive : ModbusTcpStream.receive sock fragSize s = some (received, s'))
      (answered : Except (Exc ε) Unit)
      (hturn : Connections.Drops received answered → ¬ w.Waits cfg conn) :
      Step w .loop (w.next (w.serve cfg conn now received answered) (.serving now rest))
  /-- The sweep walks a copy of the read list. -/
  | served {w : Server} {now : ℚ} (hpc : w.pc = .serving now []) :
      Step w .loop { w with pc := .sweeping now w.readList }
  | sweep {w : Server} {now : ℚ} {conn : ℕ} {rest : List ℕ}
      (hpc : w.pc = .sweeping now (conn :: rest))
      (hturn : w.Inactive cfg conn now → ¬ w.Waits cfg conn) :
      Step w .loop (w.next (w.sweep cfg conn now) (.sweeping now rest))
  | swept {w : Server} {now : ℚ} (hpc : w.pc = .sweeping now []) :
      Step w .loop { w with pc := .printing now }
  /-- The status line, once in a while, and only where the server owns the connections. -/
  | silent {w : Server} {now : ℚ} (hpc : w.pc = .printing now)
      (hskip : ¬ (w.lastPrintTime + 1 < now ∧ cfg.processConnections = true)) :
      Step w .loop { w with pc := .test }
  | print {w : Server} {now : ℚ} (hpc : w.pc = .printing now)
      (hprint : w.lastPrintTime + 1 < now ∧ cfg.processConnections = true) :
      Step w .loop { w with pc := .naming now (w.readList.drop 1) }
  /-- `getpeername` raises unless the connection is live. -/
  | name {w : Server} {now : ℚ} {conn : ℕ} {rest : List ℕ} (hpc : w.pc = .naming now (conn :: rest))
      (hlive : w.sockets conn = .live) : Step w .loop { w with pc := .naming now rest }
  | nameRaises {w : Server} {now : ℚ} {conn : ℕ} {rest : List ℕ}
      (hpc : w.pc = .naming now (conn :: rest)) (hlive : w.sockets conn ≠ .live) :
      Step w .loop { w with pc := .raised .osError }
  | printed {w : Server} {now : ℚ} (hpc : w.pc = .naming now []) :
      Step w .loop { w with lastPrintTime := now, pc := .test }
  /-- `_close_listener`: `getsockname` raises without a descriptor, and then `disconnect`. -/
  | closeSkip {w : Server} {rest : List ℕ} (hpc : w.pc = .closing (w.srv :: rest)) :
      Step w .loop { w with pc := .closing rest }
  | close {w : Server} {conn : ℕ} {rest : List ℕ} (hpc : w.pc = .closing (conn :: rest))
      (hsrv : conn ≠ w.srv) (hfd : (w.sockets conn).HasDescriptor)
      (hturn : ¬ w.Waits cfg conn) :
      Step w .loop (w.next (w.disconnect cfg conn) (.closing rest))
  | closeRaises {w : Server} {conn : ℕ} {rest : List ℕ} (hpc : w.pc = .closing (conn :: rest))
      (hsrv : conn ≠ w.srv) (hfd : ¬ (w.sockets conn).HasDescriptor) :
      Step w .loop { w with pc := .raised .osError }
  | stopped {w : Server} (hpc : w.pc = .closing []) (hfd : (w.sockets w.srv).HasDescriptor) :
      Step w .loop
        { w with toConnections := w.setState w.srv .closed, startedEvent := false, pc := .stopped }
  | stopRaises {w : Server} (hpc : w.pc = .closing []) (hfd : ¬ (w.sockets w.srv).HasDescriptor) :
      Step w .loop { w with pc := .raised .osError }
  /-- A peer resets its connection, accepted or not yet looked at. -/
  | peerResets {w : Server} {conn : ℕ} (hsrv : conn ≠ w.srv) (hlive : w.sockets conn = .live) :
      Step w (.peer conn) { w with toConnections := w.setState conn .reset }
  /-- A peer starts or ceases to respond, at any time. -/
  | peerTurns {w : Server} {conn : ℕ} (responds : Bool) :
      Step w (.turn conn) { w with responds := Function.update w.responds conn responds }
  | stop {w : Server} : Step w .owner { w with quitEvent := true }
  /-- `reset()`: over a copy of the clients, then an empty list and `stop()`. -/
  | resetCall {w : Server} (hnone : w.resetting = none) :
      Step w .owner { w with resetting := some w.clients }
  | resetNext {w : Server} {conn : ℕ} {rest : List ℕ} (hsome : w.resetting = some (conn :: rest)) :
      Step w .owner { w with toConnections := w.abort conn, resetting := some rest }
  | resetDone {w : Server} (hsome : w.resetting = some []) :
      Step w .owner { w with
        clients := []
        quitEvent := true
        resetting := none }

/-- What a step of a run may not meet: an accept or a handshake that fails, a peer gone when
the status line names it, and a connection that `reset()` closed and the loop still uses. -/
def Safe (w : Server) : Move → Prop
  | .accept incoming handshake => incoming ≠ none ∧ (cfg.tls = true → handshake = .done)
  | .loop =>
    match w.pc with
    | .selecting => ∀ conn ∈ w.readList, w.sockets conn ≠ .aborted
    | .serving _ (conn :: _) => cfg.tls = true → w.sockets conn ≠ .aborted
    | .sweeping now (conn :: _) =>
      cfg.tls = true → w.Inactive cfg conn now → w.sockets conn ≠ .aborted
    | .naming _ (conn :: _) => w.sockets conn ≠ .reset ∧ w.sockets conn ≠ .aborted
    | .closing (conn :: _) => w.sockets conn ≠ .aborted
    | _ => True
  | .peer _ | .turn _ | .owner => True

def SafeStep (w w' : Server) : Prop := ∃ move, Step cfg w move w' ∧ w.Safe cfg move

def LoopStep (w w' : Server) : Prop := Step cfg w .loop w' ∧ w.Safe cfg .loop

/-- The connections still to go through, in the order they come. -/
def Pending (w : Connections) (rest : List ℕ) : Prop := rest.Nodup ∧ ∀ conn ∈ rest, conn ∈ w.readList

def Phase (w : Connections) : Pc → Prop
  | .test | .selecting | .printing _ => w.Up
  | .accepting _ rest | .sweeping _ rest | .naming _ rest => w.Up ∧ Pending w rest
  | .serving _ rest => w.Up ∧ Pending w rest ∧ w.srv ∉ rest
  | .closing rest => w.Kept ∧ w.sockets w.srv = .live ∧ Pending w rest ∧
      (∀ conn ∈ rest, Connections.Held (w.sockets conn)) ∧
      ∀ conn ∈ w.readList, conn ∉ rest → conn ≠ w.srv → w.sockets conn = .closed
  | .stopped => w.Kept ∧ ∀ conn ∈ w.readList, w.sockets conn = .closed
  | .raised _ => False

def Leaving : Pc → Prop
  | .closing _ | .stopped => True
  | _ => False

structure Inv (w : Server) : Prop where
  phase : Phase w.toConnections w.pc
  resetting : ∀ rest, w.resetting = some rest → w.srv ∉ rest
  quit : Leaving w.pc → w.quitEvent = true
  started : w.pc = .stopped → w.startedEvent = false

theorem Phase.kept {c : Connections} {pc : Pc} (h : Phase c pc) : c.Kept := by
  cases pc with
  | test | selecting | printing => exact Connections.Up.toKept h
  | accepting | sweeping | naming | serving => exact h.1.toKept
  | closing | stopped => exact h.1
  | raised => exact absurd h id

/-! ### A peer's step, and the owner's -/

variable {w w' : Server}

theorem Phase.of_setState {c : Connections} {pc : Pc} (h : Phase c pc) {conn : ℕ} {s : SockState}
    (hfd : (c.sockets conn).HasDescriptor) (hsrv : conn ≠ c.srv) (hs : Connections.Held s) :
    Phase (c.setState conn s) pc := by
  have hclosed {d : ℕ} (hd : c.sockets d = .closed) : (c.setState conn s).sockets d = .closed := by
    have hne : d ≠ conn := by
      rintro rfl
      simp [hd, SockState.HasDescriptor] at hfd
    rw [Connections.sockets_setState, Function.update_of_ne hne, hd]
  cases pc with
  | test | selecting | printing => exact Connections.Up.of_setState h hsrv hs
  | accepting | sweeping | naming => exact ⟨h.1.of_setState hsrv hs, h.2⟩
  | serving => exact ⟨h.1.of_setState hsrv hs, h.2⟩
  | closing rest =>
    obtain ⟨hkept, hlive, hpending, hheld, hdone⟩ := h
    refine ⟨⟨hkept.head, hkept.nodup, hkept.opened, hkept.clients⟩, ?_, hpending, fun d hd => ?_,
      fun d hd hnot hne => hclosed (hdone d hd hnot hne)⟩
    · rw [Connections.sockets_setState, Connections.srv_setState, Function.update_of_ne hsrv.symm]
      exact hlive
    · rw [Connections.sockets_setState]
      exact Connections.update_cases (P := Connections.Held) (fun _ => hs) fun _ => hheld d hd
  | stopped =>
    exact ⟨⟨h.1.head, h.1.nodup, h.1.opened, h.1.clients⟩, fun d hd => hclosed (h.2 d hd)⟩
  | raised => exact h

theorem Phase.of_clients {c : Connections} {pc : Pc} (h : Phase c pc) {clients : List ℕ}
    (hsrv : c.srv ∉ clients) : Phase { c with clients := clients } pc := by
  have hkept (hk : c.Kept) : ({ c with clients := clients } : Connections).Kept :=
    ⟨hk.head, hk.nodup, hk.opened, hsrv⟩
  have hup (hu : c.Up) : ({ c with clients := clients } : Connections).Up :=
    ⟨hkept hu.toKept, hu.srv_live, hu.held⟩
  cases pc with
  | test | selecting | printing => exact hup h
  | accepting | sweeping | naming | serving => exact ⟨hup h.1, h.2⟩
  | closing | stopped => exact ⟨hkept h.1, h.2⟩
  | raised => exact h

/-! ### A step of the loop -/

theorem Inv.goto (h : Inv w) {c : Connections} {pc : Pc} (hphase : Phase c pc)
    (hsrv : c.srv = w.srv) (hquit : Leaving pc → w.quitEvent = true) (hpc : pc ≠ .stopped) :
    Inv { w with toConnections := c, pc := pc } where
  phase := hphase
  resetting rest hr := hsrv ▸ h.resetting rest hr
  quit := hquit
  started hstop := absurd hstop hpc

theorem Inv.goto_next (h : Inv w) {r : Except LoopError Connections} {c : Connections} {pc : Pc}
    (hr : r = .ok c) (hsrv : c.srv = w.srv) (hphase : Phase c pc)
    (hpc : ¬ Leaving pc) : Inv (w.next r pc) := by
  rw [hr]
  exact h.goto hphase hsrv (fun hl => absurd hl hpc) (fun hs => hpc (hs ▸ trivial))

theorem Pending.tail {c : Connections} {conn : ℕ} {rest : List ℕ} (h : Pending c (conn :: rest)) :
    conn ∈ c.readList ∧ Pending c rest ∧ conn ∉ rest :=
  ⟨h.2 _ List.mem_cons_self, ⟨h.1.of_cons, fun d hd => h.2 d (List.mem_cons_of_mem _ hd)⟩,
    (List.nodup_cons.mp h.1).1⟩

theorem Pending.spared {c c' : Connections} {conn : ℕ} {rest : List ℕ} (h : Pending c rest)
    (hnot : conn ∉ rest) (hs : c.Spares c' conn) : Pending c' rest :=
  ⟨h.1, fun d hd => hs.readList d (h.2 d hd) fun heq => hnot (heq ▸ hd)⟩

theorem Pending.sublist {c : Connections} (h : c.Kept) {rest : List ℕ}
    (hs : rest.Sublist c.readList) : Pending c rest :=
  ⟨hs.nodup h.nodup, fun _ hd => hs.subset hd⟩

theorem Phase.closeSkip {c : Connections} {rest : List ℕ} (h : Phase c (.closing (c.srv :: rest))) :
    Phase c (.closing rest) := by
  obtain ⟨hkept, hlive, hpending, hheld, hdone⟩ := h
  refine ⟨hkept, hlive, hpending.tail.2.1, fun d hd => hheld d (.tail _ hd), fun d hd hnot hne => ?_⟩
  exact hdone d hd (List.not_mem_cons_of_ne_of_not_mem hne hnot) hne

theorem Phase.close {c : Connections} {conn : ℕ} {rest : List ℕ}
    (h : Phase c (.closing (conn :: rest))) (hsrv : conn ≠ c.srv) :
    Phase (c.setState conn .closed) (.closing rest) := by
  obtain ⟨hkept, hlive, hpending, hheld, hdone⟩ := h
  obtain ⟨-, hrest, hnot⟩ := hpending.tail
  refine ⟨⟨hkept.head, hkept.nodup, hkept.opened, hkept.clients⟩, ?_, hrest, ?_, ?_⟩
  · rw [Connections.sockets_setState, Connections.srv_setState, Function.update_of_ne hsrv.symm]
    exact hlive
  · intro d hd
    have hne : d ≠ conn := fun heq => hnot (heq ▸ hd)
    rw [Connections.sockets_setState, Function.update_of_ne hne]
    exact hheld d (.tail _ hd)
  · intro d hd hnot' hne
    rw [Connections.sockets_setState]
    exact Connections.update_cases (P := (· = SockState.closed)) (fun _ => rfl) fun heq =>
      hdone d hd (List.not_mem_cons_of_ne_of_not_mem heq hnot') hne

/-- With nothing left to go through, closing the listener closes the last of the read list. -/
theorem Phase.stopped {c : Connections} (h : Phase c (.closing [])) :
    Phase (c.setState c.srv .closed) .stopped := by
  obtain ⟨hkept, -, -, -, hdone⟩ := h
  refine ⟨⟨hkept.head, hkept.nodup, hkept.opened, hkept.clients⟩, ?_⟩
  intro d hd
  rw [Connections.sockets_setState]
  exact Connections.update_cases (P := (· = SockState.closed)) (fun _ => rfl) fun heq =>
    hdone d hd List.not_mem_nil heq

theorem hasDescriptor_of_held {s : SockState} (h : Connections.Held s) (hs : s ≠ .aborted) :
    s.HasDescriptor := by
  rcases h with rfl | rfl | rfl
  · exact .inl rfl
  · exact .inr rfl
  · exact absurd rfl hs

theorem Inv.step (h : Inv w) {move : Move} (hstep : Step cfg w move w') (hsafe : w.Safe cfg move) :
    Inv w' := by
  have hphase := h.phase
  have hloop {pc : Pc} (hto : Phase w.toConnections pc) (hpc : ¬ Leaving pc) :
      Inv { w with pc := pc } :=
    h.goto hto rfl (fun hl => absurd hl hpc) (fun hs => hpc (hs ▸ trivial))
  cases hstep with
  | quit hpc hq =>
    rw [hpc] at hphase
    have hup : w.toConnections.Up := hphase
    exact h.goto ⟨hup.toKept, hup.srv_live, .sublist hup.toKept (List.Sublist.refl _), hup.held,
      fun d hd hnot => absurd hd hnot⟩ rfl (fun _ => hq) nofun
  | enter hpc hq =>
    rw [hpc] at hphase
    exact hloop hphase id
  | selectRaises hpc hconn hfd =>
    rw [hpc] at hphase
    simp only [Safe, hpc] at hsafe
    exact absurd (hasDescriptor_of_held (hphase.held _ hconn) (hsafe _ hconn)) hfd
  | select hpc hfd hready now =>
    rw [hpc] at hphase
    exact hloop ⟨hphase, .sublist hphase.toKept hready⟩ id
  | pass hpc hsrv =>
    rw [hpc] at hphase
    exact hloop ⟨hphase.1, hphase.2, hsrv⟩ id
  | accept hpc hsrv incoming handshake =>
    rw [hpc] at hphase
    obtain ⟨hne, hdone⟩ := hsafe
    obtain ⟨addr, rfl⟩ := Option.ne_none_iff_exists'.mp hne
    obtain ⟨c, hc, hup, hsrv', hkeeps⟩ := hphase.1.accept cfg addr hdone _
    refine h.goto_next hc hsrv' ⟨hup, ⟨hphase.2.1.filter _, fun d hd => ?_⟩, ?_⟩ id
    · exact hkeeps d (hphase.2.2 d (List.mem_filter.mp hd).1)
    · simp [hsrv']
  | serve hpc hreceive answered hturn =>
    rw [hpc] at hphase
    simp only [Safe, hpc] at hsafe
    obtain ⟨hup, hpending, hsrv⟩ := hphase
    obtain ⟨hne, hsrv⟩ := List.ne_and_not_mem_of_not_mem_cons hsrv
    obtain ⟨hmem, hrest, hnot⟩ := hpending.tail
    obtain ⟨c, hc, hup', hspares⟩ := hup.serve cfg hmem hne.symm hsafe _ hreceive answered
    exact h.goto_next hc hspares.srv ⟨hup', hrest.spared hnot hspares, hspares.srv ▸ hsrv⟩ id
  | served hpc =>
    rw [hpc] at hphase
    exact hloop ⟨hphase.1, .sublist hphase.1.toKept (List.Sublist.refl _)⟩ id
  | sweep hpc hturn =>
    rw [hpc] at hphase
    simp only [Safe, hpc] at hsafe
    obtain ⟨hmem, hrest, hnot⟩ := hphase.2.tail
    obtain ⟨c, hc, hup', hspares⟩ := hphase.1.sweep cfg hmem hsafe
    exact h.goto_next hc hspares.srv ⟨hup', hrest.spared hnot hspares⟩ id
  | swept hpc =>
    rw [hpc] at hphase
    exact hloop hphase.1 id
  | silent hpc hskip =>
    rw [hpc] at hphase
    exact hloop hphase id
  | print hpc hprint =>
    rw [hpc] at hphase
    exact hloop ⟨hphase, .sublist hphase.toKept (List.drop_sublist _ _)⟩ id
  | name hpc hlive =>
    rw [hpc] at hphase
    exact hloop ⟨hphase.1, hphase.2.tail.2.1⟩ id
  | nameRaises hpc hlive =>
    rw [hpc] at hphase
    simp only [Safe, hpc] at hsafe
    rcases hphase.1.held _ hphase.2.tail.1 with hs | hs | hs
    · exact absurd hs hlive
    · exact absurd hs hsafe.1
    · exact absurd hs hsafe.2
  | printed hpc =>
    rw [hpc] at hphase
    exact ⟨hphase.1, h.resetting, nofun, nofun⟩
  | closeSkip hpc =>
    rw [hpc] at hphase
    exact h.goto hphase.closeSkip rfl (fun _ => h.quit (hpc ▸ trivial)) nofun
  | close hpc hsrv hfd hturn =>
    rw [hpc] at hphase
    rw [Connections.disconnect_of_hasDescriptor cfg hfd]
    exact h.goto (hphase.close hsrv) rfl (fun _ => h.quit (hpc ▸ trivial)) nofun
  | closeRaises hpc hsrv hfd =>
    rw [hpc] at hphase
    simp only [Safe, hpc] at hsafe
    exact absurd (hasDescriptor_of_held (hphase.2.2.2.1 _ List.mem_cons_self) hsafe) hfd
  | stopped hpc hfd =>
    rw [hpc] at hphase
    exact ⟨hphase.stopped, h.resetting, fun _ => h.quit (hpc ▸ trivial), fun _ => rfl⟩
  | stopRaises hpc hfd =>
    rw [hpc] at hphase
    exact absurd (.inl hphase.2.1) hfd
  | peerResets hsrv hlive =>
    exact ⟨hphase.of_setState (.inl hlive) hsrv (.inr (.inl rfl)), h.resetting, h.quit, h.started⟩
  | peerTurns responds => exact ⟨hphase, h.resetting, h.quit, h.started⟩
  | stop => exact ⟨hphase, h.resetting, fun _ => rfl, h.started⟩
  | resetCall hnone =>
    refine ⟨hphase, fun rest hr => ?_, h.quit, h.started⟩
    obtain rfl := Option.some.inj hr
    exact hphase.kept.clients
  | @resetNext conn rest hsome =>
    have hsnapshot := List.ne_and_not_mem_of_not_mem_cons (h.resetting _ hsome)
    have habort : Phase (w.abort conn) w.pc ∧ (w.abort conn).srv = w.srv := by
      unfold Connections.abort
      split_ifs with hfd
      · exact ⟨hphase.of_setState hfd hsnapshot.1.symm (.inr (.inr rfl)), rfl⟩
      · exact ⟨hphase, rfl⟩
    obtain ⟨hphase', hsrv⟩ := habort
    refine ⟨hphase', fun l hl => ?_, h.quit, h.started⟩
    obtain rfl := Option.some.inj hl
    exact hsrv ▸ hsnapshot.2
  | resetDone hsome =>
    exact ⟨hphase.of_clients List.not_mem_nil, nofun, fun _ => rfl, h.started⟩

theorem Inv.start (now : ℚ) : Inv (start now) where
  phase := ⟨⟨⟨[], rfl⟩, List.nodup_singleton _, by simp [Server.start, Connections.openListener],
    List.not_mem_nil⟩, rfl, by simp [Server.start, Connections.openListener, Connections.Held]⟩
  resetting := nofun
  quit := nofun
  started := nofun

/-! ### Every run -/

theorem waits_of_setState {c : ℕ} (hturn : ¬ w.Waits cfg c) {conn : ℕ} {pc : Pc} :
    ¬ Waits cfg { w with toConnections := w.setState conn .closed, pc := pc } c := by
  rintro ⟨htls, hsrv, hlive, hsilent⟩
  refine hturn ⟨htls, hsrv, ?_, hsilent⟩
  by_cases heq : c = conn
  · subst heq
    rw [Connections.sockets_setState, Function.update_self] at hlive
    cases hlive
  · rwa [Connections.sockets_setState, Function.update_of_ne heq] at hlive

/-- Once the loop is being left, its own steps stop it, where `reset()` has closed none of
the connections still to close and it waits for none of their peers. -/
theorem Inv.finishes (h : Inv w) {rest : List ℕ} (hpc : w.pc = .closing rest)
    (hnone : ∀ conn ∈ rest, w.sockets conn ≠ .aborted)
    (hturn : ∀ conn ∈ rest, ¬ w.Waits cfg conn) :
    ∃ w', Relation.ReflTransGen (LoopStep cfg) w w' ∧ w'.pc = .stopped := by
  induction rest generalizing w with
  | nil =>
    have hphase := h.phase
    rw [hpc] at hphase
    exact ⟨_, .single ⟨.stopped hpc (.inl hphase.2.1), by simp [Safe, hpc]⟩, rfl⟩
  | cons conn rest ih =>
    have hphase := h.phase
    rw [hpc] at hphase
    obtain ⟨-, -, hpending, hheld, -⟩ := hphase
    have hsafe : w.Safe cfg .loop := by
      simp only [Safe, hpc]
      exact hnone conn List.mem_cons_self
    have hnone' : ∀ d ∈ rest, w.sockets d ≠ .aborted := fun d hd => hnone d (.tail _ hd)
    have hturn' : ∀ d ∈ rest, ¬ w.Waits cfg d := fun d hd => hturn d (.tail _ hd)
    by_cases hsrv : conn = w.srv
    · subst hsrv
      have hstep : Step cfg w .loop _ := .closeSkip hpc
      obtain ⟨w', hrun, hstop⟩ := ih (h.step cfg hstep hsafe) rfl hnone' hturn'
      exact ⟨w', .head ⟨hstep, hsafe⟩ hrun, hstop⟩
    · have hfd := hasDescriptor_of_held (hheld conn List.mem_cons_self)
        (hnone conn List.mem_cons_self)
      have hstep : Step cfg w .loop _ := .close hpc hsrv hfd (hturn conn List.mem_cons_self)
      rw [Connections.disconnect_of_hasDescriptor cfg hfd] at hstep
      obtain ⟨w', hrun, hstop⟩ := ih (h.step cfg hstep hsafe) rfl (fun d hd => by
        show Function.update w.sockets conn .closed d ≠ .aborted
        exact Connections.update_cases (P := (· ≠ SockState.aborted)) (fun _ => by decide)
          fun _ => hnone' d hd) fun d hd => waits_of_setState cfg (hturn' d hd)
      exact ⟨w', .head ⟨hstep, hsafe⟩ hrun, hstop⟩

variable {cfg} in
/-- While the loop waits for a peer it has to disconnect, it takes no step. -/
theorem Step.not_waits {conn : ℕ} {rest : List ℕ} (hpc : w.pc = .closing (conn :: rest))
    (hstep : Step cfg w .loop w') : ¬ w.Waits cfg conn := by
  intro hwaits
  cases hstep with
  | closeSkip hpc' =>
    rw [hpc] at hpc'
    cases hpc'
    exact hwaits.2.1 rfl
  | close hpc' hne hfd hturn =>
    rw [hpc] at hpc'
    cases hpc'
    exact hturn hwaits
  | closeRaises hpc' hne hfd =>
    rw [hpc] at hpc'
    cases hpc'
    exact hfd (.inl hwaits.2.2.1)
  | quit hpc' | enter hpc' | selectRaises hpc' | select hpc' | pass hpc' | serve hpc'
  | served hpc' | sweep hpc' | swept hpc' | silent hpc' | print hpc' | name hpc' | nameRaises hpc'
  | printed hpc' | stopped hpc' | stopRaises hpc' =>
    rw [hpc] at hpc'
    cases hpc'

/-- In every run, over plaintext or TLS, that meets no failing accept or handshake, no peer
gone when the status line names it and no connection `reset()` closed and the loop still
uses: the loop leaves by no exception; it is left only where `quit_event` is set; from there
its own steps stop it, where each peer still to disconnect over TLS responds, and until the
next one does it takes none; and once it has stopped every socket of the read list is closed
and `started_event` is clear. -/
theorem run_survives {now : ℚ} (hrun : Relation.ReflTransGen (SafeStep cfg) (start now) w) :
    (∀ e, w.pc ≠ .raised e) ∧ (Leaving w.pc → w.quitEvent = true) ∧
      (∀ rest, w.pc = .closing rest → (∀ conn ∈ rest, w.sockets conn ≠ .aborted) →
        (∀ conn ∈ rest, ¬ w.Waits cfg conn) →
        ∃ w', Relation.ReflTransGen (LoopStep cfg) w w' ∧ w'.pc = .stopped) ∧
      (∀ conn rest, w.pc = .closing (conn :: rest) → w.Waits cfg conn →
        ∀ w', ¬ Step cfg w .loop w') ∧
      (w.pc = .stopped → w.srv ∈ w.readList ∧ (∀ conn ∈ w.readList, w.sockets conn = .closed) ∧
        w.startedEvent = false) := by
  have hinv : Inv w := @invariant_of_run Server (SafeStep cfg) Inv
    (fun _ _ h ⟨_, hstep, hsafe⟩ => h.step cfg hstep hsafe) _ _ (.start now) hrun
  have hphase := hinv.phase
  refine ⟨fun e he => ?_, hinv.quit, fun rest => hinv.finishes cfg,
    fun conn rest hpc hwaits w' hstep => hstep.not_waits hpc hwaits, fun hstop => ?_⟩
  · rw [he] at hphase
    exact hphase
  · rw [hstop] at hphase
    exact ⟨hphase.1.srv_mem, hphase.2, hinv.started hstop⟩

/-! ### Runs on fixed moves -/

/-- The server between two passes, at `now`. -/
def holding (c : Connections) (now : ℚ) : Server where
  toConnections := c
  lastPrintTime := 0
  pc := .printing now

theorem run_accepting (now : ℚ) : Relation.ReflTransGen (SafeStep cfg)
    (start 0) { start 0 with pc := .accepting now [0] } := by
  have henter : SafeStep cfg (start 0) { start 0 with pc := .selecting } :=
    ⟨.loop, .enter rfl rfl, trivial⟩
  have hselect : SafeStep cfg { start 0 with pc := .selecting }
      { start 0 with pc := .accepting now [0] } :=
    ⟨.loop, .select rfl (by simp [start, Connections.openListener, SockState.HasDescriptor])
      (List.Sublist.refl _) now, by simp [Safe, start, Connections.openListener]⟩
  exact .tail (.single henter) hselect

variable {cfg} in
/-- A pass that takes a client in and drops none. -/
theorem run_holding {c : Connections} {now : ℚ}
    (hc : Connections.openListener.accept cfg (some ("10.0.0.7", 50000)) .done now = .ok c)
    (hactive : ∀ conn ∈ c.readList, ¬ c.Inactive cfg conn now) :
    Relation.ReflTransGen (SafeStep cfg) (start 0) (holding c now) := by
  let w : Server := { start 0 with pc := .accepting now [0] }
  have haccept : Step cfg w (.accept (some ("10.0.0.7", 50000)) .done)
      (w.next (w.accept cfg (some ("10.0.0.7", 50000)) .done now)
        (.serving now ([0].filter (· ≠ w.srv)))) := .accept rfl (List.mem_singleton_self _) _ _
  rw [show w.accept cfg (some ("10.0.0.7", 50000)) .done now = .ok c from hc] at haccept
  have hserved : SafeStep cfg { holding c now with pc := .serving now [] }
      { holding c now with pc := .sweeping now c.readList } := ⟨.loop, .served rfl, trivial⟩
  have hsweeps (rest : List ℕ) (hrest : ∀ conn ∈ rest, conn ∈ c.readList) :
      Relation.ReflTransGen (SafeStep cfg) { holding c now with pc := .sweeping now rest }
        { holding c now with pc := .sweeping now [] } := by
    induction rest with
    | nil => exact .refl
    | cons conn rest ih =>
      obtain ⟨hconn, hrest⟩ := List.forall_mem_cons.mp hrest
      let w : Server := { holding c now with pc := .sweeping now (conn :: rest) }
      have hsweep : Step cfg w .loop (w.next (c.sweep cfg conn now) (.sweeping now rest)) :=
        .sweep rfl fun hin => absurd hin (hactive conn hconn)
      rw [Connections.sweep_of_active (hactive conn hconn)] at hsweep
      exact .head ⟨.loop, hsweep, fun _ hin => absurd hin (hactive conn hconn)⟩ (ih hrest)
  have hswept : SafeStep cfg { holding c now with pc := .sweeping now [] } (holding c now) :=
    ⟨.loop, .swept rfl, trivial⟩
  have htaken := (run_accepting cfg now).tail ⟨_, haccept, by simp [Safe]⟩
  exact ((htaken.tail hserved).trans (hsweeps c.readList fun _ h => h)).tail hswept

def oneClient (now : ℚ) : Connections :=
  (Connections.openListener.openSock .live).register {} 1 ("10.0.0.7", 50000) now

theorem run_oneClient (now : ℚ) :
    Relation.ReflTransGen (SafeStep {}) (start 0) (holding (oneClient now) now) :=
  run_holding rfl (Connections.active_of_pair zero_le_one rfl rfl)

def oneTlsClient (now : ℚ) : Connections :=
  ((Connections.openListener.openSock .detached).openSock .live).register { tls := true } 2
    ("10.0.0.7", 50000) now

theorem run_oneTlsClient (now : ℚ) :
    Relation.ReflTransGen (SafeStep { tls := true }) (start 0) (holding (oneTlsClient now) now) :=
  run_holding rfl (Connections.active_of_pair zero_le_one rfl rfl)

/-- The server told to stop while its one client, over TLS, does not respond. -/
def silent : Server :=
  { holding (oneTlsClient 1) 1 with
    quitEvent := true
    responds := Function.update (fun _ => true) 2 false
    pc := .closing [0, 2] }

theorem run_silent : Relation.ReflTransGen (SafeStep { tls := true }) (start 0) silent := by
  let held : Server := holding (oneTlsClient 1) 1
  have hsilent : SafeStep { tls := true } held { held with pc := .test } :=
    ⟨.loop, .silent rfl (by simp [held, holding]), trivial⟩
  have hstop : SafeStep { tls := true } { held with pc := .test }
      { held with pc := .test, quitEvent := true } := ⟨.owner, .stop, trivial⟩
  have hceases : SafeStep { tls := true } { held with pc := .test, quitEvent := true }
      { held with
        pc := .test
        quitEvent := true
        responds := Function.update (fun _ => true) 2 false } :=
    ⟨.turn 2, .peerTurns false, trivial⟩
  exact ((((run_oneTlsClient 1).tail hsilent).tail hstop).tail hceases).tail
    ⟨.loop, .quit rfl rfl, trivial⟩

/-- A client comes in over TLS, falls silent, and responds once the owner has called `stop()`:
the loop ends with every socket closed. -/
theorem run_survives_stop : ∃ w,
    Relation.ReflTransGen (SafeStep { tls := true }) (start 0) w ∧
    w.pc = .stopped ∧ (∀ conn ∈ w.readList, w.sockets conn = .closed) ∧
    w.startedEvent = false := by
  have hresumes : SafeStep { tls := true } silent
      { silent with responds := Function.update silent.responds 2 true } :=
    ⟨.turn 2, .peerTurns true, trivial⟩
  have hclosing := run_silent.tail hresumes
  obtain ⟨w, hrun, hpc⟩ := (run_survives { tls := true } hclosing).2.2.1 [0, 2] rfl (by decide)
    (by simp [Waits, silent, holding, oneTlsClient, Connections.register, Connections.openSock,
      Connections.openListener])
  have hend := hclosing.trans (hrun.lift id fun _ _ h => ⟨.loop, h⟩)
  obtain ⟨-, hclosed, hstarted⟩ := (run_survives { tls := true } hend).2.2.2.2 hpc
  exact ⟨w, hend, hpc, hclosed, hstarted⟩

/-- A run of any steps at all. -/
def Run (cfg : ServerSettings) (w : Server) : Prop :=
  Relation.ReflTransGen (fun v v' => ∃ move, Step cfg v move v') (start 0) w

theorem Run.of_safe {cfg : ServerSettings} {w : Server}
    (h : Relation.ReflTransGen (SafeStep cfg) (start 0) w) : Run cfg w :=
  h.lift id fun _ _ ⟨move, hstep, _⟩ => ⟨move, hstep⟩

theorem Run.step {cfg : ServerSettings} {w w' : Server} {move : Move} (h : Run cfg w)
    (hstep : Step cfg w move w') : Run cfg w' := .tail h ⟨move, hstep⟩

/-- The loop is left by an exception: by a client that aborts before it is accepted, by one
that resets before the status line names it, over TLS by one whose handshake the network
ends, and by `reset()` while a client is held. And over TLS one that stays silent keeps it
from ending once it has been told to stop. -/
theorem run_raises :
    (∃ w, Run {} w ∧ w.pc = .raised .osError) ∧
    (∃ w, Run {} w ∧ w.sockets 1 = .reset ∧ w.pc = .raised .osError) ∧
    (∃ w, Run { tls := true } w ∧ w.pc = .raised .osError) ∧
    (∃ w, Run {} w ∧ w.sockets 1 = .aborted ∧ w.pc = .raised .osError) ∧
    ∃ w, Run { tls := true } w ∧ w.pc = .closing [2] ∧ w.quitEvent = true ∧
      w.startedEvent = true ∧ w.sockets w.srv = .live ∧ w.sockets 2 = .live ∧
      ∀ w', ¬ Step { tls := true } w .loop w' := by
  refine ⟨?_, ?_, ?_, ?_, ?_⟩
  · have hraise : Step {} { start 0 with pc := .accepting 0 [0] } (.accept none .done) _ :=
      .accept rfl (List.mem_singleton_self _) _ _
    exact ⟨_, (Run.of_safe (run_accepting {} 0)).step hraise, rfl⟩
  · let held : Server := holding (oneClient 2) 2
    have hreset : Step {} held (.peer 1) { held with toConnections := held.setState 1 .reset } :=
      .peerResets (by decide) rfl
    have hprint : Step {} { held with toConnections := held.setState 1 .reset } .loop
        { held with toConnections := held.setState 1 .reset, pc := .naming 2 [1] } :=
      .print rfl (by simp [held, holding])
    have hraise : Step {} { held with toConnections := held.setState 1 .reset, pc := .naming 2 [1] }
        .loop _ := .nameRaises rfl (by decide)
    exact ⟨_, (((Run.of_safe (run_oneClient 2)).step hreset).step hprint).step hraise, rfl, rfl⟩
  · have hraise : Step { tls := true } { start 0 with pc := .accepting 0 [0] }
        (.accept (some ("10.0.0.7", 50000)) .osError) _ :=
      .accept rfl (List.mem_singleton_self _) _ _
    exact ⟨_, (Run.of_safe (run_accepting { tls := true } 0)).step hraise, rfl⟩
  · let held : Server := holding (oneClient 1) 1
    have hcall : Step {} held .owner { held with resetting := some [1] } := .resetCall rfl
    have hnext : Step {} { held with resetting := some [1] } .owner
        { held with
          toConnections := held.abort 1
          resetting := some [] } := .resetNext rfl
    have hquit := (((Run.of_safe (run_oneClient 1)).step hcall).step hnext).step (.resetDone rfl)
    -- The loop comes round to its test with the client's socket closed under it.
    have hclosing := (hquit.step (.silent (show _ = Pc.printing 1 from rfl)
      (by simp [held, holding]))).step (.quit rfl rfl)
    have hclient := hclosing.step (.closeSkip (show _ = Pc.closing (_ :: [1]) from rfl))
    exact ⟨_, hclient.step (.closeRaises (show _ = Pc.closing (1 :: []) from rfl) (by decide)
      (by decide)), rfl, rfl⟩
  · have hskip : Step { tls := true } silent .loop { silent with pc := .closing [2] } :=
      .closeSkip rfl
    refine ⟨_, (Run.of_safe run_silent).step hskip, rfl, rfl, rfl, rfl, rfl, fun w' hstep => ?_⟩
    exact hstep.not_waits rfl ⟨rfl, by decide, rfl, rfl⟩

end Server

end Pyomb
