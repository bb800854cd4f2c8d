import Pyomb.Simulators.Bookkeeping
import Pyomb.Simulators.Inbound
import Pyomb.Simulators.ServerLoop

/-! The server's loop with what its peers send. What `select` reports is what has arrived in
the kernel by then, and what a connection is served is the next frame of what has arrived.
Between any two steps more may arrive on any connection, or it may end. -/

namespace Pyomb

/-- The connections a pass has still to look at. -/
def Pc.ready : Pc → List ℕ
  | .accepting _ ready => ready
  | .serving _ rest => rest
  | _ => []

/-! ### The read list, in every run of the loop -/

namespace Server

/-- The read list names no connection twice, and what a pass has still to look at is on it. -/
structure Listed (w : Server) : Prop where
  nodup : w.readList.Nodup
  opened : ∀ conn ∈ w.readList, conn < w.opened
  ready : Pending w.toConnections w.pc.ready
  served : ∀ now rest, w.pc = .serving now rest → w.srv ∉ rest

/-- What a step does to the read list: it keeps it, takes one connection off it, or adds a
new one. -/
inductive Listing (c c' : Connections) : Prop
  | kept (hlist : c'.readList = c.readList) (hopened : c'.opened = c.opened)
  | dropped (conn : ℕ) (hlist : c'.readList = c.readList.erase conn) (hopened : c'.opened = c.opened)
  | refused (hlist : c'.readList = c.readList) (hopened : c.opened < c'.opened)
  | added (conn : ℕ) (hlist : c'.readList = c.readList ++ [conn]) (hold : c.opened ≤ conn)
      (hnew : conn < c'.opened)

variable {cfg : ServerSettings} {c c' : Connections}

theorem Listing.nodup (h : Listing c c') (hnodup : c.readList.Nodup)
    (hopened : ∀ conn ∈ c.readList, conn < c.opened) :
    c'.readList.Nodup ∧ ∀ conn ∈ c'.readList, conn < c'.opened := by
  cases h with
  | kept hlist heq => exact ⟨hlist ▸ hnodup, hlist ▸ heq ▸ hopened⟩
  | dropped conn hlist heq =>
    exact ⟨hlist ▸ hnodup.erase conn,
      fun d hd => heq ▸ hopened d (List.mem_of_mem_erase (hlist ▸ hd))⟩
  | refused hlist hlt => exact ⟨hlist ▸ hnodup, fun d hd => (hopened d (hlist ▸ hd)).trans hlt⟩
  | added conn hlist hold hnew =>
    have hfresh : conn ∉ c.readList := fun hmem => absurd (hopened conn hmem) (not_lt.mpr hold)
    rw [hlist, List.forall_mem_append, List.forall_mem_singleton]
    exact ⟨List.nodup_append'.mpr ⟨hnodup, List.nodup_singleton _, by simpa using hfresh⟩,
      fun d hd => (hopened d hd).trans (hold.trans_lt hnew), hnew⟩

/-- What is not listed is not listed again: a connection that is added has a new number. -/
theorem Listing.not_mem (h : Listing c c') {conn : ℕ} (hnot : conn ∉ c.readList)
    (hlt : conn < c.opened) : conn ∉ c'.readList ∧ conn < c'.opened := by
  cases h with
  | kept hlist heq => exact ⟨hlist ▸ hnot, heq ▸ hlt⟩
  | dropped d hlist heq => exact ⟨fun hm => hnot (List.mem_of_mem_erase (hlist ▸ hm)), heq ▸ hlt⟩
  | refused hlist hlt' => exact ⟨hlist ▸ hnot, hlt.trans hlt'⟩
  | added d hlist hold hnew =>
    refine ⟨fun hm => ?_, by omega⟩
    rcases List.mem_append.mp (hlist ▸ hm) with hm | hm
    · exact hnot hm
    · have := List.mem_singleton.mp hm
      omega

theorem listing_forget {conn : ℕ} (h : c.forget cfg conn = .ok c') :
    c'.readList = c.readList.erase conn ∧ c'.opened = c.opened ∧ c'.srv = c.srv ∧
      c'.sockets = Function.update c.sockets conn .closed := by
  unfold Connections.forget Connections.disconnect at h
  split_ifs at h
  · cases h
  · cases h
    exact ⟨rfl, rfl, rfl, rfl⟩

theorem listing_serve {conn : ℕ} {now : ℚ} {ε : Type} {received : Except (Exc ε) Bytes}
    {answered : Except (Exc ε) Unit} (h : c.serve cfg conn now received answered = .ok c') :
    (c'.readList = c.readList ∨ c'.readList = c.readList.erase conn) ∧ c'.opened = c.opened ∧
      c'.srv = c.srv ∧ ∀ d, c'.sockets d = c.sockets d ∨ c'.sockets d = .closed := by
  have hforget {c : Connections} (h : c.forget cfg conn = .ok c') :
      (c'.readList = c.readList ∨ c'.readList = c.readList.erase conn) ∧ c'.opened = c.opened ∧
        c'.srv = c.srv ∧ ∀ d, c'.sockets d = c.sockets d ∨ c'.sockets d = .closed := by
    obtain ⟨hlist, hopened, hsrv, hsockets⟩ := listing_forget h
    refine ⟨.inr hlist, hopened, hsrv, fun d => ?_⟩
    rw [hsockets]
    exact Connections.update_cases (P := fun s => s = c.sockets d ∨ s = .closed) (fun _ => .inr rfl)
      fun _ => .inl rfl
  rcases Connections.serve_cases cfg c conn now received answered with
    ⟨heq, -⟩ | ⟨heq, -⟩ | ⟨heq, -⟩ | ⟨heq, -⟩ <;> rw [heq] at h
  · exact hforget h
  · cases h
  · exact hforget (c := c.touch conn now) h
  · cases h
    exact ⟨.inl rfl, rfl, rfl, fun d => .inl rfl⟩

theorem listing_sweep {conn : ℕ} {now : ℚ} (h : c.sweep cfg conn now = .ok c') :
    (c'.readList = c.readList ∨ c'.readList = c.readList.erase conn) ∧ c'.opened = c.opened ∧
      c'.srv = c.srv := by
  unfold Connections.sweep at h
  split_ifs at h
  · cases h
    exact ⟨.inl rfl, rfl, rfl⟩
  · split at h
    · cases h
      exact ⟨.inl rfl, rfl, rfl⟩
    · split_ifs at h
      · obtain ⟨hlist, hopened, hsrv, -⟩ := listing_forget h
        exact ⟨.inr hlist, hopened, hsrv⟩
      · cases h
        exact ⟨.inl rfl, rfl, rfl⟩

variable {w w' : Server}

theorem listing_next {r : Except LoopError Connections} (pc : Pc)
    (h : ∀ c, r = .ok c → Listing w.toConnections c ∧ c.srv = w.srv) :
    Listing w.toConnections (w.next r pc).toConnections ∧ (w.next r pc).srv = w.srv := by
  cases r with
  | ok c => exact h c rfl
  | error e => exact ⟨.kept rfl rfl, rfl⟩

theorem listing_accept {incoming : Option (String × ℕ)} {handshake : Handshake} {now : ℚ}
    (h : c.accept cfg incoming handshake now = .ok c') : Listing c c' ∧ c'.srv = c.srv := by
  have hc := Connections.accept_change h
  refine ⟨?_, hc.srv⟩
  cases hc with
  | refused => exact .refused rfl (Nat.lt_succ_self _)
  | @admitted sockets opened conn addr now hroom hkeep hold hnew =>
    cases hmode : cfg.processConnections with
    | true => exact .added conn (by simp [Connections.register, hmode]) hold hnew
    | false =>
      exact .refused (by simp [Connections.register, hmode]) (hold.trans_lt hnew)

theorem Listing.of_erase {conn : ℕ}
    (h : c'.readList = c.readList ∨ c'.readList = c.readList.erase conn)
    (hopened : c'.opened = c.opened) : Listing c c' :=
  h.elim (fun h => .kept h hopened) fun h => .dropped conn h hopened

theorem abort_listed (c : Connections) (conn : ℕ) : (c.abort conn).readList = c.readList ∧
    (c.abort conn).opened = c.opened ∧ (c.abort conn).srv = c.srv := by
  unfold Connections.abort
  split_ifs <;> exact ⟨rfl, rfl, rfl⟩

/-- What a step of the loop, of a peer or of the owner does to the read list. -/
theorem Step.listing {move : Move} (hstep : Step cfg w move w') :
    Listing w.toConnections w'.toConnections ∧ w'.srv = w.srv := by
  cases hstep with
  | accept hpc hsrv incoming handshake => exact listing_next _ fun c hc => listing_accept hc
  | serve hpc hreceive answered hturn =>
    refine listing_next _ fun c hc => ?_
    obtain ⟨hlist, hopened, hsrv, -⟩ := listing_serve hc
    exact ⟨.of_erase hlist hopened, hsrv⟩
  | sweep hpc hturn =>
    refine listing_next _ fun c hc => ?_
    obtain ⟨hlist, hopened, hsrv⟩ := listing_sweep hc
    exact ⟨.of_erase hlist hopened, hsrv⟩
  | close hpc hsrv hfd hturn =>
    refine listing_next _ fun c hc => ?_
    rw [Connections.disconnect_of_hasDescriptor cfg hfd] at hc
    cases hc
    exact ⟨.kept rfl rfl, rfl⟩
  | @resetNext conn rest hsome =>
    obtain ⟨hlist, hopened, hsrv⟩ := abort_listed w.toConnections conn
    exact ⟨.kept hlist hopened, hsrv⟩
  | _ => exact ⟨.kept rfl rfl, rfl⟩

theorem Listed.of_idle (h : Listed w) (hl : Listing w.toConnections w'.toConnections)
    (hpc : w'.pc.ready = []) : Listed w' := by
  obtain ⟨hnodup, hopened⟩ := hl.nodup h.nodup h.opened
  refine ⟨hnodup, hopened, ?_, fun now rest hserving => ?_⟩
  · rw [hpc]
    exact ⟨List.nodup_nil, nofun⟩
  · obtain rfl : rest = [] := by
      rw [hserving] at hpc
      exact hpc
    exact List.not_mem_nil

theorem Listed.of_still (h : Listed w) (hlist : w'.readList = w.readList)
    (hopened : w'.opened = w.opened) (hsrv : w'.srv = w.srv) (hpc : w'.pc = w.pc) : Listed w' where
  nodup := hlist ▸ h.nodup
  opened := by
    rw [hlist, hopened]
    exact h.opened
  ready := by
    rw [hpc]
    exact ⟨h.ready.1, fun conn hconn => hlist ▸ h.ready.2 conn hconn⟩
  served := by
    rw [hpc, hsrv]
    exact h.served

theorem Listed.step {move : Move} (h : Listed w) (hstep : Step cfg w move w') : Listed w' := by
  have hl := hstep.listing
  have hready := h.ready
  cases hstep with
  | select hpc hfd hsub now =>
    exact ⟨h.nodup, h.opened, ⟨hsub.nodup h.nodup, fun conn hconn => hsub.subset hconn⟩, nofun⟩
  | pass hpc hsrv =>
    rw [hpc] at hready
    refine ⟨h.nodup, h.opened, hready, fun now rest heq => ?_⟩
    cases heq
    exact hsrv
  | @accept now ready hpc hsrv incoming handshake =>
    rw [hpc] at hready
    obtain ⟨hl, hsrv'⟩ := hl
    obtain ⟨hnodup, hopened⟩ := hl.nodup h.nodup h.opened
    cases hr : w.accept cfg incoming handshake now with
    | error e =>
      rw [hr] at hl
      exact h.of_idle hl rfl
    | ok c =>
      rw [hr] at hnodup hopened hsrv'
      have hkeep : ∀ conn ∈ w.readList, conn ∈ c.readList := by
        intro conn hconn
        have hlisting := (listing_accept hr).1
        cases Connections.accept_change hr with
        | refused => exact hconn
        | admitted addr now =>
          exact Connections.subset_register cfg { w.toConnections with sockets := _, opened := _ } _
            addr now hconn
      refine ⟨hnodup, hopened, ⟨hready.1.filter _, fun conn hconn => ?_⟩, fun now rest heq => ?_⟩
      · exact hkeep conn (hready.2 conn (List.mem_filter.mp hconn).1)
      · cases heq
        rw [hsrv']
        simp
  | @serve now conn rest hpc _ _ _ _ _ _ received hreceive answered hturn =>
    rw [hpc] at hready
    obtain ⟨-, hrest, hnot⟩ := Pending.tail hready
    obtain ⟨hl, hsrv'⟩ := hl
    obtain ⟨hnodup, hopened⟩ := hl.nodup h.nodup h.opened
    cases hr : w.serve cfg conn now received answered with
    | error e =>
      rw [hr] at hl
      exact h.of_idle hl rfl
    | ok c =>
      rw [hr] at hnodup hopened hsrv'
      refine ⟨hnodup, hopened, ⟨hrest.1, fun d hd => ?_⟩, fun now' rest' heq => ?_⟩
      · obtain ⟨hlist, -⟩ := listing_serve hr
        have hne : d ≠ conn := fun heq => hnot (heq ▸ hd)
        rcases hlist with hlist | hlist
        · exact hlist.symm ▸ hrest.2 d hd
        · exact hlist.symm ▸ (List.mem_erase_of_ne hne).mpr (hrest.2 d hd)
      · cases heq
        rw [hsrv']
        exact fun hmem => h.served now (conn :: rest) hpc (List.mem_cons_of_mem _ hmem)
  | peerResets | peerTurns | stop | resetCall | resetDone => exact h.of_still rfl rfl rfl rfl
  | @resetNext conn rest hsome =>
    obtain ⟨hlist, hopened, hsrv⟩ := abort_listed w.toConnections conn
    exact h.of_still hlist hopened hsrv rfl
  | sweep hpc | close hpc =>
    refine h.of_idle hl.1 ?_
    unfold next
    split <;> rfl
  | _ => exact h.of_idle hl.1 rfl

theorem Listed.start (now : ℚ) : Listed (start now) := by
  refine ⟨List.nodup_singleton _, ?_, ⟨List.nodup_nil, nofun⟩, nofun⟩
  simp [Server.start, Connections.openListener]

end Server

/-! ### The loop and what arrives -/

/-- The server with what has arrived on each connection. The rest is kept for the record: all
that has arrived, the frames handed to `on_data`, those of before the pass, and the frame each
connection stood at when `select` was last called. -/
structure Traffic extends Server where
  inbound : ℕ → Inbound := fun _ => {}
  clock : ℚ
  arrived : ℕ → Bytes := fun _ => []
  served : ℕ → List Bytes := fun _ => []
  before : ℕ → List Bytes := fun _ => []
  offers : ℕ → Option TcpFrame := fun _ => none

inductive Act where
  | select
  | arrive (conn : ℕ) (record : Bytes)
  | other
  deriving DecidableEq

namespace Traffic

variable (cfg : ServerSettings) (fragSize : ℤ)

def start (now : ℚ) : Traffic := { Server.start now with clock := now }

def reading (t : Traffic) (conn : ℕ) : Inbound :=
  if t.sockets conn = .aborted then { t.inbound conn with fate := .aborted } else t.inbound conn

/-- The server takes a step that reads nothing. What `reset()` closes is off the record. -/
def moved (t : Traffic) (w : Server) : Traffic :=
  { t with
    toServer := w
    offers := fun conn => if w.sockets conn = .aborted then none else t.offers conn }

/-- The steps of the server that read nothing, and call `select` only where it raises. -/
def Quiet (w : Server) : Move → Prop
  | .loop =>
    match w.pc with
    | .selecting => ∃ conn ∈ w.readList, ¬ (w.sockets conn).HasDescriptor
    | .serving _ (_ :: _) => False
    | _ => True
  | .accept _ _ | .turn _ | .owner => True
  | .peer _ => False

def deliver (served : List Bytes) : Except (Exc Halt) Bytes → List Bytes
  | .ok (b :: m) => served ++ [b :: m]
  | _ => served

/-- `select` has reported what is readable, and the listener where a client is waiting. -/
def afterSelect (t : Traffic) (backlog : Bool) : Traffic :=
  { t with
    pc := .accepting t.clock (t.readList.filter fun conn =>
      if conn = t.srv then backlog else (t.inbound conn).Readable cfg.tls)
    before := t.served
    offers := fun conn =>
      if conn ∈ t.readList ∧ conn ≠ t.srv then TcpFrame.first (t.inbound conn).unread else none }

/-- The server takes a step at which a connection was read. -/
def afterRead (t : Traffic) (conn : ℕ) (received : Except (Exc Halt) Bytes) (b : Buffers)
    (w : Server) : Traffic :=
  { t with
    toServer := w
    inbound := Function.update t.inbound conn { t.inbound conn with toBuffers := b }
    served := Function.update t.served conn (deliver (t.served conn) received) }

/-- A segment or a record has arrived, and over TLS perhaps the start of the next. -/
def afterArrival (t : Traffic) (conn : ℕ) (record : Bytes) (torn : Bool) : Traffic :=
  { t with
    inbound := Function.update t.inbound conn { t.inbound conn with
      kernel := (t.inbound conn).kernel ++ [record]
      torn := torn }
    arrived := Function.update t.arrived conn (t.arrived conn ++ record) }

theorem deliver_cons (served : List Bytes) (b : UInt8) (m : Bytes) :
    deliver served (.ok (b :: m)) = served ++ [b :: m] := rfl

theorem deliver_of_no_frame {received : Except (Exc Halt) Bytes}
    (h : ∀ b m, received ≠ .ok (b :: m)) (served : List Bytes) :
    deliver served received = served := by
  unfold deliver
  split
  next b m => exact absurd rfl (h b m)
  next => rfl

section Updates

variable (t : Traffic) (conn : ℕ) {d : ℕ} (received : Except (Exc Halt) Bytes) (b : Buffers)
  (w : Server) (record : Bytes) (torn : Bool)

@[simp] theorem served_afterRead_self :
    (t.afterRead conn received b w).served conn = deliver (t.served conn) received :=
  Function.update_self ..

@[simp] theorem served_afterRead_of_ne (h : d ≠ conn) :
    (t.afterRead conn received b w).served d = t.served d := Function.update_of_ne h ..

@[simp] theorem inbound_afterRead_self :
    (t.afterRead conn received b w).inbound conn = { t.inbound conn with toBuffers := b } :=
  Function.update_self ..

@[simp] theorem inbound_afterRead_of_ne (h : d ≠ conn) :
    (t.afterRead conn received b w).inbound d = t.inbound d := Function.update_of_ne h ..

@[simp] theorem arrived_afterArrival_self :
    (t.afterArrival conn record torn).arrived conn = t.arrived conn ++ record :=
  Function.update_self ..

@[simp] theorem arrived_afterArrival_of_ne (h : d ≠ conn) :
    (t.afterArrival conn record torn).arrived d = t.arrived d := Function.update_of_ne h ..

@[simp] theorem inbound_afterArrival_of_ne (h : d ≠ conn) :
    (t.afterArrival conn record torn).inbound d = t.inbound d := Function.update_of_ne h ..

theorem toBuffers_afterArrival : ((t.afterArrival conn record torn).inbound conn).toBuffers =
    ⟨(t.inbound conn).held, (t.inbound conn).kernel ++ [record]⟩ := by
  simp [afterArrival]

end Updates

inductive Step : Traffic → Act → Traffic → Prop
  | server {t : Traffic} {move : Move} {w : Server} (hstep : Server.Step cfg t.toServer move w)
      (hquiet : Quiet t.toServer move) : Step t .other (t.moved w)
  | select {t : Traffic} (hpc : t.pc = .selecting)
      (hfd : ∀ conn ∈ t.readList, (t.sockets conn).HasDescriptor) (backlog : Bool) :
      Step t .select (t.afterSelect cfg backlog)
  /-- `_serve`, once neither `receive` nor `forget` waits. -/
  | serve {t : Traffic} {now : ℚ} {conn : ℕ} {rest : List ℕ}
      (hpc : t.pc = .serving now (conn :: rest)) {received : Except (Exc Halt) Bytes} {b : Buffers}
      (hreceive : (t.reading conn).receive cfg.tls fragSize = some (received, b))
      (hreturns : ∀ msg, received ≠ .error (.network msg (some .waits)))
      (answered : Except (Exc Halt) Unit)
      (hturn : Connections.Drops received answered → ¬ t.Waits cfg conn) :
      Step t .other (t.afterRead conn received b
        (t.next (t.serve cfg conn now received answered) (.serving now rest)))
  | arrive {t : Traffic} {conn : ℕ} (halive : (t.inbound conn).fate = .alive) (record : Bytes)
      {torn : Bool} (htorn : torn = true → cfg.tls = true) :
      Step t (.arrive conn record) (t.afterArrival conn record torn)
  | tear {t : Traffic} {conn : ℕ} (halive : (t.inbound conn).fate = .alive)
      (htls : cfg.tls = true) :
      Step t .other { t with
        inbound := Function.update t.inbound conn { t.inbound conn with torn := true } }
  | close {t : Traffic} {conn : ℕ} (halive : (t.inbound conn).fate = .alive) :
      Step t .other { t with
        inbound := Function.update t.inbound conn { t.inbound conn with fate := .closed } }
  | reset {t : Traffic} {conn : ℕ} {w : Server}
      (hstep : Server.Step cfg t.toServer (.peer conn) w) :
      Step t .other { t with
        toServer := w
        inbound := Function.update t.inbound conn { t.inbound conn with fate := .reset } }
  | tick {t : Traffic} {later : ℚ} (h : t.clock ≤ later) : Step t .other { t with clock := later }

variable {cfg fragSize} {t t' : Traffic}

theorem mem_ready_afterSelect {conn : ℕ} {backlog : Bool} (hne : conn ≠ t.srv) :
    conn ∈ (t.afterSelect cfg backlog).pc.ready ↔
      conn ∈ t.readList ∧ (t.inbound conn).Readable cfg.tls := by
  show conn ∈ t.readList.filter _ ↔ _
  rw [List.mem_filter, if_neg hne, decide_eq_true_iff]

theorem Step.server_step {act : Act} (h : Step cfg fragSize t act t') :
    t'.toServer = t.toServer ∨ ∃ move, Server.Step cfg t.toServer move t'.toServer := by
  cases h with
  | server hstep hquiet => exact .inr ⟨_, hstep⟩
  | select hpc hfd backlog => exact .inr ⟨.loop, .select hpc hfd List.filter_sublist t.clock⟩
  | serve hpc hreceive hreturns answered hturn =>
    exact .inr ⟨.loop, .serve hpc hreceive answered hturn⟩
  | reset hstep => exact .inr ⟨_, hstep⟩
  | arrive | tear | close | tick => exact .inl rfl

theorem Step.listed {act : Act} (h : t.toServer.Listed) (hstep : Step cfg fragSize t act t') :
    t'.toServer.Listed := by
  rcases hstep.server_step with heq | ⟨move, hmove⟩
  · rw [heq]
    exact h
  · exact h.step hmove

/-- A step that reads nothing takes nothing new into the pass, and of what is in it, it drops
only the listener, unless the loop is left. -/
theorem ready_of_quiet {w w' : Server} {move : Move} (hstep : Server.Step cfg w move w')
    (hquiet : Quiet w move) : (∀ conn ∈ w'.pc.ready, conn ∈ w.pc.ready) ∧
      ((∃ e, w'.pc = .raised e) ∨ ∀ conn ∈ w.pc.ready, conn ≠ w.srv → conn ∈ w'.pc.ready) := by
  have hnone {w' : Server} (hpc : w.pc.ready = []) (hpc' : w'.pc.ready = []) :
      (∀ conn ∈ w'.pc.ready, conn ∈ w.pc.ready) ∧
        ((∃ e, w'.pc = .raised e) ∨ ∀ conn ∈ w.pc.ready, conn ≠ w.srv → conn ∈ w'.pc.ready) := by
    rw [hpc, hpc']
    exact ⟨nofun, .inr nofun⟩
  cases hstep with
  | selectRaises hpc => exact ⟨nofun, .inl ⟨_, rfl⟩⟩
  | select hpc hfd =>
    simp only [Quiet, hpc] at hquiet
    obtain ⟨conn, hconn, hno⟩ := hquiet
    exact absurd (hfd conn hconn) hno
  | pass hpc hsrv =>
    rw [hpc]
    exact ⟨fun conn hconn => hconn, .inr fun conn hconn _ => hconn⟩
  | @accept now ready hpc hsrv incoming handshake =>
    cases hr : w.accept cfg incoming handshake now with
    | error e => exact ⟨nofun, .inl ⟨e, rfl⟩⟩
    | ok c =>
      rw [hpc]
      refine ⟨fun conn hconn => (List.mem_filter.mp hconn).1, .inr fun conn hconn hne => ?_⟩
      exact List.mem_filter.mpr ⟨hconn, by simpa using hne⟩
  | serve hpc => simp [Quiet, hpc] at hquiet
  | sweep hpc | close hpc =>
    refine hnone (by rw [hpc]; rfl) ?_
    unfold Server.next
    split <;> rfl
  | peerResets => exact absurd hquiet id
  | peerTurns | stop | resetCall | resetNext | resetDone =>
    exact ⟨fun conn hconn => hconn, .inr fun conn hconn _ => hconn⟩
  | quit hpc | enter hpc | served hpc | swept hpc | silent hpc | print hpc | name hpc
  | nameRaises hpc | printed hpc | closeSkip hpc | closeRaises hpc | stopped hpc
  | stopRaises hpc =>
    exact hnone (by rw [hpc]; rfl) rfl

/-! ### The way back to `select` -/

variable (cfg fragSize) in
def AnyStep (t t' : Traffic) : Prop := ∃ act, Step cfg fragSize t act t'

variable (cfg fragSize) in
/-- A step at which `select`, if it is called, has no client to look at. -/
def ClearStep (t t' : Traffic) : Prop :=
  ∃ act, Step cfg fragSize t act t' ∧ (act = .select → ∀ conn ∈ t.readList, conn = t.srv)

theorem any_of_clear (h : Relation.ReflTransGen (ClearStep cfg fragSize) t t') :
    Relation.ReflTransGen (AnyStep cfg fragSize) t t' :=
  h.lift id fun _ _ ⟨act, hstep, _⟩ => ⟨act, hstep⟩

/-- Where `reset()` has closed nothing, a step that reads nothing is the server's alone. -/
theorem ClearStep.of_server {move : Move} {w : Server} (hstep : Server.Step cfg t.toServer move w)
    (hquiet : Quiet t.toServer move) (hnone : ∀ conn, w.sockets conn ≠ .aborted) :
    ClearStep cfg fragSize t { t with toServer := w } := by
  have hmoved : t.moved w = { t with toServer := w } := by
    unfold moved
    congr 1
    funext conn
    exact if_neg (hnone conn)
  rw [← hmoved]
  exact ⟨.other, .server hstep hquiet, nofun⟩

/-- A pass that has nothing left to serve, to sweep or to print comes back to `select`. -/
theorem back_to_select {now : ℚ} (hpc : t.pc = .serving now [])
    (hnone : ∀ conn, t.sockets conn ≠ .aborted)
    (hactive : ∀ conn ∈ t.readList, ¬ t.Inactive cfg conn now) (hprint : ¬ t.lastPrintTime + 1 < now)
    (hquit : t.quitEvent = false) :
    Relation.ReflTransGen (ClearStep cfg fragSize) t { t with pc := .selecting } := by
  have hstep {pc pc' : Pc} (hmove : Server.Step cfg { t.toServer with pc := pc } .loop
      { t.toServer with pc := pc' }) (hquiet : Quiet { t.toServer with pc := pc } .loop) :
      ClearStep cfg fragSize { t with pc := pc } { t with pc := pc' } :=
    ClearStep.of_server (t := { t with pc := pc }) hmove hquiet hnone
  have hsweeps (rest : List ℕ) (hrest : ∀ conn ∈ rest, conn ∈ t.readList) :
      Relation.ReflTransGen (ClearStep cfg fragSize) { t with pc := .sweeping now rest }
        { t with pc := .sweeping now [] } := by
    induction rest with
    | nil => exact .refl
    | cons conn rest ih =>
      obtain ⟨hconn, hrest⟩ := List.forall_mem_cons.mp hrest
      refine .head (hstep ?_ trivial) (ih hrest)
      let w : Server := { t.toServer with pc := .sweeping now (conn :: rest) }
      have hsweep : Server.Step cfg w .loop
          (w.next (t.sweep cfg conn now) (.sweeping now rest)) :=
        .sweep rfl fun hin => absurd hin (hactive conn hconn)
      rwa [Connections.sweep_of_active (hactive conn hconn)] at hsweep
  have hserved : ClearStep cfg fragSize { t with pc := .serving now [] }
      { t with pc := .sweeping now t.readList } := hstep (.served rfl) trivial
  have hswept : ClearStep cfg fragSize { t with pc := .sweeping now [] } { t with pc := .printing now } :=
    hstep (.swept rfl) trivial
  have hsilent : ClearStep cfg fragSize { t with pc := .printing now } { t with pc := .test } :=
    hstep (.silent rfl fun h => hprint h.1) trivial
  have henter : ClearStep cfg fragSize { t with pc := .test } { t with pc := .selecting } :=
    hstep (.enter rfl hquit) trivial
  have hrun := (((hsweeps t.readList fun conn h => h).head hserved).tail hswept).tail hsilent
  rw [← hpc] at hrun
  exact hrun.tail henter

/-- The server that has just taken its first client in. -/
def taken (c : Connections) : Traffic :=
  { start 0 with
    toServer := { Server.start 0 with
      toConnections := c
      pc := .serving 0 [] }
    offers := fun conn => if conn ∈ [0] ∧ conn ≠ 0 then TcpFrame.first [] else none }

theorem run_taken {c : Connections}
    (hc : Connections.openListener.accept cfg (some ("10.0.0.7", 50000)) .done 0 = .ok c)
    (hnone : ∀ conn, c.sockets conn ≠ .aborted) :
    Relation.ReflTransGen (ClearStep cfg fragSize) (start 0) (taken c) := by
  have hstart (conn : ℕ) : (Server.start 0).sockets conn ≠ .aborted := by
    show Function.update (fun _ => SockState.closed) 0 .live conn ≠ _
    by_cases h : conn = 0 <;> simp [h]
  have henter : ClearStep cfg fragSize (start 0)
      { start 0 with toServer := { Server.start 0 with pc := .selecting } } :=
    .of_server (.enter rfl rfl) trivial hstart
  have hselect : ClearStep cfg fragSize
      { start 0 with toServer := { Server.start 0 with pc := .selecting } }
      { start 0 with
        toServer := { Server.start 0 with pc := .accepting 0 [0] }
        offers := fun conn => if conn ∈ [0] ∧ conn ≠ 0 then TcpFrame.first [] else none } :=
    ⟨.select, .select rfl (by simp [Server.start, Connections.openListener,
      SockState.HasDescriptor]) true, fun _ conn hconn => List.mem_singleton.mp hconn⟩
  let w : Server := { Server.start 0 with pc := .accepting 0 [0] }
  have haccept : Server.Step cfg w (.accept (some ("10.0.0.7", 50000)) .done)
      (w.next (w.accept cfg (some ("10.0.0.7", 50000)) .done 0)
        (.serving 0 ([0].filter (· ≠ w.srv)))) := .accept rfl (List.mem_singleton_self 0) _ _
  rw [show w.accept cfg (some ("10.0.0.7", 50000)) .done 0 = .ok c from hc] at haccept
  exact .tail (.tail (.single henter) hselect) (.of_server haccept trivial hnone)

/-- The server about to call `select`, with a record of its one client in the kernel. -/
def selecting (c : Connections) (conn : ℕ) (record : Bytes) : Traffic :=
  { (taken c).afterArrival conn record false with pc := .selecting }

/-- The record arrives in the pass that took the client in. -/
theorem run_arrival {c : Connections}
    (hc : Connections.openListener.accept cfg (some ("10.0.0.7", 50000)) .done 0 = .ok c)
    (hnone : ∀ conn, c.sockets conn ≠ .aborted)
    (hactive : ∀ conn ∈ c.readList, ¬ c.Inactive cfg conn 0) (conn : ℕ) (record : Bytes) :
    Relation.ReflTransGen (ClearStep cfg fragSize) (start 0) (selecting c conn record) := by
  have harrive : ClearStep cfg fragSize (taken c) ((taken c).afterArrival conn record false) :=
    ⟨.arrive conn record, .arrive rfl record nofun, nofun⟩
  refine ((run_taken hc hnone).tail harrive).trans (back_to_select rfl hnone hactive ?_ rfl)
  norm_num [afterArrival, taken, Server.start]

/-- The connections with one client just taken in. -/
def oneTaken : Connections :=
  (Connections.openListener.openSock .live).register {} 1 ("10.0.0.7", 50000) 0

theorem oneTaken_live (conn : ℕ) : oneTaken.sockets conn ≠ .aborted := by
  show Function.update (Function.update (fun _ => SockState.closed) 0 .live) 1 .live conn ≠ _
  by_cases h₁ : conn = 1 <;> by_cases h₀ : conn = 0 <;> simp [h₁, h₀]

theorem oneTaken_active : ∀ conn ∈ oneTaken.readList, ¬ oneTaken.Inactive {} conn 0 :=
  Connections.active_of_pair zero_le_one rfl rfl

theorem oneTaken_hasDescriptor : ∀ conn ∈ oneTaken.readList,
    (oneTaken.sockets conn).HasDescriptor := by
  intro conn hconn
  rcases (List.mem_pair.mp hconn : conn = 0 ∨ conn = 1) with rfl | rfl <;> exact .inl rfl

end Traffic

end Pyomb
