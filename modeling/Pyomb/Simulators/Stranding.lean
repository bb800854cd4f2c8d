import Pyomb.Simulators.Traffic

/-! Requests back to back. A pass serves one frame of each connection that `select` reports,
so what is left of a record must be reported again. In the kernel it is; inside a TLS object
it is not. Where no record carries the ends of two frames none is ever left there whole, and
the frames of a connection are served in order, one in each pass. -/

namespace Pyomb

namespace Traffic

variable {cfg : ServerSettings} {fragSize : ℤ} {t t' : Traffic} {conn : ℕ}

variable (cfg fragSize) in
/-- A step at which no record arrives over TLS that carries the ends of two frames. -/
def UnpackedStep (t t' : Traffic) : Prop :=
  ∃ act, Step cfg fragSize t act t' ∧ ∀ conn record, act = .arrive conn record →
    cfg.tls = true → OneEnd (t.arrived conn) record

/-- The frames served are those that arrived first. -/
def Ordered (t : Traffic) (conn : ℕ) : Prop :=
  ∃ frames : List TcpFrame, t.served conn = frames.map TcpFrame.bytes ∧
    sent frames <+: t.arrived conn

variable (cfg) in
/-- The frames served, and then what is unread, are all that has arrived. -/
def Flowing (t : Traffic) (conn : ℕ) : Prop :=
  ∃ frames : List TcpFrame, t.served conn = frames.map TcpFrame.bytes ∧
    sent frames ++ (t.inbound conn).unread = t.arrived conn ∧
    Straight cfg.tls (sent frames) (t.inbound conn).toBuffers

/-- The loop has been left, or it has dropped the connection. -/
def Gone (w : Server) (conn : ℕ) : Prop :=
  (∃ e, w.pc = .raised e) ∨ conn < w.opened ∧ conn ∉ w.readList

theorem raised_of_step {w w' : Server} {move : Move} {e : LoopError} (hpc : w.pc = .raised e)
    (hstep : Server.Step cfg w move w') : w'.pc = .raised e := by
  cases hstep with
  | peerResets | peerTurns | stop | resetCall | resetNext | resetDone => exact hpc
  | quit hpc' | enter hpc' | selectRaises hpc' | select hpc' | pass hpc' | accept hpc' | serve hpc'
  | served hpc' | sweep hpc' | swept hpc' | silent hpc' | print hpc' | name hpc' | nameRaises hpc'
  | printed hpc' | closeSkip hpc' | close hpc' | closeRaises hpc' | stopped hpc'
  | stopRaises hpc' =>
    rw [hpc] at hpc'
    cases hpc'

theorem Gone.step {act : Act} (h : Gone t.toServer conn) (hstep : Step cfg fragSize t act t') :
    Gone t'.toServer conn := by
  rcases hstep.server_step with heq | ⟨move, hmove⟩
  · rwa [heq]
  · rcases h with ⟨e, he⟩ | ⟨hlt, hnot⟩
    · exact .inl ⟨e, raised_of_step he hmove⟩
    · obtain ⟨hnot', hlt'⟩ := hmove.listing.1.not_mem hnot hlt
      exact .inr ⟨hlt', hnot'⟩

theorem not_gone (hlisted : t.toServer.Listed) {now : ℚ} {rest : List ℕ}
    (hpc : t.pc = .serving now (conn :: rest)) : ¬ Gone t.toServer conn := by
  have hready := hlisted.ready
  rw [hpc] at hready
  rintro (⟨e, he⟩ | ⟨-, hnot⟩)
  · rw [hpc] at he
    cases he
  · exact hnot (hready.2 conn List.mem_cons_self)

theorem gone_of_serve (hlisted : t.toServer.Listed) {now : ℚ} {rest : List ℕ}
    (hpc : t.pc = .serving now (conn :: rest)) {received : Except (Exc Halt) Bytes}
    (hnone : ∀ x m, received ≠ .ok (x :: m)) (answered : Except (Exc Halt) Unit) :
    Gone (t.next (t.serve cfg conn now received answered) (.serving now rest)) conn := by
  have hready := hlisted.ready
  rw [hpc] at hready
  have hmem : conn ∈ t.readList := hready.2 conn List.mem_cons_self
  have hforget : Gone (t.next (t.forget cfg conn) (.serving now rest)) conn := by
    cases hr : t.forget cfg conn with
    | error e => exact .inl ⟨e, rfl⟩
    | ok c =>
      obtain ⟨hlist, hopened, -⟩ := Server.listing_forget hr
      refine .inr ⟨hopened.symm ▸ hlisted.opened conn hmem, ?_⟩
      show conn ∉ c.readList
      rw [hlist]
      exact hlisted.nodup.not_mem_erase
  rcases Connections.serve_cases cfg t.toConnections conn now received answered with
    ⟨heq, -⟩ | ⟨heq, -⟩ | ⟨-, x, m, -, hr, -⟩ | ⟨-, x, m, hr, -⟩
  · rw [heq]
    exact hforget
  · rw [heq]
    exact .inl ⟨_, rfl⟩
  · exact absurd hr (hnone x m)
  · exact absurd hr (hnone x m)

theorem reading_toBuffers (t : Traffic) (conn : ℕ) :
    (t.reading conn).toBuffers = (t.inbound conn).toBuffers := by
  unfold reading
  split_ifs <;> rfl

theorem Flowing.serve (hlisted : t.toServer.Listed) {now : ℚ} {rest : List ℕ}
    (hpc : t.pc = .serving now (conn :: rest)) {received : Except (Exc Halt) Bytes} {b : Buffers}
    (hreceive : (t.reading conn).receive cfg.tls fragSize = some (received, b))
    (answered : Except (Exc Halt) Unit) (h : t.Flowing cfg conn) {w : Server}
    (hw : w = t.next (t.serve cfg conn now received answered) (.serving now rest)) :
    (t.afterRead conn received b w).Flowing cfg conn ∨
      (t.afterRead conn received b w).Ordered conn ∧ Gone w conn := by
  obtain ⟨frames, hserved, heq, hstraight⟩ := h
  by_cases hframe : ∃ x m, received = .ok (x :: m)
  · obtain ⟨x, m, rfl⟩ := hframe
    obtain ⟨f, hf, hcut⟩ := Inbound.first_of_receive (List.cons_ne_nil x m) hreceive
    rw [← reading_toBuffers] at hstraight heq
    obtain ⟨c, hc, hstraight'⟩ := Inbound.straight_of_receive hstraight hreceive
    obtain rfl : x :: m = c := List.append_cancel_right (hcut.symm.trans hc)
    refine .inl ⟨frames ++ [f], ?_, ?_, ?_⟩
    · rw [served_afterRead_self, deliver_cons, hserved, hf, List.map_append]
      rfl
    · rw [inbound_afterRead_self, sent_append, sent_cons, ← hf]
      show _ = t.arrived conn
      rw [← heq, hcut]
      simp [sent]
    · rw [inbound_afterRead_self, sent_append, sent_cons, ← hf]
      simpa [sent] using hstraight'
  · have hnone : ∀ x m, received ≠ .ok (x :: m) := fun x m hr => hframe ⟨x, m, hr⟩
    refine .inr ⟨⟨frames, ?_, heq ▸ List.prefix_append _ _⟩,
      hw ▸ gone_of_serve hlisted hpc hnone answered⟩
    rw [served_afterRead_self, deliver_of_no_frame hnone, hserved]

theorem flows_step {act : Act} (hlisted : t.toServer.Listed)
    (h : ∀ conn, t.Flowing cfg conn ∨ t.Ordered conn ∧ Gone t.toServer conn)
    (hstep : Step cfg fragSize t act t')
    (hrecord : ∀ conn record, act = .arrive conn record → cfg.tls = true →
      OneEnd (t.arrived conn) record) (conn : ℕ) :
    t'.Flowing cfg conn ∨ t'.Ordered conn ∧ Gone t'.toServer conn := by
  have hgone : Gone t.toServer conn → Gone t'.toServer conn := fun hg => hg.step hstep
  -- A step that leaves the bytes of the connection and what is served of it.
  have hsame (hserved : t'.served conn = t.served conn) (harrived : t'.arrived conn = t.arrived conn)
      (hinbound : (t'.inbound conn).toBuffers = (t.inbound conn).toBuffers) :
      t'.Flowing cfg conn ∨ t'.Ordered conn ∧ Gone t'.toServer conn := by
    rcases h conn with hf | ⟨ho, hg⟩
    · left
      unfold Flowing
      rwa [hserved, harrived, hinbound]
    · right
      refine ⟨?_, hgone hg⟩
      unfold Ordered
      rwa [hserved, harrived]
  cases hstep with
  | server => exact hsame rfl rfl rfl
  | select => exact hsame rfl rfl rfl
  | @serve now d rest hpc received b hreceive hreturns answered hturn =>
    by_cases heq : conn = d
    · subst heq
      have hflow := (h conn).resolve_right fun hno => not_gone hlisted hpc hno.2
      exact hflow.serve hlisted hpc hreceive answered rfl
    · exact hsame (served_afterRead_of_ne _ _ _ _ _ heq) rfl
        (congrArg Inbound.toBuffers (inbound_afterRead_of_ne _ _ _ _ _ heq))
  | @arrive d halive record torn htorn =>
    by_cases heq : conn = d
    · subst heq
      rcases h conn with ⟨frames, hserved, hall, hstraight⟩ | ⟨⟨frames, hserved, hpre⟩, hg⟩
      · refine .inl ⟨frames, hserved, ?_, ?_⟩
        · rw [toBuffers_afterArrival, Buffers.unread_arrive, arrived_afterArrival_self, ← hall,
            List.append_assoc]
        · rw [toBuffers_afterArrival]
          refine ⟨hstraight.held, fun htls => (hstraight.kernel htls).append ?_⟩
          rw [List.append_assoc]
          exact (show sent frames ++ (_ ++ _) = t.arrived conn from hall) ▸
            hrecord conn record rfl htls
      · refine .inr ⟨⟨frames, hserved, ?_⟩, hg⟩
        rw [arrived_afterArrival_self]
        exact hpre.trans (List.prefix_append _ _)
    · exact hsame rfl (arrived_afterArrival_of_ne _ _ _ _ heq)
        (congrArg Inbound.toBuffers (inbound_afterArrival_of_ne _ _ _ _ heq))
  | @tear d | @close d | @reset d =>
    refine hsame rfl rfl ?_
    exact Connections.update_cases (P := fun i : Inbound => i.toBuffers = (t.inbound conn).toBuffers)
      (fun heq => heq ▸ rfl) fun _ => rfl
  | tick => exact hsame rfl rfl rfl

/-! ### One frame in each pass -/

/-- In a pass a connection is served once at most, and until then nothing of it is. -/
def Turn (t : Traffic) (conn : ℕ) : Prop :=
  t.served conn = t.before conn ∨
    conn ∉ t.pc.ready ∧ ∃ m, t.served conn = t.before conn ++ [m]

/-- A connection that stood at a frame when `select` was called is still to be served with it,
or has been. -/
def Kept (t : Traffic) (conn : ℕ) (f : TcpFrame) : Prop :=
  conn ≠ t.srv ∧ t.sockets conn ≠ .aborted ∧
    ((∃ e, t.pc = .raised e) ∨
      (conn ∈ t.pc.ready ∧ t.served conn = t.before conn ∧
        f.bytes <+: (t.inbound conn).unread) ∨
      conn ∉ t.pc.ready ∧ t.served conn = t.before conn ++ [f.bytes])

/-- Behind a connection the pass goes on with the rest, unless the loop is left. -/
theorem ready_next (w : Server) (r : Except LoopError Connections) (now : ℚ) (rest : List ℕ) :
    (∀ d ∈ (w.next r (.serving now rest)).pc.ready, d ∈ rest) ∧
      ((∃ e, (w.next r (.serving now rest)).pc = .raised e) ∨
        ∀ d ∈ rest, d ∈ (w.next r (.serving now rest)).pc.ready) := by
  cases r with
  | ok c => exact ⟨fun d hd => hd, .inr fun d hd => hd⟩
  | error e => exact ⟨nofun, .inl ⟨e, rfl⟩⟩

theorem turn_step {act : Act} (hlisted : t.toServer.Listed) (h : t.Turn conn)
    (hstep : Step cfg fragSize t act t') : t'.Turn conn := by
  cases hstep with
  | server hmove hquiet =>
    exact h.imp_right fun ⟨hnot, m, hm⟩ =>
      ⟨fun hmem => hnot ((ready_of_quiet hmove hquiet).1 conn hmem), m, hm⟩
  | select => exact .inl rfl
  | @serve now d rest hpc received b hreceive hreturns answered hturn =>
    have hready := hlisted.ready
    rw [hpc] at hready
    have hnext := (ready_next t.toServer (t.serve cfg d now received answered) now rest).1
    by_cases heq : conn = d
    · subst heq
      have hnot : conn ∉ (t.next (t.serve cfg conn now received answered) (.serving now rest)).pc.ready :=
        fun hmem => (Server.Pending.tail hready).2.2 (hnext conn hmem)
      have hsame : t.served conn = t.before conn := by
        refine h.resolve_right fun hno => hno.1 ?_
        rw [hpc]
        exact List.mem_cons_self
      unfold Turn
      rw [served_afterRead_self, hsame]
      unfold deliver
      split
      next x m => exact .inr ⟨hnot, x :: m, rfl⟩
      next => exact .inl rfl
    · unfold Turn
      rw [served_afterRead_of_ne _ _ _ _ _ heq]
      refine h.imp_right fun ⟨hnot, m, hm⟩ => ⟨fun hmem => hnot ?_, m, hm⟩
      rw [hpc]
      exact List.mem_cons_of_mem _ (hnext conn hmem)
  | reset hmove =>
    cases hmove
    exact h
  | arrive | tear | close | tick => exact h

theorem Kept.of_grown {f : TcpFrame} (h : t.Kept conn f) (hsrv : t'.srv = t.srv)
    (hsockets : t'.sockets conn ≠ .aborted) (hpc : t'.pc = t.pc)
    (hserved : t'.served conn = t.served conn) (hbefore : t'.before conn = t.before conn)
    (hunread : (t.inbound conn).unread <+: (t'.inbound conn).unread) : t'.Kept conn f := by
  obtain ⟨hne, -, hplace⟩ := h
  refine ⟨hsrv ▸ hne, hsockets, ?_⟩
  rw [hpc, hserved, hbefore]
  exact hplace.imp_right fun h => h.imp_left fun ⟨hmem, heq, hpre⟩ => ⟨hmem, heq, hpre.trans hunread⟩

theorem Kept.server {f : TcpFrame} {move : Move} {w : Server}
    (hmove : Server.Step cfg t.toServer move w) (hquiet : Quiet t.toServer move)
    (h : t.Kept conn f) (hsockets : w.sockets conn ≠ .aborted) : (t.moved w).Kept conn f := by
  obtain ⟨hne, -, hplace⟩ := h
  have hsrv : w.srv = t.srv := hmove.listing.2
  obtain ⟨hsub, hready⟩ := ready_of_quiet hmove hquiet
  refine ⟨(show (t.moved w).srv = t.srv from hsrv) ▸ hne, hsockets, ?_⟩
  rcases hplace with ⟨e, he⟩ | ⟨hmem, heq, hpre⟩ | ⟨hnot, heq⟩
  · exact .inl ⟨e, raised_of_step he hmove⟩
  · rcases hready with hraised | hready
    · exact .inl hraised
    · exact .inr (.inl ⟨hready conn hmem hne, heq, hpre⟩)
  · exact .inr (.inr ⟨fun hmem => hnot (hsub conn hmem), heq⟩)

theorem Kept.select {f : TcpFrame}
    (hflow : t.Flowing cfg conn ∨ t.Ordered conn ∧ Gone t.toServer conn) (hpc : t.pc = .selecting)
    (hfd : ∀ conn ∈ t.readList, (t.sockets conn).HasDescriptor) (backlog : Bool)
    (hconn : conn ∈ t.readList) (hne : conn ≠ t.srv) (hf : f.bytes <+: (t.inbound conn).unread) :
    (t.inbound conn).Readable cfg.tls ∧ (t.afterSelect cfg backlog).Kept conn f := by
  have hflowing : t.Flowing cfg conn := by
    refine hflow.resolve_right ?_
    rintro ⟨-, ⟨e, he⟩ | ⟨-, hnot⟩⟩
    · rw [hpc] at he
      cases he
    · exact hnot hconn
  obtain ⟨frames, -, -, hstraight⟩ := hflowing
  have hreadable : (t.inbound conn).Readable cfg.tls := by
    have hkernel := hstraight.not_held hf
    refine .inr ?_
    split_ifs at hkernel ⊢
    · exact .inl hkernel
    · exact hkernel
  have hreported : conn ∈ (t.afterSelect cfg backlog).pc.ready :=
    (mem_ready_afterSelect hne).mpr ⟨hconn, hreadable⟩
  refine ⟨hreadable, hne, fun habort => ?_, .inr (.inl ⟨hreported, rfl, hf⟩)⟩
  have hconnfd := hfd conn hconn
  change t.sockets conn = .aborted at habort
  rw [habort] at hconnfd
  rcases hconnfd with h | h <;> cases h

/-- The frame a connection stood at is what it is served. -/
theorem Kept.serve {f : TcpFrame} (hlisted : t.toServer.Listed) {now : ℚ} {d : ℕ} {rest : List ℕ}
    (hpc : t.pc = .serving now (d :: rest)) {received : Except (Exc Halt) Bytes} {b : Buffers}
    (hreceive : (t.reading d).receive cfg.tls fragSize = some (received, b))
    (answered : Except (Exc Halt) Unit) (hfate : (t.inbound d).fate ≠ .aborted) (h : t.Kept conn f) :
    (t.afterRead d received b
      (t.next (t.serve cfg d now received answered) (.serving now rest))).Kept conn f := by
  obtain ⟨hne, habort, hplace⟩ := h
  have hready := hlisted.ready
  rw [hpc] at hready
  obtain ⟨hsub, hrest⟩ := ready_next t.toServer (t.serve cfg d now received answered) now rest
  have hnext : (t.next (t.serve cfg d now received answered) (.serving now rest)).srv = t.srv ∧
      (t.next (t.serve cfg d now received answered) (.serving now rest)).sockets conn ≠ .aborted := by
    cases hr : t.serve cfg d now received answered with
    | error e => exact ⟨rfl, habort⟩
    | ok c =>
      obtain ⟨-, -, hsrv, hsockets⟩ := Server.listing_serve hr
      refine ⟨hsrv, ?_⟩
      show c.sockets conn ≠ _
      rcases hsockets conn with hs | hs <;> rw [hs]
      · exact habort
      · nofun
  refine ⟨(show (t.afterRead d received b _).srv = t.srv from hnext.1) ▸ hne, hnext.2, ?_⟩
  by_cases heq : conn = d
  · subst heq
    have hmem : conn ∈ t.pc.ready := by
      rw [hpc]
      exact List.mem_cons_self
    rcases hplace with ⟨e, he⟩ | ⟨-, hsame, hpre⟩ | ⟨hnot, -⟩
    · rw [hpc] at he
      cases he
    · have hreading : t.reading conn = t.inbound conn := if_neg habort
      rw [hreading] at hreceive
      obtain rfl := Inbound.receive_of_first hpre hfate hreceive
      refine .inr (.inr ⟨fun hin => (Server.Pending.tail hready).2.2 (hsub conn hin), ?_⟩)
      rw [served_afterRead_self, hsame]
      cases hbytes : f.bytes with
      | nil => exact absurd hbytes f.ne_nil
      | cons x m => rfl
    · exact absurd hmem hnot
  · rw [served_afterRead_of_ne _ _ _ _ _ heq, inbound_afterRead_of_ne _ _ _ _ _ heq]
    rcases hplace with ⟨e, he⟩ | ⟨hmem, hsame, hpre⟩ | ⟨hnot, hsame⟩
    · rw [hpc] at he
      cases he
    · rw [hpc] at hmem
      rcases hrest with hraised | hrest
      · exact .inl hraised
      · exact .inr (.inl ⟨hrest conn ((List.mem_cons.mp hmem).resolve_left heq), hsame, hpre⟩)
    · refine .inr (.inr ⟨fun hin => hnot ?_, hsame⟩)
      rw [hpc]
      exact List.mem_cons_of_mem _ (hsub conn hin)

variable (cfg) in
structure Inv (t : Traffic) : Prop where
  listed : t.toServer.Listed
  fates : ∀ conn, (t.inbound conn).fate ≠ .aborted
  flows : ∀ conn, t.Flowing cfg conn ∨ t.Ordered conn ∧ Gone t.toServer conn
  turns : ∀ conn, t.Turn conn
  kept : ∀ conn f, t.offers conn = some f → t.Kept conn f

theorem fates_step {act : Act} (h : ∀ conn, (t.inbound conn).fate ≠ .aborted)
    (hstep : Step cfg fragSize t act t') (conn : ℕ) : (t'.inbound conn).fate ≠ .aborted := by
  have hupdate {d : ℕ} {i : Inbound} (hi : i.fate ≠ .aborted) :
      (Function.update t.inbound d i conn).fate ≠ .aborted :=
    Connections.update_cases (P := fun i : Inbound => i.fate ≠ .aborted) (fun _ => hi)
      fun _ => h conn
  cases hstep with
  | server | select | tick => exact h conn
  | @serve _ d => exact hupdate (h d)
  | @arrive d | @tear d => exact hupdate (h d)
  | close | reset => exact hupdate nofun

theorem kept_step {act : Act} (h : t.Inv cfg) (hstep : Step cfg fragSize t act t') {f : TcpFrame}
    (hoffer : t'.offers conn = some f) : t'.Kept conn f := by
  have hgrown {d : ℕ} {i : Inbound} (hi : (t.inbound d).unread <+: i.unread) :
      (t.inbound conn).unread <+: (Function.update t.inbound d i conn).unread :=
    Connections.update_cases (P := fun i : Inbound => (t.inbound conn).unread <+: i.unread)
      (fun heq => heq ▸ hi) fun _ => List.prefix_refl _
  cases hstep with
  | @server move w hmove hquiet =>
    change (if w.sockets conn = .aborted then none else t.offers conn) = some f at hoffer
    split_ifs at hoffer with habort
    exact (h.kept conn f hoffer).server hmove hquiet habort
  | select hpc hfd backlog =>
    change (if conn ∈ t.readList ∧ conn ≠ t.srv then TcpFrame.first (t.inbound conn).unread
      else none) = some f at hoffer
    split_ifs at hoffer with hin
    exact (Kept.select (h.flows conn) hpc hfd backlog hin.1 hin.2
      (TcpFrame.first_eq_some.mp hoffer)).2
  | serve hpc hreceive hreturns answered =>
    exact (h.kept conn f hoffer).serve h.listed hpc hreceive answered (h.fates _)
  | arrive halive record htorn =>
    exact (h.kept conn f hoffer).of_grown rfl (h.kept conn f hoffer).2.1 rfl rfl rfl
      (hgrown ⟨record, (Buffers.unread_arrive _ record).symm⟩)
  | tear | close =>
    exact (h.kept conn f hoffer).of_grown rfl (h.kept conn f hoffer).2.1 rfl rfl rfl
      (hgrown (List.prefix_refl _))
  | @reset d w hmove =>
    have hkept := h.kept conn f hoffer
    cases hmove with
    | peerResets hsrv hlive =>
      refine hkept.of_grown rfl ?_ rfl rfl rfl (hgrown (List.prefix_refl _))
      show Function.update t.sockets d .reset conn ≠ .aborted
      exact Connections.update_cases (P := (· ≠ SockState.aborted)) (fun _ => by decide)
        fun _ => hkept.2.1
  | tick hle =>
    exact (h.kept conn f hoffer).of_grown rfl (h.kept conn f hoffer).2.1 rfl rfl rfl
      (List.prefix_refl _)

theorem Inv.step {act : Act} (h : t.Inv cfg) (hstep : Step cfg fragSize t act t')
    (hrecord : ∀ conn record, act = .arrive conn record → cfg.tls = true →
      OneEnd (t.arrived conn) record) : t'.Inv cfg where
  listed := hstep.listed h.listed
  fates := fates_step h.fates hstep
  flows := flows_step h.listed h.flows hstep hrecord
  turns conn := turn_step h.listed (h.turns conn) hstep
  kept _ _ hoffer := kept_step h hstep hoffer

theorem Inv.start (now : ℚ) : (start now).Inv cfg where
  listed := .start now
  fates _ := nofun
  flows _ := .inl ⟨[], rfl, rfl, .inl rfl, fun _ => trivial⟩
  turns _ := .inl rfl
  kept _ _ := nofun

/-- Over plaintext, and over TLS where no record carries the ends of two frames, in every
state of every run: a call of `select` reports every connection that stands at a whole frame;
what is served of a connection is its frames in the order they arrived, each once, and what is
unread follows them; a pass serves no connection twice, and ends with each frame served that a
connection stood at when `select` was called. -/
theorem no_request_stranded {now : ℚ}
    (hrun : Relation.ReflTransGen (UnpackedStep cfg fragSize) (start now) t) :
    (∀ t', Step cfg fragSize t .select t' → ∀ conn ∈ t.readList, conn ≠ t.srv →
      ∀ f, TcpFrame.first (t.inbound conn).unread = some f →
        conn ∈ t'.pc.ready ∧ t'.offers conn = some f) ∧
    (∀ conn, ∃ frames : List TcpFrame, t.served conn = frames.map TcpFrame.bytes ∧
      sent frames <+: t.arrived conn ∧ ((∀ e, t.pc ≠ .raised e) → conn ∈ t.readList →
        sent frames ++ (t.inbound conn).unread = t.arrived conn)) ∧
    (∀ conn, t.served conn = t.before conn ∨ ∃ m, t.served conn = t.before conn ++ [m]) ∧
    (t.pc.ready = [] → (∀ e, t.pc ≠ .raised e) → ∀ conn f, t.offers conn = some f →
      t.served conn = t.before conn ++ [f.bytes]) := by
  have hinv : t.Inv cfg := by
    refine @invariant_of_run Traffic (UnpackedStep cfg fragSize) (Inv cfg) ?_ _ _ (.start now) hrun
    rintro v v' h ⟨act, hstep, hrecord⟩
    exact h.step hstep hrecord
  refine ⟨fun t' hstep conn hconn hne f hf => ?_, fun conn => ?_, fun conn => ?_,
    fun hidle hnot conn f hoffer => ?_⟩
  · cases hstep with
    | select hpc hfd backlog =>
      have hoffer : (t.afterSelect cfg backlog).offers conn = some f :=
        (if_pos ⟨hconn, hne⟩ : (if conn ∈ t.readList ∧ conn ≠ t.srv then _ else none) = _).trans hf
      obtain ⟨hreadable, -⟩ := Kept.select (hinv.flows conn) hpc hfd backlog hconn hne
        (TcpFrame.first_eq_some.mp hf)
      exact ⟨(mem_ready_afterSelect hne).mpr ⟨hconn, hreadable⟩, hoffer⟩
  · rcases hinv.flows conn with hflow | ⟨⟨frames, hserved, hpre⟩, hgone⟩
    · obtain ⟨frames, hserved, hall, -⟩ := hflow
      exact ⟨frames, hserved, hall ▸ List.prefix_append _ _, fun _ _ => hall⟩
    · refine ⟨frames, hserved, hpre, fun hnot hconn => ?_⟩
      rcases hgone with ⟨e, he⟩ | ⟨-, hout⟩
      · exact absurd he (hnot e)
      · exact absurd hconn hout
  · exact (hinv.turns conn).imp_right And.right
  · obtain ⟨-, -, hplace⟩ := hinv.kept conn f hoffer
    rcases hplace with ⟨e, he⟩ | ⟨hmem, -⟩ | ⟨-, hserved⟩
    · exact absurd he (hnot e)
    · rw [hidle] at hmem
      cases hmem
    · exact hserved

def twoRequests : Bytes := [0, 1, 0, 0, 0, 2, 1, 7, 0, 2, 0, 0, 0, 2, 1, 7]

/-- Over plaintext they may come in one segment. -/
theorem no_request_stranded_segment : ∃ t t', Step {} 0 t .select t' ∧
    (t.inbound 1).unread = twoRequests ∧ 1 ∈ t'.pc.ready := by
  let t : Traffic := selecting oneTaken 1 twoRequests
  have hany : Relation.ReflTransGen (AnyStep {} 0) (start 0) t :=
    any_of_clear (run_arrival rfl oneTaken_live oneTaken_active 1 twoRequests)
  have hrun : Relation.ReflTransGen (UnpackedStep {} 0) (start 0) t :=
    hany.lift id fun _ _ ⟨act, hstep⟩ => ⟨act, hstep, nofun⟩
  have hselect : Step {} 0 t .select (t.afterSelect {} false) :=
    .select rfl oneTaken_hasDescriptor false
  obtain ⟨hreported, -⟩ := no_request_stranded hrun
  refine ⟨t, _, hselect, rfl, (hreported _ hselect 1 (List.mem_cons_of_mem _ List.mem_cons_self)
    Nat.one_ne_zero ⟨[0, 1, 0, 0, 0, 2, 1, 7], by decide, by decide⟩ ?_).1⟩
  decide

def oneShaken : Connections :=
  ((Connections.openListener.openSock .detached).openSock .live).register { tls := true } 2
    ("10.0.0.7", 50000) 0

theorem oneShaken_live (conn : ℕ) : oneShaken.sockets conn ≠ .aborted := by
  show Function.update (Function.update (Function.update (fun _ => SockState.closed) 0 .live)
    1 .detached) 2 .live conn ≠ _
  by_cases h₂ : conn = 2 <;> by_cases h₁ : conn = 1 <;> by_cases h₀ : conn = 0 <;>
    simp [h₂, h₁, h₀]

theorem oneShaken_active : ∀ conn ∈ oneShaken.readList,
    ¬ oneShaken.Inactive { tls := true } conn 0 := Connections.active_of_pair zero_le_one rfl rfl

theorem oneShaken_hasDescriptor : ∀ conn ∈ oneShaken.readList,
    (oneShaken.sockets conn).HasDescriptor := by
  intro conn hconn
  rcases (List.mem_pair.mp hconn : conn = 0 ∨ conn = 2) with rfl | rfl <;> exact .inl rfl

/-- Over TLS they may come in one record: the first is served, and the next call of `select`
does not report the connection, with the second whole inside the TLS object. -/
theorem request_stranded : ∃ t t', Relation.ReflTransGen (AnyStep { tls := true } 0) (start 0) t ∧
    Step { tls := true } 0 t .select t' ∧ 2 ∈ t.readList ∧ 2 ≠ t.srv ∧
    (∃ f, TcpFrame.first (t.inbound 2).unread = some f) ∧ 2 ∉ t'.pc.ready := by
  let t₁ : Traffic := selecting oneShaken 2 twoRequests
  let t₂ : Traffic := t₁.afterSelect { tls := true } false
  let t₃ : Traffic := { t₂ with pc := .serving 0 [2] }
  let b : Buffers := { held := [0, 2, 0, 0, 0, 2, 1, 7] }
  have hselect : AnyStep { tls := true } 0 t₁ t₂ :=
    ⟨.select, .select rfl oneShaken_hasDescriptor false⟩
  have hpass : ClearStep { tls := true } 0 t₂ t₃ :=
    .of_server (.pass (show t₂.pc = .accepting 0 [2] from rfl) (by decide)) trivial oneShaken_live
  have hreceive : (t₃.reading 2).receive true 0 = some (.ok [0, 1, 0, 0, 0, 2, 1, 7], b) := by
    decide +kernel
  let t₄ : Traffic := t₃.afterRead 2 (.ok [0, 1, 0, 0, 0, 2, 1, 7]) b
    { t₃.toServer with
      toConnections := oneShaken.touch 2 0
      pc := .serving 0 [] }
  have hserve : AnyStep { tls := true } 0 t₃ t₄ :=
    ⟨.other, @Step.serve { tls := true } 0 t₃ 0 2 [] rfl _ b hreceive (fun msg heq => by cases heq)
      (.ok ()) fun hdrops => absurd rfl hdrops⟩
  have hactive' : ∀ conn ∈ (oneShaken.touch 2 0).readList,
      ¬ (oneShaken.touch 2 0).Inactive { tls := true } conn 0 :=
    Connections.active_of_pair zero_le_one rfl rfl
  let t₅ : Traffic := { t₄ with pc := .selecting }
  have hback : Relation.ReflTransGen (ClearStep { tls := true } 0) t₄ t₅ := by
    refine back_to_select rfl oneShaken_live hactive' ?_ rfl
    show ¬ (0 : ℚ) + 1 < 0
    norm_num
  have harrival : Relation.ReflTransGen (AnyStep { tls := true } 0) (start 0) t₁ :=
    any_of_clear (run_arrival rfl oneShaken_live oneShaken_active 2 twoRequests)
  have hserving := (harrival.tail hselect).trans (any_of_clear (.single hpass))
  have hrun := (hserving.tail hserve).trans (any_of_clear hback)
  refine ⟨t₅, _, hrun, .select rfl oneShaken_hasDescriptor false,
    List.mem_cons_of_mem _ List.mem_cons_self, nofun, ?_, ?_⟩
  · exact ⟨⟨[0, 2, 0, 0, 0, 2, 1, 7], by decide, by decide⟩, by decide +kernel⟩
  · decide +kernel

end Traffic

end Pyomb
