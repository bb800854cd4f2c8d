import Pyomb.Simulators.Traffic

/-! One client against the loop. `select` reports a connection for its first byte, and
`receive` wants a whole frame of it; between the two the loop waits, whatever else is ready.
It never does where what is reported has arrived whole. -/

namespace Pyomb

namespace Traffic

variable {cfg : ServerSettings} {fragSize : ℤ} {t t' : Traffic}

variable (cfg fragSize) in
/-- The loop is inside `receive`, which waits for bytes of a connection. -/
def WaitsFor (t : Traffic) (conn : ℕ) : Prop :=
  (∃ now rest, t.pc = .serving now (conn :: rest)) ∧ (t.reading conn).Waits cfg.tls fragSize

variable (cfg fragSize) in
/-- It waits while another connection holds a whole request, or one is past its timeout, or
the server has been told to stop. -/
def Wedged (t : Traffic) : Prop :=
  ∃ conn, t.WaitsFor cfg fragSize conn ∧
    ((∃ other ∈ t.readList, other ≠ conn ∧ ∃ f, TcpFrame.first (t.inbound other).unread = some f) ∨
      (∃ idle ∈ t.readList, t.Inactive cfg idle t.clock) ∨ t.quitEvent = true)

variable (cfg fragSize) in
/-- A step at which `select` reports no connection with part of a frame. -/
def WholeStep (t t' : Traffic) : Prop :=
  ∃ act, Step cfg fragSize t act t' ∧ (act = .select → ∀ conn ∈ t.readList, conn ≠ t.srv →
    (t.inbound conn).Readable cfg.tls → (t.inbound conn).Whole)

/-- What a pass has still to look at has arrived whole. -/
structure WholeReady (t : Traffic) : Prop where
  listed : t.toServer.Listed
  whole : ∀ conn ∈ t.pc.ready, conn ≠ t.srv → (t.inbound conn).Whole

theorem WholeReady.step {act : Act} (h : WholeReady t) (hstep : Step cfg fragSize t act t')
    (hselect : act = .select → ∀ conn ∈ t.readList, conn ≠ t.srv →
      (t.inbound conn).Readable cfg.tls → (t.inbound conn).Whole) : WholeReady t' := by
  refine ⟨hstep.listed h.listed, ?_⟩
  have hlisted := h.listed
  -- What happens to one connection that the others in the pass are spared.
  have hupdate {conn : ℕ} {i : Inbound} (hi : (t.inbound conn).Whole → i.Whole) :
      ∀ d ∈ t.pc.ready, d ≠ t.srv → (Function.update t.inbound conn i d).Whole := by
    intro d hd hne
    exact Connections.update_cases (P := Inbound.Whole) (fun heq => hi (heq ▸ h.whole d hd hne))
      fun _ => h.whole d hd hne
  cases hstep with
  | @server move w hmove hquiet =>
    intro conn hconn hne
    have hsrv : w.srv = t.srv := hmove.listing.2
    exact h.whole conn ((ready_of_quiet hmove hquiet).1 conn hconn) (hsrv ▸ hne)
  | select hpc hfd backlog =>
    intro conn hconn hne
    obtain ⟨hmem, hreadable⟩ := (mem_ready_afterSelect hne).mp hconn
    exact hselect rfl conn hmem hne hreadable
  | @serve now conn rest hpc received b hreceive hreturns answered hturn =>
    intro d hd hne
    have hready := hlisted.ready
    rw [hpc] at hready
    have hrest : d ∈ rest ∧ t.srv ≠ d := by
      have hsrv := hlisted.served now (conn :: rest) hpc
      cases hr : t.serve cfg conn now received answered with
      | error e =>
        simp only [hr] at hd
        cases hd
      | ok c =>
        simp only [hr] at hd
        exact ⟨hd, fun heq => hsrv (heq ▸ List.mem_cons_of_mem _ hd)⟩
    have hnot : d ≠ conn := fun heq => (Server.Pending.tail hready).2.2 (heq ▸ hrest.1)
    rw [inbound_afterRead_of_ne _ _ _ _ _ hnot]
    exact h.whole d (by rw [hpc]; exact List.mem_cons_of_mem _ hrest.1) hrest.2.symm
  | arrive halive record htorn =>
    exact hupdate fun hw => Inbound.whole_of_prefix hw (fun _ => halive)
      ⟨record, (Buffers.unread_arrive _ record).symm⟩
  | tear halive htls => exact hupdate fun hw => hw
  | close halive => exact hupdate fun _ => .inl (by decide : Fate.closed ≠ .alive)
  | @reset conn w hmove =>
    have hpc : w.pc = t.pc := by
      cases hmove
      rfl
    have hsrv : w.srv = t.srv := hmove.listing.2
    rw [hpc, hsrv]
    exact hupdate fun _ => .inl (by decide : Fate.reset ≠ .alive)
  | tick hle => exact h.whole

theorem WholeReady.not_waits (h : WholeReady t) (conn : ℕ) : ¬ t.WaitsFor cfg fragSize conn := by
  rintro ⟨⟨now, rest, hpc⟩, hwaits⟩
  have hsrv := h.listed.served now (conn :: rest) hpc
  have hwhole : (t.inbound conn).Whole := by
    refine h.whole conn ?_ fun heq => hsrv (heq ▸ List.mem_cons_self)
    rw [hpc]
    exact List.mem_cons_self
  refine Inbound.not_waits_of_whole (i := t.reading conn) ?_ hwaits
  unfold reading
  split_ifs
  · exact .inl nofun
  · exact hwhole

variable (cfg fragSize) in
/-- A step that is not the next call of `select`. -/
def PassStep (t t' : Traffic) : Prop := ∃ act, Step cfg fragSize t act t' ∧ act ≠ .select

variable (cfg) in
/-- A connection that has a descriptor is served to the end, where the handler does not
raise; and no other is touched. -/
theorem serve_total {c : Connections} {conn : ℕ} (hfd : (c.sockets conn).HasDescriptor) (now : ℚ)
    {i : Inbound} {tls : Bool} {received : Except (Exc Halt) Bytes} {b : Buffers}
    (h : i.receive tls fragSize = some (received, b)) :
    ∃ c', c.serve cfg conn now received (.ok ()) = .ok c' ∧
      ∀ d, d ≠ conn → c'.sockets d = c.sockets d := by
  rcases Connections.serve_cases cfg c conn now received (.ok ()) with
    ⟨heq, -⟩ | ⟨-, e, rfl, he⟩ | ⟨-, x, m, e, -, he⟩ | ⟨heq, -⟩
  · refine ⟨(c.setState conn .closed).drop conn, ?_, fun d hne => Function.update_of_ne hne ..⟩
    rw [heq, Connections.forget, Connections.disconnect_of_hasDescriptor cfg hfd]
    rfl
  · rw [ModbusTcpStream.receive_error _ h] at he
    cases he
  · cases he
  · exact ⟨_, heq, fun d hne => rfl⟩

theorem reading_of_hasDescriptor {conn : ℕ} (h : (t.sockets conn).HasDescriptor) :
    t.reading conn = t.inbound conn := by
  refine if_neg fun habort => ?_
  rcases h with h | h <;> rw [h] at habort <;> cases habort

/-- The loop goes through what `select` reported, down to the first connection that has not
arrived whole, and waits for that one. -/
theorem exists_waitsFor (hf : 0 ≤ fragSize) {now : ℚ} {rest : List ℕ}
    (hpc : t.pc = .serving now rest) (hnodup : rest.Nodup)
    (hfd : ∀ conn ∈ rest, (t.sockets conn).HasDescriptor)
    (hpart : ∃ conn ∈ rest, ¬ (t.inbound conn).Whole) :
    ∃ t' conn, Relation.ReflTransGen (PassStep cfg fragSize) t t' ∧ t'.WaitsFor cfg fragSize conn := by
  induction rest generalizing t with
  | nil =>
    obtain ⟨conn, hconn, -⟩ := hpart
    cases hconn
  | cons conn rest ih =>
    have hreading := reading_of_hasDescriptor (hfd conn List.mem_cons_self)
    by_cases hwhole : (t.inbound conn).Whole
    · have hreturns : ¬ (t.inbound conn).Waits cfg.tls fragSize :=
        Inbound.not_waits_of_whole hwhole
      obtain ⟨received, b, hreceive⟩ : ∃ received b,
          (t.inbound conn).receive cfg.tls fragSize = some (received, b) := by
        rcases ModbusTcpStream.receive_cases (Buffers.source cfg.tls (t.inbound conn).fate) hf
          (t.inbound conn).toBuffers with ⟨e, msg, b, k, hr, -⟩ | ⟨b, hr, -⟩ | ⟨msg, b, hr, -⟩ |
          ⟨e, b, hr, -⟩ | ⟨b, hr, -⟩ <;> exact ⟨_, b, hr⟩
      obtain ⟨c, hserve, hsockets⟩ :=
        serve_total cfg (hfd conn List.mem_cons_self) now hreceive
      -- A peer that has ended over TLS responds, so that it can be dropped.
      let t₀ : Traffic := t.moved { t.toServer with
        responds := Function.update t.responds conn true }
      have hturns : Step cfg fragSize t .other t₀ := .server (.peerTurns true) trivial
      have hstep : Step cfg fragSize t₀ .other
          (t₀.afterRead conn received b (t₀.next (.ok c) (.serving now rest))) := by
        rw [← hserve]
        refine .serve (t := t₀) hpc (hreading ▸ hreceive) (fun msg heq => hreturns ?_) (.ok ()) ?_
        · rw [heq] at hreceive
          exact ⟨msg, b, hreceive⟩
        · rintro - ⟨-, -, -, hsilent⟩
          rw [show t₀.responds conn = true from Function.update_self ..] at hsilent
          cases hsilent
      obtain ⟨hnot, hnodup⟩ := List.nodup_cons.mp hnodup
      have hne {d : ℕ} (hd : d ∈ rest) : d ≠ conn := fun heq => hnot (heq ▸ hd)
      obtain ⟨d, hd, hdpart⟩ := hpart
      have hdrest : d ∈ rest :=
        (List.mem_cons.mp hd).resolve_left fun heq => hdpart (heq ▸ hwhole)
      obtain ⟨t', d', hrun, hwaits⟩ := ih
        (t := t₀.afterRead conn received b (t₀.next (.ok c) (.serving now rest))) rfl hnodup
        (fun e he => (hsockets e (hne he)).symm ▸ hfd e (List.mem_cons_of_mem _ he))
        ⟨d, hdrest, by rwa [inbound_afterRead_of_ne _ _ _ _ _ (hne hdrest)]⟩
      exact ⟨t', d', .head ⟨.other, hturns, nofun⟩ (.head ⟨.other, hstep, nofun⟩ hrun), hwaits⟩
    · refine ⟨t, conn, .refl, ⟨now, rest, hpc⟩, ?_⟩
      rw [hreading]
      exact (Inbound.waits_iff hf).mpr hwhole

theorem exists_wedged {conn : ℕ} (h : t.WaitsFor cfg fragSize conn) :
    ∃ t', PassStep cfg fragSize t t' ∧ t'.Wedged cfg fragSize :=
  ⟨_, ⟨.other, .server .stop trivial, nofun⟩, conn, h, .inr (.inr rfl)⟩

variable (cfg) in
theorem accept_total (c : Connections) (addr : String × ℕ) (now : ℚ) :
    ∃ c', c.accept cfg (some addr) .done now = .ok c' ∧
      ∀ d, d < c.opened → c'.sockets d = c.sockets d := by
  have hsome : ∃ c', c.accept cfg (some addr) .done now = .ok c' := by
    unfold Connections.accept
    dsimp only
    split_ifs <;> exact ⟨_, rfl⟩
  obtain ⟨c', hc'⟩ := hsome
  refine ⟨c', hc', fun d hd => ?_⟩
  cases Connections.accept_change hc' with
  | refused hfull => exact Function.update_of_ne hd.ne ..
  | admitted addr now hroom hkeep => exact hkeep d hd

theorem exists_wedged_of_part (hf : 0 ≤ fragSize) (hlisted : t.toServer.Listed)
    (hstep : Step cfg fragSize t .select t') {conn : ℕ} (hconn : conn ∈ t.readList)
    (hne : conn ≠ t.srv) (hreadable : (t.inbound conn).Readable cfg.tls)
    (hpart : ¬ (t.inbound conn).Whole) :
    ∃ t₂, Relation.ReflTransGen (PassStep cfg fragSize) t' t₂ ∧ t₂.Wedged cfg fragSize := by
  have hfinish {now : ℚ} {rest : List ℕ} {w : Server}
      (hquiet : Step cfg fragSize t' .other (t'.moved w)) (hpc : w.pc = .serving now rest)
      (hsub : rest.Sublist t.readList) (hmem : conn ∈ rest)
      (hsockets : ∀ d ∈ rest, (w.sockets d).HasDescriptor)
      (hinbound : t'.inbound conn = t.inbound conn) :
      ∃ t₂, Relation.ReflTransGen (PassStep cfg fragSize) t' t₂ ∧ t₂.Wedged cfg fragSize := by
    obtain ⟨t₂, d, hrun, hwaits⟩ := exists_waitsFor (t := t'.moved w) hf hpc
      (hsub.nodup hlisted.nodup) hsockets
      ⟨conn, hmem, (hinbound ▸ hpart : ¬ (t'.inbound conn).Whole)⟩
    obtain ⟨t₃, hstop, hwedged⟩ := exists_wedged hwaits
    exact ⟨t₃, .head ⟨.other, hquiet, nofun⟩ (hrun.tail hstop), hwedged⟩
  cases hstep with
  | select hpc hfd backlog =>
    have hready : conn ∈ (t.afterSelect cfg backlog).pc.ready :=
      (mem_ready_afterSelect hne).mpr ⟨hconn, hreadable⟩
    by_cases hsrv : t.srv ∈ t.readList.filter fun conn =>
        if conn = t.srv then backlog else decide ((t.inbound conn).Readable cfg.tls)
    · obtain ⟨c, hc, hsockets⟩ := accept_total cfg t.toConnections ("", 0) t.clock
      let w : Server := (t.afterSelect cfg backlog).toServer
      have haccept : Server.Step cfg w (.accept (some ("", 0)) .done)
          (w.next (w.accept cfg (some ("", 0)) .done t.clock)
            (.serving t.clock (w.pc.ready.filter (· ≠ w.srv)))) :=
        .accept (show w.pc = .accepting t.clock w.pc.ready from rfl) hsrv _ _
      rw [show w.accept cfg (some ("", 0)) .done t.clock = .ok c from hc] at haccept
      refine hfinish (.server haccept trivial) rfl
        (List.filter_sublist.trans List.filter_sublist)
        (List.mem_filter.mpr ⟨hready, decide_eq_true hne⟩) (fun d hd => ?_) rfl
      have hd' := List.mem_of_mem_filter (List.mem_of_mem_filter hd)
      exact (hsockets d (hlisted.opened d hd')).symm ▸ hfd d hd'
    · exact hfinish (.server (.pass rfl hsrv) trivial) rfl List.filter_sublist hready
        (fun d hd => hfd d (List.mem_filter.mp hd).1) rfl

/-- A connection is not waited for while another has a whole request, one is past its timeout
or the server has been told to stop, in any state of any run in which `select` reports no
connection with part of a frame; and in the pass behind the next call of `select` it comes to
that just where one is reported so. -/
theorem wedged_iff {now : ℚ}
    (hrun : Relation.ReflTransGen (WholeStep cfg fragSize) (start now) t) :
    ¬ t.Wedged cfg fragSize ∧ (0 ≤ fragSize → ∀ t', Step cfg fragSize t .select t' →
      ((∃ t₂, Relation.ReflTransGen (PassStep cfg fragSize) t' t₂ ∧ t₂.Wedged cfg fragSize) ↔
        ∃ conn ∈ t.readList, conn ≠ t.srv ∧ (t.inbound conn).Readable cfg.tls ∧
          ¬ (t.inbound conn).Whole)) := by
  have hready : WholeReady t := by
    refine @invariant_of_run Traffic (WholeStep cfg fragSize) WholeReady ?_ _ _ ?_ hrun
    · rintro v v' h ⟨act, hstep, hselect⟩
      exact h.step hstep hselect
    · exact ⟨.start now, nofun⟩
  have hnot {t : Traffic} (h : WholeReady t) : ¬ t.Wedged cfg fragSize := by
    rintro ⟨conn, hwaits, -⟩
    exact h.not_waits conn hwaits
  refine ⟨hnot hready, fun hf t' hstep => ⟨?_, ?_⟩⟩
  · rintro ⟨t₂, hpass, hwedged⟩
    by_contra hnone
    push Not at hnone
    have hready' := hready.step hstep fun _ => hnone
    refine hnot ?_ hwedged
    refine @invariant_of_run Traffic (PassStep cfg fragSize) WholeReady ?_ _ _ hready' hpass
    rintro v v' h ⟨act, hpass, hact⟩
    exact h.step hpass fun heq => absurd heq hact
  · rintro ⟨conn, hconn, hne, hreadable, hpart⟩
    exact exists_wedged_of_part hf hready.listed hstep hconn hne hreadable hpart

theorem whole_of_clear (h : Relation.ReflTransGen (ClearStep cfg fragSize) t t') :
    Relation.ReflTransGen (WholeStep cfg fragSize) t t' := by
  refine h.lift id fun _ _ ⟨act, hstep, hclear⟩ => ⟨act, hstep, fun hact conn hconn hne => ?_⟩
  exact absurd (hclear hact conn hconn) hne

def oneSelecting (record : Bytes) : Traffic := selecting oneTaken 1 record

def oneReported (record : Bytes) : Traffic := (oneSelecting record).afterSelect {} false

theorem run_selecting (record : Bytes) :
    Relation.ReflTransGen (ClearStep {} 0) (start 0) (oneSelecting record) :=
  run_arrival rfl oneTaken_live oneTaken_active 1 record

theorem select_selecting (record : Bytes) :
    Step {} 0 (oneSelecting record) .select (oneReported record) :=
  .select rfl oneTaken_hasDescriptor false

def wholeRequest : Bytes := [0, 1, 0, 0, 0, 2, 1, 7]

def servingRequest : Traffic :=
  { oneReported wholeRequest with pc := .serving 0 [1] }

theorem whole_of_reported {conn : ℕ} (hconn : conn ∈ (oneSelecting wholeRequest).readList)
    (hne : conn ≠ (oneSelecting wholeRequest).srv) :
    ((oneSelecting wholeRequest).inbound conn).Whole := by
  obtain rfl : conn = 1 := (List.mem_pair.mp hconn).resolve_left hne
  exact .inr ⟨by decide, by decide⟩

theorem run_servingRequest : Relation.ReflTransGen (WholeStep {} 0) (start 0) servingRequest := by
  have hselect : WholeStep {} 0 (oneSelecting wholeRequest) (oneReported wholeRequest) :=
    ⟨.select, select_selecting _, fun _ conn hconn hne _ => whole_of_reported hconn hne⟩
  have hpc : (oneReported wholeRequest).pc = .accepting 0 [1] := rfl
  have hpass : ClearStep {} 0 (oneReported wholeRequest) servingRequest :=
    .of_server (.pass hpc (by decide)) trivial oneTaken_live
  exact ((whole_of_clear (run_selecting _)).tail hselect).trans (whole_of_clear (.single hpass))

/-- `select` reports a client whose request has arrived whole: it is served it without a wait,
and nothing in that pass wedges the loop. -/
theorem wedged_iff_arrival :
    (∃ t, Relation.ReflTransGen (WholeStep {} 0) (start 0) t ∧ t.served 1 = [wholeRequest] ∧
      ¬ t.Wedged {} 0) ∧
    1 ∈ (oneReported wholeRequest).pc.ready ∧
    ¬ ∃ t, Relation.ReflTransGen (PassStep {} 0) (oneReported wholeRequest) t ∧ t.Wedged {} 0 := by
  have hreceive : (servingRequest.reading 1).receive false 0 =
      some (.ok wholeRequest, { kernel := [[]] }) := by
    decide +kernel
  have hserve : WholeStep {} 0 servingRequest _ :=
    ⟨.other, .serve rfl hreceive (fun msg heq => by cases heq) (.ok ())
      (by simp [Connections.Drops, wholeRequest]), nofun⟩
  refine ⟨⟨_, run_servingRequest.tail hserve, rfl, ?_⟩, by decide, fun hwedges => ?_⟩
  · exact (wedged_iff (run_servingRequest.tail hserve)).1
  · obtain ⟨-, hiff⟩ := wedged_iff (whole_of_clear (run_selecting wholeRequest))
    obtain ⟨conn, hconn, hne, -, hpart⟩ := (hiff le_rfl _ (select_selecting _)).mp hwedges
    exact hpart (whole_of_reported hconn hne)

/-- One byte of a request is enough to stop the server from stopping. -/
theorem wedged_by_one_byte :
    ∃ t, Relation.ReflTransGen (AnyStep {} 0) (start 0) t ∧ t.Wedged {} 0 := by
  have hrun : Relation.ReflTransGen (AnyStep {} 0) (start 0) (oneSelecting [0]) :=
    any_of_clear (run_selecting [0])
  have hlisted : (oneSelecting [0]).toServer.Listed :=
    @invariant_of_run Traffic (AnyStep {} 0) (fun t => t.toServer.Listed)
      (fun _ _ h ⟨_, hstep⟩ => hstep.listed h) _ _ (.start 0) hrun
  have hmem : 1 ∈ (oneSelecting [0]).readList := List.mem_cons_of_mem _ List.mem_cons_self
  have hpart : ¬ ((oneSelecting [0]).inbound 1).Whole := by
    rintro (hended | ⟨hhead, -⟩)
    · exact hended rfl
    · exact absurd hhead (by decide)
  obtain ⟨t', hpass, hwedged⟩ := exists_wedged_of_part le_rfl hlisted (select_selecting [0]) hmem
    Nat.one_ne_zero (by decide) hpart
  have hany : Relation.ReflTransGen (AnyStep {} 0) (oneReported [0]) t' :=
    hpass.lift id fun _ _ ⟨act, hstep, _⟩ => ⟨act, hstep⟩
  exact ⟨t', (hrun.tail ⟨.select, select_selecting [0]⟩).trans hany, hwedged⟩

end Traffic

end Pyomb
