import Mathlib.Data.Finset.Card
import Pyomb.Runs
import Pyomb.Simulators.Connections

/-! The collections that shadow the server's connections, over every order of accepts, reads,
sweeps and calls of `accept()`. All that a step can do to them is to refuse a connection, to
admit one at the end, to note when one was heard from, to forget some of them together, or to
hand the first one out; so they stay in step. The limit is another matter: it counts the read
list, which only a server that processes its connections puts them on. -/

namespace Pyomb

structure ModeError where
  message : String
  deriving DecidableEq, Repr

namespace Connections

variable (cfg : ServerSettings)

/-- `_sweep_inactive`, over a copy of the read list. -/
def sweepInactive (w : Connections) (now : ℚ) : Except LoopError Connections :=
  w.readList.foldlM (fun c conn => c.sweep cfg conn now) w

/-- `accept()` up to its wait: with no client there the event is cleared first. -/
def awaitClient (w : Connections) : Except ModeError Connections :=
  if cfg.processConnections then
    .error ⟨"accept() is unavailable while the server processes connections itself"⟩
  else .ok (if w.clients = [] then { w with newConnectionEvent := false } else w)

/-- `accept()` behind its wait: the first client and its address, or neither. -/
def takeClient (w : Connections) : (Option ℕ × Option (String × ℕ)) × Connections :=
  match w.clients with
  | [] => ((none, none), w)
  | conn :: _ => ((some conn, w.peerNames conn), { w with clients := w.clients.erase conn })

/-- What brings a step about. -/
inductive Event where
  | arrival | loop | peer | owner
  deriving DecidableEq

/-- A step of the server thread that comes to its end, of a peer, or of the owner. What is
served has been read off the read list. Between the two halves of `accept()` the thread may
go on. -/
inductive Step : Connections → Event → Connections → Prop
  | accept {w w' : Connections} (incoming : Option (String × ℕ)) (handshake : Handshake) (now : ℚ)
      (h : w.accept cfg incoming handshake now = .ok w') : Step w .arrival w'
  | serve {w w' : Connections} {conn : ℕ} (hconn : conn ∈ w.readList) (hsrv : conn ≠ w.srv)
      (now : ℚ) {ε : Type} (received : Except (Exc ε) Bytes) (answered : Except (Exc ε) Unit)
      (h : w.serve cfg conn now received answered = .ok w') : Step w .loop w'
  | sweepInactive {w w' : Connections} (now : ℚ) (h : w.sweepInactive cfg now = .ok w') :
      Step w .loop w'
  | peerResets {w : Connections} {conn : ℕ} (hlive : w.sockets conn = .live)
      (hsrv : conn ≠ w.srv) : Step w .peer (w.setState conn .reset)
  | awaitClient {w w' : Connections} (h : w.awaitClient cfg = .ok w') : Step w .owner w'
  | takeClient {w : Connections} (hmode : cfg.processConnections = false) :
      Step w .owner w.takeClient.2

/-! ### What a step changes -/

def without (w : Connections) (gone : ℕ → Prop) [DecidablePred gone] : Connections :=
  { w with
    readList := w.readList.filter (¬ gone ·)
    clients := w.clients.filter (¬ gone ·)
    peerNames := fun c => if gone c then none else w.peerNames c
    lastActivityTime := fun c => if gone c then none else w.lastActivityTime c
    sockets := fun c => if gone c then .closed else w.sockets c }

instance (w : Connections) (conn : ℕ) (now : ℚ) : Decidable (w.Inactive cfg conn now) :=
  decidable_of_iff (conn ≠ w.srv ∧
    ∃ lastSeen ∈ w.lastActivityTime conn, lastSeen + cfg.inactiveTimeout < now) Iff.rfl

section Without

variable {w w' : Connections} {gone gone' : ℕ → Prop} [DecidablePred gone] [DecidablePred gone']

theorem without_congr (h : ∀ c, gone c ↔ gone' c) : w.without gone = w.without gone' := by
  obtain rfl : gone = gone' := funext fun c => propext (h c)
  congr

theorem without_none (h : ∀ c, ¬ gone c) : w.without gone = w := by
  simp [without, h]

theorem without_without : (w.without gone).without gone' =
    w.without fun c => gone c ∨ gone' c := by
  simp only [without, List.filter_filter]
  congr 1
  · refine List.filter_congr fun c _ => ?_
    by_cases h : gone c <;> by_cases h' : gone' c <;> simp [h, h']
  · refine List.filter_congr fun c _ => ?_
    by_cases h : gone c <;> by_cases h' : gone' c <;> simp [h, h']
  all_goals
    funext c
    by_cases h : gone c <;> by_cases h' : gone' c <;> simp [h, h']

theorem inactive_without {conn : ℕ} {now : ℚ} : (w.without gone).Inactive cfg conn now ↔
    w.Inactive cfg conn now ∧ ¬ gone conn := by
  by_cases h : gone conn <;> simp [Inactive, without, h]

end Without

variable {cfg} {w w' : Connections}

theorem forget_eq (hr : w.readList.Nodup) (hc : w.clients.Nodup) {conn : ℕ}
    (h : w.forget cfg conn = .ok w') : w' = w.without (· = conn) := by
  have hdrop : (w.setState conn .closed).drop conn = w.without (· = conn) := by
    simp only [drop, without, setState, hr.erase_eq_filter, hc.erase_eq_filter]
    congr 1
    · exact List.filter_congr fun c _ => by simp [bne, beq_eq_decide]
    · exact List.filter_congr fun c _ => by simp [bne, beq_eq_decide]
    all_goals
      funext c
      exact Function.update_apply ..
  unfold forget disconnect at h
  split_ifs at h with hclosed
  · cases h
  · exact (Except.ok.inj h).symm.trans hdrop

theorem sweep_eq (hr : w.readList.Nodup) (hc : w.clients.Nodup) {conn : ℕ} {now : ℚ}
    (h : w.sweep cfg conn now = .ok w') :
    w' = w.without fun c => c = conn ∧ w.Inactive cfg c now := by
  have hkeep (hnot : ¬ w.Inactive cfg conn now)
      (heq : (Except.ok w : Except LoopError Connections) = .ok w') :
      w' = w.without fun c => c = conn ∧ w.Inactive cfg c now := by
    have hnone (c : ℕ) : ¬ (c = conn ∧ w.Inactive cfg c now) := by
      rintro ⟨rfl, hin⟩
      exact hnot hin
    rw [without_none hnone]
    exact (Except.ok.inj heq).symm
  unfold sweep at h
  by_cases hsrv : conn = w.srv
  · rw [if_pos hsrv] at h
    exact hkeep (fun hin => hin.1 hsrv) h
  rw [if_neg hsrv] at h
  cases hlast : w.lastActivityTime conn with
  | none =>
    rw [hlast] at h
    refine hkeep (fun hin => ?_) h
    obtain ⟨-, lastSeen, hsome, -⟩ := hin
    rw [hlast] at hsome
    cases hsome
  | some lastSeen =>
    rw [hlast] at h
    dsimp only at h
    split_ifs at h with hlt
    · have hin : w.Inactive cfg conn now := ⟨hsrv, lastSeen, hlast, hlt⟩
      rw [forget_eq hr hc h]
      exact without_congr fun c => ⟨fun heq => ⟨heq, heq ▸ hin⟩, fun hc => hc.1⟩
    · refine hkeep (fun hin => ?_) h
      obtain ⟨-, lastSeen', hsome, hlt'⟩ := hin
      rw [hlast] at hsome
      exact hlt (Option.some.inj hsome ▸ hlt')

/-- The sweep forgets what it goes through that is inactive, and skips none of it: what one
round forgets is in no later round, and what it spares is as inactive as it was. -/
theorem foldlM_sweep_eq {conns : List ℕ} {now : ℚ} (hr : w.readList.Nodup) (hc : w.clients.Nodup)
    (h : conns.foldlM (fun c conn => c.sweep cfg conn now) w = .ok w') :
    w' = w.without fun c => c ∈ conns ∧ w.Inactive cfg c now := by
  induction conns generalizing w with
  | nil =>
    rw [without_none (by simp)]
    exact (Except.ok.inj h).symm
  | cons conn conns ih =>
    rw [List.foldlM_cons] at h
    obtain ⟨w₁, hsweep, hrest⟩ := bind_eq_ok.mp h
    obtain rfl := sweep_eq hr hc hsweep
    rw [ih (hr.filter _) (hc.filter _) hrest, without_without]
    refine without_congr fun c => ?_
    rw [inactive_without, List.mem_cons]
    tauto

theorem sweepInactive_eq {now : ℚ} (hr : w.readList.Nodup) (hc : w.clients.Nodup)
    (h : w.sweepInactive cfg now = .ok w') :
    w' = w.without fun c => c ∈ w.readList ∧ w.Inactive cfg c now := foldlM_sweep_eq hr hc h

theorem without_touch {conn : ℕ} {now : ℚ} :
    (w.touch conn now).without (· = conn) = w.without (· = conn) := by
  simp only [without, touch]
  congr 1
  funext c
  by_cases h : c = conn <;> simp [h]

variable (cfg) in
/-- All that a step can come to. -/
inductive Change (w : Connections) : Event → Connections → Prop
  | refused (hfull : cfg.connectionLimit ≤ (w.readList.length : ℤ) - 1) :
      Change w .arrival (w.openSock .closed)
  /-- Behind a handshake the connection may be the second of two new sockets. -/
  | admitted {sockets : ℕ → SockState} {opened conn : ℕ} (addr : String × ℕ) (now : ℚ)
      (hroom : (w.readList.length : ℤ) - 1 < cfg.connectionLimit)
      (hkeep : ∀ c < w.opened, sockets c = w.sockets c) (hold : w.opened ≤ conn)
      (hnew : conn < opened) :
      Change w .arrival (register cfg { w with sockets, opened } conn addr now)
  | touched {conn : ℕ} (hconn : conn ∈ w.readList) (hsrv : conn ≠ w.srv) (now : ℚ) :
      Change w .loop (w.touch conn now)
  | forgot {gone : ℕ → Prop} [DecidablePred gone]
      (hgone : ∀ c, gone c → c ∈ w.readList ∧ c ≠ w.srv) : Change w .loop (w.without gone)
  | reset {conn : ℕ} (hlive : w.sockets conn = .live) : Change w .peer (w.setState conn .reset)
  | handedOut (hmode : cfg.processConnections = false) (n : ℕ) (newConnectionEvent : Bool) :
      Change w .owner { w with clients := w.clients.drop n, newConnectionEvent }

/-- The listener is first in the read list, and behind it are the clients, where the server
processes them, and nothing, where it does not. -/
structure Roster (processing : Bool) (w : Connections) : Prop where
  readList : w.readList = w.srv :: if processing then w.clients else []
  nodup : (w.srv :: w.clients).Nodup
  opened : ∀ c ∈ w.srv :: w.clients, c < w.opened

theorem Roster.nodup_readList {processing : Bool} (h : Roster processing w) :
    w.readList.Nodup := by
  rw [h.readList]
  cases processing with
  | false => exact List.nodup_singleton _
  | true => exact h.nodup

theorem Roster.mem_clients {processing : Bool} (h : Roster processing w) {conn : ℕ}
    (hconn : conn ∈ w.readList) (hsrv : conn ≠ w.srv) : processing = true ∧ conn ∈ w.clients := by
  rw [h.readList, List.mem_cons, or_iff_right hsrv] at hconn
  cases processing with
  | false => exact absurd hconn List.not_mem_nil
  | true => exact ⟨rfl, hconn⟩

theorem accept_change {incoming : Option (String × ℕ)} {handshake : Handshake} {now : ℚ}
    (h : w.accept cfg incoming handshake now = .ok w') : Change cfg w .arrival w' := by
  unfold accept at h
  cases incoming with
  | none => cases h
  | some addr =>
    dsimp only at h
    split_ifs at h with hlimit htls
    · obtain rfl := Except.ok.inj h
      exact .refused hlimit
    · have hroom := not_le.mp hlimit
      have hkeep {c n : ℕ} (s : SockState) (f : ℕ → SockState) (hc : c < n) :
          Function.update f n s c = f c := Function.update_of_ne hc.ne ..
      cases handshake with
      | done =>
        obtain rfl := Except.ok.inj h
        refine .admitted addr now hroom (fun c hc => ?_) (Nat.le_succ _) (Nat.lt_succ_self _)
        exact (hkeep _ _ (Nat.lt_succ_of_lt hc)).trans (hkeep _ _ hc)
      | sslError =>
        obtain rfl := Except.ok.inj h
        exact .admitted addr now hroom (fun c hc => hkeep _ _ hc) le_rfl (Nat.lt_succ_self _)
      | osError => cases h
    · obtain rfl := Except.ok.inj h
      exact .admitted addr now (not_le.mp hlimit)
        (fun c hc => Function.update_of_ne hc.ne ..) le_rfl (Nat.lt_succ_self _)

theorem serve_change {processing : Bool} (hw : Roster processing w) {conn : ℕ}
    (hconn : conn ∈ w.readList) (hsrv : conn ≠ w.srv) {now : ℚ} {ε : Type}
    {received : Except (Exc ε) Bytes} {answered : Except (Exc ε) Unit}
    (h : w.serve cfg conn now received answered = .ok w') : Change cfg w .loop w' := by
  have hclients : w.clients.Nodup := hw.nodup.of_cons
  have hgone : ∀ c, c = conn → c ∈ w.readList ∧ c ≠ w.srv := by
    rintro c rfl
    exact ⟨hconn, hsrv⟩
  have hforget (hf : w.forget cfg conn = .ok w') : Change cfg w .loop w' := by
    rw [forget_eq hw.nodup_readList hclients hf]
    exact .forgot hgone
  rcases serve_cases cfg w conn now received answered with
    ⟨heq, -⟩ | ⟨heq, -⟩ | ⟨heq, -⟩ | ⟨heq, -⟩ <;> rw [heq] at h
  · exact hforget h
  · cases h
  · rw [forget_eq (w := w.touch conn now) hw.nodup_readList hclients h, without_touch]
    exact .forgot hgone
  · obtain rfl := Except.ok.inj h
    exact .touched hconn hsrv now

theorem Step.change {e : Event} (hw : Roster cfg.processConnections w) (h : Step cfg w e w') :
    Change cfg w e w' := by
  cases h with
  | accept incoming handshake now h => exact accept_change h
  | serve hconn hsrv now received answered h => exact serve_change hw hconn hsrv h
  | sweepInactive now h =>
    rw [sweepInactive_eq hw.nodup_readList hw.nodup.of_cons h]
    exact .forgot fun c hc => ⟨hc.1, hc.2.1⟩
  | peerResets hlive hsrv => exact .reset hlive
  | awaitClient h =>
    unfold Connections.awaitClient at h
    split_ifs at h with hmode hnil
    · obtain rfl := Except.ok.inj h
      exact .handedOut (by simpa using hmode) 0 false
    · obtain rfl := Except.ok.inj h
      exact .handedOut (by simpa using hmode) 0 w.newConnectionEvent
  | takeClient hmode =>
    have htake : w.takeClient.2 = { w with clients := w.clients.drop 1 } := by
      unfold Connections.takeClient
      split
      next hnil =>
        have hdrop : w.clients.drop 1 = w.clients := by
          rw [hnil]
          rfl
        rw [hdrop]
      next conn rest hcons => simp [hcons]
    rw [htake]
    exact .handedOut hmode 1 w.newConnectionEvent

theorem Roster.change {e : Event} (h : Roster cfg.processConnections w) (hc : Change cfg w e w') :
    Roster cfg.processConnections w' := by
  cases hc with
  | refused hfull => exact ⟨h.readList, h.nodup, fun c hc => (h.opened c hc).trans (Nat.lt_succ_self _)⟩
  | @admitted sockets opened conn addr now hroom hkeep hold hnew =>
    have hfresh : conn ∉ w.srv :: w.clients := fun hmem => absurd (h.opened _ hmem) (not_lt.mpr hold)
    refine ⟨?_, ?_, ?_⟩
    · show (if cfg.processConnections then w.readList ++ [conn] else w.readList) =
        w.srv :: if cfg.processConnections then w.clients ++ [conn] else []
      have hlist := h.readList
      cases hmode : cfg.processConnections <;> rw [hmode] at hlist <;> simp [hlist]
    · show (w.srv :: (w.clients ++ [conn])).Nodup
      rw [← List.cons_append]
      exact List.nodup_append'.mpr ⟨h.nodup, List.nodup_singleton _, by simpa using hfresh⟩
    · show ∀ c ∈ w.srv :: (w.clients ++ [conn]), c < opened
      rw [← List.cons_append, List.forall_mem_append, List.forall_mem_singleton]
      exact ⟨fun c hc => (h.opened c hc).trans (by omega), hnew⟩
  | touched => exact ⟨h.readList, h.nodup, h.opened⟩
  | @forgot gone _ hgone =>
    have hsrv : ¬ gone w.srv := fun hg => (hgone _ hg).2 rfl
    have hsub : (w.srv :: w.clients.filter (¬ gone ·)).Sublist (w.srv :: w.clients) :=
      List.filter_sublist.cons_cons _
    refine ⟨?_, h.nodup.sublist hsub, fun c hc => h.opened c (hsub.subset hc)⟩
    show w.readList.filter _ = w.srv :: if _ then w.clients.filter _ else []
    rw [h.readList, List.filter_cons_of_pos (by simpa using hsrv)]
    split_ifs <;> rfl
  | reset => exact ⟨h.readList, h.nodup, h.opened⟩
  | handedOut hmode n event =>
    have hsub : (w.srv :: w.clients.drop n).Sublist (w.srv :: w.clients) :=
      (List.drop_sublist _ _).cons_cons _
    refine ⟨?_, h.nodup.sublist hsub, fun c hc => h.opened c (hsub.subset hc)⟩
    have hlist := h.readList
    rw [hmode] at hlist ⊢
    exact hlist

theorem Change.srv {e : Event} (hc : Change cfg w e w') : w'.srv = w.srv := by
  cases hc <;> rfl

theorem Roster.start (processing : Bool) : Roster processing openListener := by
  refine ⟨?_, List.nodup_singleton _, fun c hc => ?_⟩
  · cases processing <;> rfl
  · obtain rfl := List.mem_singleton.mp hc
    exact Nat.zero_lt_one

/-! ### The bookkeeping -/

/-- What is recorded by connection is recorded of the clients and of nothing else. -/
structure Shadowed (w : Connections) : Prop where
  peerNames : ∀ c, (w.peerNames c).isSome ↔ c ∈ w.clients
  lastActivityTime : ∀ c, (w.lastActivityTime c).isSome ↔ c ∈ w.clients

theorem Shadowed.change {e : Event} (h : Shadowed w) (hmode : cfg.processConnections = true)
    (hw : Roster cfg.processConnections w) (hc : Change cfg w e w') : Shadowed w' := by
  have hupdate {α : Type} {f : ℕ → Option α} (hf : ∀ c, (f c).isSome ↔ c ∈ w.clients) (conn : ℕ)
      (a : α) (c : ℕ) : (Function.update f conn (some a) c).isSome ↔ c ∈ w.clients ++ [conn] := by
    by_cases heq : c = conn <;> simp [heq, hf]
  cases hc with
  | refused hfull => exact ⟨h.peerNames, h.lastActivityTime⟩
  | admitted addr now =>
    refine ⟨hupdate h.peerNames _ _, ?_⟩
    simp only [register, hmode, if_true]
    exact hupdate h.lastActivityTime _ _
  | @touched conn hconn hsrv now =>
    refine ⟨h.peerNames, fun c => (hupdate h.lastActivityTime conn now c).trans ?_⟩
    have hmem := (hw.mem_clients hconn hsrv).2
    simp only [List.mem_append, List.mem_singleton, touch, or_iff_left_iff_imp]
    rintro rfl
    exact hmem
  | @forgot gone _ hgone =>
    refine ⟨fun c => ?_, fun c => ?_⟩
    · by_cases hg : gone c <;> simp [without, hg, h.peerNames]
    · by_cases hg : gone c <;> simp [without, hg, h.lastActivityTime]
  | reset => exact ⟨h.peerNames, h.lastActivityTime⟩
  | handedOut hfalse => simp [hmode] at hfalse

theorem Change.closed {e : Event} (hc : Change cfg w e w') {c : ℕ} (hin : c ∈ w.readList)
    (hout : c ∉ w'.readList) : w'.sockets c = .closed := by
  cases hc with
  | refused | touched | reset | handedOut => exact absurd hin hout
  | admitted addr now =>
    exact absurd (subset_register cfg { w with sockets := _, opened := _ } _ addr now hin) hout
  | @forgot gone _ hgone =>
    have hg : gone c := by
      by_contra hg
      exact hout (List.mem_filter.mpr ⟨hin, by simpa using hg⟩)
    exact if_pos hg

variable (cfg) in
theorem forget_plain (htls : cfg.tls = false) (w : Connections) (conn : ℕ) :
    ∃ w', w.forget cfg conn = .ok w' := by
  refine ⟨(w.setState conn .closed).drop conn, ?_⟩
  simp [forget, disconnect, htls, Except.map]

theorem sweepInactive_plain (htls : cfg.tls = false) (w : Connections) (now : ℚ) :
    ∃ w', w.sweepInactive cfg now = .ok w' := by
  have hround (w : Connections) (conn : ℕ) : ∃ w', w.sweep cfg conn now = .ok w' := by
    unfold sweep
    split_ifs
    · exact ⟨w, rfl⟩
    · split
      · exact ⟨w, rfl⟩
      · split_ifs
        · exact forget_plain cfg htls w conn
        · exact ⟨w, rfl⟩
  have hfold (conns : List ℕ) (w : Connections) :
      ∃ w', conns.foldlM (fun c conn => c.sweep cfg conn now) w = .ok w' := by
    induction conns generalizing w with
    | nil => exact ⟨w, rfl⟩
    | cons conn conns ih =>
      obtain ⟨w₁, h₁⟩ := hround w conn
      obtain ⟨w', h'⟩ := ih w₁
      exact ⟨w', by rw [List.foldlM_cons, h₁]; exact h'⟩
  exact hfold w.readList w

def PlainStep (w w' : Connections) : Prop :=
  ∃ (cfg : ServerSettings) (e : Event), cfg.tls = false ∧ cfg.processConnections = true ∧
    Step cfg w e w'

/-- In plaintext, over every order of accepts, reads and sweeps, with whatever the peers and
the handler do: the connections behind the listener are the clients, and of these alone a name
and a last activity are kept; a connection that a step drops has been closed; an accept drops
none and adds none at the limit; and the sweep drops just the inactive ones. -/
theorem bookkeeping_in_step (hrun : Relation.ReflTransGen PlainStep openListener w) :
    (w.readList = openListener.srv :: w.readList.drop 1 ∧ w.readList.Nodup ∧
      ∀ c, (c ∈ w.readList.drop 1 ↔ c ∈ w.clients) ∧
        (c ∈ w.readList.drop 1 ↔ (w.peerNames c).isSome) ∧
        (c ∈ w.readList.drop 1 ↔ (w.lastActivityTime c).isSome)) ∧
    (∀ w', PlainStep w w' → ∀ c ∈ w.readList, c ∉ w'.readList → w'.sockets c = .closed) ∧
    ∀ cfg : ServerSettings, cfg.tls = false → cfg.processConnections = true →
      (∀ addr handshake now, ∃ w', w.accept cfg (some addr) handshake now = .ok w' ∧
        (∀ c ∈ w.readList, c ∈ w'.readList ∧ w'.sockets c = w.sockets c) ∧
        (cfg.connectionLimit ≤ (w.readList.drop 1).length →
          w'.readList = w.readList ∧ w'.clients = w.clients ∧ w'.sockets w.opened = .closed)) ∧
      ∀ now, ∃ w', w.sweepInactive cfg now = .ok w' ∧
        ∀ c, c ∈ w'.readList ↔ c ∈ w.readList ∧ ¬ w.Inactive cfg c now := by
  obtain ⟨hw, hshadow, hsrv⟩ : Roster true w ∧ Shadowed w ∧ w.srv = openListener.srv := by
    refine @invariant_of_run Connections PlainStep
      (fun w => Roster true w ∧ Shadowed w ∧ w.srv = openListener.srv) ?_ _ _
      ⟨Roster.start true, ⟨by simp [openListener], by simp [openListener]⟩, rfl⟩ hrun
    rintro v v' ⟨hv, hshadow, hsrv⟩ ⟨cfg, e, -, hmode, hstep⟩
    rw [← hmode] at hv ⊢
    have hc := hstep.change hv
    exact ⟨hv.change hc, hshadow.change hmode hv hc, hc.srv.trans hsrv⟩
  have hlist : w.readList = w.srv :: w.clients := hw.readList
  refine ⟨⟨?_, hw.nodup_readList, fun c => ?_⟩, ?_, fun cfg htls hmode => ⟨?_, fun now => ?_⟩⟩
  · rw [hlist, hsrv]
    rfl
  · rw [hlist, hshadow.peerNames, hshadow.lastActivityTime]
    exact ⟨Iff.rfl, Iff.rfl, Iff.rfl⟩
  · rintro w' ⟨cfg, e, -, hmode, hstep⟩ c hin hout
    exact (hstep.change (hmode ▸ hw)).closed hin hout
  · intro addr handshake now
    have hkeep (s : SockState) {c : ℕ} (hc : c ∈ w.readList) :
        (w.openSock s).sockets c = w.sockets c :=
      Function.update_of_ne (hw.opened c (hlist ▸ hc)).ne ..
    have hlen : (w.readList.length : ℤ) - 1 = (w.readList.drop 1).length := by
      simp [hlist]
    by_cases hfull : cfg.connectionLimit ≤ (w.readList.length : ℤ) - 1
    · refine ⟨w.openSock .closed, by simp [Connections.accept, hfull],
        fun c hc => ⟨hc, hkeep _ hc⟩, fun _ => ⟨rfl, rfl, Function.update_self ..⟩⟩
    · refine ⟨(w.openSock .live).register cfg w.opened addr now,
        by simp [Connections.accept, hfull, htls],
        fun c hc => ⟨subset_register cfg (w.openSock .live) _ _ _ hc, hkeep .live hc⟩,
        fun hle => absurd (hlen ▸ hle) hfull⟩
  · obtain ⟨w', hsweep⟩ := sweepInactive_plain htls w now
    refine ⟨w', hsweep, fun c => ?_⟩
    rw [sweepInactive_eq hw.nodup_readList hw.nodup.of_cons hsweep]
    show c ∈ w.readList.filter _ ↔ _
    rw [List.mem_filter, decide_eq_true_iff]
    tauto

/-- A client is taken in, is silent for too long, and is swept. -/
theorem bookkeeping_in_step_swept : ∃ w w', PlainStep openListener w ∧ 1 ∈ w.readList ∧
    w.sweepInactive {} 2 = .ok w' ∧ 1 ∉ w'.readList ∧ w'.sockets 1 = .closed := by
  have haccept : PlainStep openListener
      ((openListener.openSock .live).register {} 1 ("10.0.0.7", 50000) 0) :=
    ⟨{}, .arrival, rfl, rfl, .accept (some ("10.0.0.7", 50000)) .done 0 rfl⟩
  obtain ⟨-, hclosed, hops⟩ := bookkeeping_in_step (.single haccept)
  obtain ⟨w', hsweep, hkept⟩ := (hops {} rfl rfl).2 2
  have hstep : PlainStep _ w' := ⟨{}, .loop, rfl, rfl, .sweepInactive 2 hsweep⟩
  have hout : 1 ∉ w'.readList := by
    rw [hkept]
    rintro ⟨-, hactive⟩
    exact hactive ⟨by decide, 0, rfl, by norm_num⟩
  exact ⟨_, w', haccept, by decide, hsweep, hout, hclosed w' hstep 1 (by decide) hout⟩

/-! ### The limit -/

def held (w : Connections) : Finset ℕ :=
  ((w.readList.drop 1).toFinset ∪ w.clients.toFinset).filter fun c => (w.sockets c).HasDescriptor

/-- A new connection is closed at once, and nothing else happens to the others. -/
structure Refused (w w' : Connections) : Prop where
  closed : w'.sockets w.opened = .closed
  others : ∀ c, c ≠ w.opened → w'.sockets c = w.sockets c
  readList : w'.readList = w.readList
  clients : w'.clients = w.clients
  peerNames : w'.peerNames = w.peerNames
  lastActivityTime : w'.lastActivityTime = w.lastActivityTime

variable (cfg) in
/-- The limit is counted on the read list, or is zero, or has not been reached. -/
def Counted (w : Connections) : Prop :=
  cfg.processConnections = true ∨ cfg.connectionLimit = 0 ∨
    (w.held.card : ℤ) < cfg.connectionLimit

variable (cfg) in
/-- A step at which no connection arrives beyond a limit that is not counted. -/
def CountedStep (w w' : Connections) : Prop :=
  ∃ e, Step cfg w e w' ∧ (e = .arrival → w.Counted cfg)

theorem Roster.held_eq {processing : Bool} (h : Roster processing w) :
    w.held = w.clients.toFinset.filter fun c => (w.sockets c).HasDescriptor := by
  unfold held
  congr 1
  rw [h.readList, List.drop_one, List.tail_cons, Finset.union_eq_right]
  cases processing with
  | false => exact Finset.empty_subset _
  | true => exact Finset.Subset.refl _

theorem Roster.card_held_le {processing : Bool} (h : Roster processing w) :
    w.held.card ≤ w.clients.length := by
  rw [h.held_eq]
  exact (Finset.card_filter_le _ _).trans (List.toFinset_card_le _)

theorem Roster.held_change {e : Event} (h : Roster cfg.processConnections w)
    (hc : Change cfg w e w') :
    (w'.held ⊆ w.held ∧ w'.clients.Sublist w.clients) ∨
      e = .arrival ∧ (w.readList.length : ℤ) - 1 < cfg.connectionLimit ∧
        w'.held.card ≤ w.held.card + 1 ∧ ∃ conn, w'.clients = w.clients ++ [conn] := by
  have hw' := h.change hc
  have hsub (hclients : w'.clients.Sublist w.clients)
      (hopen : ∀ c ∈ w'.clients, (w'.sockets c).HasDescriptor → (w.sockets c).HasDescriptor) :
      w'.held ⊆ w.held ∧ w'.clients.Sublist w.clients := by
    refine ⟨fun c hc => ?_, hclients⟩
    rw [hw'.held_eq, Finset.mem_filter, List.mem_toFinset] at hc
    rw [h.held_eq, Finset.mem_filter, List.mem_toFinset]
    exact ⟨hclients.subset hc.1, hopen c hc.1 hc.2⟩
  have hlt {c : ℕ} (hc : c ∈ w.clients) : c < w.opened := h.opened c (List.mem_cons_of_mem _ hc)
  cases hc with
  | refused hfull =>
    refine .inl (hsub (List.Sublist.refl _) fun c hc ho => ?_)
    exact (Function.update_of_ne (hlt hc).ne .closed w.sockets : _) ▸ ho
  | @admitted sockets opened conn addr now hroom hkeep hold hnew =>
    refine .inr ⟨rfl, hroom, ?_, conn, rfl⟩
    refine (Finset.card_le_card fun c hc => ?_).trans (Finset.card_insert_le conn w.held)
    rw [hw'.held_eq, Finset.mem_filter, List.mem_toFinset] at hc
    obtain ⟨hmem, ho⟩ := hc
    rw [Finset.mem_insert, h.held_eq, Finset.mem_filter, List.mem_toFinset]
    rcases List.mem_append.mp hmem with hmem | hmem
    · exact .inr ⟨hmem, hkeep c (hlt hmem) ▸ ho⟩
    · exact .inl (List.mem_singleton.mp hmem)
  | touched => exact .inl (hsub (List.Sublist.refl _) fun c hc ho => ho)
  | @forgot gone _ hgone =>
    refine .inl (hsub List.filter_sublist fun c hc ho => ?_)
    have hg : ¬ gone c := by simpa using (List.mem_filter.mp hc).2
    exact (if_neg hg : (if gone c then SockState.closed else w.sockets c) = _) ▸ ho
  | @reset conn hlive =>
    refine .inl (hsub (List.Sublist.refl _) fun c hc ho => ?_)
    by_cases heq : c = conn
    · exact .inl (heq ▸ hlive)
    · exact (Function.update_of_ne heq .reset w.sockets : _) ▸ ho
  | handedOut hmode n event => exact .inl (hsub (List.drop_sublist _ _) fun c hc ho => ho)

theorem Roster.length_readList (h : Roster cfg.processConnections w) :
    (w.readList.length : ℤ) - 1 = if cfg.processConnections then (w.clients.length : ℤ) else 0 := by
  rw [h.readList]
  split_ifs <;> simp

theorem Roster.held_lt (h : Roster cfg.processConnections w) (hcounted : w.Counted cfg)
    (hroom : (w.readList.length : ℤ) - 1 < cfg.connectionLimit) :
    (w.held.card : ℤ) < cfg.connectionLimit := by
  have hle := h.card_held_le
  rw [h.length_readList] at hroom
  rcases hcounted with hmode | hzero | hlt
  · rw [hmode, if_pos rfl] at hroom
    omega
  · split_ifs at hroom <;> omega
  · exact hlt

variable (cfg) in
structure Bounded (w : Connections) : Prop where
  roster : Roster cfg.processConnections w
  held : (w.held.card : ℤ) ≤ cfg.connectionLimit
  clients : cfg.processConnections = true → (w.clients.length : ℤ) ≤ cfg.connectionLimit

theorem Bounded.change {e : Event} (h : Bounded cfg w) (hc : Change cfg w e w')
    (hcounted : e = .arrival → w.Counted cfg) : Bounded cfg w' := by
  have hheld := h.held
  rcases h.roster.held_change hc with ⟨hsub, hclients⟩ | ⟨rfl, hroom, hcard, conn, hclients⟩
  · have hcard := Finset.card_le_card hsub
    have hlen := hclients.length_le
    refine ⟨h.roster.change hc, by omega, fun hmode => ?_⟩
    have := h.clients hmode
    omega
  · have hlt := h.roster.held_lt (hcounted rfl) hroom
    refine ⟨h.roster.change hc, by omega, fun hmode => ?_⟩
    rw [h.roster.length_readList, hmode, if_pos rfl] at hroom
    rw [hclients, List.length_append, List.length_singleton]
    omega

theorem Refused.openSock (w : Connections) : Refused w (w.openSock .closed) where
  closed := Function.update_self ..
  others _ hne := Function.update_of_ne hne ..
  readList := rfl
  clients := rfl
  peerNames := rfl
  lastActivityTime := rfl

/-- The limit and the refusals it calls for, in every state of every run in which no
connection arrives beyond a limit that is not counted; and at the next arrival they are kept
just where it is no such arrival. -/
theorem limit_kept_iff (hlimit : 0 ≤ cfg.connectionLimit)
    (hrun : Relation.ReflTransGen (CountedStep cfg) openListener w) :
    (w.held.card : ℤ) ≤ cfg.connectionLimit ∧
      ∀ w', Step cfg w .arrival w' →
        (((w'.held.card : ℤ) ≤ cfg.connectionLimit ∧
          (cfg.connectionLimit ≤ w.held.card → Refused w w')) ↔ w.Counted cfg) := by
  have hinv : Bounded cfg w := by
    refine @invariant_of_run Connections (CountedStep cfg) (Bounded cfg) ?_ _ _
      ⟨Roster.start _, ?_, fun _ => hlimit⟩ hrun
    · rintro v v' h ⟨e, hstep, hcounted⟩
      exact h.change (hstep.change h.roster) hcounted
    · simpa [held, openListener] using hlimit
  refine ⟨hinv.held, fun w' hstep => ?_⟩
  have hc := hstep.change hinv.roster
  constructor
  · rintro ⟨hle, hrefused⟩
    by_contra hnot
    obtain ⟨hmode, hne, hfull⟩ : cfg.processConnections = false ∧ cfg.connectionLimit ≠ 0 ∧
        cfg.connectionLimit ≤ w.held.card := by
      simpa [Counted] using hnot
    have hclients := (hrefused hfull).clients
    cases hc with
    | refused hcount =>
      rw [hinv.roster.length_readList, hmode] at hcount
      exact hne (le_antisymm hcount hlimit)
    | admitted addr now => simp [register] at hclients
  · intro hcounted
    refine ⟨(hinv.change hc fun _ => hcounted).held, fun hfull => ?_⟩
    cases hc with
    | refused hcount => exact .openSock w
    | admitted addr now hroom =>
      exact absurd (hinv.roster.held_lt hcounted hroom) (not_lt.mpr hfull)

/-- A server with a limit of one that has a client refuses the next. -/
theorem limit_kept_iff_one : ∃ w w', Relation.ReflTransGen (CountedStep { connectionLimit := 1 })
    openListener w ∧ w.held.card = 1 ∧ Step { connectionLimit := 1 } w .arrival w' ∧
    (w'.held.card : ℤ) ≤ 1 ∧ Refused w w' := by
  let cfg : ServerSettings := { connectionLimit := 1 }
  let w : Connections := (openListener.openSock .live).register cfg 1 ("10.0.0.7", 50000) 0
  have hfirst : Step cfg openListener .arrival w := .accept (some ("10.0.0.7", 50000)) .done 0 rfl
  have hrun : Relation.ReflTransGen (CountedStep cfg) openListener w :=
    .single ⟨.arrival, hfirst, fun _ => .inl rfl⟩
  have hnext : Step cfg w .arrival (w.openSock .closed) :=
    .accept (some ("10.0.0.8", 50001)) .done 1 rfl
  obtain ⟨-, hiff⟩ := limit_kept_iff (by decide) hrun
  obtain ⟨hle, hrefused⟩ := (hiff _ hnext).mpr (.inl rfl)
  exact ⟨w, _, hrun, by decide, hnext, hle, hrefused (by decide)⟩

def oneWaiting : Connections :=
  (openListener.openSock .live).register { processConnections := false, connectionLimit := 1 } 1
    ("10.0.0.7", 50000) 0

theorem arrival_oneWaiting : Step { processConnections := false, connectionLimit := 1 }
    openListener .arrival oneWaiting := .accept (some ("10.0.0.7", 50000)) .done 0 rfl

/-- A second connection arrives while one waits at a limit of one: it is taken in as well. -/
theorem limit_exceeded : ∃ w w' : Connections,
    Relation.ReflTransGen (fun v v' => ∃ e,
      Step { processConnections := false, connectionLimit := 1 } v e v') openListener w ∧
    w.held.card = 1 ∧ Step { processConnections := false, connectionLimit := 1 } w .arrival w' ∧
    ¬ Refused w w' ∧ w'.held.card = 2 := by
  refine ⟨oneWaiting, _, .single ⟨.arrival, arrival_oneWaiting⟩, by decide,
    .accept (some ("10.0.0.8", 50001)) .done 1 rfl, fun h => ?_, by decide⟩
  have hclients := h.clients
  simp [register, openSock, setState] at hclients

end Connections

end Pyomb
