import Mathlib.Data.List.Perm.Basic
import Mathlib.Data.List.Range

/-! The client's socket, from its construction on: `connect`, `disconnect` and `reset` in any
order, whatever the network, the TLS handshake and the operating system make of each. Every
descriptor that is opened is closed once or still the client's, and a client whose socket has
lost its descriptor can do nothing but disconnect. -/

namespace Pyomb

/-- What a call leaves uncaught. An `ssl.SSLError` is an `OSError`. -/
inductive CallError where
  | osError | valueError | modbusNetworkError
  deriving DecidableEq, Repr

/-- A Python socket: the descriptor it has, and of a TLS socket whether its session is up. -/
structure PySocket where
  fd : Option ℕ
  session : Option Bool := none
  deriving DecidableEq, Repr

/-- How `SSLContext.wrap_socket` ends: before it takes the descriptor over, after it has taken it
over and closed it, or with a TLS socket, which has a session where the plain one was connected
already. -/
inductive Wrap where
  | refused (e : CallError)
  | failed (e : CallError)
  | done (session : Bool)
  deriving DecidableEq, Repr

/-- What the outside makes of a `connect`: whether there is a new socket where one is asked for,
how it is wrapped, and what connecting it raises. -/
structure Dial where
  created : Bool := true
  wrapped : Wrap := .done false
  reached : Except CallError Unit := .ok ()

/-- What the peer makes of a `disconnect`. -/
structure Teardown where
  unwrapped : Bool := true
  shut : Bool := true

/-- The client's socket. Descriptors are numbered as they are opened, and `closed` keeps those
that were closed, in order. -/
structure ClientSocket where
  tls : Bool
  sock : Option PySocket := none
  opened : ℕ := 0
  closed : List ℕ := []
  deriving DecidableEq, Repr

namespace ClientSocket

def held (c : ClientSocket) : Option ℕ := c.sock.bind PySocket.fd

def create (c : ClientSocket) : ClientSocket :=
  { c with sock := some { fd := some c.opened }, opened := c.opened + 1 }

def init (tls : Bool) : ClientSocket := create { tls }

/-- `self.sock.connect((host, port))`. A TLS socket with a session refuses; without one it shakes
hands behind connecting, and a failure leaves it none. -/
def dial (reached : Except CallError Unit) (sock : PySocket) (c : ClientSocket) :
    Except CallError Unit × ClientSocket :=
  match sock.session with
  | none => (reached, c)
  | some true => (.error .valueError, c)
  | some false =>
    match reached with
    | .ok () => (.ok (), { c with sock := some { sock with session := some true } })
    | .error e => (.error e, c)

/-- `connect` on the socket the client has. `settimeout` needs a descriptor. -/
def attempt (d : Dial) (sock : PySocket) (c : ClientSocket) :
    Except CallError Unit × ClientSocket :=
  match sock.fd with
  | none => (.error .osError, c)
  | some fd =>
    if c.tls then
      match d.wrapped with
      | .refused e => (.error e, c)
      | .failed e =>
        (.error e, { c with sock := some { sock with fd := none }, closed := c.closed ++ [fd] })
      | .done session =>
        let wrapped : PySocket := { fd := some fd, session := some session }
        dial d.reached wrapped { c with sock := some wrapped }
    else dial d.reached sock c

def connect (d : Dial) (c : ClientSocket) : Except CallError Unit × ClientSocket :=
  match c.sock with
  | some sock => attempt d sock c
  | none =>
    if d.created then attempt d { fd := some c.opened } c.create
    else (.error .osError, c)

/-- The `try` of `disconnect`. Without a session there is no SSL wrapper to take off, which is a
`ValueError`. -/
def unwrapAndShut (t : Teardown) (sock : PySocket) : Except CallError Unit :=
  match sock.session with
  | some false => .error .valueError
  | some true => if t.unwrapped ∧ t.shut then .ok () else .error .osError
  | none => if t.shut then .ok () else .error .osError

/-- `disconnect`. What is not an `OSError` is raised behind the `finally`. -/
def disconnect (t : Teardown) (c : ClientSocket) : Except CallError Unit × ClientSocket :=
  match c.sock with
  | none => (.ok (), c)
  | some sock =>
    let tried := unwrapAndShut t sock
    (if tried = .error .osError then .ok () else tried,
      { c with sock := none, closed := c.closed ++ sock.fd.toList })

/-- `reset`, by whether the option can be set. The socket is closed and stays the client's. -/
def reset (lingers : Bool) (c : ClientSocket) : Except CallError Unit × ClientSocket :=
  match c.sock with
  | none => (.error .modbusNetworkError, c)
  | some sock =>
    match sock.fd with
    | none => (.error .osError, c)
    | some fd =>
      if lingers then
        let gone : PySocket := { fd := none, session := sock.session.map fun _ => false }
        (.ok (), { c with sock := some gone, closed := c.closed ++ [fd] })
      else (.error .osError, c)

inductive Call where
  | connect (d : Dial)
  | disconnect (t : Teardown)
  | reset (lingers : Bool)

def call (c : ClientSocket) : Call → Except CallError Unit × ClientSocket
  | .connect d => c.connect d
  | .disconnect t => c.disconnect t
  | .reset lingers => c.reset lingers

def run (c : ClientSocket) (calls : List Call) : ClientSocket :=
  calls.foldl (fun c x => (c.call x).2) c

@[simp] theorem run_nil (c : ClientSocket) : c.run [] = c := rfl

theorem run_snoc (c : ClientSocket) (calls : List Call) (x : Call) :
    c.run (calls ++ [x]) = ((c.run calls).call x).2 := by
  rw [run, List.foldl_append]
  rfl

/-! ### Descriptors -/

def account (c : ClientSocket) : List ℕ := c.closed ++ c.held.toList

structure Keeps (c c' : ClientSocket) : Prop where
  tls : c'.tls = c.tls
  opened : c'.opened = c.opened
  account : c'.account = c.account

theorem Keeps.rfl {c : ClientSocket} : Keeps c c := ⟨.refl _, .refl _, .refl _⟩

theorem keeps_dial (reached : Except CallError Unit) (sock : PySocket) {c : ClientSocket}
    (hc : c.sock = some sock) : Keeps c (dial reached sock c).2 := by
  unfold dial
  split
  · exact .rfl
  · exact .rfl
  · split
    · refine ⟨.refl _, .refl _, ?_⟩
      simp only [ClientSocket.account, held, hc, Option.bind_some]
    · exact .rfl

theorem keeps_attempt (d : Dial) {sock : PySocket} {c : ClientSocket} (hc : c.sock = some sock) :
    Keeps c (attempt d sock c).2 := by
  unfold attempt
  cases hfd : sock.fd with
  | none => exact .rfl
  | some fd =>
    have hheld : c.held = some fd := by rw [held, hc, Option.bind_some, hfd]
    dsimp only
    by_cases htls : c.tls
    · rw [if_pos htls]
      split
      · exact .rfl
      · refine ⟨.refl _, .refl _, ?_⟩
        simp [ClientSocket.account, held, hc, hfd]
      · rename_i session _
        let wrapped : PySocket := { fd := some fd, session := some session }
        have hdial := keeps_dial d.reached wrapped (c := { c with sock := some wrapped }) (.refl _)
        refine ⟨hdial.tls, hdial.opened, hdial.account.trans ?_⟩
        rw [ClientSocket.account, ClientSocket.account, hheld]
        rfl
    · rw [if_neg htls]
      exact keeps_dial d.reached sock hc

theorem keeps_disconnect (t : Teardown) (c : ClientSocket) : Keeps c (c.disconnect t).2 := by
  unfold disconnect
  split
  · exact .rfl
  · rename_i sock hc
    refine ⟨.refl _, .refl _, ?_⟩
    simp [ClientSocket.account, held, hc]

theorem keeps_reset (lingers : Bool) (c : ClientSocket) : Keeps c (c.reset lingers).2 := by
  unfold reset
  split
  · exact .rfl
  · rename_i sock hc
    split
    · exact .rfl
    · rename_i fd hfd
      split_ifs
      · refine ⟨.refl _, .refl _, ?_⟩
        simp [ClientSocket.account, held, hc, hfd]
      · exact .rfl

theorem call_keeps (c : ClientSocket) (x : Call) :
    Keeps c (c.call x).2 ∨ c.sock = none ∧ Keeps c.create (c.call x).2 := by
  cases x with
  | connect d =>
    cases hc : c.sock with
    | some sock =>
      refine .inl ?_
      simp only [call, connect, hc]
      exact keeps_attempt d hc
    | none =>
      simp only [call, connect, hc]
      by_cases hd : d.created
      · rw [if_pos hd]
        exact .inr ⟨trivial, keeps_attempt d (.refl _)⟩
      · rw [if_neg hd]
        exact .inl .rfl
  | disconnect t => exact .inl (keeps_disconnect t c)
  | reset lingers => exact .inl (keeps_reset lingers c)

theorem account_create {c : ClientSocket} (hc : c.sock = none)
    (h : c.account = List.range c.opened) : c.create.account = List.range c.create.opened := by
  have hclosed : c.closed = List.range c.opened := by
    rw [← h, account, held, hc]
    simp
  change c.closed ++ [c.opened] = List.range (c.opened + 1)
  rw [hclosed, List.range_succ]

theorem account_run (tls : Bool) (calls : List Call) :
    ((init tls).run calls).account = List.range ((init tls).run calls).opened := by
  induction calls using List.reverseRecOn with
  | nil => rfl
  | append_singleton calls x ih =>
    rw [run_snoc]
    rcases call_keeps ((init tls).run calls) x with h | ⟨hc, h⟩
    · rw [h.account, h.opened, ih]
    · rw [h.account, h.opened, account_create hc ih]

theorem tls_run (tls : Bool) (calls : List Call) : ((init tls).run calls).tls = tls := by
  induction calls using List.reverseRecOn with
  | nil => rfl
  | append_singleton calls x ih =>
    rw [run_snoc]
    rcases call_keeps ((init tls).run calls) x with h | ⟨-, h⟩
    · exact h.tls.trans ih
    · exact h.tls.trans ih

/-- Without TLS no socket is wrapped. -/
def Plain (c : ClientSocket) : Prop :=
  c.tls = false ∧ ∀ sock, c.sock = some sock → sock.session = none

theorem Plain.call {c : ClientSocket} (h : c.Plain) (x : Call) : (c.call x).2.Plain := by
  obtain ⟨htls, hplain⟩ := h
  have hattempt (d : Dial) {sock : PySocket} {c' : ClientSocket} (htls' : c'.tls = false)
      (hsession : sock.session = none) : (attempt d sock c').2 = c' := by
    unfold attempt
    cases sock.fd with
    | none => rfl
    | some fd => simp [htls', dial, hsession]
  cases x with
  | connect d =>
    cases hc : c.sock with
    | some sock =>
      simp only [ClientSocket.call, connect, hc, hattempt d htls (hplain sock hc)]
      exact ⟨htls, hplain⟩
    | none =>
      simp only [ClientSocket.call, connect, hc]
      split_ifs
      · rw [hattempt d (by exact htls) (by rfl)]
        refine ⟨htls, fun sock hsock => ?_⟩
        rw [← Option.some.inj hsock]
      · exact ⟨htls, hplain⟩
  | disconnect t =>
    simp only [ClientSocket.call, disconnect]
    split
    · exact ⟨htls, hplain⟩
    · exact ⟨htls, fun sock hsock => by cases hsock⟩
  | reset lingers =>
    simp only [ClientSocket.call, reset]
    split
    · exact ⟨htls, hplain⟩
    · rename_i sock hc
      split
      · exact ⟨htls, hplain⟩
      · split_ifs
        · refine ⟨htls, fun sock' hsock => ?_⟩
          rw [← Option.some.inj hsock, hplain sock hc]
          rfl
        · exact ⟨htls, hplain⟩

theorem plain_run (calls : List Call) : ((init false).run calls).Plain := by
  induction calls using List.reverseRecOn with
  | nil =>
    refine ⟨rfl, fun sock hsock => ?_⟩
    rw [← Option.some.inj hsock]
  | append_singleton calls x ih =>
    rw [run_snoc]
    exact ih.call x

theorem unwrapAndShut_cases (t : Teardown) (sock : PySocket) :
    (sock.session = some false ∧ unwrapAndShut t sock = .error .valueError) ∨
      sock.session ≠ some false ∧
        (unwrapAndShut t sock = .ok () ∨ unwrapAndShut t sock = .error .osError) := by
  unfold unwrapAndShut
  cases sock.session with
  | none =>
    refine .inr ⟨by simp, ?_⟩
    cases t.shut <;> simp
  | some session =>
    cases session with
    | false => exact .inl ⟨rfl, rfl⟩
    | true =>
      refine .inr ⟨by simp, ?_⟩
      by_cases h : t.unwrapped ∧ t.shut <;> simp [h]

/-- What a `disconnect` raises: a TLS socket that has no session is not unwrapped. -/
theorem disconnect_raises (t : Teardown) (c : ClientSocket) :
    (∃ e, (c.disconnect t).1 = .error e) ↔
      ∃ sock, c.sock = some sock ∧ sock.session = some false := by
  cases hc : c.sock with
  | none => simp [disconnect, hc]
  | some sock =>
    simp only [disconnect, hc, Option.some.injEq, exists_eq_left']
    rcases unwrapAndShut_cases t sock with ⟨hs, htried⟩ | ⟨hs, htried | htried⟩ <;>
      simp [htried, hs]

/-- Descriptors are closed once each and in the order they were opened, and all but the one the
client has are closed. Whatever it raises, `disconnect` closes that one too; it raises where a TLS
socket has no session, and so never without TLS. -/
theorem descriptors_accounted (tls : Bool) (calls : List Call) (t : Teardown) :
    let c := (init tls).run calls
    c.closed ++ c.held.toList = List.range c.opened ∧
      (c.disconnect t).2.sock = none ∧
      (c.disconnect t).2.closed = List.range (c.disconnect t).2.opened ∧
      ((∃ e, (c.disconnect t).1 = .error e) ↔
        ∃ sock, c.sock = some sock ∧ sock.session = some false) ∧
      (tls = false → ∀ e, (c.disconnect t).1 ≠ .error e) := by
  intro c
  have haccount : c.account = List.range c.opened := account_run tls calls
  have hnone : (c.disconnect t).2.sock = none := by
    unfold disconnect
    split
    · assumption
    · rfl
  have hkeeps := keeps_disconnect t c
  refine ⟨haccount, hnone, ?_, disconnect_raises t c, ?_⟩
  · have hend := hkeeps.account
    rw [account, held, hnone, haccount, ← hkeeps.opened] at hend
    simpa using hend
  · rintro rfl e he
    obtain ⟨sock, hsock, hsession⟩ := (disconnect_raises t c).mp ⟨e, he⟩
    rw [(plain_run calls).2 sock hsock] at hsession
    cases hsession

/-- Behind a `reset` the wrapped socket has no session. -/
example : ((init true).run [.connect {}, .reset true]).disconnect {} =
    (.error .valueError, { tls := true, opened := 1, closed := [0] }) := by decide

/-! ### A socket without its descriptor -/

/-- The client has a socket that has no descriptor. -/
def Lost (c : ClientSocket) : Prop := ∃ sock, c.sock = some sock ∧ sock.fd = none

def Call.IsDisconnect : Call → Prop
  | .disconnect _ => True
  | _ => False

/-- The calls that take the descriptor and leave the socket: a `reset` that goes through, and a
`connect` whose wrapping fails once it has taken the descriptor over. -/
def Call.Strands (c : ClientSocket) : Call → Prop
  | .connect d => c.tls ∧ (∃ e, d.wrapped = .failed e) ∧ (c.held ≠ none ∨ c.sock = none ∧ d.created)
  | .disconnect _ => False
  | .reset lingers => lingers ∧ c.held ≠ none

theorem lost_of_sock {c : ClientSocket} (sock : PySocket) (hc : c.sock = some sock) :
    c.Lost ↔ sock.fd = none := by
  constructor
  · rintro ⟨sock', hc', hfd⟩
    rw [hc] at hc'
    rwa [Option.some.inj hc']
  · exact fun hfd => ⟨sock, hc, hfd⟩

theorem not_lost_dial (reached : Except CallError Unit) (sock : PySocket) {c : ClientSocket}
    {fd : ℕ} (hc : c.sock = some sock) (hfd : sock.fd = some fd) :
    ¬ (dial reached sock c).2.Lost := by
  have hself : ¬ c.Lost := by
    rw [lost_of_sock sock hc, hfd]
    simp
  unfold dial
  split
  · exact hself
  · exact hself
  · split
    · rw [lost_of_sock { sock with session := some true } (.refl _)]
      simp [hfd]
    · exact hself

theorem lost_attempt (d : Dial) (sock : PySocket) {c : ClientSocket} {fd : ℕ}
    (hc : c.sock = some sock) (hfd : sock.fd = some fd) :
    (attempt d sock c).2.Lost ↔ c.tls ∧ ∃ e, d.wrapped = .failed e := by
  have hself : ¬ c.Lost := by
    rw [lost_of_sock sock hc, hfd]
    simp
  simp only [attempt, hfd]
  by_cases htls : c.tls
  · rw [if_pos htls]
    cases hw : d.wrapped with
    | refused e => simp [hself]
    | failed e =>
      simp [lost_of_sock { sock with fd := none }, htls]
    | done session =>
      have hdial := not_lost_dial d.reached { fd := some fd, session := some session }
        (c := { c with sock := some { fd := some fd, session := some session } }) (.refl _)
        (.refl _)
      simp [hdial]
  · rw [if_neg htls]
    simp [not_lost_dial d.reached sock hc hfd, htls]

theorem lost_call (c : ClientSocket) (x : Call) :
    (c.call x).2.Lost ↔ (c.Lost ∧ ¬ x.IsDisconnect) ∨ x.Strands c := by
  cases x with
  | connect d =>
    cases hc : c.sock with
    | none =>
      have hnot : ¬ c.Lost := by simp [Lost, hc]
      have hheld : c.held = none := by simp [held, hc]
      by_cases hd : d.created
      · have hattempt := lost_attempt d { fd := some c.opened } (c := c.create) (.refl _)
          (.refl _)
        have htls : c.create.tls = c.tls := rfl
        rw [htls] at hattempt
        simp [call, connect, hc, hd, hattempt, hnot, Call.Strands, hheld]
      · simp [call, connect, hc, hd, hnot, Call.Strands, hheld]
    | some sock =>
      cases hfd : sock.fd with
      | none =>
        have hlost : c.Lost := ⟨sock, hc, hfd⟩
        simp [call, connect, hc, attempt, hfd, hlost, Call.IsDisconnect]
      | some fd =>
        have hnot : ¬ c.Lost := by
          rw [lost_of_sock sock hc, hfd]
          simp
        have hheld : c.held = some fd := by simp [held, hc, hfd]
        simp [call, connect, hc, lost_attempt d sock hc hfd, hnot, Call.Strands, hheld]
  | disconnect t =>
    have hnot : ¬ (c.disconnect t).2.Lost := by
      rintro ⟨sock, hsock, -⟩
      unfold disconnect at hsock
      split at hsock
      · rename_i hnone
        rw [hnone] at hsock
        cases hsock
      · cases hsock
    simp [call, hnot, Call.IsDisconnect, Call.Strands]
  | reset lingers =>
    cases hc : c.sock with
    | none => simp [call, reset, hc, Lost, Call.Strands, held]
    | some sock =>
      cases hfd : sock.fd with
      | none =>
        have hlost : c.Lost := ⟨sock, hc, hfd⟩
        simp [call, reset, hc, hfd, hlost, Call.IsDisconnect]
      | some fd =>
        cases lingers with
        | false => simp [call, reset, hc, hfd, Lost, Call.Strands]
        | true => simp [call, reset, hc, hfd, Lost, Call.Strands, held]

/-- Over a run the descriptor is lost by a call that strands the socket and that no `disconnect`
has come behind. -/
theorem lost_run (c : ClientSocket) (hc : ¬ c.Lost) (calls : List Call) :
    (c.run calls).Lost ↔ ∃ before x after, calls = before ++ x :: after ∧
      x.Strands (c.run before) ∧ ∀ y ∈ after, ¬ y.IsDisconnect := by
  induction calls using List.reverseRecOn with
  | nil => simp [hc]
  | append_singleton calls x ih =>
    rw [run_snoc, lost_call, ih]
    constructor
    · rintro (⟨⟨before, y, after, rfl, hy, hafter⟩, hx⟩ | hx)
      · refine ⟨before, y, after ++ [x], by simp, hy, fun z hz => ?_⟩
        rcases List.mem_append.mp hz with hz | hz
        · exact hafter z hz
        · rwa [List.mem_singleton.mp hz]
      · exact ⟨calls, x, [], rfl, hx, by simp⟩
    · rintro ⟨before, y, after, hcalls, hy, hafter⟩
      rcases List.eq_nil_or_concat after with rfl | ⟨front, z, rfl⟩
      · obtain ⟨rfl, hxy⟩ := List.append_inj' hcalls rfl
        obtain rfl := List.singleton_inj.mp hxy
        exact .inr hy
      · rw [List.concat_eq_append] at hcalls hafter
        rw [← List.cons_append, ← List.append_assoc] at hcalls
        obtain ⟨rfl, hxz⟩ := List.append_inj' hcalls rfl
        obtain rfl := List.singleton_inj.mp hxz
        refine .inl ⟨⟨before, y, front, rfl, hy, fun w hw => ?_⟩, ?_⟩
        · exact hafter w (List.mem_append_left _ hw)
        · exact hafter x (by simp)

theorem call_lost {c : ClientSocket} (h : c.Lost) {x : Call} (hx : ¬ x.IsDisconnect) :
    (c.call x).2 = c ∧ ∃ e, (c.call x).1 = .error e := by
  obtain ⟨sock, hc, hfd⟩ := h
  cases x with
  | connect d => simp [call, connect, hc, attempt, hfd]
  | disconnect t => exact absurd trivial hx
  | reset lingers => simp [call, reset, hc, hfd]

theorem connect_fresh {c : ClientSocket} (hc : c.sock = none) {d : Dial} (hd : d.created)
    (hw : c.tls → d.wrapped = .done false) (hr : d.reached = .ok ()) :
    (c.connect d).1 = .ok () ∧ (c.connect d).2.held = some c.opened := by
  by_cases htls : c.tls
  · simp [connect, hc, hd, attempt, create, htls, hw htls, hr, dial, held]
  · simp [connect, hc, hd, attempt, create, htls, hr, dial, held]

/-- The client has lost its descriptor exactly where a `reset` has gone through, or a wrapping has
failed late, since the last `disconnect`. From there every `connect` and `reset` raises and
changes nothing, and behind a `disconnect`, whatever that raises, a `connect` works again. -/
theorem lost_until_disconnect (tls : Bool) (calls : List Call) :
    let c := (init tls).run calls
    (c.Lost ↔ ∃ before x after, calls = before ++ x :: after ∧
      x.Strands ((init tls).run before) ∧ ∀ y ∈ after, ¬ y.IsDisconnect) ∧
    (c.Lost → ∀ x : Call, ¬ x.IsDisconnect → (c.call x).2 = c ∧ ∃ e, (c.call x).1 = .error e) ∧
    (c.Lost → ∀ t d, d.created → (tls → d.wrapped = .done false) → d.reached = .ok () →
      ((c.disconnect t).2.connect d).1 = .ok () ∧
        ((c.disconnect t).2.connect d).2.held = some c.opened) := by
  intro c
  have hstart : ¬ (init tls).Lost := by simp [init, create, Lost]
  refine ⟨lost_run (init tls) hstart calls, ?_, ?_⟩
  · intro hlost x hx
    exact call_lost hlost hx
  · intro hlost t d hd hw hr
    have hkeeps := keeps_disconnect t c
    have hnone : (c.disconnect t).2.sock = none := by
      obtain ⟨sock, hc, -⟩ := hlost
      simp only [disconnect, hc]
    have htls : (c.disconnect t).2.tls = tls := hkeeps.tls.trans (tls_run tls calls)
    rw [← hkeeps.opened]
    exact connect_fresh hnone hd (fun h => hw (htls ▸ h)) hr

end ClientSocket

end Pyomb
