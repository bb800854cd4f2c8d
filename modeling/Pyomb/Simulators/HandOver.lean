import Pyomb.Runs
import Mathlib.Data.List.Nodup
import Mathlib.Data.List.Range
import Mathlib.Logic.Function.Basic
import Mathlib.Order.Basic

/-! Handing connections over. In this mode the server's thread only records the connections
that it accepts; calls of `accept` on other threads take them, and calls of `reset` close and
forget them. Each statement is one step, and the steps of the threads come in any order.

A wait that returns at its timeout is not told from one that is woken, so what a wake-up that
gets lost costs is time: the connection is still the next to be taken. -/

namespace Pyomb

namespace HandOver

/-- The statements of `_accept` that record a connection. -/
inductive Recording where
  | name (conn : ℕ) (addr : String × ℕ)
  | append (conn : ℕ)
  | set
  deriving DecidableEq

/-- Where a call stands: `accept` at the test for no clients, at the clear behind it, in the wait,
at the copy of the list, at the removal and at the name; `reset` with the clients of its copy that
it has still to close. The numbers are how many connections had been recorded at the test, and at
the copy of `reset`. -/
inductive Place where
  | test
  | clear (recorded : ℕ)
  | wait
  | copy
  | remove (conn : ℕ)
  | name (conn : ℕ)
  | close (rest : List ℕ) (recorded : ℕ)
  deriving DecidableEq

/-- How a call of `accept` ends: with a connection and its name, with `(None, None)`, or with the
`ValueError` of a connection that is no longer in the list. -/
inductive Result where
  | pair (conn : ℕ) (addr : Option (String × ℕ))
  | nothing
  | valueError (conn : ℕ)
  deriving DecidableEq

/-- How a connection has left the list: with a caller of `accept`, or with the list, which a
`reset` whose copy held the first so many has put an empty one for. -/
inductive Fate (T : Type) where
  | handed (t : T)
  | dropped (recorded : ℕ)
  deriving DecidableEq

end HandOver

open HandOver in
/-- The server's collections and its thread, and the calls on the other threads. Connections are
numbered as they are accepted. The rest is kept for the record: the addresses they came from, how
many have been recorded, the ones that have left the list, the ones that `reset` has closed, the
ends of the calls, and how many had been recorded at the last clear and at the test before it. -/
structure HandOver (T : Type) where
  clients : List ℕ := []
  peerNames : ℕ → Option (String × ℕ) := fun _ => none
  newConnectionEvent : Bool := false
  recording : Option Recording := none
  places : T → Option Place := fun _ => none
  addrs : ℕ → String × ℕ := fun _ => ("", 0)
  recorded : ℕ := 0
  left : List (ℕ × Fate T) := []
  closed : List ℕ := []
  returned : List (T × Result) := []
  tested : ℕ := 0
  cleared : ℕ := 0

namespace HandOver

variable {T : Type} {w w' : HandOver T}

/-! ### The list and what has left it -/

/-- The connections that have left the list, with the ones in it, are the ones that have been
recorded, in that order. -/
structure InOrder (w : HandOver T) : Prop where
  fifo : w.left.map Prod.fst ++ w.clients = List.range w.recorded
  next : ∀ conn, (∃ addr, w.recording = some (.name conn addr)) ∨
    w.recording = some (.append conn) → conn = w.recorded
  /-- A connection about to be removed is the first, or it has left. -/
  first : ∀ t conn, w.places t = some (.remove conn) →
    conn < w.recorded ∧ ∀ d ∈ w.clients, conn ≤ d

theorem InOrder.lt (h : InOrder w) {conn : ℕ} (hconn : conn ∈ w.clients) : conn < w.recorded := by
  rw [← List.mem_range, ← h.fifo]
  exact List.mem_append_right _ hconn

theorem InOrder.lt_of_left (h : InOrder w) {conn : ℕ} {fate : Fate T} (hleft : (conn, fate) ∈ w.left) :
    conn < w.recorded ∧ conn ∉ w.clients := by
  have hmem : conn ∈ w.left.map Prod.fst := List.mem_map_of_mem hleft
  have hnodup := List.nodup_range (n := w.recorded)
  rw [← h.fifo] at hnodup
  rw [← List.mem_range, ← h.fifo]
  exact ⟨List.mem_append_left _ hmem, fun hclient =>
    List.disjoint_of_nodup_append hnodup hmem hclient⟩

theorem InOrder.pairwise (h : InOrder w) : w.clients.Pairwise (· < ·) := by
  have hrange := List.pairwise_lt_range (n := w.recorded)
  rw [← h.fifo, List.pairwise_append] at hrange
  exact hrange.2.1

theorem InOrder.eq_cons (h : InOrder w) {t : T} {conn : ℕ} (hp : w.places t = some (.remove conn))
    (hmem : conn ∈ w.clients) : w.clients = conn :: w.clients.erase conn := by
  have hle := (h.first t conn hp).2
  have hsorted := h.pairwise
  cases hclients : w.clients with
  | nil =>
    rw [hclients] at hmem
    cases hmem
  | cons d rest =>
    rw [hclients] at hle hmem hsorted
    obtain rfl : d = conn := by
      rcases List.mem_cons.mp hmem with heq | hrest
      · exact heq.symm
      · have := hle d List.mem_cons_self
        have := (List.pairwise_cons.mp hsorted).1 conn hrest
        omega
    rw [List.erase_cons_head]

variable [DecidableEq T]

def moved (w : HandOver T) (t : T) (p : Option Place) : HandOver T :=
  { w with places := Function.update w.places t p }

def ended (w : HandOver T) (t : T) (r : Result) : HandOver T :=
  { w.moved t none with returned := w.returned ++ [(t, r)] }

inductive Step : HandOver T → HandOver T → Prop
  /-- `srv.accept()`, on the server's thread. -/
  | arrive {w : HandOver T} (h : w.recording = none) (addr : String × ℕ) :
      Step w { w with
        recording := some (.name w.recorded addr)
        addrs := Function.update w.addrs w.recorded addr }
  | record {w : HandOver T} {conn : ℕ} {addr : String × ℕ}
      (h : w.recording = some (.name conn addr)) :
      Step w { w with
        recording := some (.append conn)
        peerNames := Function.update w.peerNames conn (some addr) }
  | append {w : HandOver T} {conn : ℕ} (h : w.recording = some (.append conn)) :
      Step w { w with
        recording := some .set
        clients := w.clients ++ [conn]
        recorded := w.recorded + 1 }
  | set {w : HandOver T} (h : w.recording = some .set) :
      Step w { w with recording := none, newConnectionEvent := true }
  /-- A thread calls `accept`. -/
  | call {w : HandOver T} {t : T} (h : w.places t = none) : Step w (w.moved t (some .test))
  | test {w : HandOver T} {t : T} (h : w.places t = some .test) :
      Step w (w.moved t (some (if w.clients = [] then .clear w.recorded else .copy)))
  | clear {w : HandOver T} {t : T} {n : ℕ} (h : w.places t = some (.clear n)) :
      Step w { w.moved t (some .wait) with
        newConnectionEvent := false
        tested := n
        cleared := w.recorded }
  /-- The event is set, or the timeout has passed. -/
  | wait {w : HandOver T} {t : T} (h : w.places t = some .wait) : Step w (w.moved t (some .copy))
  | nothing {w : HandOver T} {t : T} (h : w.places t = some .copy) (hclients : w.clients = []) :
      Step w (w.ended t .nothing)
  | copy {w : HandOver T} {t : T} {conn : ℕ} {rest : List ℕ} (h : w.places t = some .copy)
      (hclients : w.clients = conn :: rest) : Step w (w.moved t (some (.remove conn)))
  | remove {w : HandOver T} {t : T} {conn : ℕ} (h : w.places t = some (.remove conn))
      (hmem : conn ∈ w.clients) :
      Step w { w.moved t (some (.name conn)) with
        clients := w.clients.erase conn
        left := w.left ++ [(conn, .handed t)] }
  | valueError {w : HandOver T} {t : T} {conn : ℕ} (h : w.places t = some (.remove conn))
      (hmem : conn ∉ w.clients) : Step w (w.ended t (.valueError conn))
  | name {w : HandOver T} {t : T} {conn : ℕ} (h : w.places t = some (.name conn)) :
      Step w (w.ended t (.pair conn (w.peerNames conn)))
  /-- A thread calls `reset`, which copies the list. -/
  | reset {w : HandOver T} {t : T} (h : w.places t = none) :
      Step w (w.moved t (some (.close w.clients w.recorded)))
  | close {w : HandOver T} {t : T} {conn : ℕ} {rest : List ℕ} {n : ℕ}
      (h : w.places t = some (.close (conn :: rest) n)) :
      Step w { w.moved t (some (.close rest n)) with closed := w.closed ++ [conn] }
  /-- `self.clients = []`. -/
  | drop {w : HandOver T} {t : T} {n : ℕ} (h : w.places t = some (.close [] n)) :
      Step w { w.moved t none with
        clients := []
        left := w.left ++ w.clients.map fun conn => (conn, .dropped n) }

def Reachable (w : HandOver T) : Prop := Relation.ReflTransGen Step {} w

theorem place_cases {t t' : T} {p : Option Place} {q : Place}
    (h : (w.moved t p).places t' = some q) :
    (t' = t ∧ p = some q) ∨ (t' ≠ t ∧ w.places t' = some q) := by
  have hplaces : Function.update w.places t p t' = some q := h
  by_cases heq : t' = t
  · subst heq
    rw [Function.update_self] at hplaces
    exact .inl ⟨rfl, hplaces⟩
  · rw [Function.update_of_ne heq] at hplaces
    exact .inr ⟨heq, hplaces⟩

theorem InOrder.step (h : InOrder w) (hs : Step w w') : InOrder w' := by
  have hkeep {t : T} {p : Option Place} (hp : ∀ conn, p ≠ some (.remove conn)) :
      ∀ t' conn, (w.moved t p).places t' = some (.remove conn) →
        conn < w.recorded ∧ ∀ d ∈ w.clients, conn ≤ d := by
    intro t' conn hplace
    rcases place_cases hplace with ⟨-, heq⟩ | ⟨-, hold⟩
    · exact absurd heq (hp conn)
    · exact h.first t' conn hold
  cases hs with
  | arrive hr addr =>
    refine ⟨h.fifo, fun conn hconn => ?_, h.first⟩
    rcases hconn with ⟨addr', heq⟩ | heq <;> cases heq
    rfl
  | record hr =>
    refine ⟨h.fifo, fun conn hconn => ?_, h.first⟩
    rcases hconn with ⟨addr', heq⟩ | heq <;> cases heq
    exact h.next _ (.inl ⟨_, hr⟩)
  | append hr =>
    obtain rfl := h.next _ (.inr hr)
    refine ⟨?_, ?_, fun t conn hp => ?_⟩
    · rw [← List.append_assoc, h.fifo, List.range_succ]
    · rintro conn (⟨addr, heq⟩ | heq) <;> cases heq
    · obtain ⟨hlt, hle⟩ := h.first t conn hp
      refine ⟨hlt.trans (Nat.lt_succ_self _), fun d hd => ?_⟩
      rcases List.mem_append.mp hd with hd | hd
      · exact hle d hd
      · obtain rfl := List.mem_singleton.mp hd
        exact hlt.le
  | set hr =>
    refine ⟨h.fifo, ?_, h.first⟩
    rintro conn (⟨addr, heq⟩ | heq) <;> cases heq
  | call hp => exact ⟨h.fifo, h.next, hkeep nofun⟩
  | test hp =>
    refine ⟨h.fifo, h.next, hkeep fun conn heq => ?_⟩
    split_ifs at heq <;> cases heq
  | clear hp => exact ⟨h.fifo, h.next, hkeep nofun⟩
  | wait hp => exact ⟨h.fifo, h.next, hkeep nofun⟩
  | nothing hp hclients => exact ⟨h.fifo, h.next, hkeep nofun⟩
  | @copy t conn rest hp hclients =>
    refine ⟨h.fifo, h.next, fun t' d hplace => ?_⟩
    rcases place_cases hplace with ⟨-, heq⟩ | ⟨-, hold⟩
    · cases heq
      have hsorted := h.pairwise
      rw [hclients] at hsorted
      refine ⟨h.lt (hclients ▸ List.mem_cons_self), fun d hd => ?_⟩
      rcases List.mem_cons.mp (hclients ▸ hd) with rfl | hd
      · exact le_rfl
      · exact ((List.pairwise_cons.mp hsorted).1 d hd).le
    · exact h.first t' d hold
  | @remove t conn hp hmem =>
    have hcons := h.eq_cons hp hmem
    refine ⟨?_, h.next, fun t' d hplace => ?_⟩
    · show (w.left ++ [(conn, Fate.handed t)]).map Prod.fst ++ w.clients.erase conn =
        List.range w.recorded
      rw [← h.fifo, List.map_append, List.append_assoc]
      exact congrArg _ hcons.symm
    · obtain ⟨hlt, hle⟩ := hkeep (t := t) (p := some (.name conn)) nofun t' d hplace
      exact ⟨hlt, fun d' hd' => hle d' (List.mem_of_mem_erase hd')⟩
  | valueError hp hmem => exact ⟨h.fifo, h.next, hkeep nofun⟩
  | name hp => exact ⟨h.fifo, h.next, hkeep nofun⟩
  | reset hp => exact ⟨h.fifo, h.next, hkeep nofun⟩
  | close hp => exact ⟨h.fifo, h.next, hkeep nofun⟩
  | @drop t n hp =>
    refine ⟨?_, h.next, fun t' d hplace => ?_⟩
    · show (w.left ++ w.clients.map fun conn => (conn, Fate.dropped n)).map Prod.fst ++ [] =
        List.range w.recorded
      rw [← h.fifo, List.map_append, List.map_map, List.append_nil]
      exact congrArg _ (List.map_id _)
    · exact ⟨(hkeep (t := t) (p := none) nofun t' d hplace).1, nofun⟩

/-! ### What the callers get -/

/-- A connection that has been recorded goes by the address that it came from. -/
structure Named (w : HandOver T) : Prop extends InOrder w where
  naming : ∀ conn addr, w.recording = some (.name conn addr) → addr = w.addrs conn
  names : ∀ conn, conn < w.recorded ∨ w.recording = some (.append conn) →
    w.peerNames conn = some (w.addrs conn)

theorem Named.step (h : Named w) (hs : Step w w') : Named w' := by
  refine ⟨h.toInOrder.step hs, ?_, ?_⟩
  · cases hs with
    | arrive hr addr =>
      intro conn addr' heq
      cases heq
      show addr = Function.update w.addrs w.recorded addr w.recorded
      rw [Function.update_self]
    | record hr | append hr | set hr =>
      intro conn addr heq
      cases heq
    | _ => exact h.naming
  · cases hs with
    | arrive hr addr =>
      intro conn hconn
      rcases hconn with hlt | heq
      · show _ = some (Function.update w.addrs w.recorded addr conn)
        rw [Function.update_of_ne (Nat.ne_of_lt hlt)]
        exact h.names conn (.inl hlt)
      · cases heq
    | @record conn addr hr =>
      obtain rfl := h.naming conn addr hr
      intro d hd
      show Function.update w.peerNames conn (some (w.addrs conn)) d = _
      by_cases heq : d = conn
      · rw [heq, Function.update_self]
      · rw [Function.update_of_ne heq]
        refine h.names d (.inl (hd.resolve_right fun hr' => heq ?_))
        cases hr'
        rfl
    | @append conn hr =>
      obtain rfl := h.next conn (.inr hr)
      rintro d (hlt | heq)
      · rcases Nat.lt_succ_iff_lt_or_eq.mp hlt with hlt | rfl
        · exact h.names d (.inl hlt)
        · exact h.names w.recorded (.inr hr)
      · cases heq
    | set hr =>
      rintro d (hlt | heq)
      · exact h.names d (.inl hlt)
      · cases heq
    | _ => exact h.names

/-- The connections that calls of a thread have taken off the list, in that order. -/
def handedTo (w : HandOver T) (t : T) : List ℕ :=
  w.left.filterMap fun x => if x.2 = .handed t then some x.1 else none

def returnedTo (w : HandOver T) (t : T) : List ℕ :=
  w.returned.filterMap fun x =>
    match x with
    | (t', .pair conn _) => if t' = t then some conn else none
    | _ => none

def taken : Option Place → List ℕ
  | some (.name conn) => [conn]
  | _ => []

theorem taken_moved {t : T} {p : Option Place} (hold : taken (w.places t) = []) (hp : taken p = [])
    (t' : T) : taken ((w.moved t p).places t') = taken (w.places t') := by
  show taken (Function.update w.places t p t') = _
  by_cases heq : t' = t
  · rw [heq, Function.update_self, hold, hp]
  · rw [Function.update_of_ne heq]

/-- What a call has taken it returns, under its address; one that finds its connection gone has
lost it to another. -/
structure Calls (w : HandOver T) : Prop extends Named w where
  handed : ∀ t, w.handedTo t = w.returnedTo t ++ taken (w.places t)
  pairs : ∀ t conn addr, (t, Result.pair conn addr) ∈ w.returned →
    conn < w.recorded ∧ addr = some (w.addrs conn)
  removing : ∀ t conn, w.places t = some (.remove conn) → (conn, Fate.handed t) ∉ w.left
  missing : ∀ t conn, (t, Result.valueError conn) ∈ w.returned →
    ∃ fate, fate ≠ .handed t ∧ (conn, fate) ∈ w.left

theorem Calls.handed_step (h : Calls w) (hs : Step w w') (t' : T) :
    w'.handedTo t' = w'.returnedTo t' ++ taken (w'.places t') := by
  have hmove {t : T} {p : Option Place} (hold : taken (w.places t) = []) (hp : taken p = []) :
      w.handedTo t' = w.returnedTo t' ++ taken ((w.moved t p).places t') := by
    rw [taken_moved hold hp]
    exact h.handed t'
  have hend {t : T} {r : Result} (hold : taken (w.places t) = [])
      (hr : ∀ conn addr, r ≠ .pair conn addr) :
      (w.ended t r).handedTo t' = (w.ended t r).returnedTo t' ++ taken ((w.ended t r).places t') := by
    have hsame : (w.ended t r).returnedTo t' = w.returnedTo t' := by
      show (w.returned ++ [(t, r)]).filterMap _ = _
      rw [List.filterMap_append]
      cases r with
      | pair conn addr => exact absurd rfl (hr conn addr)
      | nothing | valueError => exact List.append_nil _
    rw [hsame]
    exact hmove hold rfl
  cases hs with
  | arrive | record | append | set => exact h.handed t'
  | call hp => exact hmove (by rw [hp]; rfl) rfl
  | test hp =>
    refine hmove (by rw [hp]; rfl) ?_
    split_ifs <;> rfl
  | clear hp => exact hmove (by rw [hp]; rfl) rfl
  | wait hp => exact hmove (by rw [hp]; rfl) rfl
  | nothing hp hclients => exact hend (by rw [hp]; rfl) nofun
  | copy hp hclients => exact hmove (by rw [hp]; rfl) rfl
  | @remove t conn hp hmem =>
    have hold := h.handed t'
    show (w.left ++ [(conn, Fate.handed t)]).filterMap _ =
      w.returnedTo t' ++ taken (Function.update w.places t (some (.name conn)) t')
    rw [List.filterMap_append]
    by_cases heq : t' = t
    · subst heq
      rw [hp, show taken (some (.remove conn)) = [] from rfl, List.append_nil] at hold
      rw [Function.update_self, ← hold]
      simp [handedTo, taken]
    · rw [Function.update_of_ne heq, ← hold]
      simp [handedTo, Ne.symm heq]
  | valueError hp hmem => exact hend (by rw [hp]; rfl) nofun
  | @name t conn hp =>
    have hold := h.handed t'
    show w.handedTo t' = (w.returned ++ [(t, Result.pair conn (w.peerNames conn))]).filterMap _ ++
      taken (Function.update w.places t none t')
    rw [List.filterMap_append, hold]
    by_cases heq : t' = t
    · subst heq
      rw [hp, Function.update_self]
      simp [returnedTo, taken]
    · rw [Function.update_of_ne heq]
      simp [returnedTo, Ne.symm heq]
  | reset hp => exact hmove (by rw [hp]; rfl) rfl
  | close hp => exact hmove (by rw [hp]; rfl) rfl
  | @drop t n hp =>
    have hnone : (w.clients.map fun conn => (conn, (Fate.dropped n : Fate T))).filterMap
        (fun x => if x.2 = .handed t' then some x.1 else none) = [] := by
      simp
    show (w.left ++ w.clients.map fun conn => (conn, Fate.dropped n)).filterMap _ = _
    rw [List.filterMap_append, hnone, List.append_nil]
    exact hmove (by rw [hp]; rfl) rfl

theorem Calls.lt_of_name (h : Calls w) {t : T} {conn : ℕ} (hp : w.places t = some (.name conn)) :
    conn < w.recorded := by
  have hmem : conn ∈ w.handedTo t := by
    rw [h.handed t, hp]
    exact List.mem_append_right _ (List.mem_singleton_self _)
  obtain ⟨⟨d, fate⟩, hleft, heq⟩ := List.mem_filterMap.mp hmem
  split_ifs at heq
  cases heq
  exact (h.lt_of_left hleft).1

theorem Calls.pairs_step (h : Calls w) (hs : Step w w') {t : T} {conn : ℕ}
    {addr : Option (String × ℕ)} (hret : (t, Result.pair conn addr) ∈ w'.returned) :
    conn < w'.recorded ∧ addr = some (w'.addrs conn) := by
  cases hs with
  | arrive hr addr' =>
    obtain ⟨hlt, heq⟩ := h.pairs t conn addr hret
    refine ⟨hlt, heq.trans (congrArg some ?_)⟩
    exact (Function.update_of_ne (Nat.ne_of_lt hlt) ..).symm
  | append hr =>
    obtain ⟨hlt, heq⟩ := h.pairs t conn addr hret
    exact ⟨hlt.trans (Nat.lt_succ_self _), heq⟩
  | nothing | valueError =>
    rcases List.mem_append.mp hret with hret | hret
    · exact h.pairs t conn addr hret
    · cases List.mem_singleton.mp hret
  | name hp =>
    rcases List.mem_append.mp hret with hret | hret
    · exact h.pairs t conn addr hret
    · cases List.mem_singleton.mp hret
      have hlt := h.lt_of_name hp
      exact ⟨hlt, h.names conn (.inl hlt)⟩
  | _ => exact h.pairs t conn addr hret

theorem Calls.removing_step (h : Calls w) (hs : Step w w') {t' : T} {d : ℕ}
    (hp' : w'.places t' = some (.remove d)) : (d, Fate.handed t') ∉ w'.left := by
  have hkeep {t : T} {p : Option Place} (hp : p ≠ some (.remove d))
      (hplace : (w.moved t p).places t' = some (.remove d)) :
      t' ≠ t ∧ (d, Fate.handed t') ∉ w.left := by
    rcases place_cases hplace with ⟨-, heq⟩ | ⟨hne, hold⟩
    · exact absurd heq hp
    · exact ⟨hne, h.removing t' d hold⟩
  cases hs with
  | arrive | record | append | set => exact h.removing t' d hp'
  | test hp =>
    refine (hkeep ?_ hp').2
    split_ifs <;> nofun
  | @copy t conn rest hp hclients =>
    rcases place_cases hp' with ⟨rfl, heq⟩ | ⟨-, hold⟩
    · cases heq
      intro hleft
      refine (h.lt_of_left hleft).2 ?_
      rw [hclients]
      exact List.mem_cons_self
    · exact h.removing t' d hold
  | @remove t conn hp hmem =>
    obtain ⟨hne, hnot⟩ := hkeep (t := t) (p := some (.name conn)) nofun hp'
    intro hleft
    rcases List.mem_append.mp hleft with hleft | hleft
    · exact hnot hleft
    · cases List.mem_singleton.mp hleft
      exact hne rfl
  | @drop t n hp =>
    obtain ⟨hne, hnot⟩ := hkeep (t := t) (p := none) nofun hp'
    intro hleft
    rcases List.mem_append.mp hleft with hleft | hleft
    · exact hnot hleft
    · obtain ⟨conn, -, heq⟩ := List.mem_map.mp hleft
      cases heq
  | call hp | clear hp | wait hp | nothing hp | valueError hp | name hp | reset hp | close hp =>
    refine (hkeep ?_ hp').2
    nofun

theorem Calls.missing_step (h : Calls w) (hs : Step w w') {t : T} {conn : ℕ}
    (hret : (t, Result.valueError conn) ∈ w'.returned) :
    ∃ fate, fate ≠ .handed t ∧ (conn, fate) ∈ w'.left := by
  cases hs with
  | nothing | name =>
    rcases List.mem_append.mp hret with hret | hret
    · exact h.missing t conn hret
    · cases List.mem_singleton.mp hret
  | remove | drop =>
    obtain ⟨fate, hne, hleft⟩ := h.missing t conn hret
    exact ⟨fate, hne, List.mem_append_left _ hleft⟩
  | valueError hp hmem =>
    rcases List.mem_append.mp hret with hret | hret
    · exact h.missing t conn hret
    · cases List.mem_singleton.mp hret
      have hrange := List.mem_range.mpr (h.first t conn hp).1
      rw [← h.fifo] at hrange
      obtain ⟨⟨d, fate⟩, hleft, rfl⟩ :=
        List.mem_map.mp ((List.mem_append.mp hrange).resolve_right hmem)
      refine ⟨fate, ?_, hleft⟩
      rintro rfl
      exact h.removing t d hp hleft
  | _ => exact h.missing t conn hret

theorem Calls.step (h : Calls w) (hs : Step w w') : Calls w' :=
  ⟨h.toNamed.step hs, h.handed_step hs, fun _ _ _ => h.pairs_step hs,
    fun _ _ => h.removing_step hs, fun _ _ => h.missing_step hs⟩

theorem Calls.of_reachable (h : Reachable w) : Calls w := by
  refine @invariant_of_run (HandOver T) Step Calls (fun _ _ h hs => h.step hs) _ _ ?_ h
  have hnext : ∀ conn, (∃ addr, (none : Option Recording) = some (.name conn addr)) ∨
      (none : Option Recording) = some (.append conn) → conn = 0 := by
    rintro conn (⟨addr, heq⟩ | heq) <;> cases heq
  refine ⟨⟨⟨rfl, hnext, nofun⟩, nofun, ?_⟩, fun _ => rfl, nofun, nofun, nofun⟩
  rintro conn (hlt | heq)
  · exact absurd hlt (Nat.not_lt_zero conn)
  · cases heq

/-! ### What `reset` leaves open -/

/-- A connection that was in the list when `reset` copied it is closed by the time that the list
is put away, unless it has been taken. -/
structure Closing (w : HandOver T) : Prop where
  closing : ∀ t rest n, w.places t = some (.close rest n) →
    ∀ conn ∈ w.clients, conn < n → conn ∈ rest ∨ conn ∈ w.closed
  copied : ∀ t rest n, w.places t = some (.close rest n) → n ≤ w.recorded
  dropped : ∀ conn n, (conn, Fate.dropped n) ∈ w.left → conn < n → conn ∈ w.closed

theorem Closing.closing_step (h : Closing w) (hord : InOrder w) (hs : Step w w') {t' : T}
    {left : List ℕ} {m : ℕ} (hp' : w'.places t' = some (.close left m)) :
    (∀ conn ∈ w'.clients, conn < m → conn ∈ left ∨ conn ∈ w'.closed) ∧ m ≤ w'.recorded := by
  have hkeep {t : T} {p : Option Place} (hp : p ≠ some (.close left m))
      (hplace : (w.moved t p).places t' = some (.close left m)) :
      (∀ conn ∈ w.clients, conn < m → conn ∈ left ∨ conn ∈ w.closed) ∧ m ≤ w.recorded := by
    rcases place_cases hplace with ⟨-, heq⟩ | ⟨-, hold⟩
    · exact absurd heq hp
    · exact ⟨h.closing t' left m hold, h.copied t' left m hold⟩
  cases hs with
  | arrive | record | set => exact ⟨h.closing t' left m hp', h.copied t' left m hp'⟩
  | append hr =>
    obtain rfl := hord.next _ (.inr hr)
    have hle := h.copied t' left m hp'
    refine ⟨fun conn hconn hlt => ?_, hle.trans (Nat.le_succ _)⟩
    rcases List.mem_append.mp hconn with hconn | hconn
    · exact h.closing t' left m hp' conn hconn hlt
    · obtain rfl := List.mem_singleton.mp hconn
      exact absurd hlt (not_lt.mpr hle)
  | test hp =>
    refine hkeep ?_ hp'
    split_ifs <;> nofun
  | @remove t conn hp hmem =>
    obtain ⟨hall, hle⟩ := hkeep (t := t) (p := some (.name conn)) nofun hp'
    exact ⟨fun d hd => hall d (List.mem_of_mem_erase hd), hle⟩
  | reset hp =>
    rcases place_cases hp' with ⟨-, heq⟩ | ⟨-, hold⟩
    · cases heq
      exact ⟨fun _ hconn _ => .inl hconn, le_rfl⟩
    · exact ⟨h.closing t' left m hold, h.copied t' left m hold⟩
  | @close t conn rest n hp =>
    have hmore {d : ℕ} (hd : d ∈ w.closed) : d ∈ w.closed ++ [conn] := List.mem_append_left _ hd
    rcases place_cases (w := w) (p := some (.close rest n)) hp' with ⟨-, heq⟩ | ⟨-, hold⟩
    · cases heq
      refine ⟨fun d hd hlt => ?_, h.copied t _ m hp⟩
      rcases h.closing t _ m hp d hd hlt with hrest | hclosed
      · rcases List.mem_cons.mp hrest with rfl | hrest
        · exact .inr (List.mem_append_right _ (List.mem_singleton_self _))
        · exact .inl hrest
      · exact .inr (hmore hclosed)
    · exact ⟨fun d hd hlt => (h.closing t' left m hold d hd hlt).imp_right hmore,
        h.copied t' left m hold⟩
  | @drop t n hp => exact ⟨nofun, (hkeep (t := t) (p := none) nofun hp').2⟩
  | call hp | clear hp | wait hp | nothing hp | copy hp | valueError hp | name hp =>
    refine hkeep ?_ hp'
    nofun

theorem Closing.dropped_step (h : Closing w) (hs : Step w w') {conn m : ℕ}
    (hleft : (conn, Fate.dropped m) ∈ w'.left) (hlt : conn < m) : conn ∈ w'.closed := by
  cases hs with
  | remove =>
    rcases List.mem_append.mp hleft with hleft | hleft
    · exact h.dropped conn m hleft hlt
    · cases List.mem_singleton.mp hleft
  | close => exact List.mem_append_left _ (h.dropped conn m hleft hlt)
  | drop hp =>
    rcases List.mem_append.mp hleft with hleft | hleft
    · exact h.dropped conn m hleft hlt
    · obtain ⟨d, hd, heq⟩ := List.mem_map.mp hleft
      cases heq
      exact (h.closing _ _ _ hp conn hd hlt).resolve_left List.not_mem_nil
  | _ => exact h.dropped conn m hleft hlt

theorem Closing.of_reachable (h : Reachable w) : Closing w := by
  refine (@invariant_of_run (HandOver T) Step (fun w => InOrder w ∧ Closing w) ?_ _ _ ?_ h).2
  · intro w w' h hs
    exact ⟨h.1.step hs, fun _ _ _ hp => (h.2.closing_step h.1 hs hp).1,
      fun _ _ _ hp => (h.2.closing_step h.1 hs hp).2, fun _ _ => h.2.dropped_step hs⟩
  · exact ⟨(Calls.of_reachable .refl).toInOrder, nofun, nofun, nofun⟩

/-- A server that records a client while a `reset` is under way leaves it open, and nobody has
it. -/
theorem exists_stranded : ∃ w : HandOver Bool, Reachable w ∧ (0, Fate.dropped 0) ∈ w.left ∧
    0 ∉ w.closed := by
  have hreset : Reachable _ := .single (Step.reset (t := false) rfl)
  have harrive : Reachable _ := hreset.tail (Step.arrive rfl ("10.0.0.7", 50000))
  have hrecord : Reachable _ := harrive.tail (Step.record rfl)
  have happend : Reachable _ := hrecord.tail (Step.append rfl)
  have hdrop : Reachable _ := happend.tail (Step.drop (t := false) rfl)
  exact ⟨_, hdrop, List.mem_singleton_self _, List.not_mem_nil⟩

/-- However the steps of the server, of any number of callers and of `reset` come: the list and
what has left it are the connections in the order in which they were recorded, so none is lost,
taken twice or taken ahead of another; a caller has been handed what its calls have returned,
each under the address that it came from, and the one that a call is about to return; a call
that finds its connection gone has lost it to another; and a connection that `reset` has put
away it has closed, or the server recorded it after the `reset` had begun. -/
theorem connections_accounted (h : Reachable w) :
    w.left.map Prod.fst ++ w.clients = List.range w.recorded ∧
      (∀ t, w.handedTo t = w.returnedTo t ++ taken (w.places t)) ∧
      (∀ t conn addr, (t, Result.pair conn addr) ∈ w.returned → addr = some (w.addrs conn)) ∧
      (∀ t conn, (t, Result.valueError conn) ∈ w.returned →
        ∃ fate, fate ≠ .handed t ∧ (conn, fate) ∈ w.left) ∧
      ∀ conn n, (conn, Fate.dropped n) ∈ w.left → conn ∈ w.closed ∨ n ≤ conn := by
  have hcalls := Calls.of_reachable h
  have hclosing := Closing.of_reachable h
  refine ⟨hcalls.fifo, hcalls.handed, fun t conn addr hret => (hcalls.pairs t conn addr hret).2,
    hcalls.missing, fun conn n hleft => ?_⟩
  rcases lt_or_ge conn n with hlt | hle
  · exact .inl (hclosing.dropped conn n hleft hlt)
  · exact .inr hle

/-- A client that nobody has and nobody has closed. -/
theorem connections_accounted_stranded : ∃ w : HandOver Bool, (0, Fate.dropped 0) ∈ w.left ∧
    0 ∉ w.closed ∧ w.left.map Prod.fst ++ w.clients = List.range w.recorded := by
  obtain ⟨w, h, hleft, hopen⟩ := exists_stranded
  exact ⟨w, hleft, hopen, (connections_accounted h).1⟩

/-! ### What a wake-up that gets lost costs -/

/-- A connection in the list whose wake-up has been cleared was recorded between a test and the
clear behind it. -/
structure Window (w : HandOver T) : Prop where
  testing : ∀ t n, w.places t = some (.clear n) → n ≤ w.recorded ∧ ∀ conn ∈ w.clients, n ≤ conn
  asleep : w.newConnectionEvent = false → ∀ conn ∈ w.clients,
    (w.tested ≤ conn ∧ conn < w.cleared) ∨ w.recording = some .set

theorem Window.testing_step (h : Window w) (hord : InOrder w) (hs : Step w w') {t' : T} {m : ℕ}
    (hp' : w'.places t' = some (.clear m)) :
    m ≤ w'.recorded ∧ ∀ conn ∈ w'.clients, m ≤ conn := by
  have hkeep {t : T} {p : Option Place} (hp : p ≠ some (.clear m))
      (hplace : (w.moved t p).places t' = some (.clear m)) :
      m ≤ w.recorded ∧ ∀ conn ∈ w.clients, m ≤ conn := by
    rcases place_cases hplace with ⟨-, heq⟩ | ⟨-, hold⟩
    · exact absurd heq hp
    · exact h.testing t' m hold
  cases hs with
  | arrive | record | set => exact h.testing t' m hp'
  | append hr =>
    obtain rfl := hord.next _ (.inr hr)
    obtain ⟨hle, hall⟩ := h.testing t' m hp'
    refine ⟨hle.trans (Nat.le_succ _), fun conn hconn => ?_⟩
    rcases List.mem_append.mp hconn with hconn | hconn
    · exact hall conn hconn
    · obtain rfl := List.mem_singleton.mp hconn
      exact hle
  | test hp =>
    rcases place_cases hp' with ⟨-, heq⟩ | ⟨-, hold⟩
    · split_ifs at heq with hclients
      · cases heq
        refine ⟨le_rfl, fun conn hconn => ?_⟩
        have hnil : conn ∈ w.clients := hconn
        rw [hclients] at hnil
        cases hnil
      · cases heq
    · exact h.testing t' m hold
  | @remove t conn hp hmem =>
    obtain ⟨hle, hall⟩ := hkeep (t := t) (p := some (.name conn)) nofun hp'
    exact ⟨hle, fun d hd => hall d (List.mem_of_mem_erase hd)⟩
  | @drop t n hp => exact ⟨(hkeep (t := t) (p := none) nofun hp').1, nofun⟩
  | call | clear | wait | nothing | copy | valueError | name | reset | close =>
    refine hkeep ?_ hp'
    nofun

theorem Window.asleep_step (h : Window w) (hord : InOrder w) (hs : Step w w')
    (hevent : w'.newConnectionEvent = false) {conn : ℕ} (hconn : conn ∈ w'.clients) :
    (w'.tested ≤ conn ∧ conn < w'.cleared) ∨ w'.recording = some .set := by
  cases hs with
  | arrive hr | record hr =>
    refine .inl ((h.asleep hevent conn hconn).resolve_right fun hset => ?_)
    cases hr.symm.trans hset
  | append hr => exact .inr rfl
  | set => cases hevent
  | clear hp => exact .inl ⟨(h.testing _ _ hp).2 conn hconn, hord.lt hconn⟩
  | remove => exact h.asleep hevent conn (List.mem_of_mem_erase hconn)
  | drop => cases hconn
  | _ => exact h.asleep hevent conn hconn

theorem Window.of_reachable (h : Reachable w) : Window w := by
  refine (@invariant_of_run (HandOver T) Step (fun w => InOrder w ∧ Window w) ?_ _ _ ?_ h).2
  · intro w w' h hs
    exact ⟨h.1.step hs, fun _ _ => h.2.testing_step h.1 hs, fun hevent _ =>
      h.2.asleep_step h.1 hs hevent⟩
  · exact ⟨(Calls.of_reachable .refl).toInOrder, nofun, nofun⟩

/-- A waiting call on its own takes the connection that is first in the list. -/
theorem Calls.wait_returns (h : Calls w) {t : T} (hwait : w.places t = some .wait) {conn : ℕ}
    {rest : List ℕ} (hclients : w.clients = conn :: rest) :
    ∃ w', Relation.ReflTransGen Step w w' ∧
      w'.returned = w.returned ++ [(t, .pair conn (some (w.addrs conn)))] ∧ w'.clients = rest ∧
      ∀ t', t' ≠ t → w'.places t' = w.places t' := by
  have hat (p : Option Place) (v : HandOver T) : (v.moved t p).places t = p :=
    Function.update_self ..
  have hmem : conn ∈ w.clients := hclients ▸ List.mem_cons_self
  have hname : w.peerNames conn = some (w.addrs conn) := h.names conn (.inl (h.lt hmem))
  have hcopy := Relation.ReflTransGen.single (Step.wait hwait)
  have hremove := hcopy.tail (.copy (hat _ _) hclients)
  have hnamed := hremove.tail (.remove (hat _ _) hmem)
  refine ⟨_, hnamed.tail (.name (hat _ _)), ?_, ?_, fun t' hne => ?_⟩
  · rw [← hname]
    rfl
  · show w.clients.erase conn = rest
    rw [hclients, List.erase_cons_head]
  · show Function.update (Function.update (Function.update (Function.update w.places t _) t _) t _)
      t _ t' = _
    simp only [Function.update_of_ne hne]

/-- A call that sleeps over a list that is not empty, when the server is not about to wake it,
does so for connections that were recorded between the test of the call that cleared the event
last and that clear. What it costs is time: left to itself the call returns at its timeout with
the connection that is first in the list. -/
theorem lost_wakeups (h : Reachable w) {t : T} (hwait : w.places t = some .wait)
    (hevent : w.newConnectionEvent = false) :
    (w.recording ≠ some .set → ∀ conn ∈ w.clients, w.tested ≤ conn ∧ conn < w.cleared) ∧
      ∀ conn rest, w.clients = conn :: rest → ∃ w', Relation.ReflTransGen Step w w' ∧
        w'.returned = w.returned ++ [(t, .pair conn (some (w.addrs conn)))] ∧ w'.clients = rest ∧
        ∀ t', t' ≠ t → w'.places t' = w.places t' := by
  refine ⟨fun hset conn hconn => ?_, fun conn rest => (Calls.of_reachable h).wait_returns hwait⟩
  exact ((Window.of_reachable h).asleep hevent conn hconn).resolve_right hset

/-- A client between the test and the clear of a call, which sleeps over it and gets it at the
timeout. -/
theorem lost_wakeups_between : ∃ w w' : HandOver Bool, w.newConnectionEvent = false ∧
    w.recording = none ∧ w.clients = [0] ∧ Relation.ReflTransGen Step w w' ∧
    w'.returned = [(false, .pair 0 (some ("10.0.0.7", 50000)))] := by
  have hcall : Reachable _ := .single (Step.call (t := false) rfl)
  have htest : Reachable _ := hcall.tail (Step.test (t := false) rfl)
  have harrive : Reachable _ := htest.tail (Step.arrive rfl ("10.0.0.7", 50000))
  have hrecord : Reachable _ := harrive.tail (Step.record rfl)
  have happend : Reachable _ := hrecord.tail (Step.append rfl)
  have hset : Reachable _ := happend.tail (Step.set rfl)
  have hclear : Reachable _ := hset.tail (Step.clear (t := false) rfl)
  obtain ⟨w', hrun, hret, -⟩ := (lost_wakeups hclear (t := false) rfl rfl).2 0 [] rfl
  exact ⟨_, w', rfl, rfl, rfl, hrun, hret⟩

end HandOver

end Pyomb
