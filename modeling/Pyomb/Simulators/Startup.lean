import Pyomb.Runs
import Mathlib.Algebra.Order.Floor.Semiring
import Mathlib.Data.Rat.Floor
import Mathlib.Tactic.Linarith

/-! Starting the server. A call of `start` sets the thread going and polls for its listener. The
thread binds, listens, announces itself, serves until it is stopped and takes the announcement
back. Both go on one statement at a time in any order, while the owner may call `stop`, and other
threads `start`, at any moment; those calls raise, but not before they have set the mode and
cleared the reason of a failure. -/

namespace Pyomb

namespace Startup

/-- How the thread ends: after a bind that failed, by an exception out of the opening of the
listener or out of the loop and the closing, or by its last statement. -/
inductive Ending where
  | bindFailed (error : String)
  | raised
  | crashed
  | closed
  deriving DecidableEq

/-- Where the thread stands in `run`. -/
inductive Running where
  | unstarted
  | bind
  | refused (error : String)
  | listen
  | getsockname
  | announce
  | loop
  | close
  | clear
  | ended (how : Ending)
  deriving DecidableEq

/-- `is_alive()`. -/
def Running.isAlive : Running → Bool
  | .unstarted | .ended _ => false
  | _ => true

/-- The listener has come up, whatever has become of it. -/
def Running.cameUp : Running → Bool
  | .loop | .close | .clear | .ended .crashed | .ended .closed => true
  | _ => false

/-- How a call of `start` ends: it returns, or it raises one of the three errors. -/
inductive Outcome where
  | returned
  | endedBefore (port : ℕ)
  | endedFor (port : ℕ) (startupError : Option String)
  | late (port : ℕ)
  deriving DecidableEq

/-- The seconds to wait, and how they are shown. -/
structure Timeout where
  seconds : ℚ
  text : String

def Outcome.message (timeout : Timeout) : Outcome → Option String
  | .returned => none
  | .endedBefore port =>
    some ("The server thread ended before the listener on port " ++ toString port ++ " came up")
  | .endedFor port startupError =>
    some ("The server thread ended before the listener on port " ++ toString port ++ " came up: " ++
      startupError.getD "None")
  | .late port =>
    some ("The listener on port " ++ toString port ++ " did not come up within " ++ timeout.text ++
      " second(s)")

inductive Place where
  | mode
  | forget
  | spawn
  | deadline
  | test
  | alive
  | reason (port : ℕ)
  | cause (port : ℕ)
  | late
  | giveUp
  | asleep (wake : ℚ)
  | finished (outcome : Outcome)
  deriving DecidableEq

end Startup

open Startup in
/-- The server's fields that starting it reads and writes, the thread, the call and its deadline.
The rest is kept for the record: the statements and the sleeps of the call, and whether another
call has been made. -/
structure Startup where
  processConnections : Bool := true
  startupError : Option String := none
  port : ℕ
  quitEvent : Bool := false
  startedEvent : Bool := false
  thread : Running := .unstarted
  now : ℚ
  place : Place := .mode
  deadline : ℚ := 0
  statements : ℕ := 0
  sleeps : ℕ := 0
  again : Bool := false

namespace Startup

def nap : ℚ := 1 / 20

theorem nap_nonneg : 0 ≤ nap := by norm_num [nap]

def moved (w : Startup) (p : Place) : Startup :=
  { w with place := p, statements := w.statements + 1 }

/-- The next statement of the call; there is none once it is over, nor while it sleeps. -/
def start (processConnections : Bool) (timeout : Timeout) (w : Startup) : Option Startup :=
  match w.place with
  | .mode => some ({ w with processConnections }.moved .forget)
  | .forget => some ({ w with startupError := none }.moved .spawn)
  | .spawn => some ({ w with thread := .bind }.moved .deadline)
  | .deadline => some ({ w with deadline := w.now + timeout.seconds }.moved .test)
  | .test => if w.startedEvent then some (w.moved (.finished .returned)) else some (w.moved .alive)
  | .alive => if w.thread.isAlive then some (w.moved .late) else some (w.moved (.reason w.port))
  | .reason port =>
    if w.startupError = none then some (w.moved (.finished (.endedBefore port)))
    else some (w.moved (.cause port))
  | .cause port => some (w.moved (.finished (.endedFor port w.startupError)))
  | .late =>
    if w.deadline ≤ w.now then some (w.moved .giveUp)
    else some ({ w with sleeps := w.sleeps + 1 }.moved (.asleep (w.now + nap)))
  | .giveUp => some (w.moved (.finished (.late w.port)))
  | .asleep wake => if wake ≤ w.now then some (w.moved .test) else none
  | .finished _ => none

inductive Step (processConnections : Bool) (timeout : Timeout) : Startup → Startup → Prop
  | start {w w' : Startup} (h : w.start processConnections timeout = some w') :
      Step processConnections timeout w w'
  /-- `bind` raises an `OSError`, which is recorded. -/
  | bindFailed {w : Startup} (h : w.thread = .bind) (error : String) :
      Step processConnections timeout w
        { w with startupError := some error, thread := .refused error }
  | refused {w : Startup} {error : String} (h : w.thread = .refused error) :
      Step processConnections timeout w { w with thread := .ended (.bindFailed error) }
  /-- Any other exception, such as the `OverflowError` of a port that is none. -/
  | raised {w : Startup}
      (h : w.thread = .bind ∨ w.thread = .listen ∨ w.thread = .getsockname) :
      Step processConnections timeout w { w with thread := .ended .raised }
  | bind {w : Startup} (h : w.thread = .bind) :
      Step processConnections timeout w { w with thread := .listen }
  | listen {w : Startup} (h : w.thread = .listen) :
      Step processConnections timeout w { w with thread := .getsockname }
  /-- Port 0 asks for a free one. -/
  | getsockname {w : Startup} (h : w.thread = .getsockname) (port : ℕ)
      (hport : w.port ≠ 0 → port = w.port) :
      Step processConnections timeout w { w with port, thread := .announce }
  | announce {w : Startup} (h : w.thread = .announce) :
      Step processConnections timeout w { w with startedEvent := true, thread := .loop }
  | quit {w : Startup} (h : w.thread = .loop) (hquit : w.quitEvent = true) :
      Step processConnections timeout w { w with thread := .close }
  | crashed {w : Startup} (h : w.thread = .loop ∨ w.thread = .close) :
      Step processConnections timeout w { w with thread := .ended .crashed }
  | close {w : Startup} (h : w.thread = .close) :
      Step processConnections timeout w { w with thread := .clear }
  | clear {w : Startup} (h : w.thread = .clear) :
      Step processConnections timeout w
        { w with startedEvent := false, thread := .ended .closed }
  | stop {w : Startup} : Step processConnections timeout w { w with quitEvent := true }
  /-- Another call of `start` sets the mode. -/
  | mode {w : Startup} (mode : Bool) :
      Step processConnections timeout w { w with processConnections := mode, again := true }
  /-- Another call of `start` clears the reason. -/
  | forget {w : Startup} :
      Step processConnections timeout w { w with startupError := none, again := true }
  | tick {w : Startup} (seconds : ℚ) (h : 0 ≤ seconds) :
      Step processConnections timeout w { w with now := w.now + seconds }

def Reachable (processConnections : Bool) (timeout : Timeout) (asked : ℕ) (w : Startup) : Prop :=
  ∃ now, Relation.ReflTransGen (Step processConnections timeout) { port := asked, now } w

/-! ### The thread -/

section Run

variable {processConnections : Bool} {timeout : Timeout} {asked : ℕ} {w w' : Startup}

def Running.announced : Running → Bool
  | .loop | .close | .clear | .ended .crashed => true
  | _ => false

def Running.named : Running → Bool
  | .announce => true
  | r => r.cameUp

def Running.stopped : Running → Bool
  | .close | .clear | .ended .closed => true
  | _ => false

def Running.refusal : Running → Option String
  | .refused error | .ended (.bindFailed error) => some error
  | _ => none

def Place.early : Place → Bool
  | .mode | .forget | .spawn => true
  | _ => false

/-- What the thread leaves behind at the place where it stands. -/
structure Leaves (processConnections : Bool) (asked : ℕ) (w : Startup) : Prop where
  started : w.startedEvent = w.thread.announced
  port : w.thread.named = false → w.port = asked
  chosen : asked ≠ 0 → w.port = asked
  quit : w.thread.stopped = true → w.quitEvent = true
  error : w.startupError = w.thread.refusal ∨ w.startupError = none ∧ w.again = true
  early : w.place.early = true ↔ w.thread = .unstarted
  mode : w.again = false → w.place ≠ .mode → w.processConnections = processConnections

attribute [local simp] Running.cameUp Running.announced Running.named Running.stopped
  Running.refusal Place.early

theorem Leaves.of_late (h : w.Leaves processConnections asked) (hearly : w.place.early = false)
    {p : Place} (hp : p.early = false) (deadline : ℚ) (statements sleeps : ℕ) :
    { w with place := p, deadline, statements, sleeps }.Leaves processConnections asked where
  started := h.started
  port := h.port
  chosen := h.chosen
  quit := h.quit
  error := h.error
  early := by
    have := h.early
    simp only [hearly] at this
    simpa only [hp] using this
  mode hagain _ := h.mode hagain fun hmode => by simp [hmode] at hearly

theorem Leaves.of_start (h : w.Leaves processConnections asked)
    (hstart : w.start processConnections timeout = some w') :
    w'.Leaves processConnections asked := by
  cases hplace : w.place with
  | mode | forget | spawn =>
    obtain ⟨hstarted, hport, hchosen, hquit, herror, hearly, hmode⟩ := h
    simp only [start, hplace] at hstart
    have hthread : w.thread = .unstarted := hearly.mp (by simp [hplace])
    cases hstart
    constructor <;> simp_all [moved]
  | finished outcome => simp [start, hplace] at hstart
  | _ =>
    simp only [start, hplace] at hstart
    (try split at hstart) <;> cases hstart <;>
      exact h.of_late (by rw [hplace]; rfl) rfl _ _ _

theorem Leaves.step (h : w.Leaves processConnections asked)
    (hstep : Step processConnections timeout w w') :
    w'.Leaves processConnections asked := by
  cases hstep with
  | start hstart => exact h.of_start hstart
  | raised hthread =>
    obtain ⟨hstarted, hport, hchosen, hquit, herror, hearly, hmode⟩ := h
    rcases hthread with ht | ht | ht <;> constructor <;> simp_all
  | crashed hthread =>
    obtain ⟨hstarted, hport, hchosen, hquit, herror, hearly, hmode⟩ := h
    rcases hthread with ht | ht <;> constructor <;> simp_all
  | mode =>
    exact { h with
      error := h.error.imp_right fun he => ⟨he.1, rfl⟩
      mode := fun hagain => by cases hagain }
  | _ =>
    obtain ⟨hstarted, hport, hchosen, hquit, herror, hearly, hmode⟩ := h
    constructor <;> simp_all

/-! ### The call -/

/-- What the end of a call says of the server. A reason is missing, or shown as `None`, where
another call has cleared it. -/
def Outcome.Says (asked : ℕ) (w : Startup) : Outcome → Prop
  | .returned => w.thread.cameUp = true
  | .endedBefore port =>
    port = w.port ∧ ∃ how, w.thread = .ended how ∧ ∀ e, how = .bindFailed e → w.again = true
  | .endedFor port reason =>
    port = w.port ∧ ∃ e, w.thread = .ended (.bindFailed e) ∧
      (reason = some e ∨ reason = none ∧ w.again = true)
  | .late port => w.deadline ≤ w.now ∧ (port = asked ∨ port = w.port)

/-- What the call has found out at the place where it stands. -/
def Place.Holds (asked : ℕ) (w : Startup) : Place → Prop
  | .reason port => port = w.port ∧ ∃ how, w.thread = .ended how
  | .cause port => port = w.port ∧ ∃ e, w.thread = .ended (.bindFailed e)
  | .giveUp => w.deadline ≤ w.now
  | .finished outcome => outcome.Says asked w
  | _ => True

/-- What no step but one of the call's own takes back. -/
structure Keeps (asked : ℕ) (w w' : Startup) : Prop where
  place : w'.place = w.place
  ended : ∀ how, w.thread = .ended how → w'.thread = .ended how ∧ w'.port = w.port
  cameUp : w.thread.cameUp = true → w'.thread.cameUp = true
  port : w.port = asked ∨ w'.port = w.port
  deadline : w'.deadline = w.deadline
  now : w.now ≤ w'.now
  again : w.again = true → w'.again = true
  counted : w'.statements = w.statements ∧ w'.sleeps = w.sleeps

theorem Outcome.Says.keeps {outcome : Outcome} (h : outcome.Says asked w)
    (hkeeps : Keeps asked w w') : outcome.Says asked w' := by
  cases outcome with
  | returned => exact hkeeps.cameUp h
  | endedBefore port =>
    obtain ⟨rfl, how, hhow, hagain⟩ := h
    have hended := hkeeps.ended how hhow
    exact ⟨hended.2.symm, how, hended.1, fun e he => hkeeps.again (hagain e he)⟩
  | endedFor port reason =>
    obtain ⟨rfl, e, he, hreason⟩ := h
    have hended := hkeeps.ended _ he
    exact ⟨hended.2.symm, e, hended.1, hreason.imp_right fun hr => ⟨hr.1, hkeeps.again hr.2⟩⟩
  | late port =>
    obtain ⟨hlate, hport⟩ := h
    refine ⟨hkeeps.deadline ▸ hlate.trans hkeeps.now, ?_⟩
    rcases hport with hport | hport
    · exact .inl hport
    · rcases hkeeps.port with hasked | hsame
      · exact .inl (hport.trans hasked)
      · exact .inr (hport.trans hsame.symm)

theorem Place.Holds.keeps {p : Place} (h : p.Holds asked w) (hkeeps : Keeps asked w w') :
    p.Holds asked w' := by
  cases p with
  | reason port =>
    obtain ⟨rfl, how, hhow⟩ := h
    have hended := hkeeps.ended how hhow
    exact ⟨hended.2.symm, how, hended.1⟩
  | cause port =>
    obtain ⟨rfl, e, he⟩ := h
    have hended := hkeeps.ended _ he
    exact ⟨hended.2.symm, e, hended.1⟩
  | giveUp =>
    have hlate : w.deadline ≤ w.now := h
    have hdeadline : w'.deadline = w.deadline := hkeeps.deadline
    simpa only [Place.Holds, hdeadline] using hlate.trans hkeeps.now
  | finished outcome => exact Outcome.Says.keeps h hkeeps
  | _ => trivial

theorem keeps_of_step (h : w.Leaves processConnections asked)
    (hstep : Step processConnections timeout w w') :
    w.start processConnections timeout = some w' ∨ Keeps asked w w' := by
  cases hstep with
  | start hstart => exact .inl hstart
  | getsockname hthread port hport =>
    have hasked : w.port = asked := h.port (by simp [hthread])
    exact .inr ⟨rfl, by simp [hthread], by simp [hthread], .inl hasked, rfl, le_rfl, id, rfl, rfl⟩
  | raised hthread =>
    rcases hthread with ht | ht | ht <;>
      exact .inr ⟨rfl, by simp [ht], by simp [ht], .inr rfl, rfl, le_rfl, id, rfl, rfl⟩
  | crashed hthread =>
    rcases hthread with ht | ht <;>
      exact .inr ⟨rfl, by simp [ht], by simp, .inr rfl, rfl, le_rfl, id, rfl, rfl⟩
  | tick seconds hseconds =>
    exact .inr ⟨rfl, fun how hhow => ⟨hhow, rfl⟩, id, .inr rfl, rfl, by simpa using hseconds, id,
      rfl, rfl⟩
  | _ => exact .inr ⟨rfl, by simp_all, by simp_all, .inr rfl, rfl, le_rfl, by simp, rfl, rfl⟩

theorem ended_of_not_alive (h : w.thread.isAlive = false) (hearly : w.thread ≠ .unstarted) :
    ∃ how, w.thread = .ended how := by
  cases hthread : w.thread with
  | ended how => exact ⟨how, rfl⟩
  | unstarted => exact absurd hthread hearly
  | _ => simp [hthread, Running.isAlive] at h

theorem cameUp_of_announced {r : Running} (h : r.announced = true) : r.cameUp = true := by
  unfold Running.announced at h
  split at h <;> first | rfl | cases h

theorem exists_of_refusal {r : Running} {e : String} {how : Ending} (h : r.refusal = some e)
    (hhow : r = .ended how) : how = .bindFailed e := by
  subst hhow
  cases how <;> simp_all

theorem Place.Holds.of_start (hleaves : w.Leaves processConnections asked)
    (h : w.place.Holds asked w) (hstart : w.start processConnections timeout = some w') :
    w'.place.Holds asked w' := by
  cases hplace : w.place with
  | test =>
    simp only [start, hplace] at hstart
    split at hstart
    · next hstarted =>
      cases hstart
      exact cameUp_of_announced (hleaves.started.symm.trans hstarted)
    · cases hstart
      trivial
  | alive =>
    simp only [start, hplace] at hstart
    split at hstart
    · cases hstart
      trivial
    · next halive =>
      cases hstart
      have hspawned : w.thread ≠ .unstarted := fun heq => by
        simpa [hplace] using hleaves.early.mpr heq
      have hdead : w.thread.isAlive = false := by simpa using halive
      exact ⟨rfl, ended_of_not_alive hdead hspawned⟩
  | reason port =>
    simp only [start, hplace] at hstart
    rw [hplace] at h
    obtain ⟨rfl, how, hhow⟩ := h
    split at hstart
    · next hnone =>
      cases hstart
      refine ⟨rfl, how, hhow, fun e he => ?_⟩
      rcases hleaves.error with herror | herror
      · simp [hnone, hhow, he] at herror
      · exact herror.2
    · next hsome =>
      cases hstart
      rcases hleaves.error with herror | herror
      · obtain ⟨e, he⟩ := Option.ne_none_iff_exists'.mp hsome
        exact ⟨rfl, e, hhow.trans (by rw [exists_of_refusal (herror.symm.trans he) hhow])⟩
      · exact absurd herror.1 hsome
  | cause port =>
    simp only [start, hplace] at hstart
    rw [hplace] at h
    obtain ⟨rfl, e, he⟩ := h
    cases hstart
    refine ⟨rfl, e, he, ?_⟩
    rcases hleaves.error with herror | herror
    · exact .inl (by simp [herror, he])
    · exact .inr herror
  | late =>
    simp only [start, hplace] at hstart
    split at hstart
    · next hlate =>
      cases hstart
      exact hlate
    · cases hstart
      trivial
  | giveUp =>
    simp only [start, hplace] at hstart
    rw [hplace] at h
    cases hstart
    exact ⟨h, .inr rfl⟩
  | asleep wake =>
    simp only [start, hplace] at hstart
    split at hstart <;> cases hstart
    trivial
  | finished outcome => simp [start, hplace] at hstart
  | _ =>
    simp only [start, hplace] at hstart
    cases hstart
    trivial

/-! ### Its length -/

/-- The statements of a call up to a place, but for whole polls. -/
def Place.spent : Place → ℕ
  | .mode => 0
  | .forget => 1
  | .spawn => 2
  | .deadline | .asleep _ => 3
  | .test => 4
  | .alive => 5
  | .reason _ | .late => 6
  | .cause _ | .giveUp => 7
  | .finished _ => 8

def Place.polling : Place → Bool
  | .mode | .forget | .spawn | .deadline => false
  | _ => true

/-- The time that has been waited for. -/
def Place.reached (now : ℚ) : Place → ℚ
  | .asleep wake => wake
  | _ => now

/-- Every sleep but the last has brought the clock closer to the deadline. -/
structure Timed (timeout : Timeout) (w : Startup) : Prop where
  statements : w.statements ≤ w.place.spent + 4 * w.sleeps
  fresh : w.place.polling = false → w.sleeps = 0
  clock : w.place.polling = true →
    w.deadline - timeout.seconds + w.sleeps * nap ≤ w.place.reached w.now
  wake : w.place.reached w.now ≤ w.now + nap
  few : w.sleeps = 0 ∨ (w.sleeps - 1) * nap < timeout.seconds

theorem Timed.keeps (h : w.Timed timeout) (hkeeps : Keeps asked w w') : w'.Timed timeout := by
  obtain ⟨hstatements, hsleeps⟩ := hkeeps.counted
  have hnow := hkeeps.now
  have hreached : w.place.reached w.now ≤ w.place.reached w'.now := by
    cases w.place <;> simp [Place.reached, hnow]
  have hwake : w.place.reached w'.now ≤ w'.now + nap := by
    have hold := h.wake
    have := nap_nonneg
    cases hplace : w.place <;> simp only [hplace, Place.reached] at hold ⊢ <;> linarith
  constructor
  · rw [hkeeps.place, hstatements, hsleeps]
    exact h.statements
  · rw [hkeeps.place, hsleeps]
    exact h.fresh
  · rw [hkeeps.place, hsleeps, hkeeps.deadline]
    exact fun hpolling => (h.clock hpolling).trans hreached
  · rw [hkeeps.place]
    exact hwake
  · rw [hsleeps]
    exact h.few

/-- A poll goes to sleep only before the deadline, so the sleeps before it fit in the timeout. -/
theorem few_of_early (hclock : w.deadline - timeout.seconds + w.sleeps * nap ≤ w.now)
    (hearly : w.now < w.deadline) : (w.sleeps : ℚ) * nap < timeout.seconds := by
  linarith

theorem Timed.of_start (h : w.Timed timeout)
    (hstart : w.start processConnections timeout = some w') : w'.Timed timeout := by
  obtain ⟨hstatements, hfresh, hclock, hwake, hfew⟩ := h
  have hnap := nap_nonneg
  cases hplace : w.place <;> simp only [start, hplace] at hstart <;>
    simp only [hplace, Place.spent, Place.reached, Place.polling, forall_const]
      at hstatements hfresh hclock hwake
  case late =>
    split at hstart
    · cases hstart
      constructor <;> simp_all [moved, Place.spent, Place.reached, Place.polling]
      omega
    · next hearly =>
      cases hstart
      have hlast := few_of_early hclock (not_le.mp hearly)
      refine ⟨?_, fun h => (by cases h), fun _ => ?_, le_rfl, .inr ?_⟩
      · simp only [moved, Place.spent]
        omega
      · simp only [moved, Place.reached]
        push_cast
        linarith
      · simpa [moved] using hlast
  all_goals
    (try split at hstart) <;> cases hstart <;> constructor <;>
      simp_all [moved, Place.spent, Place.reached, Place.polling] <;> first | omega | linarith

/-! ### Every run -/

structure Sound (processConnections : Bool) (timeout : Timeout) (asked : ℕ) (w : Startup) :
    Prop where
  leaves : w.Leaves processConnections asked
  holds : w.place.Holds asked w
  timed : w.Timed timeout

theorem Sound.step (h : w.Sound processConnections timeout asked)
    (hstep : Step processConnections timeout w w') :
    w'.Sound processConnections timeout asked := by
  have hleaves := h.leaves.step hstep
  rcases keeps_of_step h.leaves hstep with hstart | hkeeps
  · exact ⟨hleaves, h.holds.of_start h.leaves hstart, h.timed.of_start hstart⟩
  · refine ⟨hleaves, ?_, h.timed.keeps hkeeps⟩
    rw [hkeeps.place]
    exact h.holds.keeps hkeeps

theorem Reachable.sound (hrun : Reachable processConnections timeout asked w) :
    w.Sound processConnections timeout asked := by
  obtain ⟨now, hrun⟩ := hrun
  have hstart : Sound processConnections timeout asked { port := asked, now } := by
    refine ⟨?_, trivial, ?_⟩
    · constructor <;> simp
    · constructor <;> simp [Place.spent, Place.polling, Place.reached, nap_nonneg]
  exact invariant_of_run
    (fun s t (h : s.Sound processConnections timeout asked) hstep => h.step hstep) hstart hrun

/-- What the end of a call says is so. A call that returns has a listener that came up, on the port
it was asked for, and one that is still there unless it was stopped or has crashed; a call that
raises found the thread ended, or the deadline past. -/
theorem start_endings (hrun : Reachable processConnections timeout asked w) {outcome : Outcome}
    (hover : w.place = .finished outcome) :
    outcome.Says asked w ∧
    (asked ≠ 0 → w.port = asked) ∧
    (w.quitEvent = false → w.thread.stopped = false) ∧
    (w.again = false → w.processConnections = processConnections) := by
  have hsound := hrun.sound
  refine ⟨?_, hsound.leaves.chosen, fun hquit => ?_, fun hagain => ?_⟩
  · simpa [Place.Holds, hover] using hsound.holds
  · by_contra hstopped
    have := hsound.leaves.quit (by simpa using hstopped)
    simp [hquit] at this
  · exact hsound.leaves.mode hagain (by simp [hover])

/-- A server whose listener comes up and is stopped between the test of the event and the test of
the thread: the call says that it never came up. -/
def missed : Startup where
  port := 502
  quitEvent := true
  thread := .ended .closed
  now := 0
  place := .finished (.endedBefore 502)
  deadline := 0 + 10
  statements := 7

theorem missed_reachable : Reachable true ⟨10, "10.0"⟩ 502 missed := by
  refine ⟨0, ?_⟩
  have hcalled := (((((Relation.ReflTransGen.refl
    (r := Step true ⟨10, "10.0"⟩) (a := { port := 502, now := 0 })).tail (.start rfl)).tail
    (.start rfl)).tail (.start rfl)).tail (.start rfl)).tail (.start rfl)
  have hup := (((hcalled.tail (.bind rfl)).tail (.listen rfl)).tail
    (.getsockname rfl 502 fun _ => rfl)).tail (.announce rfl)
  have hdown := (((hup.tail .stop).tail (.quit rfl rfl)).tail (.close rfl)).tail (.clear rfl)
  exact (hdown.tail (.start rfl)).tail (.start rfl)

theorem start_endings_missed : (Outcome.endedBefore 502).Says 502 missed ∧
    missed.thread.cameUp = true ∧ (Outcome.endedBefore 502).message ⟨10, "10.0"⟩ =
      some "The server thread ended before the listener on port 502 came up" :=
  ⟨(start_endings missed_reachable rfl).1, rfl, by decide⟩

/-- The call ends. It is never held up but in a sleep, of one twentieth of a second at most, and
the number of its statements is bounded by the timeout, whatever the thread does. -/
theorem start_ends (hrun : Reachable processConnections timeout asked w) :
    w.statements ≤ 8 + 4 * ⌈timeout.seconds * 20 + 1⌉₊ ∧
    (w.start processConnections timeout = none →
      (∃ outcome, w.place = .finished outcome) ∨
        ∃ wake, w.place = .asleep wake ∧ w.now < wake ∧ wake ≤ w.now + nap) := by
  have htimed := hrun.sound.timed
  constructor
  · have hspent : w.place.spent ≤ 8 := by cases w.place <;> simp [Place.spent]
    have hsleeps : (w.sleeps : ℚ) ≤ timeout.seconds * 20 + 1 ∨ w.sleeps = 0 := by
      refine htimed.few.symm.imp_left fun hfew => ?_
      rw [nap] at hfew
      linarith
    have hceil : w.sleeps ≤ ⌈timeout.seconds * 20 + 1⌉₊ := by
      rcases hsleeps with hle | hzero
      · exact_mod_cast hle.trans (Nat.le_ceil _)
      · omega
    have := htimed.statements
    omega
  · intro hstuck
    cases hplace : w.place with
    | finished outcome => exact .inl ⟨outcome, rfl⟩
    | asleep wake =>
      have hwake := htimed.wake
      simp only [hplace, Place.reached] at hwake
      simp only [start, hplace] at hstuck
      split at hstuck
      · cases hstuck
      · next hnow => exact .inr ⟨wake, rfl, not_le.mp hnow, hwake⟩
    | _ =>
      simp only [start, hplace] at hstuck
      (try split at hstuck) <;> cases hstuck

theorem start_ends_missed : missed.statements ≤ 8 + 4 * ⌈(10 : ℚ) * 20 + 1⌉₊ :=
  (start_ends missed_reachable).1

end Run

end Startup

end Pyomb
