import Pyomb.Bytes.Struct

/-! Cutting frames out of a stream by judging the head of a buffer. A verdict names a
frame and its size, rejects the first byte, or waits; a verdict that does not wait stays
what it is however many bytes follow. Scanning until the verdict waits then gives the
same frames, the same held bytes and the same count of rejected bytes whether a stream
is scanned at once or in pieces. -/

namespace Pyomb

inductive Verdict (α : Type) where
  | frame (a : α) (size : ℕ)
  | wait
  | reject
  deriving DecidableEq, Repr

/-- A judge of buffers, whose verdicts are stable under extension. -/
structure Framer (α : Type) where
  judge : Bytes → Verdict α
  frame_size {b a n} : judge b = .frame a n → 0 < n ∧ n ≤ b.length
  reject_ne {b} : judge b = .reject → b ≠ []
  stable {b} (t : Bytes) : judge b ≠ .wait → judge (b ++ t) = judge b

/-- The frames found, the bytes still held, and how many were rejected. -/
structure Scan (α : Type) where
  frames : List α
  held : Bytes
  rejected : ℕ
  deriving DecidableEq, Repr

namespace Scan

variable {α : Type}

/-- One scan and then another, which started from what the first held. -/
def after (x y : Scan α) : Scan α := ⟨x.frames ++ y.frames, y.held, x.rejected + y.rejected⟩

@[simp] theorem after_frames (x y : Scan α) : (x.after y).frames = x.frames ++ y.frames := rfl

@[simp] theorem after_held (x y : Scan α) : (x.after y).held = y.held := rfl

@[simp] theorem after_rejected (x y : Scan α) :
    (x.after y).rejected = x.rejected + y.rejected := rfl

theorem after_assoc (x y z : Scan α) : (x.after y).after z = x.after (y.after z) := by
  simp [after, Nat.add_assoc]

@[simp] theorem start_after (b : Bytes) (x : Scan α) : after ⟨[], b, 0⟩ x = x := by
  simp [after]

end Scan

namespace Framer

variable {α : Type} (f : Framer α)

/-- Judge the head of the buffer, act on the verdict, and go on until it waits. -/
def scan (b : Bytes) : Scan α :=
  match h : f.judge b with
  | .frame a n =>
    have : b.length - n < b.length := by have := f.frame_size h; omega
    Scan.after ⟨[a], [], 0⟩ (scan (b.drop n))
  | .reject =>
    have : b.length - 1 < b.length := by
      have := List.length_pos_iff.mpr (f.reject_ne h); omega
    Scan.after ⟨[], [], 1⟩ (scan (b.drop 1))
  | .wait => ⟨[], b, 0⟩
termination_by b.length
decreasing_by all_goals simpa only [List.length_drop] using this

theorem scan_frame {b : Bytes} {a : α} {n : ℕ} (h : f.judge b = .frame a n) :
    f.scan b = Scan.after ⟨[a], [], 0⟩ (f.scan (b.drop n)) := by
  rw [scan]
  split <;> simp_all

theorem scan_reject {b : Bytes} (h : f.judge b = .reject) :
    f.scan b = Scan.after ⟨[], [], 1⟩ (f.scan (b.drop 1)) := by
  rw [scan]
  split <;> simp_all

theorem scan_wait {b : Bytes} (h : f.judge b = .wait) : f.scan b = ⟨[], b, 0⟩ := by
  rw [scan]
  split <;> simp_all

/-- Scanning on from what a scan held is scanning the whole. -/
theorem scan_append (b t : Bytes) :
    f.scan (b ++ t) = (f.scan b).after (f.scan ((f.scan b).held ++ t)) := by
  induction hn : b.length using Nat.strong_induction_on generalizing b with
  | _ n ih =>
    subst hn
    cases h : f.judge b with
    | frame a n =>
      obtain ⟨hpos, hle⟩ := f.frame_size h
      have hst := f.stable t (by rw [h]; nofun)
      rw [f.scan_frame h, f.scan_frame (hst.trans h), List.drop_append_of_le_length hle,
        ih _ (by rw [List.length_drop]; omega) _ rfl, Scan.after_assoc, Scan.after_held]
    | reject =>
      have hpos := List.length_pos_iff.mpr (f.reject_ne h)
      have hst := f.stable t (by rw [h]; nofun)
      rw [f.scan_reject h, f.scan_reject (hst.trans h), List.drop_append_of_le_length hpos,
        ih _ (by rw [List.length_drop]; omega) _ rfl, Scan.after_assoc, Scan.after_held]
    | wait => rw [f.scan_wait h, Scan.start_after]

theorem scan_nil : f.scan [] = ⟨[], [], 0⟩ := by
  apply f.scan_wait
  cases h : f.judge [] with
  | frame a n => have := f.frame_size h; simp only [List.length_nil] at this; omega
  | reject => exact absurd rfl (f.reject_ne h)
  | wait => rfl

/-- A scan that takes its stream in pieces, from the bytes it already holds. -/
def scanPieces (held : Bytes) : List Bytes → Scan α
  | [] => ⟨[], held, 0⟩
  | t :: ts => (f.scan (held ++ t)).after (scanPieces (f.scan (held ++ t)).held ts)

/-- However a stream is cut into pieces, it scans to the same. -/
theorem scanPieces_flatten (b : Bytes) (ts : List Bytes) :
    (f.scan b).after (f.scanPieces (f.scan b).held ts) = f.scan (b ++ ts.flatten) := by
  induction ts generalizing b with
  | nil => simp [scanPieces, Scan.after]
  | cons t ts ih =>
    rw [scanPieces, ← Scan.after_assoc, List.flatten_cons, ← List.append_assoc, ← ih (b ++ t),
      f.scan_append b t, Scan.after_held]

/-- Frames laid end to end are scanned for what they are, and nothing is left of them. -/
theorem scan_flatten {as : List α} {runs : List Bytes}
    (h : List.Forall₂ (fun a run => f.judge run = .frame a run.length) as runs) :
    f.scan runs.flatten = ⟨as, [], 0⟩ := by
  induction h with
  | nil => exact f.scan_nil
  | @cons a run as runs hj _ ih =>
    have hst := f.stable runs.flatten (by rw [hj]; nofun)
    rw [List.flatten_cons, f.scan_frame (hst.trans hj), List.drop_left' rfl, ih]
    simp [Scan.after]

end Framer

/-! ### The parts of a stream -/

/-- A part of a scanned stream: a frame with the run of bytes it was read from, or a byte
that was rejected. -/
inductive Part (α : Type) where
  | frame (a : α) (run : Bytes)
  | rejected (b : UInt8)
  deriving DecidableEq, Repr

namespace Part

variable {α : Type}

def bytes : Part α → Bytes
  | frame _ run => run
  | rejected b => [b]

def frame? : Part α → Option α
  | frame a _ => some a
  | rejected _ => none

def run? : Part α → Option Bytes
  | frame _ run => some run
  | rejected _ => none

def isRejected : Part α → Bool
  | frame _ _ => false
  | rejected _ => true

/-- The bytes of some parts are those of the runs and as many as were rejected. -/
theorem length_bytes (parts : List (Part α)) : (parts.map bytes).flatten.length =
    ((parts.filterMap run?).map List.length).sum + parts.countP isRejected := by
  induction parts with
  | nil => rfl
  | cons part parts ih =>
    rw [List.map_cons, List.flatten_cons, List.length_append, ih]
    cases part with
    | frame a run => simp [bytes, run?, isRejected, Nat.add_assoc]
    | rejected b =>
      simp only [bytes, List.filterMap_cons, run?, List.countP_cons, isRejected, if_true,
        List.length_singleton]
      omega

end Part

namespace Framer

variable {α : Type} (f : Framer α)

/-- A scan accounts for its stream: the parts it cut off, in order, and what it holds. -/
theorem scan_parts (b : Bytes) : ∃ parts : List (Part α),
    b = (parts.map Part.bytes).flatten ++ (f.scan b).held ∧
      (f.scan b).frames = parts.filterMap Part.frame? ∧
      (f.scan b).rejected = parts.countP Part.isRejected ∧
      ∀ a run, .frame a run ∈ parts → ∃ t, f.judge (run ++ t) = .frame a run.length := by
  induction hn : b.length using Nat.strong_induction_on generalizing b with
  | _ n ih =>
    subst hn
    cases h : f.judge b with
    | frame a n =>
      obtain ⟨hpos, hle⟩ := f.frame_size h
      obtain ⟨parts, hb, hframes, hrej, hruns⟩ :=
        ih (b.drop n).length (by rw [List.length_drop]; omega) _ rfl
      rw [f.scan_frame h]
      refine ⟨.frame a (b.take n) :: parts, ?_, ?_, ?_, ?_⟩
      · rw [List.map_cons, List.flatten_cons, List.append_assoc, Scan.after_held, ← hb]
        exact (List.take_append_drop n b).symm
      · simp [hframes, Part.frame?]
      · simp [hrej, Part.isRejected]
      · intro a' run hmem
        rcases List.mem_cons.mp hmem with heq | hmem
        · obtain ⟨rfl, rfl⟩ := Part.frame.inj heq
          exact ⟨b.drop n, by rw [List.take_append_drop, List.length_take_of_le hle, h]⟩
        · exact hruns a' run hmem
    | reject =>
      obtain ⟨x, xs, rfl⟩ := List.exists_cons_of_ne_nil (f.reject_ne h)
      obtain ⟨parts, hb, hframes, hrej, hruns⟩ := ih _ (by simp) xs rfl
      rw [f.scan_reject h]
      refine ⟨.rejected x :: parts, ?_, ?_, ?_, ?_⟩
      · rw [List.map_cons, List.flatten_cons, List.append_assoc, Scan.after_held, List.drop_one,
          List.tail_cons, ← hb]
        rfl
      · simp [hframes, List.filterMap_cons, Part.frame?]
      · simp [hrej, List.countP_cons, Part.isRejected, Nat.add_comm]
      · intro a' run hmem
        exact hruns a' run ((List.mem_cons.mp hmem).resolve_left nofun)
    | wait => exact ⟨[], by simp [f.scan_wait h], by simp [f.scan_wait h],
        by simp [f.scan_wait h], fun _ _ hmem => absurd hmem List.not_mem_nil⟩

end Framer

end Pyomb
