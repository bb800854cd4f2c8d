import Pyomb.Runs
import Pyomb.Simulators.Client

/-! Timeouts on a stream of frames. Segments and timeouts arrive in any order, and the
caller calls `receive` or `wait_response` again after each error. A call that is
interrupted drops the bytes it has taken, so the stream stays aligned where every timeout
comes between two frames, and only there. -/

namespace Pyomb

open ModbusClientSimulator

def sent (frames : List TcpFrame) : Bytes := (frames.map TcpFrame.bytes).flatten

/-- What is still to come starts at one of the frames, or at the end. -/
def Boundary (frames : List TcpFrame) (u : Bytes) : Prop := ∃ fs, fs <:+ frames ∧ u = sent fs

@[simp] theorem sent_cons (f : TcpFrame) (fs : List TcpFrame) :
    sent (f :: fs) = f.bytes ++ sent fs := rfl

theorem sent_length_le {fs gs : List TcpFrame} (h : fs <:+ gs) :
    (sent fs).length ≤ (sent gs).length := by
  obtain ⟨t, rfl⟩ := h
  rw [sent, sent, List.map_append, List.flatten_append, List.length_append]
  exact Nat.le_add_left _ _

/-- Where fewer bytes than the first frame has are gone and a boundary is reached, none
are gone. -/
theorem Boundary.eq_of_drop {frames fs : List TcpFrame} {f : TcpFrame} {k : ℕ}
    (hfs : f :: fs <:+ frames) (hk : k < f.bytes.length)
    (h : Boundary frames ((sent (f :: fs)).drop k)) :
    (sent (f :: fs)).drop k = sent (f :: fs) := by
  obtain ⟨gs, hgs, heq⟩ := h
  have hlen := congrArg List.length heq
  rw [List.length_drop] at hlen
  rcases List.suffix_or_suffix_of_suffix hgs hfs with hle | hle
  · rcases List.suffix_cons_iff.mp hle with rfl | hle
    · exact heq
    · have := sent_length_le hle
      rw [sent_cons, List.length_append] at hlen
      omega
  · have := sent_length_le hle
    obtain rfl : k = 0 := by
      rw [sent_cons, List.length_append] at hlen this
      omega
    exact List.drop_zero

/-- What one call of `receive` does to the frames still to come. -/
inductive Received {ε : Type} :
    List TcpFrame → Except (Exc ε) Bytes → List TcpFrame → Prop
  | timeout (msg : String) (e : ε) (fs) : Received fs (.error (.network msg (some e))) fs
  | closed : Received [] (.ok []) []
  | frame (f fs) : Received (f :: fs) (.ok f.bytes) fs

/-- What one call of `wait_response` that may read `n` frames does to them: it takes whole
frames, and a response is what the last of these carries. -/
structure Waited {ε : Type} (n : ℕ) (fs : List TcpFrame)
    (r : Except (Exc ε) (Option ModbusTcpResponse)) (rest : List TcpFrame) : Prop where
  takes : ∃ taken, fs = taken ++ rest ∧ taken.length ≤ n ∧ ∀ response, r = .ok (some response) →
    ∃ f, taken.getLast? = some f ∧ ModbusTcpResponse.deserialize f.bytes = .ok response
  closed : r = .ok none → rest = []

inductive Outcome (ε : Type) where
  | received (r : Except (Exc ε) Bytes)
  | waited (r : Except (Exc ε) (Option ModbusTcpResponse))

/-- Calls one after the other on one socket, whatever each of them returns or raises, with
the outcomes in order. Between two waits the client may be in any state. -/
inductive Calls {ε : Type} : List (Source.Arrival ε) → List (Outcome ε) →
    List (Source.Arrival ε) → Prop
  | done (as) : Calls as [] as
  | receive {as as₁ as' os r} {fragSize : ℤ} (hf : 0 ≤ fragSize)
      (h : ModbusTcpStream.receive (.arriving ε) fragSize as = some (r, as₁))
      (next : Calls as₁ os as') : Calls as (.received r :: os) as'
  | wait {as as₁ as' os r} {c c' : ModbusClientSimulator}
      (h : waitResponse (.arriving ε) c as = some (r, c', as₁))
      (next : Calls as₁ os as') : Calls as (.waited r :: os) as'

/-- The outcomes in order take the frames one after the other, down to the rest. -/
inductive Explains {ε : Type} : List TcpFrame → List (Outcome ε) → List TcpFrame → Prop
  | done (fs) : Explains fs [] fs
  | received {fs fs₁ rest os r} (h : Received fs r fs₁) (next : Explains fs₁ os rest) :
      Explains fs (.received r :: os) rest
  | waited {fs fs₁ rest os r} (h : Waited (maxStaleResponses + 1) fs r fs₁)
      (next : Explains fs₁ os rest) : Explains fs (.waited r :: os) rest

section Aligned

variable {ε : Type} {frames fs : List TcpFrame} {as as' : List (Source.Arrival ε)}

/-- The stream stands at the frames still to come, and all timeouts ahead are at a
boundary. -/
structure Aligned (frames fs : List TcpFrame) (as : List (Source.Arrival ε)) : Prop where
  suffix : fs <:+ frames
  unread : Source.Arrival.unread as = sent fs
  raises : Source.Arrival.RaisesWhere (Boundary frames) as

theorem raisesWhere_of_reaches {P : Bytes → Prop} (h : Source.Arrival.RaisesWhere P as)
    (hr : (Source.arriving ε).Reaches as as') : Source.Arrival.RaisesWhere P as' :=
  @invariant_of_run _ _ (Source.Arrival.RaisesWhere P) (fun _ _ h ⟨n, hn⟩ => hn ▸ h.read n) _ _ h hr

theorem boundary_of_raises {e : ε} (h : Source.Arrival.RaisesWhere (Boundary frames) as)
    (hr : (Source.arriving ε).Raises as e as') : Boundary frames (Source.Arrival.unread as') :=
  let ⟨_, _, hreach, hread⟩ := hr
  (raisesWhere_of_reaches h hreach).raised hread

theorem receive_aligned {fragSize : ℤ} (hf : 0 ≤ fragSize) (ha : Aligned frames fs as) :
    ∃ r as' rest, ModbusTcpStream.receive (.arriving ε) fragSize as = some (r, as') ∧
      Received fs r rest ∧ Aligned frames rest as' := by
  rcases fs with _ | ⟨f, fs⟩
  · rcases ModbusTcpStream.receive_nil_cases (.arriving ε) hf (s := as) ha.unread with
      ⟨e, msg, as', hr, hraise, hs'⟩ | ⟨as', hr, hs'⟩
    · exact ⟨_, as', [], hr, .timeout _ _ _,
        ha.suffix, hs', raisesWhere_of_reaches ha.raises hraise.reaches⟩
    · exact ⟨_, as', [], hr, .closed, ha.suffix, hs',
        raisesWhere_of_reaches ha.raises (ModbusTcpStream.receive_reaches _ hr)⟩
  · rcases ModbusTcpStream.receive_frame_cases (.arriving ε) hf f (s := as) ha.unread with
      ⟨e, msg, as', k, hr, hraise, hk, hs'⟩ | ⟨as', hr, hs'⟩
    · have hbound := boundary_of_raises ha.raises hraise
      have hdrop : Source.Arrival.unread as' = (sent (f :: fs)).drop k := ha.unread ▸ hs'
      refine ⟨_, as', f :: fs, hr, .timeout _ _ _, ha.suffix, ?_,
        raisesWhere_of_reaches ha.raises hraise.reaches⟩
      rw [hdrop] at hbound ⊢
      exact hbound.eq_of_drop ha.suffix hk
    · exact ⟨_, as', fs, hr, .frame f fs, (List.suffix_cons f fs).trans ha.suffix, hs',
        raisesWhere_of_reaches ha.raises (ModbusTcpStream.receive_reaches _ hr)⟩

theorem waitLoop_aligned {n : ℕ} {c c' : ModbusClientSimulator}
    {r : Except (Exc ε) (Option ModbusTcpResponse)} (ha : Aligned frames fs as)
    (h : waitLoop (.arriving ε) n c as = some (r, c', as')) :
    ∃ rest, Waited n fs r rest ∧ Aligned frames rest as' := by
  induction n generalizing fs as with
  | zero =>
    cases h
    exact ⟨fs, ⟨⟨[], rfl, le_refl 0, by simp⟩, by simp⟩, ha⟩
  | succ n ih =>
    obtain ⟨r₁, as₁, rest, hr, hrec, ha₁⟩ := receive_aligned (le_refl 0) ha
    rw [waitLoop, hr] at h
    cases hrec with
    | timeout msg e =>
      cases h
      exact ⟨fs, ⟨⟨[], rfl, by simp, by simp⟩, by simp⟩, ha₁⟩
    | closed =>
      cases h
      exact ⟨[], ⟨⟨[], rfl, by simp, by simp⟩, by simp⟩, ha₁⟩
    | frame f =>
      obtain ⟨b, data, hbytes⟩ := List.exists_cons_of_ne_nil f.ne_nil
      rw [hbytes] at h
      dsimp only at h
      rw [← hbytes] at h
      split at h
      · cases h
        exact ⟨rest, ⟨⟨[f], rfl, by simp, by simp⟩, by simp⟩, ha₁⟩
      next response hparse =>
      have hreturn : Waited (n + 1) (f :: rest)
          (.ok (some response) : Except (Exc ε) (Option ModbusTcpResponse)) rest :=
        ⟨⟨[f], rfl, by simp, fun q hq => ⟨f, rfl, by cases hq; exact hparse⟩⟩, by simp⟩
      split at h
      · cases h
        exact ⟨rest, hreturn, ha₁⟩
      split_ifs at h
      · cases h
        exact ⟨rest, hreturn, ha₁⟩
      · obtain ⟨rest', ⟨⟨taken, rfl, hlen, hlast⟩, hclosed⟩, ha'⟩ := ih ha₁ h
        refine ⟨rest', ⟨⟨f :: taken, rfl, by simpa using hlen, fun q hq => ?_⟩, hclosed⟩, ha'⟩
        obtain ⟨g, hg, hq⟩ := hlast q hq
        exact ⟨g, by rw [List.getLast?_cons, hg]; rfl, hq⟩

/-- Every outcome of a run over an aligned stream is explained by the frames. -/
theorem Calls.explained {os : List (Outcome ε)} (h : Calls as os as')
    (ha : Aligned frames fs as) : ∃ rest, Explains fs os rest ∧ Aligned frames rest as' := by
  induction h generalizing fs with
  | done as => exact ⟨fs, .done fs, ha⟩
  | receive hf h next ih =>
    obtain ⟨r₁, as₁, rest, hr, hrec, ha₁⟩ := receive_aligned hf ha
    cases hr.symm.trans h
    obtain ⟨rest', hexp, ha'⟩ := ih ha₁
    exact ⟨rest', .received hrec hexp, ha'⟩
  | wait h next ih =>
    obtain ⟨rest, hw, ha₁⟩ := waitLoop_aligned ha h
    obtain ⟨rest', hexp, ha'⟩ := ih ha₁
    exact ⟨rest', .waited hw hexp, ha'⟩

end Aligned

/-! ### What the outcomes carry -/

section Explains

variable {ε : Type} {fs rest : List TcpFrame} {os : List (Outcome ε)}

theorem Received.suffix {r : Except (Exc ε) Bytes} (h : Received fs r rest) : rest <:+ fs := by
  cases h with
  | timeout => exact List.suffix_rfl
  | closed => exact List.suffix_rfl
  | frame f => exact List.suffix_cons f rest

theorem Waited.suffix {n : ℕ} {r : Except (Exc ε) (Option ModbusTcpResponse)}
    (h : Waited n fs r rest) : rest <:+ fs :=
  let ⟨taken, hfs, _⟩ := h.takes
  ⟨taken, hfs.symm⟩

theorem Explains.message (h : Explains fs os rest) {m : Bytes} (hm : m ≠ [])
    (hmem : .received (.ok m) ∈ os) : ∃ f ∈ fs, f.bytes = m := by
  induction h with
  | done => cases hmem
  | received hrec _ ih =>
    rcases List.mem_cons.mp hmem with heq | hmem
    · cases heq
      cases hrec with
      | closed => exact absurd rfl hm
      | frame f => exact ⟨f, List.mem_cons_self, rfl⟩
    · obtain ⟨f, hf, heq⟩ := ih hmem
      exact ⟨f, hrec.suffix.subset hf, heq⟩
  | waited hw _ ih =>
    obtain ⟨f, hf, heq⟩ := ih ((List.mem_cons.mp hmem).resolve_left nofun)
    exact ⟨f, hw.suffix.subset hf, heq⟩

theorem Explains.response (h : Explains fs os rest) {response : ModbusTcpResponse}
    (hmem : .waited (.ok (some response)) ∈ os) :
    ∃ f ∈ fs, ModbusTcpResponse.deserialize f.bytes = .ok response := by
  induction h with
  | done => cases hmem
  | received hrec _ ih =>
    obtain ⟨f, hf, heq⟩ := ih ((List.mem_cons.mp hmem).resolve_left nofun)
    exact ⟨f, hrec.suffix.subset hf, heq⟩
  | waited hw _ ih =>
    rcases List.mem_cons.mp hmem with heq | hmem
    · cases heq
      obtain ⟨taken, rfl, -, hlast⟩ := hw.takes
      obtain ⟨f, hf, heq⟩ := hlast response rfl
      exact ⟨f, List.mem_append_left _ (List.mem_of_getLast? hf), heq⟩
    · obtain ⟨f, hf, heq⟩ := ih hmem
      exact ⟨f, hw.suffix.subset hf, heq⟩

end Explains

/-- In every run over a stream of frames whose timeouts all come between two frames, however
the frames are cut into segments: the calls take the frames whole and in order, every
message is one of them, and the stream stands at a frame when the run ends. -/
theorem calls_keep_frames {ε : Type} (frames : List TcpFrame)
    {as as' : List (Source.Arrival ε)} {os : List (Outcome ε)}
    (hs : Source.Arrival.unread as = sent frames)
    (htimeouts : Source.Arrival.RaisesWhere (Boundary frames) as) (hrun : Calls as os as') :
    (∃ rest, Explains frames os rest ∧ rest <:+ frames ∧ Source.Arrival.unread as' = sent rest) ∧
      (∀ m, m ≠ [] → .received (.ok m) ∈ os → ∃ f ∈ frames, f.bytes = m) ∧
      ∀ response, .waited (.ok (some response)) ∈ os →
        ∃ f ∈ frames, ModbusTcpResponse.deserialize f.bytes = .ok response := by
  obtain ⟨rest, hexp, ha⟩ := hrun.explained ⟨List.suffix_rfl, hs, htimeouts⟩
  exact ⟨⟨rest, hexp, ha.suffix, ha.unread⟩, fun m => hexp.message, fun q => hexp.response⟩

def answers : List TcpFrame :=
  [⟨[0, 1, 0, 0, 0, 5, 1, 3, 2, 0, 42], by decide, by decide⟩,
    ⟨[0, 2, 0, 0, 0, 5, 1, 3, 2, 0, 43], by decide, by decide⟩]

/-- The first answer in two segments, a timeout, and the second. -/
def lateArrivals : List (Source.Arrival Unit) :=
  [.segment [0, 1, 0, 0], .segment [0, 5, 1, 3, 2, 0, 42], .raise (),
    .segment [0, 2, 0, 0, 0, 5, 1, 3, 2, 0, 43]]

theorem calls_keep_frames_late :
    ∃ rest, Explains answers
        [.received (.ok [0, 1, 0, 0, 0, 5, 1, 3, 2, 0, 42]),
          .received (.error (.network "Error receiving Modbus message: " (some ())))] rest ∧
      rest <:+ answers ∧ sent rest = [0, 2, 0, 0, 0, 5, 1, 3, 2, 0, 43] := by
  have hfirst : ModbusTcpStream.receive (.arriving Unit) 0 lateArrivals =
      some (.ok [0, 1, 0, 0, 0, 5, 1, 3, 2, 0, 42],
        [.segment [], .raise (), .segment [0, 2, 0, 0, 0, 5, 1, 3, 2, 0, 43]]) := by
    decide +kernel
  have hrun : Calls lateArrivals
      [.received (.ok [0, 1, 0, 0, 0, 5, 1, 3, 2, 0, 42]),
        .received (.error (.network "Error receiving Modbus message: " (some ())))]
      [.segment [0, 2, 0, 0, 0, 5, 1, 3, 2, 0, 43]] :=
    .receive (le_refl 0) hfirst (.receive (le_refl 0) (by decide +kernel) (.done _))
  have hs : Source.Arrival.unread lateArrivals = sent answers := rfl
  have hbetween : Source.Arrival.RaisesWhere (Boundary answers) lateArrivals :=
    ⟨⟨answers.drop 1, by decide, rfl⟩, trivial⟩
  obtain ⟨⟨rest, hexp, hsuffix, hs⟩, -⟩ := calls_keep_frames answers hs hbetween hrun
  exact ⟨rest, hexp, hsuffix, hs.symm⟩

/-- The first answer's header, a timeout, and the rest of both answers. -/
def tornArrivals : List (Source.Arrival Unit) :=
  [.segment [0, 1, 0, 0, 0, 5, 1], .raise (),
    .segment [3, 2, 0, 42, 0, 2, 0, 0, 0, 5, 1, 3, 2, 0, 43]]

/-- The header taken before the timeout is lost, and the next call reads a header that
starts in the first answer and ends in the second. -/
theorem calls_tear_frames : Source.Arrival.unread tornArrivals = sent answers ∧
    ¬ ∀ os as', Calls tornArrivals os as' →
      ∀ m, m ≠ [] → .received (.ok m) ∈ os → ∃ f ∈ answers, f.bytes = m := by
  refine ⟨rfl, fun h => ?_⟩
  have hfirst : ModbusTcpStream.receive (.arriving Unit) 0 tornArrivals =
      some (.error (.network "Error receiving Modbus message: " (some ())),
        [.segment [3, 2, 0, 42, 0, 2, 0, 0, 0, 5, 1, 3, 2, 0, 43]]) := by
    decide +kernel
  have hrun : Calls tornArrivals
      [.received (.error (.network "Error receiving Modbus message: " (some ()))),
        .received (.ok [3, 2, 0, 42, 0, 2, 0, 0])] [.segment [0, 5, 1, 3, 2, 0, 43]] :=
    .receive (le_refl 0) hfirst (.receive (le_refl 0) (by decide +kernel) (.done _))
  obtain ⟨f, hf, heq⟩ := h _ _ hrun [3, 2, 0, 42, 0, 2, 0, 0] (by decide) (by simp)
  revert heq
  revert f
  decide

end Pyomb
