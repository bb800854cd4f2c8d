import Pyomb.Transport.RtuReceive

/-! Sending over the RTU stream. Where the transceiver echoes, `send` reads back as many
bytes as it wrote. An echo that stands at the head of the line is taken and nothing behind
it; anything else is a failed exchange, and then the line is read off to the silence and
the buffer dropped, so that nothing of it is left for a later `receive`. -/

namespace Pyomb

def hex (data : Bytes) : String :=
  String.ofList (data.flatMap fun b => [Nat.digitChar (b.toNat / 16), Nat.digitChar (b.toNat % 16)])

/-- A port that is also written to. What a write leaves to be read, be it an echo, a reply
or nothing, is up to the port. -/
structure BytePort (ε σ : Type) extends Source (PortError ε) σ where
  write : σ → Bytes → Except ε ℕ × σ

namespace ModbusRtuStream

variable {ε σ : Type}

section Send

variable (port : Source (PortError ε) σ)

def readExactly (pending : ℕ) (got : Bytes) (s : ModbusRtuStream σ) :
    Except (Exc ε) Bytes × ModbusRtuStream σ :=
  if 0 < pending then
    match read port pending s with
    | (.error e, s') => (.error e, s')
    | (.ok [], s') => (.ok got, s')
    | (.ok (b :: c), s') => readExactly (pending - (b :: c).length) (got ++ b :: c) s'
  else (.ok got, s)
termination_by pending
decreasing_by simp only [List.length_cons]; omega

theorem unread_lt {size : ℕ} {s s' : ModbusRtuStream σ} {b : UInt8} {c : Bytes}
    (h : read port size s = (.ok (b :: c), s')) :
    (port.unread s'.port).length < (port.unread s.port).length := by
  rw [(read_ok port h).2.1, List.length_append, List.length_cons]
  omega

def readOff (s : ModbusRtuStream σ) : Except (Exc ε) Unit × ModbusRtuStream σ :=
  match h : read port maxRtuFrame s with
  | (.error e, s') => (.error e, s')
  | (.ok [], s') => (.ok (), s')
  | (.ok (_ :: _), s') =>
    have := unread_lt port h
    readOff s'
termination_by (port.unread s.port).length

def drain (s : ModbusRtuStream σ) : Except (Exc ε) Unit × ModbusRtuStream σ :=
  match readOff port s with
  | (.error e, s') => (.error e, s')
  | (.ok (), s') => (.ok (), { s' with buffer := [] })

end Send

/-- `send`. `echo` is a setting of the stream that nothing else reads. -/
def send (port : BytePort ε σ) (echo : Bool) (message : Bytes) (s : ModbusRtuStream σ) :
    Except (Exc ε) Unit × ModbusRtuStream σ :=
  match port.write s.port message with
  | (.error e, p) =>
    (.error (.network "Error writing to the port: " (some e)), { s with port := p })
  | (.ok written, p) =>
    if written ≠ message.length then
      (.error (.network ("The port wrote " ++ toString written ++ " of " ++
        toString message.length ++ " byte(s)") none), { s with port := p })
    else if echo = false then (.ok (), { s with port := p })
    else
      match readExactly port.toSource message.length [] { s with port := p } with
      | (.error e, s') => (.error e, s')
      | (.ok heard, s') =>
        if heard ≠ message then
          match drain port.toSource s' with
          | (.error e, s'') => (.error e, s'')
          | (.ok (), s'') =>
            (.error (.network ("The port read back " ++ hex heard ++
              " where the frame written was " ++ hex message ++
              ": a bus collision, or a stale reply ahead of the echo") none), s'')
        else (.ok (), s')

/-! ### A line that goes quiet -/

section Quiet

variable {port : Source (PortError ε) σ}

/-- However the line is cut up, as many bytes are read as were asked for, or all there are. -/
theorem readExactly_quiet {s : ModbusRtuStream σ} (hq : port.GoesQuiet s.port) (n : ℕ)
    (got : Bytes) : ∃ p, readExactly port n got s =
        (.ok (got ++ (port.unread s.port).take n), { s with port := p }) ∧
      port.unread p = (port.unread s.port).drop n ∧ port.GoesQuiet p := by
  induction n using Nat.strong_induction_on generalizing got s with
  | _ n ih =>
    rcases n.eq_zero_or_pos with rfl | hn
    · refine ⟨s.port, ?_, rfl, hq⟩
      rw [readExactly, if_neg (lt_irrefl 0), List.take_zero, List.append_nil]
    obtain ⟨c, s', hr, hq', -⟩ := read_quiet hq hn
    obtain ⟨hs', hcat, hle⟩ := read_ok port hr
    obtain ⟨p, rfl⟩ : ∃ p, s' = { s with port := p } := ⟨_, hs'⟩
    rw [readExactly, if_pos hn, hr]
    rcases c with _ | ⟨b, c⟩
    · obtain ⟨hnone, hlast⟩ := (quiet_of_read hq hn hr).2 rfl
      rw [hnone, List.take_nil, List.drop_nil, List.append_nil]
      exact ⟨p, rfl, hlast, hq'⟩
    · obtain ⟨q, hq, hrest, hquiet⟩ := ih (n - (b :: c).length)
        (by rw [List.length_cons]; omega) hq' (got ++ b :: c)
      refine ⟨q, ?_, ?_, hquiet⟩
      · dsimp only
        rw [hq, hcat, List.take_append, List.take_of_length_le hle, List.append_assoc]
      · rw [hrest, hcat, List.drop_append, List.drop_of_length_le hle, List.nil_append]

theorem readOff_quiet {s : ModbusRtuStream σ} (hq : port.GoesQuiet s.port) :
    ∃ p, readOff port s = (.ok (), { s with port := p }) ∧ port.unread p = [] := by
  have hmax : 0 < maxRtuFrame := by decide
  fun_induction readOff port s with
  | case1 s e s' hr => exact absurd hr (not_error_of_quiet hq hmax)
  | case2 s s' hr =>
    exact ⟨s'.port, Prod.ext rfl (read_ok port hr).1, ((quiet_of_read hq hmax hr).2 rfl).2⟩
  | case3 s b c s' hr _ ih =>
    obtain ⟨p, hp, hnil⟩ := ih (quiet_of_read hq hmax hr).1
    refine ⟨p, ?_, hnil⟩
    rw [hp, (read_ok port hr).1]

end Quiet

/-- An echo is taken exactly, or everything is dropped. -/
theorem send_echo {port : BytePort ε σ} {message : Bytes} {s : ModbusRtuStream σ} {p : σ}
    (hw : port.write s.port message = (.ok message.length, p)) (hq : port.GoesQuiet p) :
    (message <+: port.unread p →
      ∃ s', send port true message s = (.ok (), s') ∧ s'.buffer = s.buffer ∧
        port.unread p = message ++ port.unread s'.port) ∧
    (¬ message <+: port.unread p →
      ∃ text s', send port true message s = (.error (.network text none), s') ∧
        port.unread s'.port = [] ∧ s'.buffer = [] ∧
        ∀ frame s'', receive port.toSource s' ≠ (.ok frame, s'')) := by
  obtain ⟨q, hread, hrest, hquiet⟩ :=
    readExactly_quiet (s := { s with port := p }) hq message.length []
  dsimp only at hread hrest
  rw [List.nil_append] at hread
  refine ⟨fun hecho => ?_, fun hno => ?_⟩
  · have hheard : (port.unread p).take message.length = message :=
      (List.prefix_iff_eq_take.mp hecho).symm
    refine ⟨{ s with port := q }, ?_, rfl, ?_⟩
    · simp [send, hw, hread, hheard]
    · calc port.unread p
        _ = (port.unread p).take message.length ++ (port.unread p).drop message.length :=
          (List.take_append_drop _ _).symm
        _ = message ++ port.unread q := by rw [hheard, hrest]
  · have hheard : (port.unread p).take message.length ≠ message := fun h =>
      hno (h ▸ List.take_prefix _ _)
    obtain ⟨q', hoff, hnil⟩ := readOff_quiet (s := { s with port := q }) hquiet
    obtain ⟨text, hsend⟩ : ∃ text, send port true message s =
        (.error (.network text none), { s with port := q', buffer := [] }) := by
      unfold send drain
      simp only [hw, hread, hoff, ne_eq, hheard, not_true, not_false_iff, if_true, if_false,
        reduceCtorEq]
      exact ⟨_, rfl⟩
    refine ⟨text, _, hsend, hnil, rfl, fun frame s'' hreceive => ?_⟩
    have hlt := total_receive port.toSource hreceive
    have hnone : total port.toSource { s with port := q', buffer := [] } = 0 := by
      rw [total, hnil]
      rfl
    rw [hnone] at hlt
    exact absurd hlt (Nat.not_lt_zero _)

/-- A line that echoes what is written, in two pieces behind what waits on it already. -/
def echoing : BytePort Empty (List (Source.Arrival (PortError Empty))) where
  toSource := Source.arriving (PortError Empty)
  write as d := (.ok d.length, as ++ [.segment (d.take 1), .segment (d.drop 1)])

/-- A poll is taken back where it is all there is on the line, and dropped together with a
stale byte ahead of it. -/
theorem send_echo_poll :
    (∃ s', send echoing true [7, 7, 0x42, 0x42] ⟨[], .response, [9], 0, 0⟩ = (.ok (), s') ∧
      s'.buffer = [9] ∧ [7, 7, 0x42, 0x42] = [7, 7, 0x42, 0x42] ++ echoing.unread s'.port) ∧
    ∃ text s', send echoing true [7, 7, 0x42, 0x42] ⟨[.segment [7]], .response, [9], 0, 0⟩ =
        (.error (.network text none), s') ∧ echoing.unread s'.port = [] ∧ s'.buffer = [] ∧
      ∀ frame s'', receive echoing.toSource s' ≠ (.ok frame, s'') := by
  have hclear : echoing.GoesQuiet [.segment [7], .segment [7, 0x42, 0x42]] :=
    Source.goesQuiet_arriving trivial
  have hstale : echoing.GoesQuiet [.segment [7], .segment [7], .segment [7, 0x42, 0x42]] :=
    Source.goesQuiet_arriving trivial
  exact ⟨(send_echo rfl hclear).1 (by decide), (send_echo rfl hstale).2 (by decide)⟩

end ModbusRtuStream

end Pyomb
