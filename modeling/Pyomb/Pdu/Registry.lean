import Pyomb.Pdu.RoundTrip
import Pyomb.Runs
import Mathlib.Logic.Function.Basic

/-! The registry as it is changed while the program runs. A parser class refers to a dict; a
subclass without an attribute of its own reads the one of the class it derives from, in the end
that of `ModbusPduParser`, so what is registered through one is found by all. Whatever has been registered, taken out and set, the
parsers lose no byte of what they accept: a class that is not registered leaves its PDUs to the
generic one. -/

namespace Pyomb

open ModbusPduParser

/-- What a dict of PDU classes holds. -/
abbrev Registry := ℕ → Option PduClass

namespace Registry

/-- What the library registers on import. -/
def onImport : Registry := fun pduId => registry.find? fun c => c.layout.pduId = pduId

def get (r : Registry) (pduId : ℕ) : PduClass := (r pduId).getD .modbusPdu

def parseRequest (r : Registry) (stream : Bytes) : Except PacketError Pdu :=
  match stream with
  | [] => .error (.ofStruct "Error parsing the Modbus Request: " (.bufferSize 1 0))
  | funcCode :: _ => (r.get funcCode.toNat).deserialize stream

def parseResponse (r : Registry) (stream : Bytes) : Except PacketError Pdu :=
  match stream with
  | [] => .error (.ofStruct "Error parsing the Modbus Response: " (.bufferSize 1 0))
  | funcCode :: _ =>
    if 0x80 ≤ funcCode.toNat then
      match PduClass.modbusError.deserialize stream with
      | .error e => .error (.under "Error parsing the Modbus Response: " e)
      | .ok pdu => pdu.cls.deserialize stream
    else (r.get (funcCode.toNat + 0x8000)).deserialize stream

/-- The parser over the registry of the import is the one the frames are parsed with. -/
theorem parse_onImport : onImport.parseRequest = ModbusPduParser.parseRequest ∧
    onImport.parseResponse = ModbusPduParser.parseResponse := ⟨rfl, rfl⟩

/-- The dispatch that the messages of a class are meant for. -/
def parse (r : Registry) (c : PduClass) : Bytes → Except PacketError Pdu :=
  if c.isRequest then r.parseRequest else r.parseResponse

/-! ### Registries in order -/

def Keyed (r : Registry) : Prop := ∀ pduId c, r pduId = some c → c.layout.pduId = pduId

theorem keyed_onImport : onImport.Keyed := by
  intro pduId c h
  simpa using List.find?_some h

theorem keyed_empty : Keyed fun _ => none := fun _ _ h => by cases h

theorem Keyed.update {r : Registry} (h : r.Keyed) (c : PduClass) :
    Keyed (Function.update r c.layout.pduId (some c)) := by
  intro pduId d hd
  by_cases heq : pduId = c.layout.pduId
  · subst heq
    rw [Function.update_self, Option.some.injEq] at hd
    rw [← hd]
  · rw [Function.update_of_ne heq] at hd
    exact h pduId d hd

theorem Keyed.erase {r : Registry} (h : r.Keyed) (pduId : ℕ) :
    Keyed (Function.update r pduId none) := by
  intro n d hd
  by_cases heq : n = pduId
  · subst heq
    rw [Function.update_self] at hd
    cases hd
  · rw [Function.update_of_ne heq] at hd
    exact h n d hd

/-- The classes of a function code: not the error PDU, nor the generic one. -/
def Modelled (c : PduClass) : Prop := c ≠ .modbusError ∧ c ≠ .modbusPdu

instance : DecidablePred Modelled := fun _ => inferInstanceAs (Decidable (_ ∧ _))

theorem pduId_of_modelled {c : PduClass} (h : Modelled c) : c.layout.fc < 0x80 ∧
    c.layout.pduId = if c.isRequest then c.layout.fc else c.layout.fc + 0x8000 := by
  revert h
  cases c <;> decide

theorem pduId_inj {c d : PduClass} (h : Modelled c) (heq : d.layout.pduId = c.layout.pduId) :
    d = c := by
  revert h heq
  cases c <;> cases d <;> decide

theorem Keyed.pduId_get {r : Registry} (h : r.Keyed) {pduId : ℕ} (hget : r.get pduId ≠ .modbusPdu) :
    (r.get pduId).layout.pduId = pduId := by
  unfold get at hget ⊢
  cases hr : r pduId with
  | none => simp [hr] at hget
  | some c => simpa using h pduId c hr

theorem Keyed.wireFc {r : Registry} (h : r.Keyed) {b : UInt8} {rest : Bytes} {pduId : ℕ}
    (hid : pduId = b.toNat ∨ pduId = b.toNat + 0x8000) {p : Pdu}
    (hp : (r.get pduId).deserialize (b :: rest) = .ok p) : p.wireFc = b.toNat := by
  apply wireFc_of_deserialize hp
  by_cases hmodelled : Modelled (r.get pduId)
  · have hkey := h.pduId_get hmodelled.2
    have hfc := pduId_of_modelled hmodelled
    have := b.toNat_lt
    refine .inr (.inr ?_)
    split_ifs at hfc <;> omega
  · unfold Modelled at hmodelled
    tauto

/-! ### Encoding again -/

/-- What a registry in order makes of a request encodes to the bytes it was read from. -/
theorem Keyed.serialize_request {r : Registry} (h : r.Keyed) {s : Bytes} {p : Pdu}
    (hp : r.parseRequest s = .ok p) : p.serialize = .ok s := by
  cases s with
  | nil => simp [parseRequest] at hp
  | cons b rest =>
    have hcls : p.cls = r.get b.toNat := PduClass.cls_of_deserialize hp
    have hlow (c : PduClass) (hc : 0x8000 ≤ c.layout.pduId) (hgeneric : c ≠ .modbusPdu) :
        p.cls ≠ c := by
      intro heq
      have hget : r.get b.toNat ≠ .modbusPdu := by rwa [← hcls, heq]
      have hkey := h.pduId_get hget
      have := b.toNat_lt
      rw [← hcls, heq] at hkey
      omega
    exact (PduClass.serialize_of_deserialize hp (h.wireFc (.inl rfl) hp)).mpr
      (p.serializeCount_eq (hlow _ (by decide) (by decide)) (hlow _ (by decide) (by decide)))

theorem parseResponse_of_error {r : Registry} {b : UInt8} (hb : 0x80 ≤ b.toNat) (rest : Bytes) :
    r.parseResponse (b :: rest) = ModbusPduParser.parseResponse (b :: rest) :=
  (if_pos hb).trans (if_pos hb).symm

/-- A bit response is one whose function code is 1 or 2. -/
theorem Keyed.bitResponse_iff {r : Registry} (h : r.Keyed) {b : UInt8}
    (hget : r.get (b.toNat + 0x8000) ≠ .modbusPdu) :
    (r.get (b.toNat + 0x8000) = .modbusResponseFC1 ∨
      r.get (b.toNat + 0x8000) = .modbusResponseFC2) ↔ b = 1 ∨ b = 2 := by
  have hkey := h.pduId_get hget
  constructor
  · rintro (hc | hc) <;> rw [hc] at hkey
    · change 1 + 0x8000 = _ at hkey
      exact .inl (UInt8.toNat_inj.mp (Nat.add_right_cancel hkey).symm)
    · change 2 + 0x8000 = _ at hkey
      exact .inr (UInt8.toNat_inj.mp (Nat.add_right_cancel hkey).symm)
  · rintro (rfl | rfl)
    · exact .inl (pduId_inj (by decide) hkey)
    · exact .inr (pduId_inj (by decide) hkey)

/-- So does what it makes of a response, but for a bit response whose count field lies; the
generic class, where the bit responses are not registered, reads no count field. -/
theorem Keyed.serialize_response {r : Registry} (h : r.Keyed) {s : Bytes} {p : Pdu}
    (hp : r.parseResponse s = .ok p) :
    p.serialize = .ok s ↔ ¬ (BitCountLies s ∧ p.cls ≠ .modbusPdu) := by
  cases s with
  | nil => simp [parseResponse] at hp
  | cons b rest =>
    have hlies : BitCountLies (b :: rest) → b = 1 ∨ b = 2 := by
      cases rest with
      | nil => exact fun hl => hl.elim
      | cons n status => exact fun hl => hl.1
    by_cases hb : 0x80 ≤ b.toNat
    · have hnot : ¬ BitCountLies (b :: rest) := by
        intro hl
        rcases hlies hl with rfl | rfl <;> simp at hb
      rw [parseResponse_of_error hb] at hp
      simp [serialize_parseResponse hp, hnot]
    · have hd : (r.get (b.toNat + 0x8000)).deserialize (b :: rest) = .ok p := by
        rwa [parseResponse, if_neg hb] at hp
      have hcls := PduClass.cls_of_deserialize hd
      rw [PduClass.serialize_of_deserialize hd (h.wireFc (.inr rfl) hd), hcls]
      by_cases hbit : p.cls = .modbusResponseFC1 ∨ p.cls = .modbusResponseFC2
      · rw [hcls] at hbit
        have hgeneric : r.get (b.toNat + 0x8000) ≠ .modbusPdu := by
          rcases hbit with hc | hc <;> rw [hc] <;> decide
        rw [bitCountLies_iff hbit ((h.bitResponse_iff hgeneric).mp hbit) hd]
        simp [hgeneric]
      · have hcount := p.serializeCount_eq (fun hc => hbit (.inl hc)) (fun hc => hbit (.inr hc))
        rw [hcls] at hbit
        refine iff_of_true hcount fun hl => hbit ?_
        exact (h.bitResponse_iff hl.2).mpr (hlies hl.1)

/-! ### Decoding again -/

theorem wireFc_of_modelled {p : Pdu} (h : Modelled p.cls) : p.wireFc = p.cls.layout.fc := by
  obtain ⟨herror, hgeneric⟩ := h
  cases p <;> first | rfl | exact absurd rfl herror | exact absurd rfl hgeneric

theorem parse_eq {r : Registry} {p : Pdu} (hp : Modelled p.cls) {s : Bytes}
    (hs : p.serialize = .ok s) :
    r.parse p.cls s = (r.get p.cls.layout.pduId).deserialize s := by
  obtain ⟨b, rest, rfl, hb⟩ := serialize_head hs
  obtain ⟨hfc, hid⟩ := pduId_of_modelled hp
  rw [wireFc_of_modelled hp, Int.ofNat_inj] at hb
  rw [hid, hb]
  by_cases hrequest : p.cls.isRequest
  · rw [parse, if_pos hrequest, if_pos hrequest, parseRequest]
  · rw [parse, if_neg hrequest, if_neg hrequest, parseResponse, if_neg (by omega)]

/-- The PDU of a class of a function code is decoded by that class where it is registered, and
by the generic one where it is not, which keeps its bytes. -/
theorem Keyed.parse_serialize {r : Registry} (h : r.Keyed) {p : Pdu} (hp : Modelled p.cls)
    {s : Bytes} (hs : p.serialize = .ok s) :
    ∃ q, r.parse p.cls s = .ok q ∧ q.serialize = .ok s ∧
      (q = p ↔ r p.cls.layout.pduId = some p.cls) ∧ (q ≠ p → q.cls = .modbusPdu) := by
  have hparse := parse_eq (r := r) hp hs
  cases hr : r p.cls.layout.pduId with
  | some c =>
    obtain rfl : c = p.cls := pduId_inj hp (h _ c hr)
    rw [get, hr, Option.getD_some] at hparse
    exact ⟨p, hparse.trans (Pdu.deserialize_serialize hs), hs, by simp, fun hne => absurd rfl hne⟩
  | none =>
    rw [get, hr, Option.getD_none] at hparse
    obtain ⟨b, rest, rfl, -⟩ := serialize_head hs
    obtain ⟨q, hq⟩ := PduClass.deserialize_modbusPdu (List.cons_ne_nil b rest)
    have hcls := PduClass.cls_of_deserialize hq
    have hne : q ≠ p := fun heq => hp.2 (heq ▸ hcls)
    have hgot := hparse.trans hq
    refine ⟨q, hgot, ?_, by simp [hne], fun _ => hcls⟩
    unfold parse at hgot
    split_ifs at hgot
    · exact h.serialize_request hgot
    · exact (h.serialize_response hgot).mpr fun hl => hl.2 hcls

end Registry

/-! ### The parser classes -/

/-- The dicts there are, the one that `ModbusPduParser` refers to, those that its subclasses
have been given of their own, and for each subclass the ones between it and `ModbusPduParser`
in its method resolution order. -/
structure Parsers (P D : Type) where
  dicts : D → Registry
  base : D
  own : P → Option D
  bases : P → List P

namespace Parsers

/-- The methods that change a dict in place; an argument that is no subclass of `ModbusPdu` is
`none`. -/
inductive Change where
  | register (pduClass : Option PduClass)
  | unregister (pduClass : Option PduClass)
  | clearRegistry
  deriving DecidableEq

inductive Refusal where
  | packet (e : PacketError)
  | keyError (pduId : ℕ)
  deriving DecidableEq

def Change.effect (r : Registry) : Change → Except Refusal Registry
  | .register (some c) => .ok (Function.update r c.layout.pduId (some c))
  | .unregister (some c) =>
    if r c.layout.pduId = none then .error (.keyError c.layout.pduId)
    else .ok (Function.update r c.layout.pduId none)
  | .register none | .unregister none =>
    .error (.packet (.say "The class must be a subclass of ModbusPdu"))
  | .clearRegistry => .ok fun _ => none

theorem Change.keyed {c : Change} {r r' : Registry} (h : r.Keyed) (hr : c.effect r = .ok r') :
    r'.Keyed := by
  unfold effect at hr
  split at hr
  · cases hr
    exact h.update _
  · split_ifs at hr
    cases hr
    exact h.erase _
  · cases hr
  · cases hr
  · cases hr
    exact Registry.keyed_empty

inductive Call (D : Type) where
  | change (c : Change)
  | setRegistry (dict : D)
  deriving DecidableEq

variable {P D : Type}

/-- The dict that `cls._registry` is: the attribute of the class, or of the first it derives
from that has one. `none` stands for `ModbusPduParser`, which has one always. -/
def registryOf (w : Parsers P D) : Option P → D
  | none => w.base
  | some p => ((p :: w.bases p).findSome? w.own).getD w.base

def getRegistry (w : Parsers P D) (parser : Option P) : Registry := w.dicts (w.registryOf parser)

section Calls

variable [DecidableEq P] [DecidableEq D] {w w' : Parsers P D}

def put (w : Parsers P D) (dict : D) (r : Registry) : Parsers P D :=
  { w with dicts := Function.update w.dicts dict r }

def setRegistry (w : Parsers P D) (dict : D) : Option P → Parsers P D
  | none => { w with base := dict }
  | some p => { w with own := Function.update w.own p (some dict) }

def call (w : Parsers P D) (parser : Option P) : Call D → Except Refusal (Parsers P D)
  | .change c => (c.effect (w.getRegistry parser)).map (w.put (w.registryOf parser))
  | .setRegistry dict => .ok (w.setRegistry dict parser)

/-- Calls of any of the parsers, and changes that other code makes to a dict it holds, which are
taken to leave it in order. -/
inductive Step : Parsers P D → Parsers P D → Prop
  | call {w w' : Parsers P D} (parser : Option P) (c : Call D) (h : w.call parser c = .ok w') :
      Step w w'
  | put {w : Parsers P D} (dict : D) (r : Registry) (h : r.Keyed) : Step w (w.put dict r)

def Ordered (w : Parsers P D) : Prop := ∀ dict, (w.dicts dict).Keyed

def Reachable (w : Parsers P D) : Prop :=
  ∃ start : Parsers P D, start.getRegistry none = Registry.onImport ∧ (∀ p, start.own p = none) ∧
    start.Ordered ∧ Relation.ReflTransGen Step start w

omit [DecidableEq P] in
theorem Ordered.put (h : w.Ordered) {dict : D} {r : Registry} (hr : r.Keyed) :
    (w.put dict r).Ordered := by
  intro other
  by_cases heq : other = dict
  · subst heq
    simpa [Parsers.put] using hr
  · simpa [Parsers.put, Function.update_of_ne heq] using h other

theorem Ordered.step (h : w.Ordered) (hstep : Step w w') : w'.Ordered := by
  cases hstep with
  | put dict r hr => exact h.put hr
  | call parser c hcall =>
    cases c with
    | change c =>
      cases hr : c.effect (w.getRegistry parser) with
      | error e => simp [call, hr, Except.map] at hcall
      | ok r =>
        simp only [call, hr, Except.map] at hcall
        cases hcall
        exact h.put (Change.keyed (h _) hr)
    | setRegistry dict =>
      cases hcall
      cases parser <;> exact h

theorem Reachable.keyed (h : Reachable w) (parser : Option P) : (w.getRegistry parser).Keyed := by
  obtain ⟨start, -, -, hstart, hrun⟩ := h
  have hordered : w.Ordered :=
    invariant_of_run (fun (v v' : Parsers P D) (hv : v.Ordered) hstep => hv.step hstep) hstart hrun
  exact hordered _

/-- Whichever classes of the library have been registered, taken out, cleared and set, through
whichever parser classes, no byte is lost: what a parser accepts encodes to the bytes it was read
from, but for a bit response that lies about its count; and what a PDU encodes to is decoded to
that PDU where its class is registered, and elsewhere to a generic one with the same bytes. -/
theorem parsers_reencode (h : Reachable w) (parser : Option P) :
    (∀ s p, (w.getRegistry parser).parseRequest s = .ok p → p.serialize = .ok s) ∧
    (∀ s p, (w.getRegistry parser).parseResponse s = .ok p →
      (p.serialize = .ok s ↔ ¬ (BitCountLies s ∧ p.cls ≠ .modbusPdu))) ∧
    ∀ p s, Registry.Modelled p.cls → p.serialize = .ok s →
      ∃ q, (w.getRegistry parser).parse p.cls s = .ok q ∧ q.serialize = .ok s ∧
        (q = p ↔ w.getRegistry parser p.cls.layout.pduId = some p.cls) ∧
        (q ≠ p → q.cls = .modbusPdu) := by
  have hkeyed := h.keyed parser
  exact ⟨fun s p hp => hkeyed.serialize_request hp, fun s p hp => hkeyed.serialize_response hp,
    fun p s hp hs => hkeyed.parse_serialize hp hs⟩

/-- `ModbusPduParser` as it is imported, a subclass, and an empty dict. -/
def imported : Parsers Unit Bool where
  dicts dict := if dict then fun _ => none else Registry.onImport
  base := false
  own _ := none
  bases _ := []

theorem imported_ordered : imported.Ordered := by
  intro dict
  cases dict
  · exact Registry.keyed_onImport
  · exact Registry.keyed_empty

/-- A read request that is no longer registered is decoded as a generic PDU. -/
theorem parsers_reencode_unregistered :
    ∃ q, ((imported.put false (Function.update Registry.onImport 3 none)).getRegistry none).parse
        .modbusRequestFC3 [3, 0, 1, 0, 2] = .ok q ∧
      q.serialize = .ok [3, 0, 1, 0, 2] ∧ q.cls = .modbusPdu := by
  have hcall : imported.call none (.change (.unregister (some .modbusRequestFC3))) =
      .ok (imported.put false (Function.update Registry.onImport 3 none)) := rfl
  have hreach : Reachable (imported.put false (Function.update Registry.onImport 3 none)) :=
    ⟨imported, rfl, fun _ => rfl, imported_ordered, .single (.call _ _ hcall)⟩
  obtain ⟨q, hparse, hserialize, hq, hgeneric⟩ := (parsers_reencode hreach none).2.2
    (.modbusRequestFC3 1 2) [3, 0, 1, 0, 2] (by decide) (by decide)
  refine ⟨q, hparse, hserialize, hgeneric fun heq => ?_⟩
  have hnone := hq.mp heq
  cases hnone

/-! ### A dict of its own -/

def Change.after (c : Change) (r : Registry) : Registry := (c.effect r).toOption.getD r

def next (w : Parsers P D) (c : Option P × Call D) : Parsers P D := (w.call c.1 c.2).toOption.getD w

/-- A program that goes on after a call that raises. -/
def run (w : Parsers P D) (calls : List (Option P × Call D)) : Parsers P D := calls.foldl next w

theorem next_change (w : Parsers P D) (parser : Option P) (c : Change) :
    w.next (parser, .change c) = w.put (w.registryOf parser) (c.after (w.getRegistry parser)) := by
  cases hr : c.effect (w.getRegistry parser) with
  | ok r => simp [next, call, Change.after, hr, Except.map, Except.toOption]
  | error e =>
    have hput : w.put (w.registryOf parser) (w.getRegistry parser) = w := by
      simp [put, getRegistry]
    simpa [next, call, Change.after, hr, Except.map, Except.toOption] using hput.symm

theorem next_setRegistry (w : Parsers P D) (parser : Option P) (dict : D) :
    w.next (parser, .setRegistry dict) = w.setRegistry dict parser := rfl

/-- A dict that a class has been given, and that no other class reads. -/
structure Apart (w : Parsers P D) (p : P) (dict : D) : Prop where
  own : w.own p = some dict
  other : ∀ q ≠ some p, w.registryOf q ≠ dict

/-- The call hands the dict to no class, nor gives the class another. -/
def Kept (p : P) (dict : D) (c : Option P × Call D) : Prop :=
  c.2 ≠ .setRegistry dict ∧ (c.1 = some p → ∀ other, c.2 ≠ .setRegistry other)

omit [DecidableEq D] in
/-- Where a class is given a dict, every class reads that one or what it read before. -/
theorem registryOf_setRegistry (w : Parsers P D) (dict : D) (parser q : Option P) :
    (w.setRegistry dict parser).registryOf q = dict ∨
      (w.setRegistry dict parser).registryOf q = w.registryOf q := by
  have hfind (p : P) (l : List P) : l.findSome? (Function.update w.own p (some dict)) = some dict ∨
      l.findSome? (Function.update w.own p (some dict)) = l.findSome? w.own := by
    induction l with
    | nil => exact .inr rfl
    | cons r l ih =>
      by_cases heq : r = p
      · subst heq
        exact .inl (by simp)
      · cases hown : w.own r with
        | some other => exact .inr (by simp [heq, hown])
        | none => simpa [heq, hown] using ih
  cases q with
  | none =>
    cases parser with
    | none => exact .inl rfl
    | some p => exact .inr rfl
  | some q =>
    cases parser with
    | none =>
      show ((q :: w.bases q).findSome? w.own).getD dict = dict ∨
        ((q :: w.bases q).findSome? w.own).getD dict = ((q :: w.bases q).findSome? w.own).getD w.base
      cases (q :: w.bases q).findSome? w.own with
      | none => exact .inl rfl
      | some other => exact .inr rfl
    | some p =>
      rcases hfind p (q :: w.bases q) with hfound | hsame
      · exact .inl (congrArg (Option.getD · w.base) hfound)
      · exact .inr (congrArg (Option.getD · w.base) hsame)

section Isolation

variable {p : P} {dict : D} {v : Parsers P D} {c : Option P × Call D}

omit [DecidableEq P] [DecidableEq D] in
theorem Apart.registryOf_self (h : w.Apart p dict) : w.registryOf (some p) = dict := by
  simp [registryOf, h.own]

theorem Apart.next (h : w.Apart p dict) (hc : Kept p dict c) : (w.next c).Apart p dict := by
  obtain ⟨parser, c⟩ := c
  cases c with
  | change c =>
    rw [next_change]
    exact ⟨h.own, h.other⟩
  | setRegistry other =>
    have hother : other ≠ dict := fun heq => hc.1 (heq ▸ rfl)
    rw [next_setRegistry]
    refine ⟨?_, fun q hq => ?_⟩
    · cases parser with
      | none => exact h.own
      | some q =>
        have hqp : p ≠ q := fun heq => hc.2 (heq ▸ rfl) other rfl
        exact (Function.update_of_ne hqp _ _).trans h.own
    · rcases registryOf_setRegistry w other parser q with heq | heq <;> rw [heq]
      · exact hother
      · exact h.other q hq

theorem Apart.dicts_next (h : w.Apart p dict) (hc : c.1 ≠ some p) :
    (w.next c).dicts dict = w.dicts dict := by
  obtain ⟨parser, c⟩ := c
  cases c with
  | change c =>
    rw [next_change]
    exact Function.update_of_ne (h.other _ hc).symm _ _
  | setRegistry other => cases parser <;> rfl

theorem Apart.next_self (h : w.Apart p dict) (hc : Kept p dict c) (hself : c.1 = some p) :
    ∃ change : Change, c.2 = .change change ∧
      w.next c = w.put dict (change.after (w.dicts dict)) := by
  obtain ⟨parser, c⟩ := c
  obtain rfl : parser = some p := hself
  cases c with
  | change change =>
    exact ⟨change, rfl, by rw [next_change, getRegistry, h.registryOf_self]⟩
  | setRegistry other => exact absurd rfl (hc.2 rfl other)

/-- Two states that the other classes cannot tell apart. -/
structure SameBut (p : P) (dict : D) (w v : Parsers P D) : Prop where
  left : w.Apart p dict
  right : v.Apart p dict
  base : w.base = v.base
  own : w.own = v.own
  bases : w.bases = v.bases
  dicts : ∀ other ≠ dict, w.dicts other = v.dicts other

omit [DecidableEq P] [DecidableEq D] in
theorem SameBut.registryOf (h : SameBut p dict w v) (q : Option P) :
    w.registryOf q = v.registryOf q := by
  cases q with
  | none => exact h.base
  | some q => rw [Parsers.registryOf, Parsers.registryOf, h.own, h.bases, h.base]

omit [DecidableEq P] [DecidableEq D] in
theorem SameBut.getRegistry (h : SameBut p dict w v) {q : Option P} (hq : q ≠ some p) :
    w.getRegistry q = v.getRegistry q := by
  rw [Parsers.getRegistry, Parsers.getRegistry, h.registryOf q]
  exact h.dicts _ (h.right.other q hq)

theorem SameBut.next_left (h : SameBut p dict w v) (hc : Kept p dict c) (hself : c.1 = some p) :
    SameBut p dict (w.next c) v := by
  obtain ⟨change, -, hnext⟩ := h.left.next_self hc hself
  have hapart := h.left.next hc
  rw [hnext] at hapart ⊢
  refine ⟨hapart, h.right, h.base, h.own, h.bases, fun other hother => ?_⟩
  exact (Function.update_of_ne hother _ _).trans (h.dicts other hother)

theorem SameBut.next (h : SameBut p dict w v) (hc : Kept p dict c) (hother : c.1 ≠ some p) :
    SameBut p dict (w.next c) (v.next c) := by
  have hleft := h.left.next hc
  have hright := h.right.next hc
  obtain ⟨parser, c⟩ := c
  cases c with
  | change change =>
    rw [next_change, next_change] at *
    refine ⟨hleft, hright, h.base, h.own, h.bases, fun other hne => ?_⟩
    rw [h.registryOf parser, h.getRegistry hother]
    by_cases heq : other = v.registryOf parser
    · subst heq
      simp [put]
    · simpa [put, Function.update_of_ne heq] using h.dicts other hne
  | setRegistry other =>
    rw [next_setRegistry, next_setRegistry] at *
    cases parser with
    | none => exact ⟨hleft, hright, rfl, h.own, h.bases, h.dicts⟩
    | some q =>
      refine ⟨hleft, hright, h.base, ?_, h.bases, h.dicts⟩
      simp only [setRegistry, h.own]

theorem Apart.run_self (hw : w.Apart p dict) (hv : v.Apart p dict)
    (hdicts : w.dicts dict = v.dicts dict) {calls : List (Option P × Call D)}
    (hkept : ∀ c ∈ calls, Kept p dict c) :
    (w.run calls).getRegistry (some p) =
      (v.run (calls.filter fun c => c.1 = some p)).getRegistry (some p) := by
  induction calls generalizing w v with
  | nil =>
    simp only [run, List.filter_nil, List.foldl_nil, getRegistry]
    rw [hw.registryOf_self, hv.registryOf_self, hdicts]
  | cons c calls ih =>
    have hc := hkept c List.mem_cons_self
    have hrest : ∀ d ∈ calls, Kept p dict d := fun d hd => hkept d (List.mem_cons_of_mem c hd)
    by_cases hself : c.1 = some p
    · have hnext : (w.next c).dicts dict = (v.next c).dicts dict := by
        obtain ⟨change, hchange, hw'⟩ := hw.next_self hc hself
        obtain ⟨change', hchange', hv'⟩ := hv.next_self hc hself
        obtain rfl : change = change' := Call.change.inj (hchange.symm.trans hchange')
        rw [hw', hv', hdicts]
        simp [put]
      simpa [run, List.filter_cons, hself] using ih (hw.next hc) (hv.next hc) hnext hrest
    · simpa [run, List.filter_cons, hself] using
        ih (hw.next hc) hv ((hw.dicts_next hself).trans hdicts) hrest

theorem SameBut.run (h : SameBut p dict w v) {calls : List (Option P × Call D)}
    (hkept : ∀ c ∈ calls, Kept p dict c) {q : Option P} (hq : q ≠ some p) :
    (w.run calls).getRegistry q =
      (v.run (calls.filter fun c => c.1 ≠ some p)).getRegistry q := by
  induction calls generalizing w v with
  | nil => exact h.getRegistry hq
  | cons c calls ih =>
    have hc := hkept c List.mem_cons_self
    have hrest : ∀ d ∈ calls, Kept p dict d := fun d hd => hkept d (List.mem_cons_of_mem c hd)
    by_cases hself : c.1 = some p
    · simpa [Parsers.run, List.filter_cons, hself] using ih (h.next_left hc hself) hrest
    · simpa [Parsers.run, List.filter_cons, hself] using ih (h.next hc hself) hrest

/-- A class with a dict that no other class reads and the other classes do not notice one
another: the registry of each is what its own calls make of it, whatever the others register,
take out, clear or set. -/
theorem parsers_isolated (h : w.Apart p dict) {calls : List (Option P × Call D)}
    (hkept : ∀ c ∈ calls, Kept p dict c) :
    (w.run calls).getRegistry (some p) =
      (w.run (calls.filter fun c => c.1 = some p)).getRegistry (some p) ∧
    ∀ q ≠ some p, (w.run calls).getRegistry q =
      (w.run (calls.filter fun c => c.1 ≠ some p)).getRegistry q := by
  have hsame : SameBut p dict w w := ⟨h, h, rfl, rfl, rfl, fun _ _ => rfl⟩
  exact ⟨h.run_self h rfl hkept, fun q hq => hsame.run hkept hq⟩

end Isolation

/-- A subclass that has been given a dict, and one derived from it that has been given another;
both dicts are empty. -/
def given : Parsers Bool ℕ where
  dicts dict := if dict = 0 then Registry.onImport else fun _ => none
  base := 0
  own derived := if derived then some 2 else some 1
  bases derived := if derived then [false] else []

theorem given_apart : given.Apart false 1 where
  own := rfl
  other
    | none, _ => Nat.zero_ne_one
    | some false, hq => absurd rfl hq
    | some true, _ => by decide

/-- The derived class and `ModbusPduParser` clear theirs, and what the subclass has registered
stays, for it alone. -/
theorem parsers_isolated_given :
    (given.run [(some false, .change (.register (some .modbusRequestFC3))),
      (some true, .change .clearRegistry), (none, .change .clearRegistry)]).getRegistry
        (some false) 3 = some .modbusRequestFC3 ∧
    (given.run [(some false, .change (.register (some .modbusRequestFC3))),
      (some true, .change .clearRegistry), (none, .change .clearRegistry)]).getRegistry
        (some true) 3 = none := by
  have hkept : ∀ c ∈ [(some false, Call.change (.register (some .modbusRequestFC3))),
      (some true, .change .clearRegistry), (none, .change .clearRegistry)], Kept false 1 c := by
    simp [Kept]
  obtain ⟨hself, hothers⟩ := parsers_isolated given_apart hkept
  exact ⟨(congrFun hself 3).trans rfl, (congrFun (hothers (some true) (by decide)) 3).trans rfl⟩

end Calls

end Parsers

end Pyomb
