import Pyomb.Runs
import Mathlib.Data.Set.Card

/-! Calls of several threads whose bodies run under one lock, a step at a time. However the
threads interleave, the calls take effect as if each had run alone, in the order in which
they took the lock; a call still inside has got as far as it would alone. -/

namespace Pyomb

/-- A body for each call, cut into the steps between which other threads may run: where it
starts, and what a step does, to another place in the body or to its result. -/
structure Guarded (S C P R : Type*) where
  enter : C → P
  step : P → S → (P ⊕ R) × S

namespace Guarded

variable {T S C P R : Type*} (g : Guarded S C P R)

/-! ### A call on its own -/

def Reaches (p : P) (s : S) (p' : P) (s' : S) : Prop :=
  Relation.ReflTransGen (fun x y : P × S => g.step x.1 x.2 = (.inl y.1, y.2)) (p, s) (p', s')

inductive Returns : P → S → R → S → Prop
  | done {p s r s'} (h : g.step p s = (.inr r, s')) : Returns p s r s'
  | more {p s p' s' r s''} (h : g.step p s = (.inl p', s')) (hr : Returns p' s' r s'') :
      Returns p s r s''

/-- Whole calls, one after the other. -/
inductive Performs : S → List (T × C × R) → S → Prop
  | nil {s} : Performs s [] s
  | snoc {s calls s' t c r s''} (h : Performs s calls s') (hr : g.Returns (g.enter c) s' r s'') :
      Performs s (calls ++ [(t, c, r)]) s''

variable {g}

theorem Returns.of_reaches {p p' : P} {s s' s'' : S} {r : R} (h : g.Returns p' s' r s'')
    (hreach : g.Reaches p s p' s') : g.Returns p s r s'' := by
  refine Relation.ReflTransGen.head_induction_on
    (motive := fun x _ => g.Returns x.1 x.2 r s'') hreach h ?_
  intro x y hstep _ ih
  exact .more hstep ih

theorem Returns.of_reached {p p' : P} {s s' s'' : S} {r : R} (h : g.Returns p s r s'')
    (hreach : g.Reaches p s p' s') : g.Returns p' s' r s'' := by
  refine Relation.ReflTransGen.head_induction_on
    (motive := fun x _ => g.Returns x.1 x.2 r s'' → g.Returns p' s' r s'') hreach id ?_ h
  intro x y hstep _ ih hx
  cases hx with
  | done hdone =>
    rw [hdone] at hstep
    cases hstep
  | more hmore hr =>
    rw [hmore] at hstep
    cases hstep
    exact ih hr

theorem Returns.unique {p : P} {s s₁ s₂ : S} {r₁ r₂ : R} (h₁ : g.Returns p s r₁ s₁)
    (h₂ : g.Returns p s r₂ s₂) : r₁ = r₂ ∧ s₁ = s₂ := by
  induction h₁ with
  | done h =>
    cases h₂ with
    | done h' =>
      rw [h] at h'
      cases h'
      exact ⟨rfl, rfl⟩
    | more h' hr =>
      rw [h] at h'
      cases h'
  | more h hr ih =>
    cases h₂ with
    | done h' =>
      rw [h] at h'
      cases h'
    | more h' hr' =>
      rw [h] at h'
      cases h'
      exact ih hr'

end Guarded

/-! ### The threads -/

/-- What the lock guards, the calls that wait for it, the one that holds it with the place it
is at, and the calls that have returned, in the order in which they held it. -/
structure Threads (T S C P R : Type*) where
  shared : S
  waiting : T → Option C := fun _ => none
  holder : Option (T × C × P) := none
  returned : List (T × C × R) := []

namespace Threads

section Since

variable {T S C P R : Type*} [DecidableEq C]

def Under (w : Threads T S C P R) (t : T) (c : C) : Prop :=
  w.waiting t = some c ∨ ∃ p, w.holder = some (t, c, p)

def doneBy (c : C) (calls : List (T × C × R)) : List T :=
  (calls.filter fun x => x.2.1 = c).map Prod.fst

theorem doneBy_snoc (c d : C) (calls : List (T × C × R)) (t : T) (r : R) :
    doneBy c (calls ++ [(t, d, r)]) = if d = c then doneBy c calls ++ [t] else doneBy c calls := by
  split_ifs with hd <;> simp [doneBy, hd]

/-- From one world to another in which a call has not been made anew: it has returned at most
once in each of the threads that were in it, which are not in it any more. -/
structure Since (c : C) (w w' : Threads T S C P R) : Prop where
  returned : ∃ later, w'.returned = w.returned ++ later ∧ (doneBy c later).Nodup ∧
    ∀ t ∈ doneBy c later, w.Under t c ∧ ¬ w'.Under t c
  under : ∀ t, w'.Under t c → w.Under t c

theorem Since.refl (c : C) (w : Threads T S C P R) : Since c w w where
  returned := ⟨[], (List.append_nil _).symm, List.nodup_nil, nofun⟩
  under _ h := h

theorem Since.of_fewer {c : C} {w w' w'' : Threads T S C P R} (h : Since c w w')
    (hreturned : w''.returned = w'.returned) (hunder : ∀ t, w''.Under t c → w'.Under t c) :
    Since c w w'' := by
  obtain ⟨later, hlater, hnodup, hdone⟩ := h.returned
  refine ⟨⟨later, hreturned.trans hlater, hnodup, fun t ht => ?_⟩, fun t ht => h.under t (hunder t ht)⟩
  exact ⟨(hdone t ht).1, fun ht' => (hdone t ht).2 (hunder t ht')⟩

end Since

variable {T S C P R : Type*} [DecidableEq T] (g : Guarded S C P R)

def Idle (w : Threads T S C P R) (t : T) : Prop :=
  w.waiting t = none ∧ ∀ h ∈ w.holder, h.1 ≠ t

def call (w : Threads T S C P R) (t : T) (c : C) : Threads T S C P R :=
  { w with waiting := Function.update w.waiting t (some c) }

@[simp] theorem waiting_call (w : Threads T S C P R) (t : T) (c : C) :
    (w.call t c).waiting = Function.update w.waiting t (some c) := rfl

inductive Inside : Threads T S C P R → Threads T S C P R → Prop
  | acquire {w} {t : T} {c : C} (hfree : w.holder = none) (hc : w.waiting t = some c) :
      Inside w { w with
        waiting := Function.update w.waiting t none
        holder := some (t, c, g.enter c) }
  | move {w} {t : T} {c : C} {p p' : P} {s : S} (h : w.holder = some (t, c, p))
      (hs : g.step p w.shared = (.inl p', s)) :
      Inside w { w with shared := s, holder := some (t, c, p') }
  | release {w} {t : T} {c : C} {p : P} {r : R} {s : S} (h : w.holder = some (t, c, p))
      (hs : g.step p w.shared = (.inr r, s)) :
      Inside w { w with shared := s, holder := none, returned := w.returned ++ [(t, c, r)] }

/-- Where nothing holds the lock, what the calls that have returned make of the shared state;
else what the holder has made of it so far. -/
def Owned (Inv : List (T × C × R) → S → Prop) (Mid : List (T × C × R) → C → P → S → Prop)
    (w : Threads T S C P R) : Prop :=
  (w.holder = none → Inv w.returned w.shared) ∧
    ∀ t c p, w.holder = some (t, c, p) → Mid w.returned c p w.shared

section Owned

variable {g} {Inv : List (T × C × R) → S → Prop} {Mid : List (T × C × R) → C → P → S → Prop}

theorem Owned.call {w : Threads T S C P R} (h : Owned Inv Mid w) (t : T) (c : C) :
    Owned Inv Mid (w.call t c) := h

/-- What is owned stays owned: a call finds what the last one left, keeps it going a step at a
time, and leaves it for the next. -/
theorem Owned.inside (henter : ∀ l c s, Inv l s → Mid l c (g.enter c) s)
    (hmove : ∀ l c p s p' s', Mid l c p s → g.step p s = (.inl p', s') → Mid l c p' s')
    (hend : ∀ l t c p s r s', Mid l c p s → g.step p s = (.inr r, s') → Inv (l ++ [(t, c, r)]) s')
    {w w' : Threads T S C P R} (h : Owned Inv Mid w) (hs : Inside g w w') : Owned Inv Mid w' := by
  obtain ⟨hfree, hheld⟩ := h
  cases hs with
  | acquire hnone hc =>
    refine ⟨nofun, fun t c p heq => ?_⟩
    cases heq
    exact henter _ _ _ (hfree hnone)
  | move hsome hstep =>
    refine ⟨nofun, fun t c p heq => ?_⟩
    cases heq
    exact hmove _ _ _ _ _ _ (hheld _ _ _ hsome) hstep
  | release hsome hstep =>
    exact ⟨fun _ => hend _ _ _ _ _ _ _ (hheld _ _ _ hsome) hstep, nofun⟩

end Owned

/-- The calls that have returned, as if each had run alone, and then the steps of the one that
holds the lock. -/
def Serial (s : S) (w : Threads T S C P R) : Prop :=
  w.Owned (g.Performs s) fun l c p s' => ∃ s₁, g.Performs s l s₁ ∧ g.Reaches (g.enter c) s₁ p s'

variable {g}

theorem Serial.inside {s : S} {w w' : Threads T S C P R} (h : Serial g s w)
    (hs : Inside g w w') : Serial g s w' := by
  refine Owned.inside ?_ ?_ ?_ h hs
  · intro l c s₁ hp
    exact ⟨s₁, hp, .refl⟩
  · rintro l c p s₁ p' s₂ ⟨s₀, hp, hr⟩ hstep
    exact ⟨s₀, hp, hr.tail hstep⟩
  · rintro l t c p s₁ r s₂ ⟨s₀, hp, hr⟩ hstep
    exact hp.snoc (Guarded.Returns.of_reaches (.done hstep) hr)

/-! ### Every call gets its turn -/

/-- A thread that holds the lock does not wait for it, and finitely many wait. -/
structure Queued (w : Threads T S C P R) : Prop where
  apart : ∀ h ∈ w.holder, w.waiting h.1 = none
  finite : {t | w.waiting t ≠ none}.Finite

theorem Queued.call {w : Threads T S C P R} (h : w.Queued) {t : T} (hidle : w.Idle t) (c : C) :
    (w.call t c).Queued where
  apart x hx := by
    rw [waiting_call, Function.update_of_ne (hidle.2 x hx)]
    exact h.apart x hx
  finite := by
    refine (h.finite.insert t).subset fun u (hu : (w.call t c).waiting u ≠ none) => ?_
    by_cases heq : u = t
    · exact .inl heq
    · rw [waiting_call, Function.update_of_ne heq] at hu
      exact .inr hu

theorem waiting_acquired {w : Threads T S C P R} (t : T) :
    {u | Function.update w.waiting t none u ≠ none} = {u | w.waiting u ≠ none} \ {t} := by
  ext u
  by_cases heq : u = t
  · simp [heq]
  · simp [heq]

theorem Queued.inside {w w' : Threads T S C P R} (h : w.Queued) (hs : Inside g w w') :
    w'.Queued := by
  cases hs with
  | @acquire t c hfree hc =>
    refine ⟨fun x hx => ?_, ?_⟩
    · cases hx
      exact Function.update_self t none w.waiting
    · rw [waiting_acquired]
      exact h.finite.sdiff
  | @move t c p p' s hheld =>
    refine ⟨fun x hx => ?_, h.finite⟩
    cases hx
    exact h.apart (t, c, p) hheld
  | release => exact ⟨nofun, h.finite⟩

/-- Nothing is left to happen only where no call waits and none holds the lock. -/
theorem idle_of_stuck {w : Threads T S C P R} (h : ∀ w', ¬ Inside g w w') :
    w.holder = none ∧ ∀ t, w.waiting t = none := by
  have hfree : w.holder = none := by
    by_contra hne
    obtain ⟨⟨t, c, p⟩, hheld⟩ := Option.ne_none_iff_exists'.mp hne
    rcases hs : g.step p w.shared with ⟨p' | r, s⟩
    · exact h _ (.move hheld hs)
    · exact h _ (.release hheld hs)
  refine ⟨hfree, fun t => ?_⟩
  by_contra hne
  obtain ⟨c, hc⟩ := Option.ne_none_iff_exists'.mp hne
  exact h _ (.acquire hfree hc)

/-- Where the holder's body ends, and what is free stays so only for finitely many steps, the
whole does. -/
theorem acc_of_held {t : T} {c : C} {p : P} {s s' : S} {r : R} (hr : g.Returns p s r s')
    {waiting : T → Option C} {returned : List (T × C × R)}
    (hfree : Acc (fun a b => Inside g b a) ⟨s', waiting, none, returned ++ [(t, c, r)]⟩) :
    Acc (fun a b => Inside g b a) ⟨s, waiting, some (t, c, p), returned⟩ := by
  induction hr with
  | done hdone =>
    refine .intro _ fun w' hw => ?_
    cases hw with
    | acquire hnone => cases hnone
    | move hheld hstep =>
      cases hheld
      cases hdone.symm.trans hstep
    | release hheld hstep =>
      cases hheld
      cases hdone.symm.trans hstep
      exact hfree
  | more hmore hr ih =>
    refine .intro _ fun w' hw => ?_
    cases hw with
    | acquire hnone => cases hnone
    | move hheld hstep =>
      cases hheld
      cases hmore.symm.trans hstep
      exact ih hfree
    | release hheld hstep =>
      cases hheld
      cases hmore.symm.trans hstep

theorem acc_of_free (hends : ∀ c s, ∃ r s', g.Returns (g.enter c) s r s') (n : ℕ)
    {w : Threads T S C P R} (hfree : w.holder = none) (hq : w.Queued)
    (hn : {t | w.waiting t ≠ none}.ncard = n) : Acc (fun a b => Inside g b a) w := by
  induction n generalizing w with
  | zero =>
    have hnone := (Set.ncard_eq_zero hq.finite).mp hn
    refine .intro _ fun w' hw => ?_
    cases hw with
    | @acquire t c _ hc =>
      have hmem : t ∈ {t | w.waiting t ≠ none} := by simp [hc]
      rw [hnone] at hmem
      cases hmem
    | move hheld => cases hfree.symm.trans hheld
    | release hheld => cases hfree.symm.trans hheld
  | succ n ih =>
    refine .intro _ fun w' hw => ?_
    have hq' := hq.inside hw
    cases hw with
    | @acquire t c _ hc =>
      obtain ⟨r, s', hr⟩ := hends c w.shared
      refine acc_of_held hr (ih rfl ⟨nofun, hq'.finite⟩ ?_)
      rw [waiting_acquired, Set.ncard_sdiff_singleton_of_mem (by simp [hc]), hn, Nat.add_sub_cancel]
    | move hheld => cases hfree.symm.trans hheld
    | release hheld => cases hfree.symm.trans hheld

/-- A call under way still is after a step, or has returned. -/
theorem Under.inside {w w' : Threads T S C P R} {t : T} {c : C} (h : w.Under t c)
    (hs : Inside g w w') : w'.Under t c ∨ ∃ r, (t, c, r) ∈ w'.returned := by
  cases hs with
  | @acquire u d hfree hd =>
    rcases h with h | ⟨p, h⟩
    · by_cases heq : t = u
      · subst heq
        cases h.symm.trans hd
        exact .inl (.inr ⟨_, rfl⟩)
      · exact .inl (.inl ((Function.update_of_ne heq none w.waiting).trans h))
    · cases hfree.symm.trans h
  | move hheld =>
    rcases h with h | ⟨p, h⟩
    · exact .inl (.inl h)
    · cases h.symm.trans hheld
      exact .inl (.inr ⟨_, rfl⟩)
  | release hheld =>
    rcases h with h | ⟨p, h⟩
    · exact .inl (.inl h)
    · cases h.symm.trans hheld
      exact .inr ⟨_, List.mem_append_right _ (List.mem_singleton_self _)⟩

theorem Under.of_inside {w w' : Threads T S C P R} {t : T} {c : C} (h : w'.Under t c)
    (hs : Inside g w w') : w.Under t c := by
  cases hs with
  | @acquire u d hfree hd =>
    rcases h with h | ⟨p, h⟩
    · by_cases heq : t = u
      · subst heq
        cases (Function.update_self t none w.waiting).symm.trans h
      · exact .inl ((Function.update_of_ne heq none w.waiting).symm.trans h)
    · cases h
      exact .inl hd
  | move hheld =>
    rcases h with h | ⟨p, h⟩
    · exact .inl h
    · cases h
      exact .inr ⟨_, hheld⟩
  | release =>
    rcases h with h | ⟨p, h⟩
    · exact .inl h
    · cases h

theorem returned_inside {w w' : Threads T S C P R} (hs : Inside g w w') :
    w.returned <+: w'.returned := by
  cases hs with
  | acquire | move => exact List.prefix_refl _
  | release => exact List.prefix_append _ _

/-- Where every body ends: without new calls only finitely much happens, and once nothing is
left to happen every call that was under way has returned. -/
theorem ends (hends : ∀ c s, ∃ r s', g.Returns (g.enter c) s r s') {w : Threads T S C P R}
    (hq : w.Queued) (hheld : ∀ t c p, w.holder = some (t, c, p) → ∃ r s', g.Returns p w.shared r s') :
    (¬ ∃ f : ℕ → Threads T S C P R, f 0 = w ∧ ∀ n, Inside g (f n) (f (n + 1))) ∧
    ∀ w', Relation.ReflTransGen (Inside g) w w' → (∀ w'', ¬ Inside g w' w'') →
      ∀ t c, w.Under t c → ∃ r, (t, c, r) ∈ w'.returned := by
  constructor
  · have hacc : Acc (fun a b => Inside g b a) w := by
      obtain ⟨shared, waiting, holder, returned⟩ := w
      cases holder with
      | none => exact acc_of_free hends _ rfl hq rfl
      | some call =>
        obtain ⟨t, c, p⟩ := call
        obtain ⟨r, s', hr⟩ := hheld t c p rfl
        exact acc_of_held hr (acc_of_free hends _ rfl ⟨nofun, hq.finite⟩ rfl)
    intro hchain
    exact not_acc_iff_exists_descending_chain.mpr hchain hacc
  · intro w' hrun hstuck t c hunder
    have hkept : w'.Under t c ∨ ∃ r, (t, c, r) ∈ w'.returned := by
      refine @invariant_of_run _ (Inside g) (fun v => v.Under t c ∨ ∃ r, (t, c, r) ∈ v.returned) ?_
        _ _ (.inl hunder) hrun
      rintro v v' (h | ⟨r, h⟩) hstep
      · exact h.inside hstep
      · exact .inr ⟨r, (returned_inside hstep).subset h⟩
    obtain ⟨hfree, hidle⟩ := idle_of_stuck hstuck
    refine hkept.resolve_left ?_
    rintro (h | ⟨p, h⟩)
    · cases (hidle t).symm.trans h
    · cases hfree.symm.trans h

/-! ### A call that is no longer made -/

theorem Since.call [DecidableEq C] {c d : C} {w w' : Threads T S C P R} (h : Since c w w') (t : T) (hd : d ≠ c) :
    Since c w (w'.call t d) := by
  refine h.of_fewer rfl fun u hu => ?_
  rcases hu with hu | hu
  · rw [waiting_call] at hu
    by_cases heq : u = t
    · rw [heq, Function.update_self] at hu
      exact absurd (Option.some.inj hu) hd
    · rw [Function.update_of_ne heq] at hu
      exact .inl hu
  · exact .inr hu

theorem Since.inside [DecidableEq C] {c : C} {w w' w'' : Threads T S C P R} (h : Since c w w') (hq : w'.Queued)
    (hs : Inside g w' w'') : Since c w w'' := by
  have hunder (t : T) (ht : w''.Under t c) : w'.Under t c := ht.of_inside hs
  cases hs with
  | acquire | move => exact h.of_fewer rfl hunder
  | @release t d p r s hheld hstep =>
    obtain ⟨later, hlater, hnodup, hdone⟩ := h.returned
    have hold : ∀ u ∈ doneBy c later, w.Under u c ∧ ¬ Under ⟨s, w'.waiting, none,
        w'.returned ++ [(t, d, r)]⟩ u c :=
      fun u hu => ⟨(hdone u hu).1, fun hu' => (hdone u hu).2 (hunder u hu')⟩
    refine ⟨⟨later ++ [(t, d, r)], ?_, ?_⟩, fun u hu => h.under u (hunder u hu)⟩
    · show w'.returned ++ [(t, d, r)] = _
      rw [hlater, List.append_assoc]
    rw [doneBy_snoc]
    split_ifs with hd
    · subst hd
      have hin : w'.Under t d := .inr ⟨p, hheld⟩
      have hfresh : t ∉ doneBy d later := fun ht => (hdone t ht).2 hin
      refine ⟨List.nodup_append'.mpr ⟨hnodup, List.nodup_singleton t, by simpa using hfresh⟩, ?_⟩
      refine List.forall_mem_append.mpr ⟨hold, List.forall_mem_singleton.mpr ⟨h.under t hin, ?_⟩⟩
      rintro (hu | ⟨p', hu⟩)
      · cases (hq.apart _ hheld).symm.trans hu
      · cases hu
    · exact ⟨hnodup, hold⟩

end Threads

end Pyomb
