import Mathlib
import OrderSaga.Breaker

namespace OrderSaga.Breaker

/-! ## Each step as a function of the circuit -/

namespace Circuit

def renew (b : Circuit) (now : Int) : Circuit :=
  { b with
    generation := b.generation + 1
    counts := {}
    expiry := match b.state with
      | .closed => if b.interval == 0 then none else some (now + b.interval)
      | .opened => some (now + b.timeout)
      | .halfOpen => none }

def moveTo (b : Circuit) (s : State) (now : Int) : Circuit :=
  if b.state = s then b else ({ b with state := s } : Circuit).renew now

def refresh (b : Circuit) (now : Int) : Circuit :=
  match b.state with
  | .closed =>
    match b.expiry with
    | some e => if e < now then b.renew now else b
    | none => b
  | .opened => if b.expiry.getD 0 < now then b.moveTo .halfOpen now else b
  | .halfOpen => b

def admission (b : Circuit) : Except Failure UInt64 × Circuit :=
  if b.state = .opened then (.error openRefusal, b)
  else if b.state = .halfOpen ∧ b.maxRequests ≤ b.counts.requests then
    (.error tooManyRequests, b)
  else (.ok b.generation, { b with counts := { b.counts with requests := b.counts.requests + 1 } })

def addSuccess (b : Circuit) : Circuit :=
  { b with counts := { b.counts with
    totalSuccesses := b.counts.totalSuccesses + 1
    consecutiveSuccesses := b.counts.consecutiveSuccesses + 1
    consecutiveFailures := 0 } }

def addFailure (b : Circuit) : Circuit :=
  { b with counts := { b.counts with
    totalFailures := b.counts.totalFailures + 1
    consecutiveFailures := b.counts.consecutiveFailures + 1
    consecutiveSuccesses := 0 } }

def succeed (b : Circuit) (now : Int) : Circuit :=
  if b.state = .halfOpen ∧ b.maxRequests ≤ b.counts.consecutiveSuccesses + 1 then
    b.addSuccess.moveTo .closed now
  else b.addSuccess

def fail (b : Circuit) (now : Int) : Circuit :=
  if b.state = .halfOpen ∨ b.trip b.addFailure.counts = true then b.addFailure.moveTo .opened now
  else b.addFailure

def complete (b : Circuit) (before : UInt64) (success : Bool) (now : Int) : Circuit :=
  let b := b.refresh now
  if b.generation = before then (if success then b.succeed now else b.fail now) else b

end Circuit

section Runs

variable (now : Int) (p : Circuit × List Transition)

theorem breaker_run : (breaker.run p).run = (p.1, p) := rfl

theorem newGeneration_circuit : ((newGeneration now).run p).run.2.1 = p.1.renew now := rfl

theorem setState_circuit (s : State) : ((setState s now).run p).run.2.1 = p.1.moveTo s now := by
  by_cases h : p.1.state = s
  · simp [setState, breaker, h, Circuit.moveTo]
  · simp [setState, breaker, h, Circuit.moveTo, modifyCircuit, newGeneration_circuit]

theorem currentState_run :
    ((currentState now).run p).run.1 = ((p.1.refresh now).state, (p.1.refresh now).generation) ∧
      ((currentState now).run p).run.2.1 = p.1.refresh now := by
  unfold Circuit.refresh
  cases hs : p.1.state with
  | closed =>
    cases he : p.1.expiry with
    | none => simp [currentState, breaker, hs, he]
    | some e =>
      by_cases hlt : e < now
      · simp [currentState, breaker, hs, he, hlt, newGeneration_circuit]
      · simp [currentState, breaker, hs, he, hlt]
  | opened =>
    by_cases hlt : p.1.expiry.getD 0 < now
    · simp [currentState, breaker, hs, hlt, setState_circuit]
    · simp [currentState, breaker, hs, hlt]
  | halfOpen => simp [currentState, breaker, hs]

theorem currentState_value :
    ((currentState now).run p).run.1 = ((p.1.refresh now).state, (p.1.refresh now).generation) :=
  (currentState_run now p).1

theorem currentState_circuit : ((currentState now).run p).run.2.1 = p.1.refresh now :=
  (currentState_run now p).2

theorem beforeRequest_run : ((beforeRequest now).run p).run.1 = (p.1.refresh now).admission.1 ∧
    ((beforeRequest now).run p).run.2.1 = (p.1.refresh now).admission.2 := by
  have hc := currentState_circuit now p
  simp only [beforeRequest, StateT.run_bind, Id.run_bind, currentState_value, breaker_run]
  generalize ((currentState now).run p).run.2 = q at hc ⊢
  obtain ⟨c, ts⟩ := q
  dsimp only at hc
  rw [← hc]
  unfold Circuit.admission
  by_cases ho : c.state = .opened
  · simp [ho]
  · by_cases hh : c.state = .halfOpen ∧ c.maxRequests ≤ c.counts.requests
    · simp [hh]
    · simp [ho, hh, modifyCircuit]

theorem onSuccess_circuit : ((onSuccess p.1.state now).run p).run.2.1 = p.1.succeed now := by
  unfold Circuit.succeed Circuit.addSuccess
  by_cases hc : p.1.state = .halfOpen ∧ p.1.maxRequests ≤ p.1.counts.consecutiveSuccesses + 1
  · simp [onSuccess, modifyCircuit, breaker, hc, setState_circuit]
  · simp [onSuccess, modifyCircuit, breaker, hc]

theorem onFailure_circuit : ((onFailure p.1.state now).run p).run.2.1 = p.1.fail now := by
  unfold Circuit.fail Circuit.addFailure
  split_ifs with hc
  · simp [onFailure, modifyCircuit, breaker, hc, setState_circuit]
  · simp [onFailure, modifyCircuit, breaker, hc]

theorem afterRequest_circuit (before : UInt64) (success : Bool) :
    ((afterRequest before success now).run p).run.2.1 = p.1.complete before success now := by
  have hc := currentState_circuit now p
  simp only [afterRequest, StateT.run_bind, Id.run_bind, currentState_value]
  generalize ((currentState now).run p).run.2 = q at hc ⊢
  obtain ⟨c, ts⟩ := q
  dsimp only at hc
  rw [Circuit.complete, ← hc]
  by_cases hg : c.generation = before
  · cases success
    · simpa [hg] using onFailure_circuit now (c, ts)
    · simpa [hg] using onSuccess_circuit now (c, ts)
  · simp [hg]

theorem reset_circuit (now' : Int) :
    ((reset now now').run p).run.2.1 = (p.1.moveTo .closed now).renew now' := by
  simp only [reset, StateT.run_bind, Id.run_bind, newGeneration_circuit, setState_circuit]

end Runs

/-! ## Generations -/

theorem UInt64.add_one_ne_self (x : UInt64) : x + 1 ≠ x := by
  intro h
  have := congrArg UInt64.toNat h
  rw [UInt64.toNat_add, UInt64.toNat_one] at this
  omega

theorem UInt64.add_two_ne_self (x : UInt64) : x + 1 + 1 ≠ x := by
  intro h
  have := congrArg UInt64.toNat h
  rw [UInt64.toNat_add, UInt64.toNat_add, UInt64.toNat_one] at this
  omega

theorem UInt64.toNat_add_one_of_lt {x : UInt64} (h : x.toNat + 1 < UInt64.size) :
    (x + 1).toNat = x.toNat + 1 := by
  rw [UInt64.toNat_add, UInt64.toNat_one]
  exact Nat.mod_eq_of_lt h

theorem UInt32.toNat_add_one_of_lt {x : UInt32} (h : x.toNat + 1 < UInt32.size) :
    (x + 1).toNat = x.toNat + 1 := by
  rw [UInt32.toNat_add, UInt32.toNat_one]
  exact Nat.mod_eq_of_lt h

theorem UInt32.add_one_le_add_one {x y : UInt32} (hle : x ≤ y) (hfit : y.toNat + 1 < UInt32.size) :
    x + 1 ≤ y + 1 := by
  have hle' := UInt32.le_iff_toNat_le.mp hle
  rw [UInt32.le_iff_toNat_le, toNat_add_one_of_lt hfit, toNat_add_one_of_lt (by omega)]
  omega

theorem UInt64.toNat_eq_add_sub (x y : UInt64) :
    y.toNat = (x.toNat + (y - x).toNat) % UInt64.size := by
  have hy : y = x + (y - x) := by rw [add_sub_cancel]
  conv_lhs => rw [hy]
  rw [UInt64.toNat_add]

namespace Circuit

def Renews (b b' : Circuit) : Prop :=
  b'.counts = {} ∧ b'.generation = b.generation + 1 ∧ b'.maxRequests = b.maxRequests

variable {b b' : Circuit} {now : Int}

@[simp] theorem renew_maxRequests : (b.renew now).maxRequests = b.maxRequests := rfl

theorem renews_renew (b : Circuit) (now : Int) : Renews b (b.renew now) := ⟨rfl, rfl, rfl⟩

theorem maxRequests_of_cases (h : b' = b ∨ Renews b b') : b'.maxRequests = b.maxRequests := by
  rcases h with rfl | h
  · rfl
  · exact h.2.2

theorem moveTo_cases (s : State) (now : Int) :
    b.moveTo s now = b ∨ Renews b (b.moveTo s now) := by
  unfold moveTo
  split
  · exact .inl rfl
  · exact .inr (renews_renew { b with state := s } now)

theorem refresh_cases (now : Int) : b.refresh now = b ∨ Renews b (b.refresh now) := by
  unfold refresh
  split
  · split
    · split
      · exact .inr (renews_renew b now)
      · exact .inl rfl
    · exact .inl rfl
  · split
    · exact moveTo_cases .halfOpen now
    · exact .inl rfl
  · exact .inl rfl

theorem succeed_cases (now : Int) :
    b.succeed now = b.addSuccess ∨ Renews b.addSuccess (b.succeed now) := by
  unfold succeed
  split_ifs
  · exact moveTo_cases .closed now
  · exact .inl rfl

theorem fail_cases (now : Int) :
    b.fail now = b.addFailure ∨ Renews b.addFailure (b.fail now) := by
  unfold fail
  split_ifs
  · exact moveTo_cases .opened now
  · exact .inl rfl

@[simp] theorem moveTo_maxRequests (s : State) (now : Int) :
    (b.moveTo s now).maxRequests = b.maxRequests :=
  maxRequests_of_cases (moveTo_cases s now)

@[simp] theorem refresh_maxRequests (now : Int) : (b.refresh now).maxRequests = b.maxRequests :=
  maxRequests_of_cases (refresh_cases now)

@[simp] theorem succeed_maxRequests (now : Int) : (b.succeed now).maxRequests = b.maxRequests := by
  rw [maxRequests_of_cases (succeed_cases now)]
  rfl

@[simp] theorem fail_maxRequests (now : Int) : (b.fail now).maxRequests = b.maxRequests := by
  rw [maxRequests_of_cases (fail_cases now)]
  rfl

@[simp] theorem admission_maxRequests : b.admission.2.maxRequests = b.maxRequests := by
  unfold admission
  split_ifs <;> rfl

@[simp] theorem admission_generation : b.admission.2.generation = b.generation := by
  unfold admission
  split_ifs <;> rfl

theorem complete_of_ne {before : UInt64} {success : Bool}
    (h : (b.refresh now).generation ≠ before) :
    b.complete before success now = b.refresh now := by
  simp [complete, h]

theorem complete_of_eq {before : UInt64} {success : Bool}
    (h : (b.refresh now).generation = before) :
    b.complete before success now =
      if success then (b.refresh now).succeed now else (b.refresh now).fail now := by
  simp [complete, h]

@[simp] theorem complete_maxRequests (before : UInt64) (success : Bool) :
    (b.complete before success now).maxRequests = b.maxRequests := by
  by_cases h : (b.refresh now).generation = before
  · rw [complete_of_eq h]
    cases success <;> simp
  · rw [complete_of_ne h, refresh_maxRequests]

theorem admission_of_error {f : Failure} (h : b.admission.1 = .error f) : b.admission.2 = b := by
  unfold admission at h ⊢
  split_ifs at h ⊢ <;> rfl

theorem admission_of_ok {g : UInt64} (h : b.admission.1 = .ok g) :
    g = b.generation ∧ b.state ≠ .opened ∧
      ¬(b.state = .halfOpen ∧ b.maxRequests ≤ b.counts.requests) ∧
      b.admission.2 = { b with counts := { b.counts with requests := b.counts.requests + 1 } } := by
  unfold admission at h ⊢
  split_ifs at h ⊢ with ho hh
  cases h
  exact ⟨rfl, ho, hh, rfl⟩

theorem openRefusal_ne_tooManyRequests : openRefusal ≠ tooManyRequests := by
  simp [openRefusal, tooManyRequests, refused]

theorem admission_eq_openRefusal : b.admission.1 = .error openRefusal ↔ b.state = .opened := by
  unfold admission
  split_ifs with ho hh
  · simp [ho]
  · simpa [ho] using openRefusal_ne_tooManyRequests.symm
  · simp [ho]

theorem admission_eq_tooManyRequests :
    b.admission.1 = .error tooManyRequests ↔
      b.state = .halfOpen ∧ b.maxRequests ≤ b.counts.requests := by
  unfold admission
  split_ifs with ho hh
  · simpa [ho] using openRefusal_ne_tooManyRequests
  · simp [hh]
  · simpa using hh

@[simp] theorem addSuccess_generation : b.addSuccess.generation = b.generation := rfl

@[simp] theorem addFailure_generation : b.addFailure.generation = b.generation := rfl

theorem refresh_generation (now : Int) :
    (b.refresh now).generation = b.generation ∨
      (b.refresh now).generation = b.generation + 1 := by
  rcases refresh_cases (b := b) now with h | h
  · exact .inl (by rw [h])
  · exact .inr h.2.1

/-! ## Counts a circuit keeps whatever its generations -/

/-- A half-open circuit admitted at most its probe limit, and at most one streak is under way. -/
structure Fine (b : Circuit) : Prop where
  probes : b.state = .halfOpen → b.counts.requests ≤ b.maxRequests
  streak : b.counts.consecutiveSuccesses = 0 ∨ b.counts.consecutiveFailures = 0

theorem Fine.of_cases (hb : b.Fine) (h : b' = b ∨ Renews b b') : b'.Fine := by
  rcases h with rfl | ⟨hcounts, -, -⟩
  · exact hb
  · exact ⟨fun _ => by simp [hcounts], .inl (by simp [hcounts])⟩

theorem Fine.addSuccess (hb : b.Fine) : b.addSuccess.Fine := ⟨hb.probes, .inr rfl⟩

theorem Fine.addFailure (hb : b.Fine) : b.addFailure.Fine := ⟨hb.probes, .inl rfl⟩

theorem Fine.complete (hb : b.Fine) (before : UInt64) (success : Bool) (now : Int) :
    (b.complete before success now).Fine := by
  have hr := hb.of_cases (refresh_cases now)
  by_cases h : (b.refresh now).generation = before
  · rw [complete_of_eq h]
    cases success
    · exact hr.addFailure.of_cases (fail_cases now)
    · exact hr.addSuccess.of_cases (succeed_cases now)
  · rwa [complete_of_ne h]

theorem Fine.admission (hb : b.Fine) : b.admission.2.Fine := by
  cases h : b.admission.1 with
  | error f => rwa [admission_of_error h]
  | ok g =>
    obtain ⟨-, -, hprobe, hb'⟩ := admission_of_ok h
    rw [hb']
    refine ⟨fun hh => ?_, hb.streak⟩
    have hbelow : b.counts.requests < b.maxRequests := UInt32.not_le.mp fun hle => hprobe ⟨hh, hle⟩
    dsimp only
    grind

end Circuit

/-! ## The callers of a breaker -/

/-- The callers of one breaker: the generations its running calls were admitted in, the calls this
generation admitted, and the generations it has had, which its counter knows modulo `2 ^ 64`. -/
structure Calls where
  circuit : Circuit
  running : List UInt64
  admitted : Nat
  generations : Nat

namespace Calls

def start (c : Config) (now : Int) : Calls := ⟨create c now, [], 0, 1⟩

def admittedIn (w : Calls) (b : Circuit) : Nat :=
  if b.generation = w.circuit.generation then w.admitted else 0

def generationsIn (w : Calls) (b : Circuit) : Nat :=
  w.generations + (b.generation - w.circuit.generation).toNat

def moved (w : Calls) (b : Circuit) : Calls := ⟨b, w.running, w.admittedIn b, w.generationsIn b⟩

inductive Step : Calls → Calls → Prop
  | enter {w : Calls} (now : Int) {g : UInt64} {b : Circuit}
      (answer : ((beforeRequest now).run (w.circuit, [])).run.1 = .ok g)
      (after : ((beforeRequest now).run (w.circuit, [])).run.2.1 = b) :
      Step w ⟨b, g :: w.running, w.admittedIn b + 1, w.generationsIn b⟩
  | refuse {w : Calls} (now : Int) {f : Failure} {b : Circuit}
      (answer : ((beforeRequest now).run (w.circuit, [])).run.1 = .error f)
      (after : ((beforeRequest now).run (w.circuit, [])).run.2.1 = b) :
      Step w (w.moved b)
  | complete {w : Calls} (now : Int) {g : UInt64} (success : Bool) {b : Circuit}
      (running : g ∈ w.running)
      (after : ((afterRequest g success now).run (w.circuit, [])).run.2.1 = b) :
      Step w ⟨b, w.running.erase g, w.admittedIn b, w.generationsIn b⟩
  | reset {w : Calls} (now now' : Int) {b : Circuit}
      (after : ((Breaker.reset now now').run (w.circuit, [])).run.2.1 = b) :
      Step w (w.moved b)
  | look {w : Calls} (now : Int) {b : Circuit}
      (after : ((currentState now).run (w.circuit, [])).run.2.1 = b) :
      Step w (w.moved b)

/-- What holds whatever the number of generations: the breaker's counter is that number modulo `2 ^
64`, and its counts are fine. -/
structure Sound (w : Calls) : Prop where
  generation : w.circuit.generation.toNat = w.generations % UInt64.size
  fine : w.circuit.Fine

/-- What holds while the generation counter has not wrapped: running calls are of this generation
or an earlier one, and every call this generation admitted is counted. -/
structure Exact (w : Calls) : Prop where
  running_le : ∀ g ∈ w.running, g ≤ w.circuit.generation
  counted : w.admitted < UInt32.size →
    w.circuit.counts.requests.toNat = w.admitted ∧
    w.circuit.counts.totalSuccesses.toNat + w.circuit.counts.totalFailures.toNat +
      w.running.count w.circuit.generation = w.admitted ∧
    w.circuit.counts.consecutiveSuccesses ≤ w.circuit.counts.totalSuccesses ∧
    w.circuit.counts.consecutiveFailures ≤ w.circuit.counts.totalFailures

section Preservation

variable {w : Calls} {b : Circuit} {g : UInt64}

theorem moved_self (w : Calls) : w.moved w.circuit = w := by
  cases w
  simp [Calls.moved, admittedIn, generationsIn]

theorem Sound.generations_lt (hs : Sound w) (hfit : w.generations < UInt64.size) :
    w.circuit.generation.toNat = w.generations := by
  rw [hs.generation, Nat.mod_eq_of_lt hfit]

theorem Sound.moved (hw : Sound w) (hb : b.Fine) (running : List UInt64) (admitted : Nat) :
    Sound ⟨b, running, admitted, w.generationsIn b⟩ := by
  refine ⟨?_, hb⟩
  show b.generation.toNat = w.generationsIn b % UInt64.size
  rw [generationsIn, UInt64.toNat_eq_add_sub w.circuit.generation b.generation, hw.generation,
    Nat.mod_add_mod]

theorem Exact.moved (hs : Sound w) (hw : Exact w) (hfit : w.generations + 1 < UInt64.size)
    (hb : b = w.circuit ∨ Circuit.Renews w.circuit b) : Exact (w.moved b) := by
  rcases hb with rfl | ⟨hcounts, hgen, -⟩
  · rwa [moved_self]
  · have hcur := hs.generations_lt (by omega)
    have hnext : b.generation.toNat = w.generations + 1 := by
      rw [hgen, UInt64.toNat_add_one_of_lt (by omega), hcur]
    have hbelow : ∀ g ∈ w.running, g.toNat ≤ w.generations := fun g hg => by
      have := UInt64.le_iff_toNat_le.mp (hw.running_le g hg)
      omega
    have hnone : w.running.count b.generation = 0 :=
      List.count_eq_zero.mpr fun hm => by have := hbelow _ hm; omega
    have hne : b.generation ≠ w.circuit.generation := hgen ▸ UInt64.add_one_ne_self _
    refine ⟨fun g hg => ?_, fun _ => ?_⟩
    · have := hbelow g hg
      show g ≤ b.generation
      exact UInt64.le_iff_toNat_le.mpr (by omega)
    · simp [Calls.moved, hcounts, hnone, admittedIn, hne]

theorem Exact.erase (hw : Exact w) (hg : g ≠ w.circuit.generation) :
    Exact ⟨w.circuit, w.running.erase g, w.admitted, w.generations⟩ := by
  refine ⟨fun g' hg' => hw.running_le g' (List.mem_of_mem_erase hg'), fun hlt => ?_⟩
  simpa [List.count_erase_of_ne (Ne.symm hg)] using hw.counted hlt

theorem Exact.enter (hw : Exact w) (h : w.circuit.admission.1 = .ok g) :
    Exact ⟨w.circuit.admission.2, g :: w.running, w.admitted + 1, w.generations⟩ := by
  obtain ⟨rfl, -, -, hb⟩ := Circuit.admission_of_ok h
  rw [hb]
  refine ⟨by simpa using hw.running_le, fun hlt => ?_⟩
  dsimp only at hlt ⊢
  obtain ⟨hreq, hsum, hcs, hcf⟩ := hw.counted (by omega)
  refine ⟨?_, ?_, hcs, hcf⟩
  · rw [UInt32.toNat_add_one_of_lt (by omega), hreq]
  · simp only [List.count_cons_self]
    omega

theorem Exact.addSuccess (hw : Exact w) (hg : w.circuit.generation ∈ w.running) :
    Exact ⟨w.circuit.addSuccess, w.running.erase w.circuit.generation, w.admitted,
      w.generations⟩ := by
  refine ⟨fun g' hg' => hw.running_le g' (List.mem_of_mem_erase hg'), fun hlt => ?_⟩
  dsimp only at hlt ⊢
  obtain ⟨hreq, hsum, hcs, hcf⟩ := hw.counted hlt
  have hpos : 0 < w.running.count w.circuit.generation := List.count_pos_iff.mpr hg
  have hts : w.circuit.counts.totalSuccesses.toNat + 1 < UInt32.size := by omega
  refine ⟨hreq, ?_, UInt32.add_one_le_add_one hcs hts, UInt32.zero_le⟩
  simp only [Circuit.addSuccess, List.count_erase_self]
  rw [UInt32.toNat_add_one_of_lt hts]
  omega

theorem Exact.addFailure (hw : Exact w) (hg : w.circuit.generation ∈ w.running) :
    Exact ⟨w.circuit.addFailure, w.running.erase w.circuit.generation, w.admitted,
      w.generations⟩ := by
  refine ⟨fun g' hg' => hw.running_le g' (List.mem_of_mem_erase hg'), fun hlt => ?_⟩
  dsimp only at hlt ⊢
  obtain ⟨hreq, hsum, hcs, hcf⟩ := hw.counted hlt
  have hpos : 0 < w.running.count w.circuit.generation := List.count_pos_iff.mpr hg
  have htf : w.circuit.counts.totalFailures.toNat + 1 < UInt32.size := by omega
  refine ⟨hreq, ?_, UInt32.zero_le, UInt32.add_one_le_add_one hcf htf⟩
  simp only [Circuit.addFailure, List.count_erase_self]
  rw [UInt32.toNat_add_one_of_lt htf]
  omega

theorem Exact.complete (hs : Sound w) (hw : Exact w) (hfit : w.generations + 2 < UInt64.size)
    (hg : g ∈ w.running) (success : Bool) (now : Int) :
    Exact ⟨w.circuit.complete g success now, w.running.erase g,
      w.admittedIn (w.circuit.complete g success now),
      w.generationsIn (w.circuit.complete g success now)⟩ := by
  have hcur := hs.generations_lt (by omega)
  have hgle := UInt64.le_iff_toNat_le.mp (hw.running_le g hg)
  by_cases heq : (w.circuit.refresh now).generation = g
  · have hstay : w.circuit.refresh now = w.circuit := by
      rcases Circuit.refresh_cases (b := w.circuit) now with h | ⟨-, hgen, -⟩
      · exact h
      · rw [heq] at hgen
        rw [hgen, UInt64.toNat_add_one_of_lt (by omega)] at hgle
        omega
    rw [hstay] at heq
    subst heq
    have hcomplete : w.circuit.complete w.circuit.generation success now =
        if success then w.circuit.succeed now else w.circuit.fail now := by
      rw [Circuit.complete_of_eq (by rw [hstay]), hstay]
    rw [hcomplete]
    cases success
    · have hw₂ : Sound ⟨w.circuit.addFailure, w.running.erase w.circuit.generation, w.admitted,
          w.generations⟩ := ⟨hs.generation, hs.fine.addFailure⟩
      exact (hw.addFailure hg).moved hw₂ (by show w.generations + 1 < UInt64.size; omega)
        (Circuit.fail_cases now)
    · have hw₂ : Sound ⟨w.circuit.addSuccess, w.running.erase w.circuit.generation, w.admitted,
          w.generations⟩ := ⟨hs.generation, hs.fine.addSuccess⟩
      exact (hw.addSuccess hg).moved hw₂ (by show w.generations + 1 < UInt64.size; omega)
        (Circuit.succeed_cases now)
  · rw [Circuit.complete_of_ne heq]
    exact (hw.moved hs (by omega) (Circuit.refresh_cases now)).erase (Ne.symm heq)

theorem Exact.reset (hs : Sound w) (hw : Exact w) (hfit : w.generations + 2 < UInt64.size)
    (now now' : Int) : Exact (w.moved ((w.circuit.moveTo .closed now).renew now')) := by
  rcases Circuit.moveTo_cases (b := w.circuit) .closed now with h | hb₁
  · rw [h]
    exact hw.moved hs (by omega) (.inr (Circuit.renews_renew _ now'))
  · have hs₁ : Sound (w.moved (w.circuit.moveTo .closed now)) :=
      hs.moved (hs.fine.of_cases (Circuit.moveTo_cases .closed now)) _ _
    have hw₁ : Exact (w.moved (w.circuit.moveTo .closed now)) := hw.moved hs (by omega) (.inr hb₁)
    have hgen₁ : (w.moved (w.circuit.moveTo .closed now)).generations = w.generations + 1 := by
      simp [Calls.moved, generationsIn, hb₁.2.1]
    have hsame : (w.moved (w.circuit.moveTo .closed now)).moved
        ((w.circuit.moveTo .closed now).renew now') =
        w.moved ((w.circuit.moveTo .closed now).renew now') := by
      have hgen : ((w.circuit.moveTo .closed now).renew now').generation =
          w.circuit.generation + 1 + 1 := by
        show (w.circuit.moveTo .closed now).generation + 1 = _
        rw [hb₁.2.1]
      have hne₁ : ((w.circuit.moveTo .closed now).renew now').generation ≠
          (w.circuit.moveTo .closed now).generation := UInt64.add_one_ne_self _
      have hne : ((w.circuit.moveTo .closed now).renew now').generation ≠ w.circuit.generation := by
        rw [hgen]
        exact UInt64.add_two_ne_self _
      simp only [Calls.moved, admittedIn, generationsIn, hne₁, hne, if_false]
      simp [hgen, hb₁.2.1, add_assoc]
    rw [← hsame]
    exact hw₁.moved hs₁ (by omega) (.inr (Circuit.renews_renew _ now'))

theorem Step.generations_le {w w' : Calls} (h : Step w w') : w.generations ≤ w'.generations := by
  cases h <;> simp [Calls.moved, generationsIn]

theorem Sound.step {w w' : Calls} (hw : Sound w) (h : Step w w') : Sound w' := by
  cases h with
  | enter now answer after =>
    rw [(beforeRequest_run now _).2] at after
    subst after
    exact hw.moved (hw.fine.of_cases (Circuit.refresh_cases now)).admission _ _
  | refuse now answer after =>
    rw [(beforeRequest_run now _).2] at after
    subst after
    exact hw.moved (hw.fine.of_cases (Circuit.refresh_cases now)).admission _ _
  | complete now success running after =>
    rw [afterRequest_circuit] at after
    subst after
    exact hw.moved (hw.fine.complete _ success now) _ _
  | reset now now' after =>
    rw [reset_circuit] at after
    subst after
    exact hw.moved ⟨fun _ => by simp [Circuit.renew], .inl rfl⟩ _ _
  | look now after =>
    rw [currentState_circuit] at after
    subst after
    exact hw.moved (hw.fine.of_cases (Circuit.refresh_cases now)) _ _

theorem Exact.step {w w' : Calls} (hs : Sound w) (hw : Exact w)
    (hfit : w.generations + 2 < UInt64.size) (h : Step w w') : Exact w' := by
  cases h with
  | enter now answer after =>
    rw [(beforeRequest_run now _).1] at answer
    rw [(beforeRequest_run now _).2] at after
    subst after
    have hw₁ := hw.moved hs (by omega) (Circuit.refresh_cases now)
    simpa [Calls.moved, admittedIn, generationsIn] using hw₁.enter answer
  | refuse now answer after =>
    rw [(beforeRequest_run now _).1] at answer
    rw [(beforeRequest_run now _).2, Circuit.admission_of_error answer] at after
    subst after
    exact hw.moved hs (by omega) (Circuit.refresh_cases now)
  | complete now success running after =>
    rw [afterRequest_circuit] at after
    subst after
    exact hw.complete hs hfit running success now
  | reset now now' after =>
    rw [reset_circuit] at after
    subst after
    exact hw.reset hs hfit now now'
  | look now after =>
    rw [currentState_circuit] at after
    subst after
    exact hw.moved hs (by omega) (Circuit.refresh_cases now)

theorem Step.maxRequests {w w' : Calls} (h : Step w w') :
    w'.circuit.maxRequests = w.circuit.maxRequests := by
  cases h with
  | enter now answer after =>
    rw [(beforeRequest_run now _).2] at after
    subst after
    simp
  | refuse now answer after =>
    rw [(beforeRequest_run now _).2] at after
    subst after
    simp [Calls.moved]
  | complete now success running after =>
    rw [afterRequest_circuit] at after
    subst after
    simp
  | reset now now' after =>
    rw [reset_circuit] at after
    subst after
    simp [Calls.moved]
  | look now after =>
    rw [currentState_circuit] at after
    subst after
    simp [Calls.moved]

end Preservation

section Reachable

variable {c : Config} {t₀ : Int} {w : Calls}

theorem Sound.start (c : Config) (now : Int) : Sound (start c now) :=
  ⟨rfl, ⟨fun _ => UInt32.zero_le, .inl rfl⟩⟩

theorem Exact.start (c : Config) (now : Int) : Exact (start c now) :=
  ⟨by simp [Calls.start], fun _ => ⟨rfl, rfl, UInt32.zero_le, UInt32.zero_le⟩⟩

theorem Sound.of_reaches (h : Relation.ReflTransGen Step (Calls.start c t₀) w) : Sound w := by
  induction h with
  | refl => exact Sound.start c t₀
  | tail _ step ih => exact ih.step step

theorem Exact.of_reaches (h : Relation.ReflTransGen Step (Calls.start c t₀) w)
    (hfit : w.generations + 2 < UInt64.size) : Exact w := by
  induction h with
  | refl => exact Exact.start c t₀
  | tail hrun step ih =>
    have hle := step.generations_le
    exact (ih (by omega)).step (Sound.of_reaches hrun) (by omega) step

theorem maxRequests_of_reaches (h : Relation.ReflTransGen Step (start c t₀) w) :
    w.circuit.maxRequests = if c.maxRequests = 0 then 1 else c.maxRequests := by
  induction h with
  | refl =>
    show (if c.maxRequests == 0 then 1 else c.maxRequests) = _
    simp
  | tail _ step ih => rw [step.maxRequests, ih]

end Reachable

end Calls

section Calls

variable (p : Circuit × List Transition)

theorem execute_runs (outcome : Option Failure) (start finish : Int) :
    ((execute none outcome start finish).run p).run.1.1 = true ↔
      ∃ g, ((beforeRequest start).run p).run.1 = .ok g := by
  simp only [execute, StateT.run_bind, Id.run_bind]
  cases ((beforeRequest start).run p).run.1 <;> simp [breaker_run]

theorem execute_cancelled (f : Failure) (outcome : Option Failure) (start finish : Int) :
    ((execute (some f) outcome start finish).run p).run = ((false, some f), p) := rfl

theorem afterRequest_of_stale {g : UInt64} (hle : g ≤ p.1.generation) (hne : g ≠ p.1.generation)
    (hfit : p.1.generation.toNat + 1 < UInt64.size) (success : Bool) (now : Int) :
    ((afterRequest g success now).run p).run.2.1 = ((currentState now).run p).run.2.1 := by
  rw [afterRequest_circuit, currentState_circuit, Circuit.complete_of_ne]
  have hlt : g.toNat < p.1.generation.toNat := by
    have := UInt64.le_iff_toNat_le.mp hle
    have : g.toNat ≠ p.1.generation.toNat := fun h => hne (UInt64.toNat_inj.mp h)
    omega
  intro heq
  rcases Circuit.refresh_generation (b := p.1) now with hr | hr
  · rw [hr] at heq
    rw [heq] at hlt
    omega
  · rw [hr] at heq
    rw [← heq, UInt64.toNat_add_one_of_lt hfit] at hlt
    omega

end Calls

/-- A breaker's counts stay meaningful under every interleaving of calls, admissions, refusals,
completions, resets and readings at any clock times, from a breaker created with any settings. -/
theorem breaker_counts_consistent (c : Config) (t₀ : Int) (w : Calls)
    (hw : Relation.ReflTransGen Calls.Step (Calls.start c t₀) w) :
    w.circuit.maxRequests = (if c.maxRequests = 0 then 1 else c.maxRequests) ∧
    w.circuit.generation.toNat = w.generations % UInt64.size ∧
    (w.circuit.state = .halfOpen → w.circuit.counts.requests ≤ w.circuit.maxRequests) ∧
    (w.circuit.counts.consecutiveSuccesses = 0 ∨ w.circuit.counts.consecutiveFailures = 0) ∧
    (w.generations + 2 < UInt64.size → w.admitted < UInt32.size →
      w.circuit.counts.requests.toNat = w.admitted ∧
      w.circuit.counts.totalSuccesses.toNat + w.circuit.counts.totalFailures.toNat ≤
        w.circuit.counts.requests.toNat ∧
      w.circuit.counts.consecutiveSuccesses ≤ w.circuit.counts.totalSuccesses ∧
      w.circuit.counts.consecutiveFailures ≤ w.circuit.counts.totalFailures) ∧
    (∀ now ts, let read := ((currentState now).run (w.circuit, ts)).run
      (((beforeRequest now).run (w.circuit, ts)).run.1 = .error openRefusal ↔
        read.1.1 = .opened) ∧
      (((beforeRequest now).run (w.circuit, ts)).run.1 = .error tooManyRequests ↔
        read.1.1 = .halfOpen ∧ read.2.1.maxRequests ≤ read.2.1.counts.requests)) ∧
    (∀ outcome start finish ts,
      ((execute none outcome start finish).run (w.circuit, ts)).run.1.1 = true ↔
        ∃ g, ((beforeRequest start).run (w.circuit, ts)).run.1 = .ok g) ∧
    (∀ f outcome start finish ts,
      ((execute (some f) outcome start finish).run (w.circuit, ts)).run =
        ((false, some f), (w.circuit, ts))) ∧
    (w.generations + 2 < UInt64.size → ∀ g ∈ w.running, g ≠ w.circuit.generation →
      ∀ success now ts,
      ((afterRequest g success now).run (w.circuit, ts)).run.2.1 =
        ((currentState now).run (w.circuit, ts)).run.2.1) := by
  have sound := Calls.Sound.of_reaches hw
  refine ⟨Calls.maxRequests_of_reaches hw, sound.generation, sound.fine.probes,
    sound.fine.streak, fun hfit hlt => ?_, fun now ts => ?_,
    fun outcome start finish ts => execute_runs _ outcome start finish,
    fun f outcome start finish ts => execute_cancelled _ f outcome start finish,
    fun hfit g hg hne success now ts => ?_⟩
  · obtain ⟨hreq, hsum, hcs, hcf⟩ := (Calls.Exact.of_reaches hw hfit).counted hlt
    exact ⟨hreq, by omega, hcs, hcf⟩
  · have hread := currentState_value now (w.circuit, ts)
    have hcirc := currentState_circuit now (w.circuit, ts)
    simp only [(beforeRequest_run now _).1, hread, hcirc]
    exact ⟨Circuit.admission_eq_openRefusal, Circuit.admission_eq_tooManyRequests⟩
  · have hcur : w.circuit.generation.toNat = w.generations := by
      rw [sound.generation, Nat.mod_eq_of_lt (by omega)]
    exact afterRequest_of_stale _ ((Calls.Exact.of_reaches hw hfit).running_le g hg) hne
      (by show w.circuit.generation.toNat + 1 < UInt64.size; omega) success now

theorem admitted_call_counted :
    ∃ w : Calls, Relation.ReflTransGen Calls.Step (Calls.start {} 0) w ∧ w.running = [1] ∧
      w.admitted = 1 ∧ w.generations = 1 ∧ w.circuit.counts.requests.toNat = 1 ∧
      w.circuit.counts.totalSuccesses.toNat + w.circuit.counts.totalFailures.toNat ≤ 1 := by
  have step : Calls.Step (Calls.start {} 0) _ := .enter 1 (g := 1) rfl rfl
  have hadmitted : (Calls.start {} 0).admittedIn
      ((beforeRequest 1).run ((Calls.start {} 0).circuit, [])).run.2.1 + 1 = 1 := rfl
  have hgens : (Calls.start {} 0).generationsIn
      ((beforeRequest 1).run ((Calls.start {} 0).circuit, [])).run.2.1 = 1 := rfl
  obtain ⟨-, -, -, -, counted, -⟩ := breaker_counts_consistent {} 0 _ (.single step)
  obtain ⟨hreq, hsum, -⟩ := counted (by rw [hgens]; decide) (by rw [hadmitted]; decide)
  exact ⟨_, .single step, rfl, hadmitted, hgens, hreq.trans hadmitted,
    hsum.trans_eq (hreq.trans hadmitted)⟩

end OrderSaga.Breaker
