import OrderSaga.Proofs.Causes
import OrderSaga.Proofs.Redelivery
import OrderSaga.Shop.Delivery

namespace OrderSaga

/-! ## The registry, untouched by handlers -/

namespace Shop

def registry (sh : Shop) : Bool × List (String × String) := (sh.wiring.remembers, sh.processed)

@[simp] theorem registry_setStore (sh : Shop) (site : Site) (s : Store) :
    (sh.setStore site s).registry = sh.registry := by
  cases site <;> rfl

theorem get_bind {α : Type} (f : Shop → ShopM α) (sh : Shop) : (get >>= f) sh = f sh sh := rfl

theorem tryCatch_run {α : Type} (m : ShopM α) (handler : Failure → ShopM α) (sh : Shop) :
    tryCatch m handler sh = match m sh with
      | .ok a sh₁ => .ok a sh₁
      | .error e sh₁ => handler e sh₁ := by
  show EStateM.tryCatch m handler sh = _
  unfold EStateM.tryCatch
  cases m sh <;> rfl

end Shop

namespace ShopM

variable {α β : Type}

def KeepsRegistry (m : ShopM α) : Prop :=
  ∀ sh sh', Ends m sh sh' → sh'.registry = sh.registry

namespace KeepsRegistry

theorem pure (a : α) : KeepsRegistry (Pure.pure a : ShopM α) := by
  rintro sh sh' (⟨b, h⟩ | ⟨e, h⟩) <;> cases h
  rfl

theorem throw (e : Failure) : KeepsRegistry (MonadExcept.throw e : ShopM α) := by
  rintro sh sh' (⟨b, h⟩ | ⟨e', h⟩) <;> cases h
  rfl

theorem get : KeepsRegistry (MonadState.get : ShopM Shop) := by
  rintro sh sh' (⟨b, h⟩ | ⟨e, h⟩) <;> cases h
  rfl

theorem bind {x : ShopM α} {f : α → ShopM β} (hx : KeepsRegistry x)
    (hf : ∀ a, KeepsRegistry (f a)) : KeepsRegistry (x >>= f) := by
  intro sh sh' hend
  cases hxs : x sh with
  | ok a sh₁ =>
    unfold Ends at hend
    rw [bind_of_ok hxs] at hend
    exact (hf a sh₁ sh' hend).trans (hx sh sh₁ (.inl ⟨a, hxs⟩))
  | error e sh₁ =>
    rw [Ends.of_error (bind_of_error hxs) hend]
    exact hx sh sh₁ (.inr ⟨e, hxs⟩)

theorem tryCatch {m : ShopM α} {handler : Failure → ShopM α} (hm : KeepsRegistry m)
    (hh : ∀ e, KeepsRegistry (handler e)) : KeepsRegistry (tryCatch m handler) := by
  intro sh sh' hend
  unfold Ends at hend
  rw [Shop.tryCatch_run] at hend
  cases hms : m sh with
  | ok a sh₁ =>
    rw [hms] at hend
    rw [Ends.of_ok rfl hend]
    exact hm sh sh₁ (.inl ⟨a, hms⟩)
  | error e sh₁ =>
    rw [hms] at hend
    exact (hh e sh₁ sh' hend).trans (hm sh sh₁ (.inr ⟨e, hms⟩))

theorem ite {p : Prop} [Decidable p] {x y : ShopM α} (hx : KeepsRegistry x)
    (hy : KeepsRegistry y) : KeepsRegistry (if p then x else y) := by
  split
  · exact hx
  · exact hy

theorem forIn {xs : List α} {b : β} {f : α → β → ShopM (ForInStep β)}
    (hf : ∀ x b, KeepsRegistry (f x b)) : KeepsRegistry (forIn xs b f) := by
  induction xs generalizing b with
  | nil => exact pure b
  | cons x rest ih =>
    rw [List.forIn_cons]
    refine bind (hf x b) fun r => ?_
    cases r with
    | done b => exact pure b
    | yield b => exact ih

theorem mapM {xs : List α} {f : α → ShopM β} (hf : ∀ x, KeepsRegistry (f x)) :
    KeepsRegistry (xs.mapM f) := by
  induction xs with
  | nil => exact pure []
  | cons x rest ih =>
    rw [List.mapM_cons]
    exact bind (hf x) fun _ => bind ih fun _ => pure _

theorem clock : KeepsRegistry Shop.clock := bind get fun _ => pure _

theorem withStore {site : Site} {f : Store → α × Store} :
    KeepsRegistry (Shop.withStore site f) := by
  rintro sh sh' (⟨b, h⟩ | ⟨e, h⟩) <;>
    simp only [Shop.withStore, modifyGet, MonadStateOf.modifyGet, EStateM.modifyGet] at h
  · obtain ⟨-, rfl⟩ := h
    simp
  · cases h

theorem onSite {site : Site} {m : Store.Op α} : KeepsRegistry (Shop.onSite site m) := by
  rintro sh sh' (⟨b, h⟩ | ⟨e, h⟩) <;> unfold Shop.onSite at h <;> split at h <;> cases h <;> simp

theorem apply {k : Kind} {op : Reservation.Operation} {req : Reservation.Request}
    {a : Option Reservation.Announcer} : KeepsRegistry (Shop.apply k op req a) :=
  bind clock fun _ => withStore

theorem call (op : Reservation.Operation) (kind : String) (req : Reservation.Request) :
    KeepsRegistry (Shop.call op kind req) := by
  unfold Shop.call
  split
  · exact pure _
  · refine bind get fun _ => ?_
    split
    · exact pure _
    · refine bind apply fun r => ?_
      split
      · exact pure _
      · split <;> exact pure _

end KeepsRegistry

end ShopM

namespace Shop

open ShopM

theorem updateSaga_keepsRegistry {id : String} {m : Instant → Draft → Except Failure Draft} :
    KeepsRegistry (updateSaga id m) :=
  .bind .clock fun _ => .onSite

theorem confirmSync_keepsRegistry (g : Saga) (steps : List SagaStep) :
    KeepsRegistry (confirmSync g steps) := by
  unfold confirmSync callAll
  refine .bind (.mapM fun _ => .bind (.call _ _ _) fun _ => .pure _) fun _ => ?_
  refine .bind (.forIn fun x _ => ?_) fun _ => .pure _
  obtain ⟨kind, r⟩ := x
  exact .bind .clock fun _ => .bind (.bind updateSaga_keepsRegistry fun _ => .pure _) fun _ => .pure _

theorem runCommand_keepsRegistry (k : Kind) (op : Reservation.Operation) (t : String)
    (cmd : Command) : KeepsRegistry (runCommand k op t cmd) := by
  unfold runCommand
  refine .bind .apply fun r => ?_
  split
  · split
    · exact .pure ()
    · exact .throw _
  · exact .pure ()

theorem compensate_keepsRegistry (k : Kind) (req : CompensationRequest) :
    KeepsRegistry (compensate k req) := by
  unfold compensate
  refine .bind .clock fun _ => .bind .withStore fun r => ?_
  cases r
  · exact .pure ()
  · exact .throw _

theorem handle_keepsRegistry (c : Consumer) (e : Envelope) : KeepsRegistry (handle c e) := by
  have answers : ∀ (m : ShopM Unit), KeepsRegistry m → KeepsRegistry (ignoreUnknownSaga m) :=
    fun m hm => .tryCatch hm fun _ => .ite (.pure ()) (.throw _)
  unfold handle
  split
  · exact runCommand_keepsRegistry _ _ _ _
  · exact runCommand_keepsRegistry _ _ _ _
  · exact compensate_keepsRegistry _ _
  · exact answers _ (.bind updateSaga_keepsRegistry fun _ => confirmSync_keepsRegistry _ _)
  · exact answers _ (.bind updateSaga_keepsRegistry fun _ => .pure ())
  · exact answers _ (.bind updateSaga_keepsRegistry fun _ => .pure ())
  · exact .throw _

end Shop

/-! ## The delivery law -/

namespace Consumer

def marked (c : Consumer) (sh : Shop) : List String :=
  (sh.processed.filter (·.1 == c.name)).map (·.2)

def mark (c : Consumer) (id : String) (sh : Shop) : Shop :=
  { sh with processed := sh.processed ++ [(c.name, id)] }

theorem mem_marked {c : Consumer} {sh : Shop} {id : String} :
    id ∈ c.marked sh ↔ (c.name, id) ∈ sh.processed := by
  simp [marked]

@[simp] theorem marked_mark (c : Consumer) (id : String) (sh : Shop) :
    c.marked (c.mark id sh) = c.marked sh ++ [id] := by
  simp [marked, mark]

theorem marked_of_registry {c : Consumer} {sh sh' : Shop} (h : sh'.registry = sh.registry) :
    c.marked sh' = c.marked sh := by
  simp only [Shop.registry, Prod.mk.injEq] at h
  simp [marked, h.2]

/-- The envelope of a delivery that reaches the handler, given the events done: the message decodes,
came on its envelope's topic, and its event is not done. -/
def admits (done : List String) (topic : String) (m : Message) : Option Envelope :=
  match Envelope.decode m.value with
  | .ok e => if e.topic = topic ∧ e.eventId ∉ done then some e else none
  | .error _ => none

/-- What became of one delivery: passed over, or handed to the handler with its answer. -/
inductive Visit where
  | passed
  | handled (e : Envelope) (answer : Option Failure)

namespace Visit

/-- What the delivery answers: the handler's failure, if it failed. -/
def answer : Visit → Option Failure
  | .passed => none
  | .handled _ a => a

/-- The events whose handler completed, in the order of the visits. -/
def completed : List Visit → List String
  | [] => []
  | .handled e none :: vs => e.eventId :: completed vs
  | _ :: vs => completed vs

end Visit

/-- The delivery law over a run of deliveries: a delivery reaches the handler iff `admits` gives its
envelope, and an event is done, and marked, once its handler completes. -/
inductive Served (c : Consumer) :
    List String → Shop → List (String × Message) → List Visit → Shop → Prop
  | nil {done : List String} {sh : Shop} : Served c done sh [] [] sh
  | passed {done : List String} {sh sh' : Shop} {t : String} {m : Message}
      {ds : List (String × Message)} {vs : List Visit}
      (gate : admits done t m = none) (rest : Served c done sh ds vs sh') :
      Served c done sh ((t, m) :: ds) (.passed :: vs) sh'
  | failed {done : List String} {sh sh₁ sh' : Shop} {t : String} {m : Message}
      {ds : List (String × Message)} {vs : List Visit} {e : Envelope} {f : Failure}
      (gate : admits done t m = some e) (run : Shop.handle c e sh = .error f sh₁)
      (rest : Served c done sh₁ ds vs sh') :
      Served c done sh ((t, m) :: ds) (.handled e (some f) :: vs) sh'
  | completed {done : List String} {sh sh₁ sh' : Shop} {t : String} {m : Message}
      {ds : List (String × Message)} {vs : List Visit} {e : Envelope}
      (gate : admits done t m = some e) (run : Shop.handle c e sh = .ok () sh₁)
      (rest : Served c (done ++ [e.eventId]) (c.mark e.eventId sh₁) ds vs sh') :
      Served c done sh ((t, m) :: ds) (.handled e none :: vs) sh'

/-- Deliveries to the consumer one after another: each answers what consuming it answered, and a
failed delivery leaves the shop as it failed for the next. -/
def consumeAll (c : Consumer) : List (String × Message) → Shop → List (Option Failure) × Shop
  | [], sh => ([], sh)
  | (t, m) :: ds, sh =>
    match Shop.consume c t m sh with
    | .ok () sh₁ => let r := consumeAll c ds sh₁; (none :: r.1, r.2)
    | .error f sh₁ => let r := consumeAll c ds sh₁; (some f :: r.1, r.2)

variable {c : Consumer} {t : String} {m : Message} {sh : Shop}

theorem consume_run (hrem : sh.wiring.remembers = true) :
    Shop.consume c t m sh = match admits (c.marked sh) t m with
      | none => .ok () sh
      | some e => match Shop.handle c e sh with
        | .ok () sh₁ => .ok () (c.mark e.eventId sh₁)
        | .error f sh₁ => .error f sh₁ := by
  unfold Shop.consume admits
  cases hd : Envelope.decode m.value with
  | error d => rfl
  | ok e =>
    by_cases ht : e.topic = t
    · by_cases hm : e.eventId ∈ c.marked sh
      ·
        simp [ht, hm, hrem, mem_marked.mp hm, Shop.get_bind]
        rfl
      · have hm' : (c.name, e.eventId) ∉ sh.processed := fun h => hm (mem_marked.mpr h)
        simp only [ht, hm, hrem, hm', Shop.get_bind, bne_self_eq_false, Bool.false_eq_true,
          if_false, Bool.true_and, not_false_eq_true, and_self, if_true, List.contains_iff_mem]
        cases hh : Shop.handle c e sh with
        | ok u sh₁ =>
          rw [ShopM.bind_of_ok hh]
          rfl
        | error f sh₁ => rw [ShopM.bind_of_error hh]
    · simp [ht]
      rfl

theorem consumeAll_served (ds : List (String × Message)) :
    ∀ sh : Shop, sh.wiring.remembers = true →
      ∃ vs, Served c (c.marked sh) sh ds vs (c.consumeAll ds sh).2 ∧
        (c.consumeAll ds sh).1 = vs.map Visit.answer ∧
        c.marked (c.consumeAll ds sh).2 = c.marked sh ++ Visit.completed vs := by
  induction ds with
  | nil => exact fun sh _ => ⟨[], .nil, rfl, by simp [consumeAll, Visit.completed]⟩
  | cons d ds ih =>
    intro sh hrem
    obtain ⟨t, m⟩ := d
    have hstep := consume_run (c := c) (t := t) (m := m) hrem
    cases hadm : admits (c.marked sh) t m with
    | none =>
      simp only [hadm] at hstep
      obtain ⟨vs, hs, hans, hmark⟩ := ih sh hrem
      refine ⟨.passed :: vs, ?_, ?_, ?_⟩
      · simpa only [consumeAll, hstep] using Served.passed hadm hs
      · simp [consumeAll, hstep, hans, Visit.answer]
      · simp [consumeAll, hstep, hmark, Visit.completed]
    | some e =>
      simp only [hadm] at hstep
      cases hh : Shop.handle c e sh with
      | ok u sh₁ =>
        simp only [hh] at hstep
        have hreg : sh₁.registry = sh.registry :=
          Shop.handle_keepsRegistry c e sh sh₁ (.inl ⟨u, hh⟩)
        have hrem₁ : (c.mark e.eventId sh₁).wiring.remembers = true := by
          simp only [Shop.registry, Prod.mk.injEq] at hreg
          simpa [mark, hreg.1] using hrem
        have hdone : c.marked (c.mark e.eventId sh₁) = c.marked sh ++ [e.eventId] := by
          rw [marked_mark, marked_of_registry hreg]
        obtain ⟨vs, hs, hans, hmark⟩ := ih _ hrem₁
        rw [hdone] at hs hmark
        refine ⟨.handled e none :: vs, ?_, ?_, ?_⟩
        · simpa only [consumeAll, hstep] using Served.completed hadm hh hs
        · simp [consumeAll, hstep, hans, Visit.answer]
        · simp [consumeAll, hstep, hmark, Visit.completed]
      | error f sh₁ =>
        simp only [hh] at hstep
        have hreg : sh₁.registry = sh.registry :=
          Shop.handle_keepsRegistry c e sh sh₁ (.inr ⟨f, hh⟩)
        have hrem₁ : sh₁.wiring.remembers = true := by
          simp only [Shop.registry, Prod.mk.injEq] at hreg
          rw [hreg.1, hrem]
        obtain ⟨vs, hs, hans, hmark⟩ := ih sh₁ hrem₁
        rw [marked_of_registry hreg] at hs hmark
        refine ⟨.handled e (some f) :: vs, ?_, ?_, ?_⟩
        · simpa only [consumeAll, hstep] using Served.failed hadm hh hs
        · simp [consumeAll, hstep, hans, Visit.answer]
        · simp [consumeAll, hstep, hmark, Visit.completed]

end Consumer

/-! ## Commands: acknowledged exactly when announced -/

namespace OutboxEntry

/-- The entry carries the envelope: its topic and key are the envelope's, and its payload is the
envelope written under the entry's event id. -/
def Carries (entry : OutboxEntry) (env : Envelope) : Prop :=
  entry.topic = env.topic ∧ entry.key = env.key ∧
    ({ env with eventId := entry.eventId }).encode? = .ok entry.payload

end OutboxEntry

namespace Store

variable {space : String} {env : Envelope} {now : Instant} {s s' : Store}

theorem entry?_carries {e : Envelope} {entry : OutboxEntry} (h : e.entry? = .ok entry) :
    entry.Carries e := by
  unfold Envelope.entry? at h
  cases hp : e.encode? with
  | ok payload =>
    rw [hp] at h
    cases h
    exact ⟨rfl, rfl, hp⟩
  | error r =>
    rw [hp] at h
    cases h

theorem entryOf_ok {entry : OutboxEntry} (h : entryOf space env s = .ok entry s') :
    s' = s ∧ entry.Carries env := by
  obtain ⟨s₁, s₂, hget, h⟩ := bind_ok h
  cases hget
  dsimp only at h
  cases hentry : Envelope.entry? { env with eventId := eventId space s } with
  | ok entry' =>
    rw [hentry] at h
    cases h
    have hc := entry?_carries hentry
    exact ⟨rfl, hc⟩
  | error f =>
    rw [hentry] at h
    cases h

theorem appendOutbox_carries {e e' : OutboxEntry} (h : appendOutbox e now s = .ok e' s')
    (hc : e.Carries env) : e'.Carries env := by
  obtain ⟨s₁, s₂, hget, h⟩ := bind_ok h
  cases hget
  obtain ⟨u, s₃, hcheck, h⟩ := bind_ok h
  obtain ⟨id, s₄, hid, h⟩ := bind_ok h
  obtain ⟨u', s₅, hmod, h⟩ := bind_ok h
  cases h
  exact hc

theorem writeEnvelope_carries (h : writeEnvelope space env now s = .ok () s') :
    ∃ entry, s'.outbox = s.outbox ++ [entry] ∧ entry.Carries env := by
  obtain ⟨entry, s₁, hentry, h₁⟩ := bind_ok h
  obtain ⟨written, s₂, happend, h₂⟩ := bind_ok h₁
  cases h₂
  obtain ⟨rfl, hc⟩ := entryOf_ok hentry
  exact ⟨written, appendOutbox_outbox happend, appendOutbox_carries happend hc⟩

end Store

namespace Reservation

variable {t : String} {k : Kind} {req : Request} {res : Option Result} {err : Option Failure}
  {now : Instant}

theorem resultAnnouncer_silent (h : resultAnnouncer t k req res err now = .ok none) :
    ∃ e, err = some e ∧ e.isDomain = false := by
  have hbuild : ∀ err', resultAnnouncer.build t k req res err' now ≠ .ok none := by
    intro err' hb
    unfold resultAnnouncer.build at hb
    dsimp only at hb
    revert hb
    cases Envelope.createNamed t _ now with
    | error g => rintro ⟨⟩
    | ok env => rintro ⟨⟩
  unfold resultAnnouncer at h
  split at h
  · next e =>
    split at h
    · next hd => exact ⟨e, rfl, by simpa using hd⟩
    · exact absurd h (hbuild _)
  · exact absurd h (hbuild _)

theorem resultAnnouncer_refusal {e : Failure} {env : Envelope}
    (h : resultAnnouncer t k req res (some e) now = .ok (some env)) : e.isDomain = true := by
  unfold resultAnnouncer at h
  dsimp only at h
  split at h
  · cases h
  · next hd => simpa using hd

namespace Service

variable {svc : Service} {op : Operation} {s s' : Store}

theorem resultAnnounced
    (h : svc.apply op req (some (resultAnnouncer t k)) now s = ((res, err), s')) :
    (err.all (fun e => e.isDomain && !e.has .announceFailed) = true ↔
      ∃ env entry, resultAnnouncer t k req res err now = .ok (some env) ∧
        s'.outbox = s.outbox ++ [entry] ∧ entry.Carries env) ∧
    (err.all (fun e => e.isDomain && !e.has .announceFailed) = false → s' = s) := by
  cases err with
  | none =>
    obtain ⟨s₁, h₀, hann⟩ := apply_succeeded h
    have hs₁ : s₁.outbox = s.outbox := apply_unannounced_outbox h₀
    rcases hann.made with ⟨hsilent, -⟩ | ⟨env, hmade, hw⟩
    · obtain ⟨e, he, -⟩ := resultAnnouncer_silent hsilent
      cases he
    · obtain ⟨entry, hout, hc⟩ := Store.writeEnvelope_carries hw
      exact ⟨iff_of_true rfl ⟨env, entry, hmade, by rw [hout, hs₁], hc⟩, nofun⟩
  | some e =>
    obtain ⟨cause, hcause, hcases⟩ := apply_failed_cause (resultAnnouncer_failures t k) h
    rcases hcases with ⟨rfl, hann⟩ | ⟨hcond, rfl, -⟩
    · rcases hann.made with ⟨hsilent, rfl⟩ | ⟨env, hmade, hw⟩
      ·
        obtain ⟨e, he, hdom⟩ := resultAnnouncer_silent hsilent
        cases he
        refine ⟨iff_of_false (by simp [hdom]) ?_, fun _ => rfl⟩
        rintro ⟨env, entry, hmade, -⟩
        rw [hsilent] at hmade
        cases hmade
      ·
        have hdom := resultAnnouncer_refusal hmade
        obtain ⟨entry, hout, hc⟩ := Store.writeEnvelope_carries hw
        exact ⟨iff_of_true (by simp [hdom, hcause.1]) ⟨env, entry, hmade, hout, hc⟩,
          by simp [hdom, hcause.1]⟩
    ·
      have hhas : e.has .announceFailed = true := by simp [Failure.has, hcond]
      refine ⟨iff_of_false (by simp [hhas]) ?_, fun _ => rfl⟩
      rintro ⟨env, entry, -, hout, -⟩
      have := congrArg List.length hout
      simp at this

end Service

end Reservation

namespace Shop

theorem apply_run (k : Kind) (op : Reservation.Operation) (req : Reservation.Request)
    (a : Option Reservation.Announcer) (sh : Shop) :
    apply k op req a sh =
      .ok ((service k).apply op req a sh.now (sh.store (.participant k))).1
        (sh.setStore (.participant k) ((service k).apply op req a sh.now
          (sh.store (.participant k))).2) := rfl

theorem runCommand_ok_iff {k : Kind} {op : Reservation.Operation} {t : String} {cmd : Command}
    {sh : Shop} {res : Option Reservation.Result} {err : Option Failure} {s' : Store}
    (h : (service k).apply op ⟨cmd.sagaId, cmd.orderId, cmd.userId, cmd.lines⟩
      (some (Reservation.resultAnnouncer t k)) sh.now (sh.store (.participant k)) = ((res, err), s')) :
    (∃ sh', runCommand k op t cmd sh = .ok () sh') ↔
      err.all (fun e => e.isDomain && !e.has .announceFailed) = true := by
  unfold runCommand
  rw [ShopM.bind_of_ok (apply_run _ _ _ _ _), h]
  cases err with
  | none => simpa using ⟨_, rfl⟩
  | some e =>
    dsimp only
    split
    · next hdone => exact iff_of_true ⟨_, rfl⟩ (by simpa using hdone)
    · next hagain => exact iff_of_false (by rintro ⟨_, ⟨⟩⟩) (by simpa using hagain)

theorem command_acknowledged_iff_announced (k : Kind) (op : Reservation.Operation) (t : String)
    (cmd : Command) (sh : Shop) :
    let req : Reservation.Request := ⟨cmd.sagaId, cmd.orderId, cmd.userId, cmd.lines⟩
    let s := sh.store (.participant k)
    let answer := (service k).apply op req (some (Reservation.resultAnnouncer t k)) sh.now s
    ((∃ sh', runCommand k op t cmd sh = .ok () sh') ↔
      ∃ env entry, Reservation.resultAnnouncer t k req answer.1.1 answer.1.2 sh.now = .ok (some env) ∧
        answer.2.outbox = s.outbox ++ [entry] ∧ entry.Carries env) ∧
    ∀ e sh', runCommand k op t cmd sh = .error e sh' → answer.2 = s := by
  intro req s answer
  generalize hans : answer = r
  obtain ⟨⟨res, err⟩, s'⟩ := r
  obtain ⟨hack, hkeep⟩ := Reservation.Service.resultAnnounced hans
  refine ⟨(runCommand_ok_iff hans).trans hack, fun e sh' herr => ?_⟩
  cases hall : err.all (fun e => e.isDomain && !e.has .announceFailed)
  · exact hkeep hall
  · obtain ⟨sh'', hok⟩ := (runCommand_ok_iff hans).mpr hall
    rw [herr] at hok
    cases hok

end Shop

/-! ## The law of delivery -/

/-- **Consumers follow the delivery law, and a participant is done with exactly the commands it
announced.** -/
theorem consumers_follow_delivery_law :
    (∀ (c : Consumer) (ds : List (String × Message)) (sh : Shop), sh.wiring.remembers = true →
      ∃ vs, c.Served (c.marked sh) sh ds vs (c.consumeAll ds sh).2 ∧
        (c.consumeAll ds sh).1 = vs.map Consumer.Visit.answer ∧
        c.marked (c.consumeAll ds sh).2 = c.marked sh ++ Consumer.Visit.completed vs) ∧
    ∀ (k : Kind) (op : Reservation.Operation) (t : String) (cmd : Command) (sh : Shop),
      let req : Reservation.Request := ⟨cmd.sagaId, cmd.orderId, cmd.userId, cmd.lines⟩
      let s := sh.store (.participant k)
      let answer := (Shop.service k).apply op req (some (Reservation.resultAnnouncer t k)) sh.now s
      ((∃ sh', Shop.runCommand k op t cmd sh = .ok () sh') ↔
        ∃ env entry,
          Reservation.resultAnnouncer t k req answer.1.1 answer.1.2 sh.now = .ok (some env) ∧
          answer.2.outbox = s.outbox ++ [entry] ∧ entry.Carries env) ∧
      ∀ e sh', Shop.runCommand k op t cmd sh = .error e sh' → answer.2 = s :=
  ⟨fun _ ds sh hrem => Consumer.consumeAll_served ds sh hrem,
    Shop.command_acknowledged_iff_announced⟩

/-- A message that is no envelope, delivered to the orchestrator of a fresh shop, follows the law. -/
theorem unreadable_message_follows_law :
    ({ now := Instant.zero } : Shop).wiring.remembers = true ∧
      ∃ vs, Consumer.orchestrator.Served
        (Consumer.orchestrator.marked { now := Instant.zero }) { now := Instant.zero }
        [("saga.reservation.result", ⟨"saga.reservation.result", "", "not an envelope"⟩)] vs
        (Consumer.orchestrator.consumeAll
          [("saga.reservation.result", ⟨"saga.reservation.result", "", "not an envelope"⟩)]
          { now := Instant.zero }).2 ∧
      (Consumer.orchestrator.consumeAll
          [("saga.reservation.result", ⟨"saga.reservation.result", "", "not an envelope"⟩)]
          { now := Instant.zero }).1 = vs.map Consumer.Visit.answer ∧
      Consumer.orchestrator.marked (Consumer.orchestrator.consumeAll
          [("saga.reservation.result", ⟨"saga.reservation.result", "", "not an envelope"⟩)]
          { now := Instant.zero }).2 =
        Consumer.orchestrator.marked { now := Instant.zero } ++ Consumer.Visit.completed vs :=
  ⟨rfl, consumers_follow_delivery_law.1 _ _ _ rfl⟩

end OrderSaga
