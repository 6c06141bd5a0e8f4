import OrderSaga.Proofs.Handlers

/-!
Runs of the whole system: placements, relay batches, deliveries in any order and any number of
times, reaper sweeps, failing topics and the clock. Every step keeps the system agreeing, so a
completed saga is confirmed by every participant it used.
-/

namespace OrderSaga

/-- A shop before any work: its clock in UTC, no saga, no ledger row of a participant, and nothing
in an outbox or on the bus. -/
structure Shop.Fresh (sh : Shop) : Prop where
  utc : sh.now.offset = 0
  sagas : sh.orders.sagas = []
  ledgers : ∀ k : Kind, (sh.store (.participant k)).ledgers k.name = []
  outboxes : ∀ site, (sh.store site).outbox = []
  bus : sh.bus.pending = []

theorem Shop.Fresh.agrees {sh : Shop} (h : sh.Fresh) : sh.Agrees := by
  refine ⟨h.utc, ?_, ?_, ?_, ?_, ?_, ?_⟩
  · simp [h.sagas]
  · simp [h.sagas]
  · simp [h.sagas]
  · intro k r hr
    simp [h.ledgers k] at hr
  · intro site x hx
    simp [h.outboxes site] at hx
  · intro m hm
    simp [h.bus] at hm

/-- A shop and every message its bus ever held. -/
structure System where
  shop : Shop
  sent : List Message

namespace System

def next (sys : System) (sh : Shop) : System := ⟨sh, sys.sent ++ sh.bus.pending⟩

open ShopM

/-- One move of the system: the shop's own work, a second delivery of a message once sent, a reaper
sweep at any instant, a topic failing or recovering, or the clock moving on. -/
inductive Step : System → System → Prop
  | place (sys : System) (req : OrderRequest) {sh : Shop}
      (run : Ends (Shop.placeOrder req) sys.shop sh) : Step sys (sys.next sh)
  | relay (sys : System) (site : Site) {sh : Shop} (run : Ends (Shop.relay site) sys.shop sh) :
      Step sys (sys.next sh)
  | deliver (sys : System) {sh : Shop} (run : Ends Shop.deliver sys.shop sh) :
      Step sys (sys.next sh)
  | pump (sys : System) (rounds : Nat) {sh : Shop} (run : Ends (Shop.pump rounds []) sys.shop sh) :
      Step sys (sys.next sh)
  | redeliver (sys : System) {m : Message} (sent : m ∈ sys.sent) {sh : Shop}
      (run : Ends (Shop.deliverOne m) sys.shop sh) : Step sys (sys.next sh)
  | sweep (sys : System) (k : Kind) (threshold : Span) (limit : Int) (time : Instant) :
      Step sys (sys.next (sys.shop.setStore (.participant k)
        ((Shop.service k).sweep threshold limit time (sys.shop.store (.participant k))).2))
  | fail (sys : System) (topic : String) (on : Bool) :
      Step sys (sys.next { sys.shop with bus := sys.shop.bus.setFailing topic on })
  | tick (sys : System) (time : Instant) (utc : time.offset = 0) :
      Step sys (sys.next { sys.shop with now := time })

/-- The systems a run reaches from a fresh shop. -/
inductive Reachable : System → Prop
  | start {sh : Shop} (fresh : sh.Fresh) : Reachable ⟨sh, []⟩
  | step {sys sys' : System} (reached : Reachable sys) (step : Step sys sys') : Reachable sys'

/-- The system agrees: its shop agrees, and bears out every message ever sent. -/
structure Agrees (sys : System) : Prop where
  shop : sys.shop.Agrees
  sent : ∀ m ∈ sys.sent, sys.shop.Truthful m.value

variable {sys sys' : System}

theorem Agrees.next (h : sys.Agrees) {sh : Shop} (hs : sh.Agrees ∧ sys.shop.Grows sh) :
    (sys.next sh).Agrees := by
  refine ⟨hs.1, fun m hm => ?_⟩
  rcases List.mem_append.mp hm with hm | hm
  · exact hs.2.truthful (h.sent m hm)
  · exact hs.1.bus m hm

theorem Step.agrees (hstep : Step sys sys') (h : sys.Agrees) : sys'.Agrees := by
  have hA := h.shop
  cases hstep with
  | place req run =>
    exact h.next ((Shop.placeOrder_agreeing req : Agreeing (fun _ => True) _ _).ends hA trivial run)
  | relay site run =>
    exact h.next ((Shop.relay_agreeing site : Agreeing (fun _ => True) _ _).ends hA trivial run)
  | deliver run =>
    exact h.next ((Shop.deliver_agreeing : Agreeing (fun _ => True) _ _).ends hA trivial run)
  | pump rounds run =>
    exact h.next ((Shop.pump_agreeing rounds [] : Agreeing (fun _ => True) _ _).ends hA trivial run)
  | redeliver sent run => exact h.next ((Shop.deliverOne_agreeing _).ends hA (h.sent _ sent) run)
  | sweep k threshold limit time => exact h.next (hA.sweep k threshold limit time)
  | fail topic on => exact h.next (hA.of_parts rfl rfl rfl rfl)
  | tick time utc => exact h.next (hA.of_same utc rfl (fun _ => rfl) hA.outbox hA.bus)

theorem Reachable.agrees (h : sys.Reachable) : sys.Agrees := by
  induction h with
  | start fresh => exact ⟨fresh.agrees, fun m hm => by cases hm⟩
  | step _ step ih => exact step.agrees ih

end System

/-- **A completed saga is confirmed by every participant it used.** -/
theorem completed_saga_confirmed_in_ledgers {sys : System} (h : sys.Reachable) {g : Saga}
    (hg : g ∈ sys.shop.orders.sagas) (hc : g.status = .completed) {st : SagaStep}
    (hst : st ∈ g.stepList) (hr : st.reserve ≠ .skipped) :
    sys.shop.Confirms g.orderId g.userId st.kind := by
  have hA := h.agrees.shop
  have hfits : g.status.Fits g.stepList := (hA.shaped g hg).fits
  rw [hc] at hfits
  exact hA.confirmed g hg st hst (hfits st hst hr).2.1

/-- The shop a piece of work ends in, whether it returns or fails. -/
def ShopM.after {α : Type} (m : ShopM α) (sh : Shop) : Shop :=
  match m sh with
  | .ok _ sh' => sh'
  | .error _ sh' => sh'

theorem ShopM.ends_after {α : Type} (m : ShopM α) (sh : Shop) : Ends m sh (m.after sh) := by
  unfold ShopM.after Ends
  split
  · next a sh' h => exact .inl ⟨a, h⟩
  · next e sh' h => exact .inr ⟨e, h⟩

namespace System

/-- A move a driver can script: the shop's own work, or a second delivery of the `i`-th message ever
sent. -/
inductive Move where
  | place (req : OrderRequest)
  | relay (site : Site)
  | deliver
  | redeliver (i : Nat)

/-- The system after a scripted move; a second delivery needs a message sent that far. -/
def Move.run : Move → System → Option System
  | .place req, sys => some (sys.next ((Shop.placeOrder req).after sys.shop))
  | .relay site, sys => some (sys.next ((Shop.relay site).after sys.shop))
  | .deliver, sys => some (sys.next (Shop.deliver.after sys.shop))
  | .redeliver i, sys => sys.sent[i]?.map fun m => sys.next ((Shop.deliverOne m).after sys.shop)

/-- The system after a script of moves, if every move could be made. -/
def runScript : List Move → System → Option System
  | [], sys => some sys
  | mv :: rest, sys => (mv.run sys).bind (runScript rest)

theorem Move.step {mv : Move} (h : mv.run sys = some sys') : Step sys sys' := by
  cases mv with
  | place req =>
    cases Option.some.inj h
    exact .place sys req (ShopM.ends_after _ _)
  | relay site =>
    cases Option.some.inj h
    exact .relay sys site (ShopM.ends_after _ _)
  | deliver =>
    cases Option.some.inj h
    exact .deliver sys (ShopM.ends_after _ _)
  | redeliver i =>
    obtain ⟨m, hm, rfl⟩ := Option.map_eq_some_iff.mp h
    exact .redeliver sys (List.mem_of_getElem? hm) (ShopM.ends_after _ _)

theorem Reachable.runScript {ms : List Move} (h : sys.Reachable)
    (hrun : runScript ms sys = some sys') : sys'.Reachable := by
  induction ms generalizing sys with
  | nil =>
    cases Option.some.inj hrun
    exact h
  | cons mv rest ih =>
    obtain ⟨mid, hmid, hrest⟩ := Option.bind_eq_some_iff.mp hrun
    exact ih (.step h (Move.step hmid)) hrest

end System

/-- A shop whose participants all talk over the bus completes a saga once the orders service and the
stock participant relay and deliver in turn, and two messages delivered a second time change nothing
of it: its stock participant's ledger confirms it. -/
theorem relayed_placement_completes_confirmed : ∃ (sys : System) (g : Saga), sys.Reachable ∧
    g ∈ sys.shop.orders.sagas ∧ g.status = .completed ∧
      ∀ st ∈ g.stepList, st.reserve ≠ .skipped →
        sys.shop.Confirms g.orderId g.userId st.kind := by
  let sh₀ : Shop :=
    { now := .zero
      participants := { stock := { store := { options := [{ id := 7, stock := 5 }] } } } }
  have fresh : sh₀.Fresh := by
    refine ⟨rfl, rfl, fun k => ?_, fun site => ?_, rfl⟩
    · cases k <;> rfl
    · rcases site with _ | k
      · rfl
      · cases k <;> rfl
  let script : List System.Move :=
    [.place { userId := 1, items := [(7, 2)] }, .relay .orders, .deliver,
      .relay (.participant .stock), .deliver, .relay .orders, .deliver,
      .relay (.participant .stock), .deliver, .redeliver 0, .redeliver 1]
  have hrun : (System.runScript script ⟨sh₀, []⟩).map
      (fun sys => sys.shop.orders.sagas.any (·.status == .completed)) = some true := by
    decide +kernel
  obtain ⟨sys, hsys, hany⟩ := Option.map_eq_some_iff.mp hrun
  obtain ⟨g, hg, hc⟩ := List.any_eq_true.mp hany
  have hc' : g.status = .completed := by simpa using hc
  have reach : sys.Reachable := (System.Reachable.start fresh).runScript hsys
  exact ⟨sys, g, reach, hg, hc', fun st hst hr =>
    completed_saga_confirmed_in_ledgers reach hg hc' hst hr⟩

end OrderSaga
