import OrderSaga.Proofs.Atomicity

namespace OrderSaga

open Relation Store Reservation

/-! ## The batch -/

namespace LedgerEntry

theorem reservedBefore_iff {a b : LedgerEntry} :
    a.reservedBefore b = true ↔ a.reservedAt.nanos < b.reservedAt.nanos ∨
      a.reservedAt.nanos = b.reservedAt.nanos ∧ a.id.toNat ≤ b.id.toNat := by
  simp [reservedBefore, UInt64.le_iff_toNat_le]

theorem reservedBefore_trans {a b c : LedgerEntry} (hab : a.reservedBefore b = true)
    (hbc : b.reservedBefore c = true) : a.reservedBefore c = true := by
  rw [reservedBefore_iff] at *
  omega

theorem reservedBefore_total (a b : LedgerEntry) :
    (a.reservedBefore b || b.reservedBefore a) = true := by
  by_cases h : a.reservedBefore b = true
  · simp [h]
  · have hba : b.reservedBefore a = true := by
      rw [reservedBefore_iff] at h ⊢
      omega
    simp [hba]

def owner (e : LedgerEntry) : UInt64 × UInt64 := (e.orderId, e.userId)

end LedgerEntry

namespace Store

variable {s : Store} {kind : String} {before : Instant} {limit : Int} {x : LedgerEntry}

def expiredSorted (s : Store) (kind : String) (before : Instant) : List LedgerEntry :=
  ((s.ledgers kind).filter (s.expiredOpen kind before)).mergeSort LedgerEntry.reservedBefore

theorem findExpired_split (s : Store) (kind : String) (before : Instant) (limit : Int) :
    ∃ later, s.expiredSorted kind before = s.findExpired kind before limit ++ later := by
  unfold findExpired expiredSorted
  split
  · exact ⟨_, (List.take_append_drop _ _).symm⟩
  · exact ⟨[], (List.append_nil _).symm⟩

theorem expiredSorted_perm (s : Store) (kind : String) (before : Instant) :
    List.Perm (s.expiredSorted kind before) ((s.ledgers kind).filter (s.expiredOpen kind before)) :=
  List.mergeSort_perm _ _

theorem mem_expiredSorted :
    x ∈ s.expiredSorted kind before ↔
      x ∈ s.ledgers kind ∧ s.expiredOpen kind before x = true :=
  (expiredSorted_perm s kind before).mem_iff.trans List.mem_filter

theorem expiredSorted_sorted (s : Store) (kind : String) (before : Instant) :
    (s.expiredSorted kind before).Pairwise (fun a b => a.reservedBefore b = true) :=
  @List.pairwise_mergeSort _ LedgerEntry.reservedBefore
    (fun _ _ _ => LedgerEntry.reservedBefore_trans) LedgerEntry.reservedBefore_total _

theorem findExpired_subperm (s : Store) (kind : String) (before : Instant) (limit : Int) :
    (s.findExpired kind before limit).Subperm
      ((s.ledgers kind).filter (s.expiredOpen kind before)) := by
  obtain ⟨later, hl⟩ := findExpired_split s kind before limit
  exact (hl ▸ List.sublist_append_left _ later).subperm.trans
    (expiredSorted_perm s kind before).subperm

theorem findExpired_length (hlimit : 0 < limit) :
    (s.findExpired kind before limit).length =
      min limit.toNat ((s.ledgers kind).filter (s.expiredOpen kind before)).length := by
  unfold findExpired
  rw [if_pos hlimit, List.length_take, List.length_mergeSort]

theorem findExpired_oldest (hx : x ∈ s.ledgers kind) (he : s.expiredOpen kind before x = true)
    (hout : x ∉ s.findExpired kind before limit) :
    ∀ y ∈ s.findExpired kind before limit, y.reservedBefore x = true := by
  obtain ⟨later, hl⟩ := findExpired_split s kind before limit
  have hsorted := expiredSorted_sorted s kind before
  have hmem : x ∈ s.expiredSorted kind before := mem_expiredSorted.mpr ⟨hx, he⟩
  rw [hl] at hsorted hmem
  have hlater : x ∈ later := (List.mem_append.mp hmem).resolve_left hout
  exact fun y hy => (List.pairwise_append.mp hsorted).2.2 y hy x hlater

theorem mem_findExpired_of_few
    (hfew : ((s.ledgers kind).filter (s.expiredOpen kind before)).length ≤ limit.toNat)
    (hx : x ∈ s.ledgers kind) (he : s.expiredOpen kind before x = true) :
    x ∈ s.findExpired kind before limit := by
  have hmem : x ∈ s.expiredSorted kind before := mem_expiredSorted.mpr ⟨hx, he⟩
  unfold findExpired
  split
  · rw [List.take_of_length_le (by rwa [List.length_mergeSort])]
    exact hmem
  · exact hmem

theorem hasStage_of_mem {s : Store} {kind : String} {e : LedgerEntry}
    (he : e ∈ s.ledgers kind) : s.hasStage kind e.orderId e.userId e.resource e.stage = true :=
  (s.hasStage_iff ..).mpr ⟨e, he, rfl⟩

theorem hasStage_append {s s' : Store} {kind : String} {more : List LedgerEntry}
    (h : s'.ledgers kind = s.ledgers kind ++ more) {o u r : UInt64} {n : Nat}
    (hs : s.hasStage kind o u r n = true) : s'.hasStage kind o u r n = true := by
  obtain ⟨x, hx, hkey⟩ := (s.hasStage_iff ..).mp hs
  exact (s'.hasStage_iff ..).mpr ⟨x, h ▸ List.mem_append_left more hx, hkey⟩

theorem hasStage_eq_false_of_append {s s' : Store} {kind : String} {more : List LedgerEntry}
    (h : s'.ledgers kind = s.ledgers kind ++ more) {o u r : UInt64} {n : Nat}
    (hs' : s'.hasStage kind o u r n = false) : s.hasStage kind o u r n = false := by
  cases hs : s.hasStage kind o u r n
  · rfl
  · rw [hasStage_append h hs] at hs'
    cases hs'

theorem mem_of_append_cancels {s s' : Store} {kind : String} {more : List LedgerEntry}
    (h : s'.ledgers kind = s.ledgers kind ++ more) (hmore : ∀ f ∈ more, f.type = .cancel)
    {x : LedgerEntry} (hx : x ∈ s'.ledgers kind) (hr : x.type.isFinalization = false) :
    x ∈ s.ledgers kind := by
  rw [h] at hx
  rcases List.mem_append.mp hx with hx | hx
  · exact hx
  · rw [hmore x hx] at hr
    cases hr

theorem findByOrder_append_other {s s' : Store} {kind : String} {more : List LedgerEntry}
    (h : s'.ledgers kind = s.ledgers kind ++ more) {o u : UInt64}
    (hmore : ∀ f ∈ more, LedgerEntry.owner f ≠ (o, u)) :
    s'.findByOrder kind o u = s.findByOrder kind o u := by
  have hnone : more.filter (fun e => e.orderId == o && e.userId == u) = [] :=
    List.filter_eq_nil_iff.mpr fun f hf => by
      have := hmore f hf
      simp only [LedgerEntry.owner, ne_eq, Prod.mk.injEq] at this
      simpa using this
  unfold findByOrder
  rw [h, List.filter_append, hnone, List.append_nil]

end Store

namespace Reservation

def ownerOf (order : UInt64 × UInt64 × String) : UInt64 × UInt64 := (order.1, order.2.1)

theorem expiredOrders_append (rows : List LedgerEntry) (e : LedgerEntry) :
    expiredOrders (rows ++ [e]) =
      if (expiredOrders rows).any (fun order => order.1 == e.orderId && order.2.1 == e.userId)
      then expiredOrders rows
      else expiredOrders rows ++ [(e.orderId, e.userId, e.sagaId)] := by
  simp only [expiredOrders, List.foldl_append, List.foldl_cons, List.foldl_nil]
  rfl

theorem expiredOrders_keys (rows : List LedgerEntry) :
    ((expiredOrders rows).map ownerOf).Nodup ∧
      ∀ k, k ∈ (expiredOrders rows).map ownerOf ↔ k ∈ rows.map LedgerEntry.owner := by
  induction rows using List.reverseRecOn with
  | nil => simp [expiredOrders]
  | append_singleton rows e ih =>
    obtain ⟨hnodup, hmem⟩ := ih
    rw [expiredOrders_append]
    split
    next hseen =>
      obtain ⟨order, horder, hkey⟩ := List.any_eq_true.mp hseen
      have he : e.owner ∈ rows.map LedgerEntry.owner :=
        (hmem _).mp (List.mem_map.mpr
          ⟨order, horder, by simpa [ownerOf, LedgerEntry.owner] using hkey⟩)
      refine ⟨hnodup, fun k => ?_⟩
      simp only [hmem, List.map_append, List.map_cons, List.map_nil, List.mem_append,
        List.mem_singleton]
      exact ⟨.inl, fun h => h.elim id fun hk => hk ▸ he⟩
    next hfresh =>
      have hnot : e.owner ∉ (expiredOrders rows).map ownerOf := by
        rintro hk
        obtain ⟨order, horder, hkey⟩ := List.mem_map.mp hk
        exact hfresh (List.any_eq_true.mpr ⟨order, horder, by
          simp only [ownerOf, LedgerEntry.owner, Prod.mk.injEq] at hkey
          simp [hkey]⟩)
      refine ⟨?_, fun k => ?_⟩
      · rw [List.map_append, List.nodup_append]
        exact ⟨hnodup, List.nodup_singleton _, by
          rintro a ha b hb rfl
          rw [List.mem_singleton.mp hb] at ha
          exact hnot ha⟩
      · simp only [List.map_append, List.mem_append, hmem, List.map_cons, List.map_nil,
          List.mem_singleton]
        rfl

theorem expiredOrders_length (rows : List LedgerEntry) :
    (expiredOrders rows).length = (rows.map LedgerEntry.owner).toFinset.card := by
  obtain ⟨hnodup, hmem⟩ := expiredOrders_keys rows
  rw [← List.length_map (f := ownerOf), ← List.toFinset_card_of_nodup hnodup]
  congr 1
  ext k
  simp only [List.mem_toFinset, hmem]

/-! ## One cancellation of a whole order -/

namespace SweepReport

theorem count_files (r : SweepReport) (a : Option Result × Option Failure) :
    (r.count a).expired = r.expired ∧ (r.count a).orders = r.orders ∧
      (r.count a).canceled + (r.count a).skipped + (r.count a).failed =
        r.canceled + r.skipped + r.failed + 1 ∧
      r.skipped + r.failed + (if a.2 = none then 0 else 1) ≤
        (r.count a).skipped + (r.count a).failed := by
  unfold count
  split
  · split <;> simp <;> omega
  · simp
    omega
  · split <;> simp <;> omega

end SweepReport

namespace Service

variable {svc : Service} {now : Instant} {s s' : Store}

theorem resolveLines_whole {g : String} {o u : UInt64} {lines : List Line}
    (h : svc.resolveLines s ⟨g, o, u, []⟩ = .ok lines) {x : LedgerEntry}
    (hx : x ∈ s.findByOrder svc.kind.name o u) (hr : x.type = .reserve) : x.line ∈ lines := by
  unfold resolveLines at h
  simp only [List.isEmpty_nil, Bool.not_true, Bool.false_eq_true, if_false] at h
  split at h
  · cases h
  · cases h
    exact (List.mergeSort_perm _ _).mem_iff.mpr
      (List.mem_map_of_mem (List.mem_filter.mpr ⟨hx, by simp [hr]⟩))

theorem cancelWhole_cases {g : String} {o u : UInt64} {answer : Option Result × Option Failure}
    (h : svc.apply .cancel ⟨g, o, u, []⟩ none now s = (answer, s')) :
    (answer.2 ≠ none ∧ s' = s) ∨
      (answer.2 = none ∧ ∃ more, s'.ledgers svc.kind.name = s.ledgers svc.kind.name ++ more ∧
        (∀ f ∈ more, f.orderId = o ∧ f.userId = u ∧ f.type = .cancel) ∧
        ∀ x ∈ s.findByOrder svc.kind.name o u, x.type = .reserve →
          s'.hasStage svc.kind.name o u x.resource 2 = true) := by
  obtain ⟨res, _ | e⟩ := answer
  ·
    obtain ⟨lines, -, hl, -, more, hledger, hmore, hsettled⟩ := finalize_ok h
    refine .inr ⟨rfl, more, hledger, hmore, fun x hx hr => ?_⟩
    obtain ⟨-, f, hf, hft⟩ := hsettled x.line (resolveLines_whole hl hx hr)
    obtain ⟨hmem, hres, -⟩ := final_eq_some hf
    rw [← findByOrder_append hledger fun f hf => ⟨(hmore f hf).1, (hmore f hf).2.1⟩] at hmem
    simp only [findByOrder, List.mem_filter, Bool.and_eq_true, beq_iff_eq] at hmem
    obtain ⟨hmem, rfl, rfl⟩ := hmem
    have hstage : f.stage = 2 := by
      simp [LedgerEntry.stage, hft, closingType, EntryType.stage]
    have hres : f.resource = x.resource := hres
    rw [← hres, ← hstage]
    exact hasStage_of_mem hmem
  · exact .inl ⟨Option.some_ne_none e, (apply_unannounced_failed h).1⟩

theorem cancelExpired_of_apply {r : SweepReport} {g : String} {o u : UInt64}
    {answer : Option Result × Option Failure}
    (h : svc.apply .cancel ⟨g, o, u, []⟩ none now s = (answer, s')) :
    svc.cancelExpired now (r, s) (o, u, g) =
      (SweepReport.count { r with orders := r.orders + 1 } answer, s') := by
  simp only [cancelExpired, h]

/-! ## The sweep's loop -/

theorem cancelAll_appends (svc : Service) (now : Instant)
    (orders : List (UInt64 × UInt64 × String)) (r : SweepReport) (s : Store) :
    ∃ more, (orders.foldl (svc.cancelExpired now) (r, s)).2.ledgers svc.kind.name =
        s.ledgers svc.kind.name ++ more ∧
      ∀ f ∈ more, f.type = .cancel ∧ f.owner ∈ orders.map ownerOf := by
  induction orders generalizing r s with
  | nil => exact ⟨[], by simp, by simp⟩
  | cons order rest ih =>
    obtain ⟨o, u, g⟩ := order
    rcases h : svc.apply .cancel ⟨g, o, u, []⟩ none now s with ⟨answer, s₁⟩
    rw [List.foldl_cons, cancelExpired_of_apply h]
    obtain ⟨more, hl, hmore⟩ :=
      ih (SweepReport.count { r with orders := r.orders + 1 } answer) s₁
    have hrest : ∀ f ∈ more,
        f.type = .cancel ∧ f.owner ∈ ((o, u, g) :: rest).map ownerOf :=
      fun f hf => ⟨(hmore f hf).1, List.mem_cons_of_mem _ (hmore f hf).2⟩
    rcases cancelWhole_cases h with ⟨-, rfl⟩ | ⟨-, m₁, h₁, hm₁, -⟩
    · exact ⟨more, hl, hrest⟩
    · refine ⟨m₁ ++ more, by rw [hl, h₁, List.append_assoc], fun f hf => ?_⟩
      rcases List.mem_append.mp hf with hf | hf
      · obtain ⟨ho, hu, ht⟩ := hm₁ f hf
        exact ⟨ht, by simp [LedgerEntry.owner, ownerOf, ho, hu]⟩
      · exact hrest f hf

theorem cancelAll_counts (svc : Service) (now : Instant)
    (orders : List (UInt64 × UInt64 × String)) (r : SweepReport) (s : Store) :
    (orders.foldl (svc.cancelExpired now) (r, s)).1.expired = r.expired ∧
      (orders.foldl (svc.cancelExpired now) (r, s)).1.orders = r.orders + orders.length ∧
      (orders.foldl (svc.cancelExpired now) (r, s)).1.canceled +
          (orders.foldl (svc.cancelExpired now) (r, s)).1.skipped +
          (orders.foldl (svc.cancelExpired now) (r, s)).1.failed =
        r.canceled + r.skipped + r.failed + orders.length := by
  induction orders generalizing r s with
  | nil => simp
  | cons order rest ih =>
    obtain ⟨o, u, g⟩ := order
    rcases h : svc.apply .cancel ⟨g, o, u, []⟩ none now s with ⟨answer, s₁⟩
    rw [List.foldl_cons, cancelExpired_of_apply h]
    obtain ⟨he, ho, ht, -⟩ := SweepReport.count_files { r with orders := r.orders + 1 } answer
    obtain ⟨ihe, iho, iht⟩ :=
      ih (SweepReport.count { r with orders := r.orders + 1 } answer) s₁
    simp only at he ho ht
    refine ⟨ihe.trans he, by rw [iho, ho, List.length_cons]; omega, by
      rw [iht, ht, List.length_cons]; omega⟩

theorem cancelAll_untouched_or_closed (svc : Service) (now : Instant) (o u : UInt64)
    (orders : List (UInt64 × UInt64 × String)) (r : SweepReport) (s : Store) :
    (orders.foldl (svc.cancelExpired now) (r, s)).2.findByOrder svc.kind.name o u =
        s.findByOrder svc.kind.name o u ∨
      ∀ x ∈ s.findByOrder svc.kind.name o u, x.type = .reserve →
        (orders.foldl (svc.cancelExpired now) (r, s)).2.hasStage svc.kind.name o u
          x.resource 2 = true := by
  induction orders generalizing r s with
  | nil => exact .inl rfl
  | cons order rest ih =>
    obtain ⟨o', u', g⟩ := order
    rcases h : svc.apply .cancel ⟨g, o', u', []⟩ none now s with ⟨answer, s₁⟩
    rw [List.foldl_cons, cancelExpired_of_apply h]
    set r₁ := SweepReport.count { r with orders := r.orders + 1 } answer
    rcases cancelWhole_cases h with ⟨-, rfl⟩ | ⟨-, m₁, h₁, hm₁, hclosed⟩
    · exact ih r₁ _
    by_cases hkey : (o', u') = (o, u)
    ·
      obtain ⟨ho, hu⟩ := Prod.mk.inj hkey
      subst ho hu
      obtain ⟨more, hl, -⟩ := cancelAll_appends svc now rest r₁ s₁
      exact .inr fun x hx hr => hasStage_append hl (hclosed x hx hr)
    ·
      have hsame : s₁.findByOrder svc.kind.name o u = s.findByOrder svc.kind.name o u :=
        findByOrder_append_other h₁ fun f hf => by
          obtain ⟨ho, hu, -⟩ := hm₁ f hf
          simpa [LedgerEntry.owner, ho, hu] using hkey
      rw [← hsame]
      exact ih r₁ s₁

theorem cancelAll_refusals (svc : Service) (now before : Instant)
    (orders : List (UInt64 × UInt64 × String)) (r : SweepReport) (s : Store) :
    (orders.filter fun order =>
        ((orders.foldl (svc.cancelExpired now) (r, s)).2.ledgers svc.kind.name).any fun x =>
          x.owner == ownerOf order &&
            (orders.foldl (svc.cancelExpired now) (r, s)).2.expiredOpen svc.kind.name before x
      ).length + r.skipped + r.failed ≤
      (orders.foldl (svc.cancelExpired now) (r, s)).1.skipped +
        (orders.foldl (svc.cancelExpired now) (r, s)).1.failed := by
  induction orders generalizing r s with
  | nil => simp
  | cons order rest ih =>
    obtain ⟨o, u, g⟩ := order
    rcases h : svc.apply .cancel ⟨g, o, u, []⟩ none now s with ⟨answer, s₁⟩
    rw [List.foldl_cons, cancelExpired_of_apply h]
    have ihr := ih (SweepReport.count { r with orders := r.orders + 1 } answer) s₁
    obtain ⟨-, -, -, hfiled⟩ := SweepReport.count_files { r with orders := r.orders + 1 } answer
    simp only at hfiled
    set r₁ := SweepReport.count { r with orders := r.orders + 1 } answer
    set result := rest.foldl (svc.cancelExpired now) (r₁, s₁)
    rw [List.filter_cons]
    rcases cancelWhole_cases h with ⟨hrefused, rfl⟩ | ⟨hdone, m₁, h₁, hm₁, hclosed⟩
    ·
      rw [if_neg hrefused] at hfiled
      split
      · rw [List.length_cons]
        omega
      · omega
    ·
      rw [if_pos hdone] at hfiled
      have hopen : ((result.2.ledgers svc.kind.name).any fun x =>
          x.owner == ownerOf (o, u, g) && result.2.expiredOpen svc.kind.name before x) = false := by
        refine List.any_eq_false.mpr fun x hx hopen => ?_
        simp only [ownerOf, LedgerEntry.owner, expiredOpen, Bool.and_eq_true, beq_iff_eq,
          Prod.mk.injEq, Bool.not_eq_true'] at hopen
        obtain ⟨⟨rfl, rfl⟩, ⟨hr, -⟩, hstage⟩ := hopen
        obtain ⟨more, hl, hmore⟩ := cancelAll_appends svc now rest r₁ s₁
        have hfin : x.type.isFinalization = false := by rw [hr]; rfl
        have hx₁ := mem_of_append_cancels hl (fun f hf => (hmore f hf).1) hx hfin
        have hx₀ := mem_of_append_cancels h₁ (fun f hf => (hm₁ f hf).2.2) hx₁ hfin
        have hclosed' := hasStage_append hl
          (hclosed x (by simp [findByOrder, hx₀]) hr)
        rw [hclosed'] at hstage
        cases hstage
      rw [hopen]
      simp only [Bool.false_eq_true, if_false]
      omega

end Service

end Reservation

/-! ## Moves that only release -/

/-- One move of a sweep: leave the holdings alone, or release the line of an opening row of one of
`orders` and write its cancellation row. -/
inductive Release (k : Kind) (orders : List (UInt64 × UInt64)) : Store → Store → Prop
  | keep {s s' : Store} (holdings : s'.holdings = s.holdings) : Release k orders s s'
  | release {s s₁ s₂ : Store} {r : LedgerEntry} {id : UInt64} {g : String} {now : Instant}
      (row : r ∈ s.ledgers k.name) (opening : r.type.isFinalization = false)
      (owner : r.owner ∈ orders)
      (done : k.release r.orderId r.userId r.line now s = .ok () s₁)
      (write : appendLedger k.name (.ofLine g r.orderId r.userId r.line .cancel now) s₁ =
        .ok id s₂) : Release k orders s s₂

section Moves

variable {k : Kind} {orders : List (UInt64 × UInt64)} {s s' : Store}

theorem Step.grows (h : Step k s s') : ∃ more, s'.ledgers k.name = s.ledgers k.name ++ more := by
  cases h with
  | keep ledgers => exact ⟨[], by rw [ledgers, List.append_nil]⟩
  | hold _ _ held write =>
    exact ⟨_, by rw [(appendLedger_ok write).2.1, Kind.hold_ledgers held]⟩
  | commit _ _ done write =>
    exact ⟨_, by rw [(appendLedger_ok write).2.1, Kind.commit_ledgers done]⟩
  | release _ _ done write =>
    exact ⟨_, by rw [(appendLedger_ok write).2.1, Kind.release_ledgers done]⟩

theorem moves_grow (h : ReflTransGen (Step k) s s') :
    ∃ more, s'.ledgers k.name = s.ledgers k.name ++ more := by
  induction h with
  | refl => exact ⟨[], (List.append_nil _).symm⟩
  | tail _ step ih =>
    obtain ⟨m₁, h₁⟩ := ih
    obtain ⟨m₂, h₂⟩ := step.grows
    exact ⟨m₁ ++ m₂, by rw [h₂, h₁, List.append_assoc]⟩

theorem Step.release_of_rows (h : Step k s s') {more : List LedgerEntry}
    (hl : s'.ledgers k.name = s.ledgers k.name ++ more)
    (hmore : ∀ f ∈ more, f.type = .cancel ∧ f.owner ∈ orders) : Release k orders s s' := by
  cases h with
  | keep ledgers options coupons points =>
    exact .keep (by simp only [Store.holdings, ledgers, options, coupons, points])
  | hold _ _ held write =>
    rw [(appendLedger_ok write).2.1, Kind.hold_ledgers held, List.append_cancel_left_eq] at hl
    have := (hmore _ (hl ▸ List.mem_singleton_self _)).1
    simp [LedgerEntry.ofLine] at this
  | commit _ _ done write =>
    rw [(appendLedger_ok write).2.1, Kind.commit_ledgers done, List.append_cancel_left_eq] at hl
    have := (hmore _ (hl ▸ List.mem_singleton_self _)).1
    simp [LedgerEntry.ofLine] at this
  | release row opening done write =>
    rw [(appendLedger_ok write).2.1, Kind.release_ledgers done, List.append_cancel_left_eq] at hl
    have := (hmore _ (hl ▸ List.mem_singleton_self _)).2
    exact .release row opening (by simpa [LedgerEntry.ofLine, LedgerEntry.owner] using this)
      done write

theorem moves_release (h : ReflTransGen (Step k) s s') {more : List LedgerEntry}
    (hl : s'.ledgers k.name = s.ledgers k.name ++ more)
    (hmore : ∀ f ∈ more, f.type = .cancel ∧ f.owner ∈ orders) :
    ReflTransGen (Release k orders) s s' := by
  induction h generalizing more with
  | refl => exact .refl
  | tail hrun step ih =>
    obtain ⟨m₁, h₁⟩ := moves_grow hrun
    obtain ⟨m₂, h₂⟩ := step.grows
    have hsplit : more = m₁ ++ m₂ := by
      rw [h₂, h₁, List.append_assoc] at hl
      exact (List.append_cancel_left hl).symm
    subst hsplit
    exact .tail (ih h₁ fun f hf => hmore f (List.mem_append_left _ hf))
      (step.release_of_rows h₂ fun f hf => hmore f (List.mem_append_right _ hf))

theorem Release.run_rows (h : ReflTransGen (Release k orders) s s') :
    ∃ more, s'.ledgers k.name = s.ledgers k.name ++ more ∧
      ∀ f ∈ more, f.type = .cancel ∧ f.owner ∈ orders ∧
        s.hasStage k.name f.orderId f.userId f.resource 2 = false ∧
        ∃ r ∈ s.ledgers k.name, r.type.isFinalization = false ∧ r.sameKey f = true := by
  induction h with
  | refl => exact ⟨[], by simp, by simp⟩
  | @tail b c _ step ih =>
    obtain ⟨m₁, h₁, hm₁⟩ := ih
    cases step with
    | keep holdings => exact ⟨m₁, by rw [Service.ledgers_of_holdings holdings, h₁], hm₁⟩
    | @release s₁ _ r id g now row opening owner done write =>
      obtain ⟨hfree, hrows, -⟩ := appendLedger_ok write
      rw [Kind.release_ledgers done] at hfree hrows
      have hfree' : b.hasStage k.name r.orderId r.userId r.resource 2 = false :=
        (Store.hasStage_eq b k.name (.ofLine g r.orderId r.userId r.line .cancel now) 2).trans hfree
      refine ⟨m₁ ++ [_], by rw [hrows, h₁, List.append_assoc], fun f hf => ?_⟩
      rcases List.mem_append.mp hf with hf | hf
      · exact hm₁ f hf
      rw [List.mem_singleton.mp hf]
      refine ⟨rfl, owner, ?_, ?_⟩
      ·
        exact hasStage_eq_false_of_append h₁ hfree'
      ·
        refine ⟨_, mem_of_append_cancels h₁ (fun f hf => (hm₁ f hf).1) row opening, opening,
          ?_⟩
        simp [LedgerEntry.sameKey, LedgerEntry.ofLine, LedgerEntry.line]

end Moves

/-! ## The sweep -/

open Reservation.Service

/-- **A sweep cancels the orders of its expired reservations, and nothing else.** -/
theorem sweep_cancels_expired_orders {svc : Service} {threshold : Span} {limit : Int}
    {now : Instant} {s s' : Store} {report : SweepReport}
    (h : svc.sweep threshold limit now s = (report, s')) :
    let cutoff := expiryCutoff threshold now
    let expired := (s.ledgers svc.kind.name).filter (s.expiredOpen svc.kind.name cutoff)
    let rows := s.findExpired svc.kind.name cutoff (batchSize limit)
    (rows.Subperm expired ∧ rows.length = min (batchSize limit).toNat expired.length ∧
      ∀ x ∈ expired, x ∉ rows → ∀ y ∈ rows, y.reservedBefore x = true) ∧
    ReflTransGen (Release svc.kind (rows.map LedgerEntry.owner)) s s' ∧
    (∃ more, s'.ledgers svc.kind.name = s.ledgers svc.kind.name ++ more ∧
      ∀ f ∈ more, f.type = .cancel ∧ f.owner ∈ rows.map LedgerEntry.owner ∧
        s.hasStage svc.kind.name f.orderId f.userId f.resource 2 = false ∧
        ∃ r ∈ s.ledgers svc.kind.name, r.type.isFinalization = false ∧ r.sameKey f = true) ∧
    (∀ x ∈ s'.ledgers svc.kind.name, x.type = .reserve →
      s'.hasStage svc.kind.name x.orderId x.userId x.resource 2 = false →
      s'.findByOrder svc.kind.name x.orderId x.userId =
        s.findByOrder svc.kind.name x.orderId x.userId) ∧
    (expired.length ≤ (batchSize limit).toNat →
      (∀ x ∈ s'.ledgers svc.kind.name, s'.expiredOpen svc.kind.name cutoff x = true →
        x.owner ∈ rows.map LedgerEntry.owner) ∧
      ((expiredOrders rows).filter fun order => (s'.ledgers svc.kind.name).any fun x =>
        x.owner == ownerOf order && s'.expiredOpen svc.kind.name cutoff x).length ≤
        report.skipped + report.failed) ∧
    report.expired = rows.length ∧ report.orders = (rows.map LedgerEntry.owner).toFinset.card ∧
    report.orders = report.canceled + report.skipped + report.failed := by
  intro cutoff expired rows
  have hmoves : ReflTransGen (Step svc.kind) s s' := by
    simpa only [h] using sweep_moves svc threshold limit now s
  have hloop : (expiredOrders rows).foldl (svc.cancelExpired now)
      ({ expired := rows.length }, s) = (report, s') := h
  have hsnd : ((expiredOrders rows).foldl (svc.cancelExpired now)
      ({ expired := rows.length }, s)).2 = s' := by rw [hloop]
  obtain ⟨more, hl, hmore⟩ := cancelAll_appends svc now (expiredOrders rows)
    { expired := rows.length } s
  rw [hsnd] at hl
  have hcancels : ∀ f ∈ more, f.type = .cancel ∧ f.owner ∈ rows.map LedgerEntry.owner :=
    fun f hf => ⟨(hmore f hf).1, ((expiredOrders_keys rows).2 _).mp (hmore f hf).2⟩
  have hrel := moves_release hmoves hl hcancels
  have hbefore : ∀ x ∈ s'.ledgers svc.kind.name, x.type = .reserve →
      x ∈ s.ledgers svc.kind.name :=
    fun x hx hr => mem_of_append_cancels hl (fun f hf => (hcancels f hf).1) hx (by rw [hr]; rfl)
  refine ⟨⟨findExpired_subperm .., findExpired_length (by unfold batchSize; split <;> omega),
    fun x hx hout => findExpired_oldest (List.mem_filter.mp hx).1 (List.mem_filter.mp hx).2 hout⟩,
    hrel, Release.run_rows hrel, fun x hx hr hopen => ?_, fun hfew => ⟨fun x hx hexp => ?_, ?_⟩,
    ?_⟩
  ·
    rcases cancelAll_untouched_or_closed svc now x.orderId x.userId (expiredOrders rows)
      { expired := rows.length } s with hsame | hclosed
    · rwa [hsnd] at hsame
    · have hclosed' := hclosed x (by simp [findByOrder, hbefore x hx hr]) hr
      rw [hsnd, hopen] at hclosed'
      cases hclosed'
  ·
    simp only [expiredOpen, Bool.and_eq_true, beq_iff_eq, Bool.not_eq_true'] at hexp
    obtain ⟨⟨hr, hcut⟩, hstage⟩ := hexp
    have hx₀ := hbefore x hx hr
    have hmem := mem_findExpired_of_few hfew hx₀
      (by simp [expiredOpen, hr, hcut, hasStage_eq_false_of_append hl hstage])
    exact List.mem_map_of_mem hmem
  · have hrefused := cancelAll_refusals svc now cutoff (expiredOrders rows)
      { expired := rows.length } s
    rw [hloop] at hrefused
    simpa using hrefused
  · obtain ⟨he, ho, ht⟩ := cancelAll_counts svc now (expiredOrders rows)
      { expired := rows.length } s
    rw [hloop] at he ho ht
    simp only at he ho ht
    refine ⟨he, by rw [ho, expiredOrders_length, Nat.zero_add], by omega⟩

def threeOfSevenHeld : Store :=
  (stockService.apply .reserve threeOfSeven none Instant.zero fiveOfSeven).2

/-- Two seconds after the zero instant, a sweep of reservations older than a second moves
`threeOfSevenHeld` only by releases of the orders of its batch, and counts each order once. -/
theorem stale_reservation_swept :
    ReflTransGen (Release stockService.kind ((threeOfSevenHeld.findExpired
        stockService.kind.name (expiryCutoff (Span.ofMillis 1000) (Instant.zero.addMillis 2000))
        (batchSize 10)).map LedgerEntry.owner)) threeOfSevenHeld
      (stockService.sweep (Span.ofMillis 1000) 10 (Instant.zero.addMillis 2000)
        threeOfSevenHeld).2 ∧
    (stockService.sweep (Span.ofMillis 1000) 10 (Instant.zero.addMillis 2000)
        threeOfSevenHeld).1.orders =
      (stockService.sweep (Span.ofMillis 1000) 10 (Instant.zero.addMillis 2000)
          threeOfSevenHeld).1.canceled +
        (stockService.sweep (Span.ofMillis 1000) 10 (Instant.zero.addMillis 2000)
          threeOfSevenHeld).1.skipped +
        (stockService.sweep (Span.ofMillis 1000) 10 (Instant.zero.addMillis 2000)
          threeOfSevenHeld).1.failed :=
  ⟨(sweep_cancels_expired_orders Prod.mk.eta.symm).2.1,
    (sweep_cancels_expired_orders Prod.mk.eta.symm).2.2.2.2.2.2.2⟩

/-- Order 1 of user 2 with one unit of option 7 and one of option 8 held at the zero instant, then
option 7 confirmed on its own. -/
def sevenConfirmedEightOpen : Store :=
  (stockService.apply .confirm ⟨"saga", 1, 2, [⟨7, 1⟩]⟩ none Instant.zero
    (stockService.apply .reserve ⟨"saga", 1, 2, [⟨7, 1⟩, ⟨8, 1⟩]⟩ none Instant.zero
      fiveOfSevenOneOfEight).2).2

/-- Two seconds in, a sweep of reservations older than a second has room for the one expired open
row, option 8's, and yet leaves it open: cancelling the order as a whole meets option 7's
confirmation, so the order is skipped. -/
theorem partly_confirmed_order_outlives_sweep :
    ((sevenConfirmedEightOpen.ledgers "stock").filter (sevenConfirmedEightOpen.expiredOpen
        "stock" (expiryCutoff (Span.ofMillis 1000) (Instant.zero.addMillis 2000)))).length ≤
      (batchSize 10).toNat ∧
    ((stockService.sweep (Span.ofMillis 1000) 10 (Instant.zero.addMillis 2000)
        sevenConfirmedEightOpen).2.ledgers "stock").any
      ((stockService.sweep (Span.ofMillis 1000) 10 (Instant.zero.addMillis 2000)
        sevenConfirmedEightOpen).2.expiredOpen "stock"
          (expiryCutoff (Span.ofMillis 1000) (Instant.zero.addMillis 2000))) = true ∧
    (stockService.sweep (Span.ofMillis 1000) 10 (Instant.zero.addMillis 2000)
        sevenConfirmedEightOpen).1 = { expired := 1, orders := 1, skipped := 1 } := by
  cbv

end OrderSaga
