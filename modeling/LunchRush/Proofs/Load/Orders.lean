import LunchRush.Load.Actor
import LunchRush.Proofs.Fixture
import LunchRush.Proofs.Gateway.Recorded
import LunchRush.Proofs.Generate.Order
/-!
# What actors order

Whatever a document holds, whatever words the actors draw and whatever the gateway answers, every
order that is sent fits a usable fixture of the document, and an actor skips its turn exactly where
no fixture is usable (`orders_fit`). A turn does not end only where every word of the actor is passed
over from some place on.
-/

namespace LunchRush

open LunchRush.Random (Source Draw Yields PassesOver after)

/-! ## Orders that fit a menu -/

/-- An order of a customer for one to three distinct items of a fixture's menu. -/
structure Order.Fits (customer : CustomerId) (f : Fixture) (o : Order) : Prop where
  customer : o.customerId = customer
  restaurant : o.restaurantId = f.restaurantId
  some_line : 1 ≤ o.lines.length
  few_lines : o.lines.length ≤ min 3 f.menus.length
  on_menu : ∀ line ∈ o.lines, ∃ item ∈ f.menus, item.itemId = line.itemId
  distinct : (o.lines.map OrderLine.itemId).Nodup
  quantity : ∀ line ∈ o.lines, 1 ≤ line.quantity ∧ line.quantity ≤ 5

namespace Generate

variable {σ : Type} [Source σ]

/-- An order at a usable fixture is never refused, and fits its menu. -/
theorem orderAt_yields (customer : CustomerId) {f : Fixture} (h : f.isUsable = true) :
    Yields (orderAt customer f : Draw σ (Except OrderRefused Order)) fun drawn =>
      ∃ o, drawn = .ok o ∧ o.Fits customer f := by
  have hpos : 0 < f.menus.length := List.length_pos_iff.2 (Fixture.menu_of_usable h)
  unfold orderAt
  rw [order_eq_positions customer f.restaurantId (Fixture.menu_of_usable h)]
  refine (positions_yields hpos).bind fun chosen hc => ?_
  obtain ⟨hs, hsome, hfew⟩ := hc
  have hlen := itemsAt_length hs.below
  have hn := itemsAt_nodup hs (Fixture.items_of_usable h)
  refine (orderOf_yields customer f.restaurantId _ (by omega)).imp fun answer ha => ?_
  rw [if_pos hn] at ha
  obtain ⟨lines, rfl, hi, hq⟩ := ha
  have hlines : lines.length = chosen.length := by
    rw [← List.length_map (f := OrderLine.itemId), hi, List.length_map, hlen]
  refine ⟨_, rfl, rfl, rfl, hlines ▸ hsome, hlines ▸ hfew, ?_, hi ▸ hn, hq⟩
  intro line hline
  have hm := List.mem_map_of_mem (f := OrderLine.itemId) hline
  rw [hi] at hm
  exact List.mem_map.1 ((itemsAt_subperm hs).subset hm)

end Generate

/-! ## One placement -/

namespace Actor

variable {σ γ : Type} [Source σ] [Gateway γ]

theorem drawOrder_yields (t : Traffic) (h : ∀ f ∈ t.fixtures, f.isUsable = true) :
    Yields (drawOrder t : Draw σ (Option (Except OrderRefused Order))) fun drawn =>
      if t.fixtures = [] then drawn = none else
        ∃ f ∈ t.fixtures, ∃ o, drawn = some (.ok o) ∧ o.Fits t.customer f := by
  refine (Random.index_yields t.fixtures.length).bind fun drawn hd => ?_
  simp only [List.length_eq_zero_iff] at hd
  split at hd
  · subst hd
    rename_i hnil
    exact .pure (if_pos hnil ▸ rfl)
  · rename_i hne
    obtain ⟨i, rfl, hi⟩ := hd
    simp only [if_neg hne, List.getElem?_eq_getElem hi]
    have hf := List.getElem_mem hi
    refine (Generate.orderAt_yields t.customer (h _ hf)).bind fun drawn ho => ?_
    obtain ⟨o, rfl, ho⟩ := ho
    exact .pure ⟨_, hf, o, rfl, ho⟩

theorem drawOrder_of_nil {t : Traffic} (h : t.fixtures = []) (s : σ) :
    drawOrder t s = .ok (none, s) := by
  unfold drawOrder
  rw [h]
  rfl

/-- An actor has nothing to order from, or it sends an order that fits a fixture, or it goes on drawing for
ever. -/
theorem place_cases (t : Traffic) (h : ∀ f ∈ t.fixtures, f.isUsable = true) (a : Actor σ) (gateway : γ) :
    (∃ taken,
      if t.fixtures = [] then
        a.place t gateway = .ok ⟨.skipped, [], { a with generator := after taken a.generator }, gateway⟩
      else ∃ f ∈ t.fixtures, ∃ o : Order, o.Fits t.customer f ∧
        a.place t gateway = .ok ⟨(classify t a.index (Gateway.place o gateway).1).1,
          (classify t a.index (Gateway.place o gateway).1).2,
          { a with generator := after taken a.generator }, (Gateway.place o gateway).2⟩) ∨
    t.fixtures ≠ [] ∧ a.place t gateway = .error .endless ∧ PassesOver a.generator := by
  obtain ⟨drawn, taken, hd, hp⟩ | ⟨he, hpasses⟩ := drawOrder_yields t h a.generator
  · refine .inl ⟨taken, ?_⟩
    unfold place
    rw [hd]
    split
    · rename_i hnil
      rw [if_pos hnil] at hp
      subst hp
      rfl
    · rename_i hne
      rw [if_neg hne] at hp
      obtain ⟨f, hf, o, rfl, ho⟩ := hp
      exact ⟨f, hf, o, ho, rfl⟩
  · refine .inr ⟨fun hnil => ?_, ?_, hpasses⟩
    · rw [drawOrder_of_nil hnil] at he
      cases he
    · unfold place
      rw [he]
      rfl

/-- The placements of some turns, and the fault that ends them early. A turn is the number of an actor, and
actors meet only at the gateway. -/
def placements (t : Traffic) : (turns : List Nat) → (actors : Nat → Actor σ) → γ →
    List (Placed σ γ) × Option Fault
  | [], _, _ => ([], none)
  | k :: turns, actors, gateway =>
    match (actors k).place t gateway with
    | .error fault => ([], some fault)
    | .ok placed =>
      let (later, fault) :=
        placements t turns (fun j => if j = k then placed.actor else actors j) placed.gateway
      (placed :: later, fault)

end Actor

/-! ## Every order of a run -/

/-- The calls that were made in some turns at a document: an order in each, and none at all where no
fixture is usable. -/
structure Document.Ordered (d : Document) (customer : CustomerId) (turns : Nat) (calls : List Call) :
    Prop where
  count : calls.length = if d.usable = [] then 0 else turns
  fit : ∀ call ∈ calls, ∃ o answer, call = .place o answer ∧
    ∃ f ∈ d.restaurants, f.check = .ok () ∧ o.Fits customer f

/-- What a turn came to: an actor skips it exactly where no fixture is usable, and never because an
order could not be built. -/
structure Document.Turn {σ γ : Type} (d : Document) (customer : CustomerId) (turns : Nat)
    (placed : Actor.Placed σ (Recorded γ)) : Prop where
  skipped_iff : placed.outcome = .skipped ↔ ∀ f ∈ d.restaurants, f.check ≠ .ok ()
  built : ∀ number reason, Event.orderNotBuilt number reason ∉ placed.events
  ordered : d.Ordered customer turns placed.gateway.calls

namespace Traffic

variable {σ γ : Type} [Source σ] [Gateway γ]

/-- What the traffic is at can be used. -/
theorem ofDocument_isUsable (d : Document) (customer : CustomerId) (accepted : List Nat)
    (seed : Option UInt64) : ∀ f ∈ (ofDocument d customer accepted seed).1.fixtures,
      f.isUsable = true :=
  fun _ hf => (List.mem_filter.1 hf).2

theorem usable_eq_nil_iff (d : Document) : d.usable = [] ↔ ∀ f ∈ d.restaurants, f.check ≠ .ok () := by
  simp only [Document.usable, List.filter_eq_nil_iff, Fixture.isUsable_iff, ne_eq]

theorem classify_not_skipped (t : Traffic) (index : Nat) (answer : Except GatewayError Reply) :
    (Actor.classify t index answer).1 ≠ .skipped ∧
      ∀ number reason, Event.orderNotBuilt number reason ∉ (Actor.classify t index answer).2 := by
  unfold Actor.classify
  cases answer with
  | error e => simp
  | ok reply => dsimp only; split <;> simp

theorem turn_of_ordered (d : Document) (customer : CustomerId) (accepted : List Nat)
    (seed : Option UInt64) (a : Actor σ) {gateway : Recorded γ} {turns : Nat}
    (h : d.Ordered customer turns gateway.calls) :
    (∃ placed taken, a.place (ofDocument d customer accepted seed).1 gateway = .ok placed ∧
      placed.actor.generator = after taken a.generator ∧ d.Turn customer (turns + 1) placed) ∨
    d.usable ≠ [] ∧ a.place (ofDocument d customer accepted seed).1 gateway = .error .endless ∧
      PassesOver a.generator := by
  obtain ⟨taken, hp⟩ | hendless := Actor.place_cases (ofDocument d customer accepted seed).1
    (fun f hf => (List.mem_filter.1 hf).2) a gateway
  · change if d.usable = [] then _ else _ at hp
    obtain ⟨hcount, hfit⟩ := h
    split at hp
    · rename_i hnil
      rw [if_pos hnil] at hcount
      refine .inl ⟨_, taken, hp, rfl, ?_, by simp, ?_, hfit⟩
      · simpa using (usable_eq_nil_iff d).1 hnil
      · rw [if_pos hnil, hcount]
    · rename_i hne
      rw [if_neg hne] at hcount
      obtain ⟨f, hf, o, ho, hp⟩ := hp
      obtain ⟨hsent, hbuilt⟩ := classify_not_skipped (ofDocument d customer accepted seed).1 a.index
        (Gateway.place o gateway).1
      refine .inl ⟨_, taken, hp, rfl, ?_, hbuilt, ?_, fun call hc => ?_⟩
      · exact ⟨fun hs => absurd hs hsent, fun hall => absurd ((usable_eq_nil_iff d).2 hall) hne⟩
      · rw [if_neg hne, ← hcount]
        exact List.length_append
      · rcases List.mem_append.1 hc with hc | hc
        · exact hfit call hc
        · obtain ⟨hmem, hu⟩ := List.mem_filter.1 hf
          exact ⟨o, _, List.mem_singleton.1 hc, f, hmem, (Fixture.isUsable_iff f).1 hu, ho⟩
  · exact .inr hendless

/-- All turns were taken, or one of them goes on for ever. -/
def TakenOrEndless {σ γ : Type} [Source σ] (d : Document) (turns : List Nat) (actors : Nat → Actor σ)
    (made : List (Actor.Placed σ γ)) (fault : Option Fault) : Prop :=
  fault = none ∧ made.length = turns.length ∨
    fault = some .endless ∧ d.usable ≠ [] ∧ ∃ k ∈ turns, PassesOver (actors k).generator

theorem turns_of_ordered (d : Document) (customer : CustomerId) (accepted : List Nat)
    (seed : Option UInt64) (turns : List Nat) (actors : Nat → Actor σ) {gateway : Recorded γ}
    {before : Nat} (h : d.Ordered customer before gateway.calls) :
    ∃ made fault,
      Actor.placements (ofDocument d customer accepted seed).1 turns actors gateway = (made, fault) ∧
      TakenOrEndless d turns actors made fault ∧
      ∀ i placed, made[i]? = some placed → d.Turn customer (before + i + 1) placed := by
  induction turns generalizing actors gateway before with
  | nil => exact ⟨[], none, rfl, .inl ⟨rfl, rfl⟩, by simp⟩
  | cons k turns ih =>
    obtain ⟨placed, taken, hp, hgenerator, ht⟩ | ⟨hne, hp, hpasses⟩ :=
      turn_of_ordered d customer accepted seed (actors k) h
    · obtain ⟨made, fault, hm, hends, hall⟩ :=
        ih (fun j => if j = k then placed.actor else actors j) ht.ordered
      refine ⟨placed :: made, fault, by simp only [Actor.placements, hp, hm], ?_, ?_⟩
      · obtain ⟨hnone, hl⟩ | ⟨he, hne, j, hj, hpasses⟩ := hends
        · exact .inl ⟨hnone, by rw [List.length_cons, List.length_cons, hl]⟩
        · dsimp only at hpasses
          by_cases hjk : j = k
          · -- the actor passes over its words before its turn as well
            rw [if_pos hjk, hgenerator] at hpasses
            exact .inr ⟨he, hne, k, List.mem_cons_self, hpasses.of_after⟩
          · rw [if_neg hjk] at hpasses
            exact .inr ⟨he, hne, j, List.mem_cons_of_mem _ hj, hpasses⟩
      · rintro (_ | i) later hi
        · cases hi
          exact ht
        · rw [show before + (i + 1) + 1 = before + 1 + i + 1 by omega]
          exact hall i later hi
    · exact ⟨[], some .endless, by simp only [Actor.placements, hp],
        .inr ⟨rfl, hne, k, List.mem_cons_self, hpasses⟩, by simp⟩

/-- Whatever the document, the seed, the words that the actors draw and the answers of the gateway:
every turn that is taken skips exactly where no fixture is usable, and else it sends one order, which
fits a usable fixture of the document. All turns are taken without a fault, unless an actor draws from
a source in which every word is passed over from some place on. -/
theorem orders_fit (d : Document) (customer : CustomerId) (accepted : List Nat) (seed : Option UInt64)
    (turns : List Nat) (actors : Nat → Actor σ) (gateway : γ) :
    ∃ made fault, Actor.placements (ofDocument d customer accepted seed).1 turns actors
        (⟨gateway, []⟩ : Recorded γ) = (made, fault) ∧
      TakenOrEndless d turns actors made fault ∧
      ∀ i placed, made[i]? = some placed → d.Turn customer (i + 1) placed := by
  obtain ⟨made, fault, hm, hends, hall⟩ := turns_of_ordered d customer accepted seed turns actors
    (⟨by simp, by simp⟩ : d.Ordered customer 0 (⟨gateway, []⟩ : Recorded γ).calls)
  exact ⟨made, fault, hm, hends, fun i placed hi => by simpa using hall i placed hi⟩

end Traffic

end LunchRush
