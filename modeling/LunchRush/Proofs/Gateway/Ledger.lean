import LunchRush.Proofs.Gateway.Orders
import LunchRush.Proofs.Json.Reading
/-!
# The orders that a gateway in memory keeps

Every call of such a gateway takes effect at one moment, so whatever any number of clients do to it
is one sequence of operations in which each client's own come in their order (`Interleaved`). Every
order that is sent is kept as it is, whatever the answer, and the number in the answer to one that is
accepted is its place among those that are kept (`orders_kept`).
-/

namespace LunchRush

/-! ## What replies say -/

/-- The identifier of an order in the value of a reply. -/
def Json.orderId? (v : Json) : Option String := (v.field? "order_id").bind Json.text?

/-- The text for a served order is read as a record, its amount as whatever the float's own text is. -/
theorem read?_receipt_amount (number : Nat) {total : Float} {amount : Json}
    (h : Json.Reads 0 (Json.compactChars (.float total)) amount) :
    Json.read? (receipt number total) = some (.record [("order_id", .text s!"order-{number}"),
      ("status", .text "PENDING"), ("total_amount", amount)]) := by
  have hfields : Json.FieldsRead 0
      [("order_id", .text s!"order-{number}"), ("status", .text "PENDING"), ("total_amount", .float total)]
      [("order_id", .text s!"order-{number}"), ("status", .text "PENDING"), ("total_amount", amount)] :=
    .cons ⟨rfl, Json.reads_text _⟩ (.cons ⟨rfl, Json.reads_text _⟩ (.cons ⟨rfl, h⟩ .nil))
  exact (Json.reads_record hfields (by simp)).read? (by decide)

theorem read?_receipt (number : Nat) (total : Float) :
    ∃ v, Json.read? (receipt number total) = some v ∧ v.orderId? = some s!"order-{number}" := by
  obtain ⟨amount, hamount⟩ := Json.reads_float total
  exact ⟨_, read?_receipt_amount number hamount, rfl⟩

namespace MemoryGateway

theorem read?_refusal (reason : String) : ∃ v, Json.read? (refusal reason) = some v := by
  have hfields : Json.FieldsRead 0 [("error", .text reason)] [("error", .text reason)] :=
    .cons ⟨rfl, Json.reads_text _⟩ .nil
  exact ⟨_, (Json.reads_record hfields (by simp)).read? (by decide)⟩

/-- The replies that a gateway can give to an order. -/
inductive Replies (g : MemoryGateway) : Reply → Prop
  | forced (status : Nat) : g.forcedStatus = some status → Replies g ⟨status, refusal "forced status"⟩
  | refused (status : Nat) (reason : String) : g.forcedStatus = none → isServed status = false →
      Replies g ⟨status, refusal reason⟩
  | served (total : Float) : g.forcedStatus = none → Replies g ⟨201, receipt g.orders.length total⟩

theorem reply_spec (g : MemoryGateway) (order : Json) : g.Replies (g.reply order) := by
  unfold reply
  split
  · rename_i status hforced
    exact .forced status hforced
  · rename_i hforced
    dsimp only
    split
    · exact .refused 500 _ hforced rfl
    · split
      · split
        · exact .refused 500 _ hforced rfl
        · rename_i total _
          exact .served total hforced
      · exact .refused 400 _ hforced rfl

/-- Every body is JSON text. -/
theorem Replies.read? {g : MemoryGateway} {r : Reply} (h : g.Replies r) : ∃ v, Json.read? r.body = some v := by
  cases h with
  | forced | refused => exact read?_refusal _
  | served total =>
    obtain ⟨v, hv, -⟩ := read?_receipt g.orders.length total
    exact ⟨v, hv⟩

/-- Without a forced status only a served order is accepted, and its number is how many were kept before. -/
theorem Replies.orderId {g : MemoryGateway} {r : Reply} (h : g.Replies r) (hf : g.forcedStatus = none)
    (hs : isServed r.status = true) :
    ∃ v, Json.read? r.body = some v ∧ v.orderId? = some s!"order-{g.orders.length}" := by
  cases h with
  | forced status hforced => cases hf.symm.trans hforced
  | refused status reason _ hrefused => cases hrefused.symm.trans hs
  | served total => exact read?_receipt _ total

theorem served?_eq_ok {r : Reply} {value : Json} (h : served? r = .ok value) :
    isServed r.status = true ∧ Json.read? r.body = some value := by
  unfold served? at h
  split at h
  · cases h
  · rename_i hs
    split at h
    · rename_i v hv
      cases h
      exact ⟨by simpa using hs, hv⟩
    · cases h

/-! ## The two ways to send an order -/

/-- An order that is placed and its value that is posted leave the same gateway, and the client that
posts gets the parsed body where the other one gets a reply that says it was served. -/
theorem post_eq_place (g : MemoryGateway) (order : Order) :
    (Gateway.post Endpoint.orders order.toJson.sorted g).2 = (Gateway.place order g).2 ∧
      ∃ reply value, (Gateway.place order g).1 = .ok reply ∧ Json.read? reply.body = some value ∧
        (Gateway.post Endpoint.orders order.toJson.sorted g).1 =
          if 200 ≤ reply.status ∧ reply.status ≤ 299 then .ok value
          else .error (.status reply.status reply.body) := by
  obtain ⟨value, hvalue⟩ := (reply_spec g order.toJson.sorted).read?
  refine ⟨rfl, _, value, rfl, hvalue, ?_⟩
  change served? (g.reply order.toJson.sorted) = _
  have hserved : isServed (g.reply order.toJson.sorted).status = true ↔
      200 ≤ (g.reply order.toJson.sorted).status ∧ (g.reply order.toJson.sorted).status ≤ 299 := by
    simp [isServed]
    omega
  unfold served?
  rw [hvalue]
  by_cases hs : isServed (g.reply order.toJson.sorted).status = true
  · rw [if_neg (by simp [hs]), if_pos (hserved.1 hs)]
  · rw [if_pos (by simpa using hs), if_neg (mt hserved.2 hs)]

/-! ## A run of operations -/

/-- The order that an operation sends, as it is kept. -/
def Operation.order? : Operation → Option Json
  | .ask (.post endpoint payload) => if endpoint = Endpoint.orders then some payload else none
  | .ask (.place order) => some order.toJson.sorted
  | _ => none

theorem perform_orders (g : MemoryGateway) (operation : Operation) :
    (g.perform operation).orders = g.orders ++ operation.order?.toList := by
  cases operation with
  | ask inquiry =>
    cases inquiry with
    | health => exact (List.append_nil _).symm
    | register r =>
      show (register r g).2.orders = g.orders ++ []
      rw [register_eq, List.append_nil]
      split <;> rfl
    | list area =>
      simp only [perform, Gateway.ask, Gateway.list, list]
      split <;> exact (List.append_nil _).symm
    | post endpoint payload =>
      simp only [perform, Gateway.ask, Gateway.post, post, Operation.order?]
      split
      · rfl
      · split <;> exact (List.append_nil _).symm
    | place order => rfl
  | seed | setHealthy | failListing | failAttempts | stripMenus | forceStatus =>
    exact (List.append_nil _).symm

theorem performAll_orders (operations : List Operation) : ∀ g : MemoryGateway,
    (g.performAll operations).orders = g.orders ++ operations.filterMap Operation.order? := by
  induction operations with
  | nil => exact fun g => (List.append_nil _).symm
  | cons operation operations ih =>
    intro g
    change ((g.perform operation).performAll operations).orders = _
    rw [ih, perform_orders, List.append_assoc, List.filterMap_cons]
    cases operation.order? <;> rfl

/-! ## Clients -/

/-- A sequence of the operations of some clients that keeps the order of each client's own. -/
inductive Interleaved : List (List Operation) → List Operation → Prop
  | done {clients : List (List Operation)} : (∀ program ∈ clients, program = []) → Interleaved clients []
  | next (before : List (List Operation)) {after : List (List Operation)} {operation : Operation}
      {program operations : List Operation} : Interleaved (before ++ program :: after) operations →
      Interleaved (before ++ (operation :: program) :: after) (operation :: operations)

/-- Every operation of every client takes effect once. -/
theorem Interleaved.perm {clients : List (List Operation)} {operations : List Operation}
    (h : Interleaved clients operations) : operations.Perm clients.flatten := by
  induction h with
  | done hall => rw [List.flatten_eq_nil_iff.2 hall]
  | next before _ ih =>
    simp only [List.flatten_append, List.flatten_cons, List.cons_append] at ih ⊢
    exact (ih.cons _).trans List.perm_middle.symm

theorem Interleaved.sublist {clients : List (List Operation)} {operations : List Operation}
    (h : Interleaved clients operations) : ∀ program ∈ clients, program.Sublist operations := by
  induction h with
  | done hall =>
    intro program hp
    rw [hall program hp]
  | next before _ ih =>
    intro other ho
    rcases List.mem_append.1 ho with hb | ho
    · exact (ih other (List.mem_append_left _ hb)).cons _
    · rcases List.mem_cons.1 ho with rfl | ha
      · exact (ih _ (List.mem_append_right _ List.mem_cons_self)).cons_cons _
      · exact (ih other (List.mem_append_right _ (List.mem_cons_of_mem _ ha))).cons _

/-- What clients send at the same time is all kept, behind what was kept before, and what one of them
sends is kept in its own order. -/
theorem clients_kept (g : MemoryGateway) {clients : List (List Operation)} {operations : List Operation}
    (h : Interleaved clients operations) :
    (g.performAll operations).orders.Perm (g.orders ++ clients.flatten.filterMap Operation.order?) ∧
      ∀ program ∈ clients,
        (g.orders ++ program.filterMap Operation.order?).Sublist (g.performAll operations).orders := by
  rw [performAll_orders]
  exact ⟨(h.perm.filterMap _).append_left _, fun program hp => ((h.sublist program hp).filterMap _).append_left _⟩

end MemoryGateway

/-! ## Orders that are accepted -/

/-- Whether a call is an order that was accepted. Who posts sees no status, but where none is forced an
order that is served is answered 201. -/
def Call.IsAccepted : Call → Prop
  | .post endpoint _ answer => endpoint = Endpoint.orders ∧ ∃ value, answer = .ok value
  | .place _ answer => ∃ body, answer = .ok ⟨201, body⟩
  | _ => False

/-- The identifier of an order that the answer to a call carries. -/
def Call.orderId? : Call → Option String
  | .post _ _ (.ok value) => value.orderId?
  | .place _ (.ok reply) => (Json.read? reply.body).bind Json.orderId?
  | _ => none

namespace MemoryGateway

theorem ask_accepted {g : MemoryGateway} {inquiry : Inquiry} (hf : g.forcedStatus = none)
    (ha : (Gateway.ask g inquiry).1.IsAccepted) :
    (Gateway.ask g inquiry).1.orderId? = some s!"order-{g.orders.length}" ∧
      ∃ payload, (Operation.ask inquiry).order? = some payload := by
  cases inquiry with
  | health | register | list => exact ha.elim
  | post endpoint payload =>
    obtain ⟨rfl, value, hvalue⟩ := ha
    change served? (g.reply payload) = .ok value at hvalue
    obtain ⟨hs, hread⟩ := served?_eq_ok hvalue
    obtain ⟨v, hv, hid⟩ := (reply_spec g payload).orderId hf hs
    refine ⟨?_, payload, by simp [Operation.order?]⟩
    change Call.orderId? (.post Endpoint.orders payload (served? (g.reply payload))) = _
    rw [hvalue]
    obtain rfl : value = v := Option.some.inj (hread.symm.trans hv)
    exact hid
  | place order =>
    obtain ⟨body, hbody⟩ := ha
    have hreply : g.reply order.toJson.sorted = ⟨201, body⟩ := Except.ok.inj hbody
    obtain ⟨v, hv, hid⟩ := (reply_spec g order.toJson.sorted).orderId hf (by rw [hreply]; rfl)
    refine ⟨?_, _, rfl⟩
    change (Json.read? (g.reply order.toJson.sorted).body).bind Json.orderId? = _
    rw [hv]
    exact hid

theorem place_accepted {g : MemoryGateway} {order : Order}
    (h : (g.reply order.toJson.sorted).status = 201) : (Gateway.ask g (.place order)).1.IsAccepted :=
  ⟨(g.reply order.toJson.sorted).body, congrArg Except.ok (congrArg (Reply.mk · _) h)⟩

theorem post_accepted {g : MemoryGateway} {payload : Json} (h : (g.reply payload).status = 201) :
    (Gateway.ask g (.post Endpoint.orders payload)).1.IsAccepted := by
  obtain ⟨value, hvalue⟩ := (reply_spec g payload).read?
  refine ⟨rfl, value, ?_⟩
  simp [served?, h, isServed, hvalue]

/-- The call that is made at some place of a run, answered in the state that the operations before it
leave. -/
def callAt? (g : MemoryGateway) (operations : List Operation) (i : Nat) : Option Call :=
  match operations[i]? with
  | some (.ask inquiry) => some (Gateway.ask (g.performAll (operations.take i)) inquiry).1
  | _ => none

/-- An order at some place of a run that is accepted though no status is forced there. -/
structure AcceptedAt (g : MemoryGateway) (operations : List Operation) (i : Nat) (call : Call) : Prop where
  made : g.callAt? operations i = some call
  unforced : (g.performAll (operations.take i)).forcedStatus = none
  accepted : call.IsAccepted

/-- How many orders are kept before some place of a run. -/
def keptBefore (g : MemoryGateway) (operations : List Operation) (i : Nat) : Nat :=
  g.orders.length + ((operations.take i).filterMap Operation.order?).length

theorem AcceptedAt.spec {g : MemoryGateway} {operations : List Operation} {i : Nat} {call : Call}
    (h : g.AcceptedAt operations i call) :
    call.orderId? = some s!"order-{g.keptBefore operations i}" ∧
      ∃ operation payload, operations[i]? = some operation ∧ operation.order? = some payload := by
  obtain ⟨hmade, hf, ha⟩ := h
  unfold callAt? at hmade
  split at hmade
  · rename_i inquiry hi
    obtain rfl := Option.some.inj hmade
    obtain ⟨hid, payload, hp⟩ := ask_accepted hf ha
    rw [performAll_orders, List.length_append] at hid
    exact ⟨hid, _, payload, hi, hp⟩
  · cases hmade

section

variable {operations : List Operation} {i : Nat} {operation : Operation} {payload : Json}
  (hi : operations[i]? = some operation) (hp : operation.order? = some payload)
include hi hp

theorem filterMap_take_succ : (operations.take (i + 1)).filterMap Operation.order? =
    (operations.take i).filterMap Operation.order? ++ [payload] := by
  simp [List.take_add_one, hi, hp]

/-- The order of an operation is kept right behind those of the operations before it. -/
theorem order_kept (g : MemoryGateway) :
    (g.performAll operations).orders[g.keptBefore operations i]? = some payload := by
  have hall : operations.filterMap Operation.order? = (operations.take i).filterMap Operation.order? ++
      payload :: (operations.drop (i + 1)).filterMap Operation.order? := by
    conv_lhs => rw [← List.take_append_drop (i + 1) operations, List.filterMap_append]
    rw [filterMap_take_succ hi hp, List.append_assoc, List.singleton_append]
  rw [performAll_orders, keptBefore, List.getElem?_append_right (Nat.le_add_right _ _),
    Nat.add_sub_cancel_left, hall, List.getElem?_append_right le_rfl, Nat.sub_self, List.getElem?_cons_zero]

theorem keptBefore_lt (g : MemoryGateway) {j : Nat} (hij : i < j) :
    g.keptBefore operations i < g.keptBefore operations j := by
  have htaken : operations.take (i + 1) <+: operations.take j := List.take_prefix_take_left hij
  have hle := (htaken.sublist.filterMap Operation.order?).length_le
  rw [filterMap_take_succ hi hp, List.length_append] at hle
  exact Nat.add_lt_add_left hle _

end

/-- Whatever is done with a gateway, from whatever state on and by however many clients: every order that
is sent is kept once and unchanged behind those that were kept before, in the order in which the calls
took effect. The identifier that comes with an accepted one is the place where it is kept, so no
identifier is given twice. And it makes no difference to the gateway whether an order is placed or its
value is posted. -/
theorem orders_kept (g : MemoryGateway) (operations : List Operation) :
    (g.performAll operations).orders = g.orders ++ operations.filterMap Operation.order? ∧
    (∀ clients, Interleaved clients operations →
      (g.performAll operations).orders.Perm (g.orders ++ clients.flatten.filterMap Operation.order?) ∧
      ∀ program ∈ clients,
        (g.orders ++ program.filterMap Operation.order?).Sublist (g.performAll operations).orders) ∧
    (∀ i call, g.AcceptedAt operations i call →
      ∃ operation payload, operations[i]? = some operation ∧ operation.order? = some payload ∧
        (g.performAll operations).orders[g.keptBefore operations i]? = some payload ∧
        call.orderId? = some s!"order-{g.keptBefore operations i}") ∧
    (∀ i j call call', i ≠ j → g.AcceptedAt operations i call → g.AcceptedAt operations j call' →
      call.orderId? ≠ call'.orderId?) ∧
    ∀ order : Order,
      (Gateway.post Endpoint.orders order.toJson.sorted g).2 = (Gateway.place order g).2 ∧
      ∃ reply value, (Gateway.place order g).1 = .ok reply ∧ Json.read? reply.body = some value ∧
        (Gateway.post Endpoint.orders order.toJson.sorted g).1 =
          if 200 ≤ reply.status ∧ reply.status ≤ 299 then .ok value
          else .error (.status reply.status reply.body) := by
  refine ⟨performAll_orders operations g, fun _ => clients_kept g, ?_, ?_, post_eq_place g⟩
  · intro i call h
    obtain ⟨hid, operation, payload, hi, hp⟩ := h.spec
    exact ⟨operation, payload, hi, hp, order_kept hi hp g, hid⟩
  · intro i j call call' hij h h' heq
    obtain ⟨hid, operation, payload, hi, hp⟩ := h.spec
    obtain ⟨hid', operation', payload', hj, hp'⟩ := h'.spec
    rw [hid, hid', Option.some.injEq] at heq
    have hsame : g.keptBefore operations i = g.keptBefore operations j :=
      Nat.repr_injective ((String.append_right_inj "order-").1 heq)
    rcases Nat.lt_or_gt_of_ne hij with hlt | hlt
    · have := keptBefore_lt hi hp g hlt
      omega
    · have := keptBefore_lt hj hp' g hlt
      omega

/-- An order of one soup. -/
def souper : Order := ⟨⟨"ada"⟩, ⟨"r1"⟩, [⟨⟨"i1"⟩, 1⟩]⟩

/-- One client places an order and posts the same one later; another one has a refusal forced on what is
no order at all, which a third one sends. -/
def threeClients : List (List Operation) :=
  [[.ask (.place souper), .ask (.post Endpoint.orders souper.toJson.sorted)],
    [.forceStatus (some 429), .seed 1, .forceStatus none],
    [.ask (.post Endpoint.orders .null)]]

/-- What the three do, in an order in which it may take effect. -/
def threeInTurn : List Operation :=
  [.ask (.place souper), .forceStatus (some 429), .ask (.post Endpoint.orders .null), .seed 1,
    .forceStatus none, .ask (.post Endpoint.orders souper.toJson.sorted)]

theorem interleaved_three : Interleaved threeClients threeInTurn := by
  refine .next [] (.next [_] (.next [_, _] (.next [_] (.next [_] (.next [] (.done ?_))))))
  decide

theorem orders_kept_three_clients : Interleaved threeClients threeInTurn ∧ ∃ call call',
    (ofRestaurants [kitchen ⟨"r1"⟩]).AcceptedAt threeInTurn 0 call ∧
      (ofRestaurants [kitchen ⟨"r1"⟩]).AcceptedAt threeInTurn 5 call' ∧
      call.orderId? = some "order-0" ∧ call'.orderId? = some "order-2" ∧
      ((ofRestaurants [kitchen ⟨"r1"⟩]).performAll threeInTurn).orders =
        [souper.toJson.sorted, .null, souper.toJson.sorted] := by
  obtain ⟨hall, -, hplace, -⟩ := orders_kept (ofRestaurants [kitchen ⟨"r1"⟩]) threeInTurn
  have h0 : (ofRestaurants [kitchen ⟨"r1"⟩]).AcceptedAt threeInTurn 0 _ :=
    ⟨rfl, rfl, place_accepted (by decide +kernel)⟩
  have h5 : (ofRestaurants [kitchen ⟨"r1"⟩]).AcceptedAt threeInTurn 5 _ :=
    ⟨rfl, rfl, post_accepted (by decide +kernel)⟩
  obtain ⟨_, _, -, -, -, hid⟩ := hplace 0 _ h0
  obtain ⟨_, _, -, -, -, hid'⟩ := hplace 5 _ h5
  exact ⟨interleaved_three, _, _, h0, h5, hid, hid', hall⟩

end MemoryGateway

end LunchRush
