import LunchRush.Proofs.Gateway.Ledger
import LunchRush.Proofs.Json.Exact
/-!
# What a gateway in memory answers to an order

Whatever JSON value is sent as an order, one of four things holds of it, looked for in this order: it names
no restaurant that is held, it has no lines, a line does not fit the restaurant's menu, or all lines fit and
the order is served for their total (`order_answered`). The text of a reply writes the total exactly; who
posts an order gets it as that text is read.
-/

namespace LunchRush

/-! ## Entries under an identifier -/

/-- The first entry under an identifier. -/
def IsFirst {α : Type} (key : α → String) (id : String) (xs : List α) (x : α) : Prop :=
  ∃ before after, xs = before ++ x :: after ∧ key x = id ∧ ∀ y ∈ before, key y ≠ id

theorem find?_eq_some_iff_first {α : Type} {key : α → String} {id : String} {xs : List α} {x : α} :
    xs.find? (key · == id) = some x ↔ IsFirst key id xs x := by
  rw [List.find?_eq_some_iff_append]
  constructor
  · rintro ⟨hx, before, after, rfl, hbefore⟩
    exact ⟨before, after, rfl, beq_iff_eq.1 hx, fun y hy he => by simpa [he] using hbefore y hy⟩
  · rintro ⟨before, after, rfl, hx, hbefore⟩
    exact ⟨beq_iff_eq.2 hx, before, after, rfl, fun y hy => by simpa using hbefore y hy⟩

theorem Json.text?_eq_some {v : Json} {s : String} : v.text? = some s ↔ v = .text s := by
  cases v <;> simp [Json.text?]

theorem Json.list?_eq_some {v : Json} {items : List Json} : v.list? = some items ↔ v = .list items := by
  cases v <;> simp [Json.list?]

namespace MemoryGateway

/-! ## What an order says -/

/-- An order names the first restaurant that is held under its identifier. -/
def Names (g : MemoryGateway) (order : Json) (r : Restaurant) : Prop :=
  ∃ id, order.field? "restaurant_id" = some (.text id) ∧ IsFirst (·.restaurantId.text) id g.restaurants r

/-- The lines of an order, at least one. -/
def HasLines (order : Json) (lines : List Json) : Prop :=
  order.field? "items" = some (.list lines) ∧ lines ≠ []

/-- A line asks for at least one of the first item under its identifier. -/
structure Fits (r : Restaurant) (line : Json) (entry : MenuItem × Float) : Prop where
  item : ∃ id, line.field? "item_id" = some (.text id) ∧ IsFirst (·.itemId.text) id r.menus entry.1
  quantity : ∃ value, line.field? "quantity" = some value ∧ value.float? = some entry.2
  enough : (1.0 : Float) ≤ entry.2

/-- What lines come to, added up from the left. -/
def totalOf (entries : List (MenuItem × Float)) : Float :=
  entries.foldl (fun sum entry => sum + entry.1.price * entry.2) 0.0

theorem find?_names {g : MemoryGateway} {order : Json} {r : Restaurant} :
    (((order.field? "restaurant_id").bind Json.text?).bind fun id =>
      g.restaurants.find? (·.restaurantId.text == id)) = some r ↔ g.Names order r := by
  constructor
  · intro h
    obtain ⟨id, hid, hr⟩ := Option.bind_eq_some_iff.1 h
    obtain ⟨value, hvalue, htext⟩ := Option.bind_eq_some_iff.1 hid
    obtain rfl := Json.text?_eq_some.1 htext
    exact ⟨id, hvalue, find?_eq_some_iff_first.1 hr⟩
  · rintro ⟨id, hvalue, hr⟩
    rw [hvalue]
    exact find?_eq_some_iff_first.2 hr

theorem list?_lines {order : Json} {lines : List Json} (hne : lines ≠ []) :
    (order.field? "items").bind Json.list? = some lines ↔ HasLines order lines := by
  constructor
  · intro h
    obtain ⟨value, hvalue, hlist⟩ := Option.bind_eq_some_iff.1 h
    obtain rfl := Json.list?_eq_some.1 hlist
    exact ⟨hvalue, hne⟩
  · rintro ⟨hvalue, -⟩
    rw [hvalue]
    rfl

/-- A line is read where it fits: without a quantity there is not enough of anything. -/
theorem lineOf?_eq_some {r : Restaurant} {line : Json} {entry : MenuItem × Float} :
    lineOf? r line = some entry ↔ Fits r line entry := by
  constructor
  · intro h
    simp only [lineOf?, Option.bind_eq_bind, Option.bind_eq_some_iff] at h
    obtain ⟨value, hvalue, id, hid, item, hitem, h⟩ := h
    split at h
    · rename_i henough
      cases h
      obtain rfl := Json.text?_eq_some.1 hid
      refine ⟨⟨id, hvalue, find?_eq_some_iff_first.1 hitem⟩, ?_, henough⟩
      cases hq : (line.field? "quantity").bind Json.float? with
      | none =>
        rw [hq] at henough
        exact absurd henough (by decide)
      | some quantity =>
        obtain ⟨amount, hamount, hfloat⟩ := Option.bind_eq_some_iff.1 hq
        exact ⟨amount, hamount, hfloat⟩
    · cases h
  · rintro ⟨⟨id, hvalue, hitem⟩, ⟨amount, hamount, hfloat⟩, henough⟩
    simp only [lineOf?, Option.bind_eq_bind, hvalue, hamount, hfloat, Json.text?, Option.bind_some,
      Option.getD_some, find?_eq_some_iff_first.2 hitem]
    exact if_pos henough

theorem lineOf?_eq_none {r : Restaurant} {line : Json} :
    lineOf? r line = none ↔ ¬ ∃ entry, Fits r line entry := by
  rw [Option.eq_none_iff_forall_ne_some, not_exists]
  exact forall_congr' fun entry => not_congr lineOf?_eq_some

/-- Lines have a total exactly if all of them fit. -/
theorem total?_eq_some {r : Restaurant} {lines : List Json} {total : Float} : ∀ {sum : Float},
    total? r sum lines = some total ↔ ∃ entries, List.Forall₂ (Fits r) lines entries ∧
      total = entries.foldl (fun sum entry => sum + entry.1.price * entry.2) sum := by
  induction lines with
  | nil => simp [total?, eq_comm]
  | cons line lines ih =>
    intro sum
    rw [total?]
    constructor
    · intro h
      split at h
      · rename_i item quantity hline
        obtain ⟨entries, hentries, rfl⟩ := ih.1 h
        exact ⟨_, .cons (lineOf?_eq_some.1 hline) hentries, rfl⟩
      · cases h
    · rintro ⟨_, _ | ⟨hline, hentries⟩, rfl⟩
      rw [lineOf?_eq_some.2 hline]
      exact ih.2 ⟨_, hentries, rfl⟩

/-- Lines have no total exactly if one of them does not fit. -/
theorem total?_eq_none {r : Restaurant} {lines : List Json} : ∀ {sum : Float},
    total? r sum lines = none ↔ ∃ line ∈ lines, ¬ ∃ entry, Fits r line entry := by
  induction lines with
  | nil => simp [total?]
  | cons line lines ih =>
    intro sum
    rw [total?, List.exists_mem_cons_iff, ← lineOf?_eq_none]
    cases hline : lineOf? r line with
    | none => exact iff_of_true rfl (.inl rfl)
    | some entry => exact ih.trans (or_iff_right (Option.some_ne_none entry)).symm

/-! ## The four answers -/

/-- The answer to an order where no status is forced. -/
inductive Answer (g : MemoryGateway) (order : Json) : Reply → Prop
  | unknown : (¬ ∃ r, g.Names order r) → Answer g order ⟨500, refusal "Restaurant not found"⟩
  | empty {r : Restaurant} : g.Names order r → (¬ ∃ lines, HasLines order lines) →
      Answer g order ⟨400, refusal "Invalid request"⟩
  | misfit {r : Restaurant} {lines : List Json} : g.Names order r → HasLines order lines →
      (∃ line ∈ lines, ¬ ∃ entry, Fits r line entry) →
      Answer g order ⟨500, refusal "Invalid order data provided"⟩
  | served {r : Restaurant} {lines : List Json} {entries : List (MenuItem × Float)} :
      g.Names order r → HasLines order lines → List.Forall₂ (Fits r) lines entries →
      Answer g order ⟨201, receipt g.orders.length (totalOf entries)⟩

theorem reply_answer {g : MemoryGateway} (hs : g.forcedStatus = none) (order : Json) :
    g.Answer order (g.reply order) := by
  unfold reply
  rw [hs]
  dsimp only
  split
  · rename_i hr
    refine .unknown fun ⟨r, hnames⟩ => ?_
    rw [find?_names.2 hnames] at hr
    cases hr
  · rename_i r hr
    have hnames := find?_names.1 hr
    split
    · rename_i line lines hlines
      have hlines := (list?_lines (List.cons_ne_nil _ _)).1 hlines
      split
      · rename_i htotal
        exact .misfit hnames hlines (total?_eq_none.1 htotal)
      · rename_i total htotal
        obtain ⟨entries, hentries, rfl⟩ := total?_eq_some.1 htotal
        exact .served hnames hlines hentries
    · rename_i hnone
      refine .empty hnames fun ⟨lines, hlines⟩ => ?_
      obtain ⟨line, rest, rfl⟩ := List.exists_cons_of_ne_nil hlines.2
      exact hnone line rest ((list?_lines (List.cons_ne_nil _ _)).2 hlines)

/-! ## When each of them is given -/

theorem all_fit_iff {r : Restaurant} {lines : List Json} :
    (∀ line ∈ lines, ∃ entry, Fits r line entry) ↔ ∃ entries, List.Forall₂ (Fits r) lines entries := by
  constructor
  · intro h
    induction lines with
    | nil => exact ⟨[], .nil⟩
    | cons line lines ih =>
      obtain ⟨⟨entry, hline⟩, hlines⟩ := List.forall_mem_cons.1 h
      obtain ⟨entries, hentries⟩ := ih hlines
      exact ⟨entry :: entries, .cons hline hentries⟩
  · rintro ⟨entries, h⟩
    induction h with
    | nil => exact nofun
    | cons hline _ ih => exact List.forall_mem_cons.2 ⟨⟨_, hline⟩, ih⟩

/-- No other answer fits an order than the one that is given. -/
theorem Answer.given {g : MemoryGateway} {order : Json} {reply : Reply} (h : g.Answer order reply)
    (hs : g.forcedStatus = none) : g.reply order = reply := by
  unfold MemoryGateway.reply
  rw [hs]
  dsimp only
  cases h with
  | unknown hnone =>
    rw [Option.eq_none_iff_forall_ne_some.2 fun r hr => hnone ⟨r, find?_names.1 hr⟩]
  | empty hn hnone =>
    rw [find?_names.2 hn]
    dsimp only
    split
    · rename_i hlines
      exact absurd ⟨_, (list?_lines (List.cons_ne_nil _ _)).1 hlines⟩ hnone
    · rfl
  | @misfit _ lines hn hl hmisfit =>
    obtain ⟨line, rest, rfl⟩ := List.exists_cons_of_ne_nil hl.2
    rw [find?_names.2 hn, (list?_lines hl.2).2 hl]
    dsimp only
    rw [total?_eq_none.2 hmisfit]
  | @served _ lines entries hn hl hfits =>
    obtain ⟨line, rest, rfl⟩ := List.exists_cons_of_ne_nil hl.2
    rw [find?_names.2 hn, (list?_lines hl.2).2 hl]
    dsimp only
    rw [total?_eq_some.2 ⟨entries, hfits, rfl⟩]
    rfl

section

variable {g : MemoryGateway} {order : Json}

theorem Answer.unknown_iff :
    g.Answer order ⟨500, refusal "Restaurant not found"⟩ ↔ ¬ ∃ r, g.Names order r := by
  refine ⟨fun h => ?_, .unknown⟩
  generalize hr : Reply.mk 500 (refusal "Restaurant not found") = reply at h
  cases h with
  | unknown hnone => exact hnone
  | misfit => exact absurd (congrArg Reply.body hr) (by decide)
  | empty | served => cases hr

theorem Answer.empty_iff : g.Answer order ⟨400, refusal "Invalid request"⟩ ↔
    (∃ r, g.Names order r) ∧ ¬ ∃ lines, HasLines order lines := by
  refine ⟨fun h => ?_, fun ⟨⟨_, hn⟩, hnone⟩ => .empty hn hnone⟩
  generalize hr : Reply.mk 400 (refusal "Invalid request") = reply at h
  cases h with
  | empty hn hnone => exact ⟨⟨_, hn⟩, hnone⟩
  | unknown | misfit | served => cases hr

theorem Answer.misfit_iff : g.Answer order ⟨500, refusal "Invalid order data provided"⟩ ↔
    ∃ r lines, g.Names order r ∧ HasLines order lines ∧ ∃ line ∈ lines, ¬ ∃ entry, Fits r line entry := by
  refine ⟨fun h => ?_, fun ⟨_, _, hn, hl, hmisfit⟩ => .misfit hn hl hmisfit⟩
  generalize hr : Reply.mk 500 (refusal "Invalid order data provided") = reply at h
  cases h with
  | misfit hn hl hmisfit => exact ⟨_, _, hn, hl, hmisfit⟩
  | unknown => exact absurd (congrArg Reply.body hr) (by decide)
  | empty | served => cases hr

end

theorem reply_eq_iff {g : MemoryGateway} (hs : g.forcedStatus = none) (order : Json) (reply : Reply) :
    g.reply order = reply ↔ g.Answer order reply :=
  ⟨fun h => h ▸ reply_answer hs order, fun h => h.given hs⟩

/-! ## The total in an answer -/

/-- What a total is in a reply: JSON has no text for one that is not finite. -/
def amountOf (total : Float) : Json := if total.isFinite then .float total else .null

theorem receipt_eq (number : Nat) (total : Float) :
    receipt number total = Json.compact (.record [("order_id", .text s!"order-{number}"),
      ("status", .text "PENDING"), ("total_amount", amountOf total)]) := by
  unfold amountOf
  cases hx : total.isFinite with
  | true => rfl
  | false =>
    have hchars : Json.compactChars (.float total) = Json.compactChars .null :=
      congrArg String.toList (Json.show_of_not_finite hx)
    simp only [receipt, Json.compact, Json.compactChars, Json.compactFields, Bool.false_eq_true,
      if_false] at hchars ⊢
    rw [hchars]

/-- What a total is read as by who posts an order. -/
inductive AmountRead (total : Float) : Json → Prop
  | null : total.isFinite = false → AmountRead total .null
  /-- The numeral in the reply is that of the total. The reader takes it for some float, and for the total if
  it is short. -/
  | float {n : Json.Numeral} {y : Float} : total.isFinite = true →
      (Number.Layout.json.show total).toList = n.chars → n.decimal.toFloat = total → n.float? = some y →
      (n.IsShort → y = total) → AmountRead total (.float y)

theorem exists_amountRead (total : Float) : ∃ amount, AmountRead total amount ∧
    Json.Reads 0 (Json.compactChars (.float total)) amount := by
  change ∃ amount, AmountRead total amount ∧ Json.Reads 0 (Number.Layout.json.show total).toList amount
  cases hx : total.isFinite with
  | false =>
    rw [Json.show_of_not_finite hx]
    exact ⟨.null, .null hx, Json.reads_null⟩
  | true =>
    obtain ⟨n, hn, hchars, htotal, y, hy⟩ := Json.exists_numeral_nearest hx
    have hfloat := n.float?_of_value? hy
    refine ⟨.float y, .float hx hchars htotal hfloat fun hshort => ?_, ?_⟩
    · have hexact := n.isExact_of_short hshort
      rw [Json.Numeral.IsExact, hfloat, htotal] at hexact
      exact Option.some.inj hexact
    · rw [hchars]
      exact Json.reads_numeral hn hy

/-! ## The answer to every order -/

/-- When each answer is given to an order, and what becomes of it where it is posted or placed. -/
structure Answered (g : MemoryGateway) (order : Json) : Prop where
  unknown : g.reply order = ⟨500, refusal "Restaurant not found"⟩ ↔ ¬ ∃ r, g.Names order r
  empty : g.reply order = ⟨400, refusal "Invalid request"⟩ ↔
    (∃ r, g.Names order r) ∧ ¬ ∃ lines, HasLines order lines
  misfit : g.reply order = ⟨500, refusal "Invalid order data provided"⟩ ↔
    ∃ r lines, g.Names order r ∧ HasLines order lines ∧ ∃ line ∈ lines, ¬ ∃ entry, Fits r line entry
  served : (g.reply order).status = 201 ↔
    ∃ r lines, g.Names order r ∧ HasLines order lines ∧ ∀ line ∈ lines, ∃ entry, Fits r line entry
  total : ∀ r lines entries, g.Names order r → HasLines order lines → List.Forall₂ (Fits r) lines entries →
    g.reply order = ⟨201, Json.compact (.record [("order_id", .text s!"order-{g.orders.length}"),
      ("status", .text "PENDING"), ("total_amount", amountOf (totalOf entries))])⟩ ∧
    ∃ amount, AmountRead (totalOf entries) amount ∧
      (Gateway.post Endpoint.orders order g).1 =
        .ok (.record [("order_id", .text s!"order-{g.orders.length}"), ("status", .text "PENDING"),
          ("total_amount", amount)])
  refused : (g.reply order).status ≠ 201 → (Gateway.post Endpoint.orders order g).1 =
    .error (.status (g.reply order).status (g.reply order).body)
  kept : (Gateway.post Endpoint.orders order g).2 = { g with orders := g.orders ++ [order] }
  placed : ∀ o : Order, o.toJson.sorted = order →
    Gateway.place o g = (.ok (g.reply order), { g with orders := g.orders ++ [order] })

theorem served?_receipt (number : Nat) (total : Float) : ∃ amount, AmountRead total amount ∧
    served? ⟨201, receipt number total⟩ = .ok (.record [("order_id", .text s!"order-{number}"),
      ("status", .text "PENDING"), ("total_amount", amount)]) := by
  obtain ⟨amount, hamount, hread⟩ := exists_amountRead total
  refine ⟨amount, hamount, ?_⟩
  rw [served?, read?_receipt_amount number hread]
  rfl

theorem status_eq_iff {g : MemoryGateway} (hs : g.forcedStatus = none) (order : Json) :
    (g.reply order).status = 201 ↔
      ∃ r lines, g.Names order r ∧ HasLines order lines ∧ ∀ line ∈ lines, ∃ entry, Fits r line entry := by
  constructor
  · intro hstatus
    have h := reply_answer hs order
    generalize g.reply order = reply at h hstatus
    cases h with
    | unknown | empty | misfit => cases hstatus
    | served hn hl hfits => exact ⟨_, _, hn, hl, all_fit_iff.2 ⟨_, hfits⟩⟩
  · rintro ⟨r, lines, hn, hl, hall⟩
    obtain ⟨entries, hfits⟩ := all_fit_iff.1 hall
    rw [(Answer.served hn hl hfits).given hs]

/-- The answer to every order where no status is forced. -/
theorem order_answered (g : MemoryGateway) (hs : g.forcedStatus = none) (order : Json) :
    g.Answered order where
  unknown := (reply_eq_iff hs order _).trans Answer.unknown_iff
  empty := (reply_eq_iff hs order _).trans Answer.empty_iff
  misfit := (reply_eq_iff hs order _).trans Answer.misfit_iff
  served := status_eq_iff hs order
  total := by
    intro r lines entries hn hl hfits
    have hreply := (reply_eq_iff hs order _).2 (.served hn hl hfits)
    refine ⟨by rw [hreply, receipt_eq], ?_⟩
    obtain ⟨amount, hamount, hread⟩ := served?_receipt g.orders.length (totalOf entries)
    refine ⟨amount, hamount, ?_⟩
    change served? (g.reply order) = _
    rw [hreply]
    exact hread
  refused := by
    intro hstatus
    have h := reply_answer hs order
    change served? (g.reply order) = _
    generalize g.reply order = reply at h hstatus ⊢
    cases h with
    | unknown | empty | misfit => rfl
    | served => exact absurd rfl hstatus
  kept := rfl
  placed := by
    rintro o rfl
    rfl

/-- A gateway with one restaurant that has one dish. -/
def soupBar : MemoryGateway := .ofRestaurants [⟨⟨"r1"⟩, "", "", 0.0, 0.0, [⟨⟨"i1"⟩, "Soup", "", 50.12⟩]⟩]

/-- An order of some soups. -/
def soups (quantity : Nat) : Json :=
  .record [("items", .list [.record [("item_id", .text "i1"), ("quantity", .ofNat quantity)]]),
    ("restaurant_id", .text "r1")]

theorem soups_fit {quantity : Nat} {amount : Float} (hread : (Json.ofNat quantity).float? = some amount)
    (henough : (1.0 : Float) ≤ amount) : ∃ r lines item, soupBar.Names (soups quantity) r ∧
      HasLines (soups quantity) lines ∧ List.Forall₂ (Fits r) lines [(item, amount)] ∧
      item.price = 50.12 :=
  ⟨_, _, _, ⟨"r1", rfl, [], [], rfl, rfl, nofun⟩, ⟨rfl, nofun⟩,
    .cons ⟨⟨"i1", rfl, [], [], rfl, rfl, nofun⟩, ⟨_, rfl, hread⟩, henough⟩ .nil, rfl⟩

theorem order_answered_soups : soupBar.forcedStatus = none ∧ soupBar.Answered (soups 2) ∧
    (soupBar.reply (soups 2)).status = 201 ∧ soupBar.Answered (soups 0) ∧
    soupBar.reply (soups 0) = ⟨500, refusal "Invalid order data provided"⟩ := by
  have hbad := order_answered soupBar rfl (soups 0)
  refine ⟨rfl, order_answered soupBar rfl (soups 2), by decide +kernel, hbad, hbad.misfit.2 ?_⟩
  refine ⟨_, _, ⟨"r1", rfl, [], [], rfl, rfl, nofun⟩, ⟨rfl, nofun⟩, _, List.mem_cons_self, ?_⟩
  rintro ⟨entry, -, ⟨value, hvalue, hread⟩, henough⟩
  cases hvalue
  rw [← Option.some.inj hread] at henough
  exact absurd henough (by decide)

/-- Three soups come to a total of seventeen digits, which is read as a neighbour. -/
theorem posted_total_differs : ¬ ∀ (g : MemoryGateway) (order : Json) (r : Restaurant) (lines : List Json)
    (entries : List (MenuItem × Float)), g.forcedStatus = none → g.Names order r → HasLines order lines →
      List.Forall₂ (Fits r) lines entries → ∃ value, (Gateway.post Endpoint.orders order g).1 = .ok value ∧
        value.field? "total_amount" = some (amountOf (totalOf entries)) := by
  intro h
  have hthree : (Json.ofNat 3).float? = some 3.0 := by decide +kernel
  obtain ⟨r, lines, item, hn, hl, hfits, hprice⟩ := soups_fit hthree (by decide)
  obtain ⟨value, hvalue, hamount⟩ := h soupBar (soups 3) r lines _ rfl hn hl hfits
  have hposted : (Gateway.post Endpoint.orders (soups 3) soupBar).1.toOption.bind (fun value =>
      (value.field? "total_amount").bind Json.float?) = some 150.36 := by decide +kernel
  have htotal : totalOf [(item, 3.0)] = 0.0 + 50.12 * 3.0 := by rw [← hprice]; rfl
  rw [hvalue, Except.toOption, Option.bind_some, hamount, htotal] at hposted
  exact absurd hposted (by decide +kernel)

end MemoryGateway

end LunchRush
