import LunchRush.Http.Script
import LunchRush.Proofs.Http.Requests
import LunchRush.Proofs.Text.Utf8
/-!
# How responses are read

A call is read off what comes of its request, and whether that is a result, a status, an unreadable body or
no answer at all is decided in the same way for every call (`classified`). A response may send the caller on,
so that one call makes several requests (`Trail`). A sequence of calls over a served base URL is a conversation
in which each call has the answers to its own requests, and makes one request where nothing sends it on
(`calls_classified`).
-/

namespace LunchRush

open Http

/-! ## One answer -/

/-- The call that was answered so. -/
def Inquiry.answered (outcome : Except RequestError Response) : Inquiry → Call
  | .health => .health ((outcome.map Response.status).toOption == some 200)
  | .register registration =>
    .register registration ((outcome.mapError RequestError.toGatewayError).bind (Response.value Restaurant.ofJson?))
  | .list area => .list area ((outcome.mapError RequestError.toGatewayError).bind (Response.value listingOfJson?))
  | .post endpoint payload =>
    .post endpoint payload ((outcome.mapError RequestError.toGatewayError).bind (Response.value Json.read?))
  | .place order => .place order ((outcome.mapError RequestError.toGatewayError).bind Response.reply)

namespace Http

/-- A result that is read from the body of a success. -/
structure Decodes {α : Type} (read? : String → Option α) (outcome : Except RequestError Response)
    (result : Except GatewayError α) : Prop where
  ok : ∀ a, result = .ok a ↔ ∃ r, outcome = .ok r ∧ isServed r.status = true ∧ r.whole = true ∧
    read? (Text.ofBytes r.body) = some a
  status : ∀ code body, result = .error (.status code body) ↔ ∃ r, outcome = .ok r ∧
    isServed r.status = false ∧ code = r.status ∧ body = if r.whole then Text.ofBytes r.body else ""
  decode : (∃ reason, result = .error (.decode reason)) ↔
    (∃ r, outcome = .ok r ∧ isServed r.status = true ∧
      (r.whole = false ∨ read? (Text.ofBytes r.body) = none)) ∨
    ∃ e, outcome = .error e ∧ e.kind = .decode
  transport : ∀ timeout, (∃ reason, result = .error (.transport reason timeout)) ↔
    ∃ e, outcome = .error e ∧ e.kind ≠ .decode ∧ e.kind ≠ .builder ∧ timeout = e.timedOut
  configured : (∃ reason, result = .error (.invalidConfig reason)) ↔
    ∃ e, outcome = .error e ∧ e.kind = .builder

/-- A result that is the response itself. -/
structure Replies (outcome : Except RequestError Response) (result : Except GatewayError Reply) : Prop where
  ok : ∀ reply, result = .ok reply ↔ ∃ r, outcome = .ok r ∧ r.whole = true ∧
    reply = ⟨r.status, Text.ofBytes r.body⟩
  status : ∀ code body, result ≠ .error (.status code body)
  decode : (∃ reason, result = .error (.decode reason)) ↔
    (∃ r, outcome = .ok r ∧ r.whole = false) ∨ ∃ e, outcome = .error e ∧ e.kind = .decode
  transport : ∀ timeout, (∃ reason, result = .error (.transport reason timeout)) ↔
    ∃ e, outcome = .error e ∧ e.kind ≠ .decode ∧ e.kind ≠ .builder ∧ timeout = e.timedOut
  configured : (∃ reason, result = .error (.invalidConfig reason)) ↔
    ∃ e, outcome = .error e ∧ e.kind = .builder

end Http

/-- A call that is classified by what came of its request. -/
def Call.Classified (outcome : Except RequestError Response) : Call → Prop
  | .health healthy => healthy = true ↔ ∃ r, outcome = .ok r ∧ r.status = 200
  | .register _ result => Decodes Restaurant.ofJson? outcome result
  | .list _ result => Decodes listingOfJson? outcome result
  | .post _ _ result => Decodes Json.read? outcome result
  | .place _ result => Replies outcome result

namespace Http

/-- What comes of a request that was answered so. -/
def Request.outcome (r : Request) (answer : Except Silence Response) : Except RequestError Response :=
  answer.mapError (·.toError r.url)

/-! ### Errors -/

section Errors

variable {α : Type} {e : RequestError} {timeout : Bool}

theorem toGatewayError_decode : (∃ reason, (.error e.toGatewayError : Except GatewayError α) =
    .error (.decode reason)) ↔ e.kind = .decode := by
  unfold RequestError.toGatewayError
  split <;> simp_all

theorem toGatewayError_transport : (∃ reason, (.error e.toGatewayError : Except GatewayError α) =
    .error (.transport reason timeout)) ↔ e.kind ≠ .decode ∧ e.kind ≠ .builder ∧ timeout = e.timedOut := by
  unfold RequestError.toGatewayError
  split <;> simp_all [eq_comm]

theorem toGatewayError_configured : (∃ reason, (.error e.toGatewayError : Except GatewayError α) =
    .error (.invalidConfig reason)) ↔ e.kind = .builder := by
  unfold RequestError.toGatewayError
  split <;> simp_all

theorem toGatewayError_status (code : Nat) (body : String) : e.toGatewayError ≠ .status code body := by
  unfold RequestError.toGatewayError
  split <;> simp

end Errors

/-- A value is read off what came of a request, or why there is none. -/
theorem decodes_value {α : Type} (read? : String → Option α) (outcome : Except RequestError Response) :
    Decodes read? outcome ((outcome.mapError RequestError.toGatewayError).bind (Response.value read?)) := by
  cases outcome with
  | error e =>
    show Decodes read? (.error e) (.error e.toGatewayError)
    constructor
    case decode => rw [toGatewayError_decode]; simp
    case transport => intro timeout; rw [toGatewayError_transport]; simp
    case configured => rw [toGatewayError_configured]; simp
    case status => simp [toGatewayError_status]
    case ok => simp
  | ok r =>
    show Decodes read? (.ok r) (r.value read?)
    unfold Response.value Response.text
    cases hs : isServed r.status with
    | false =>
      rw [Bool.not_false, if_pos rfl]
      constructor
      case status =>
        intro code body
        constructor
        · intro h
          cases h
          refine ⟨r, rfl, hs, rfl, ?_⟩
          split <;> rfl
        · rintro ⟨other, h, -, rfl, rfl⟩
          cases h
          split <;> rfl
      all_goals simp [hs]
    | true =>
      rw [Bool.not_true, if_neg Bool.false_ne_true]
      cases hw : r.whole with
      | false =>
        rw [if_neg Bool.false_ne_true]
        constructor <;> simp [hs, hw, RequestError.toGatewayError]
      | true =>
        rw [if_pos rfl]
        cases hread : read? (Text.ofBytes r.body) <;> constructor <;> simp [hs, hw, hread]

theorem replies_reply (outcome : Except RequestError Response) :
    Replies outcome ((outcome.mapError RequestError.toGatewayError).bind Response.reply) := by
  cases outcome with
  | error e =>
    show Replies (.error e) (.error e.toGatewayError)
    constructor
    case decode => rw [toGatewayError_decode]; simp
    case transport => intro timeout; rw [toGatewayError_transport]; simp
    case configured => rw [toGatewayError_configured]; simp
    case status => simp [toGatewayError_status]
    case ok => simp
  | ok r =>
    show Replies (.ok r) r.reply
    unfold Response.reply Response.text
    cases hw : r.whole with
    | false =>
      rw [if_neg Bool.false_ne_true]
      constructor <;> simp [hw, RequestError.toGatewayError]
    | true =>
      rw [if_pos rfl]
      constructor
      case ok =>
        intro reply
        constructor
        · intro h
          cases h
          exact ⟨r, rfl, hw, rfl⟩
        · rintro ⟨other, h, -, rfl⟩
          cases h
          rfl
      all_goals simp [hw]

theorem healthy_iff (outcome : Except RequestError Response) :
    ((outcome.map Response.status).toOption == some 200) = true ↔
      ∃ r, outcome = .ok r ∧ r.status = 200 := by
  cases outcome with
  | error e =>
    constructor
    · intro h
      cases h
    · rintro ⟨r, h, -⟩
      cases h
  | ok r =>
    show (some r.status == some 200) = true ↔ _
    simp

/-- Whatever comes of the request of a call, the call is classified by it. -/
theorem classified (inquiry : Inquiry) (outcome : Except RequestError Response) :
    (inquiry.answered outcome).Classified outcome := by
  cases inquiry with
  | health => exact healthy_iff outcome
  | register r => exact decodes_value Restaurant.ofJson? outcome
  | list area => exact decodes_value listingOfJson? outcome
  | post endpoint payload => exact decodes_value Json.read? outcome
  | place order => exact replies_reply outcome

/-! ## One call -/

namespace Connection

variable {ν : Type} [Network ν] [Url.Names]

/-- A call sends its request, if it has one, and those that follow it, and nothing else. -/
theorem ask_eq (c : Connection ν) (inquiry : Inquiry) :
    Gateway.ask c inquiry =
      (inquiry.answered (c.exchange (c.client.requestOf inquiry)).1,
        (c.exchange (c.client.requestOf inquiry)).2) := by
  cases inquiry <;> rfl

end Connection

/-! ## Requests that follow one another -/

theorem timeout_of_next {r next : Request} {response : Response} (h : r.next? response = some next) :
    next.timeout = r.timeout := by
  unfold Request.next? at h
  obtain ⟨url, -, h⟩ := Option.bind_eq_some_iff.1 h
  split at h
  · cases h
    rfl
  · split at h
    · cases h
      rfl
    · cases h

theorem next?_of_no_location {response : Response} (h : response.location = none) (r : Request) :
    r.next? response = none := by
  unfold Request.next?
  rw [h]
  rfl

/-- The answers to a request and to those that follow it, the requests that get to those who answer, and what
comes of them. -/
inductive Trail (reaches : Request → Bool) : (redirects : Nat) → Request → List (Except Silence Response) →
    List Request → Except RequestError Response → Prop where
  /-- Nobody answers elsewhere. -/
  | elsewhere {redirects r} : reaches r = false → Trail reaches redirects r [] [] (r.outcome (.error .broken))
  /-- The answer sends the caller nowhere. -/
  | answered {redirects r answer} : reaches r = true →
    (∀ response, answer = .ok response → r.next? response = none) →
    Trail reaches redirects r [answer] [r] (r.outcome answer)
  /-- The caller is sent on. -/
  | followed {redirects r next response answers requests outcome} : reaches r = true →
    r.next? response = some next → isWeb next.url = true →
    Trail reaches redirects next answers requests outcome →
    Trail reaches (redirects + 1) r (.ok response :: answers) (r :: requests) outcome
  /-- The caller is sent to where no request can be made. -/
  | barred {redirects r next response} : reaches r = true → r.next? response = some next →
    isWeb next.url = false →
    Trail reaches (redirects + 1) r [.ok response] [r] (.error { kind := .builder, url := some next.url })
  /-- The caller has been sent on often enough. -/
  | ended {r next response} : reaches r = true → r.next? response = some next →
    Trail reaches 0 r [.ok response] [r] (.error { kind := .redirect, url := some r.url })

/-- A request is made once more each time the caller may be sent on. -/
theorem Trail.length_le {reaches : Request → Bool} {redirects : Nat} {r : Request}
    {answers : List (Except Silence Response)} {requests : List Request} {outcome : Except RequestError Response}
    (h : Trail reaches redirects r answers requests outcome) : requests.length ≤ redirects + 1 := by
  induction h with
  | elsewhere => exact Nat.zero_le _
  | followed _ _ _ _ ih => exact Nat.succ_le_succ ih
  | answered => exact Nat.le_add_left 1 _
  | barred => exact Nat.le_add_left 1 _
  | ended => exact Nat.le_refl 1

/-! ## Calls to a server -/

namespace ScriptedServer

/-- What comes of the next requests: what the script says, and after its end what it does not foresee. -/
def outcomes (s : ScriptedServer) (count : Nat) : List (Except Silence Response) :=
  (List.range count).map fun i => (s.answers[i]?.map Answer.outcome).getD (.ok unforeseen)

/-- The server after some requests. -/
def after (s : ScriptedServer) (requests : List Request) : ScriptedServer :=
  { s with answers := s.answers.drop requests.length, requests := s.requests ++ requests }

theorem send_eq {s : ScriptedServer} {r : Request} (hs : s.serves r = true) (hr : r.timeout ≠ .zero) :
    ∃ outcome, send r s = (outcome, s.after [r]) ∧
      ∀ count, s.outcomes (count + 1) = outcome :: (s.after [r]).outcomes count := by
  refine ⟨(s.answers[0]?.map Answer.outcome).getD (.ok unforeseen), ?_, ?_⟩
  · unfold send
    rw [if_neg hr, if_neg (by simp [hs])]
    dsimp only [after, List.length_singleton]
    cases s.answers <;> rfl
  · intro count
    unfold outcomes
    rw [List.range_succ_eq_map, List.map_cons, List.map_map]
    congr 1
    apply List.map_congr_left
    intro i _
    show _ = ((s.answers.drop 1)[i]?.map Answer.outcome).getD (.ok unforeseen)
    rw [List.getElem?_drop, Nat.add_comm]
    rfl

theorem after_append (s : ScriptedServer) (requests more : List Request) :
    (s.after requests).after more = s.after (requests ++ more) := by
  simp [after]

theorem after_nil (s : ScriptedServer) : s.after [] = s := by
  simp [after]

theorem transmit_elsewhere {redirects : Nat} {r : Request} {s : ScriptedServer} (hr : r.timeout ≠ .zero)
    (hs : s.serves r = false) : transmit redirects r s = (r.outcome (.error .broken), s) := by
  have hsend : Network.send r s = (.error .broken, s) := by
    show send r s = _
    unfold send
    rw [if_neg hr, if_pos (by simp [hs])]
  unfold transmit
  rw [hsend]
  rfl

theorem transmit_answered {redirects : Nat} {r : Request} {s s' : ScriptedServer}
    {answer : Except Silence Response} (hsend : Network.send r s = (answer, s'))
    (hnext : ∀ response, answer = .ok response → r.next? response = none) :
    transmit redirects r s = (r.outcome answer, s') := by
  unfold transmit
  rw [hsend]
  cases answer with
  | error silence => rfl
  | ok response =>
    dsimp only
    rw [hnext response rfl]
    rfl

theorem transmit_ended {r next : Request} {s s' : ScriptedServer} {response : Response}
    (hsend : Network.send r s = (.ok response, s')) (hnext : r.next? response = some next) :
    transmit 0 r s = (.error { kind := .redirect, url := some r.url }, s') := by
  unfold transmit
  rw [hsend]
  dsimp only
  rw [hnext]

theorem transmit_onward {redirects : Nat} {r next : Request} {s s' : ScriptedServer} {response : Response}
    (hsend : Network.send r s = (.ok response, s')) (hnext : r.next? response = some next) :
    transmit (redirects + 1) r s = if isWeb next.url then transmit redirects next s'
      else (.error { kind := .builder, url := some next.url }, s') := by
  rw [transmit, hsend]
  dsimp only
  rw [hnext]

/-- What follows a request: the requests and the answers of a trail. -/
def Follows (redirects : Nat) (r : Request) (s : ScriptedServer) : Prop :=
  ∃ answers requests outcome, transmit redirects r s = (outcome, s.after requests) ∧
    Trail s.serves redirects r answers requests outcome ∧
    ∀ count, s.outcomes (requests.length + count) = answers ++ (s.after requests).outcomes count

/-- A request is done with, or its answer sends the caller on. -/
theorem follows_or_next (redirects : Nat) {r : Request} {s : ScriptedServer} (hr : r.timeout ≠ .zero) :
    Follows redirects r s ∨ ∃ response next, s.serves r = true ∧
      Network.send r s = (.ok response, s.after [r]) ∧ r.next? response = some next ∧
      ∀ count, s.outcomes (count + 1) = .ok response :: (s.after [r]).outcomes count := by
  cases hs : s.serves r with
  | false =>
    refine .inl ⟨[], [], _, by rw [transmit_elsewhere hr hs, after_nil], .elsewhere hs, fun count => ?_⟩
    rw [after_nil, List.length_nil, Nat.zero_add]
    rfl
  | true =>
    obtain ⟨answer, hsend, houtcomes⟩ := send_eq hs hr
    replace hsend : Network.send r s = (answer, s.after [r]) := hsend
    by_cases hnext : ∀ response, answer = .ok response → r.next? response = none
    · refine .inl ⟨[answer], [r], _, transmit_answered hsend hnext, .answered hs hnext, fun count => ?_⟩
      rw [List.length_singleton, Nat.add_comm]
      exact houtcomes count
    · push Not at hnext
      obtain ⟨response, rfl, hnext⟩ := hnext
      obtain ⟨next, hnext⟩ := Option.ne_none_iff_exists'.1 hnext
      exact .inr ⟨response, next, rfl, hsend, hnext, houtcomes⟩

/-- The server gets the requests of a trail, and the trail has the next answers of the script. -/
theorem transmit_follows (redirects : Nat) : ∀ (r : Request) (s : ScriptedServer), r.timeout ≠ .zero →
    Follows redirects r s := by
  -- by how often the caller may still be sent on; each time the request and the server are others
  induction redirects with
  | zero =>
    intro r s hr
    rcases follows_or_next 0 hr with h | ⟨response, next, hs, hsend, hnext, houtcomes⟩
    · exact h
    · refine ⟨_, [r], _, transmit_ended hsend hnext, .ended hs hnext, fun count => ?_⟩
      rw [List.length_singleton, Nat.add_comm]
      exact houtcomes count
  | succ redirects ih =>
    intro r s hr
    rcases follows_or_next (redirects + 1) hr with h | ⟨response, next, hs, hsend, hnext, houtcomes⟩
    · exact h
    · have honward := @transmit_onward redirects _ _ _ _ _ hsend hnext
      cases hweb : isWeb next.url with
      | false =>
        rw [hweb, if_neg Bool.false_ne_true] at honward
        refine ⟨_, [r], _, honward, .barred hs hnext hweb, fun count => ?_⟩
        rw [List.length_singleton, Nat.add_comm]
        exact houtcomes count
      | true =>
        have htimeout : next.timeout ≠ .zero := by rwa [timeout_of_next hnext]
        obtain ⟨answers, requests, outcome, htransmit, htrail, hmore⟩ := ih next (s.after [r]) htimeout
        rw [hweb, if_pos rfl, htransmit, after_append] at honward
        refine ⟨_, r :: requests, outcome, honward, .followed hs hnext hweb htrail, fun count => ?_⟩
        rw [List.length_cons, Nat.add_right_comm, houtcomes, hmore, after_append]
        rfl

end ScriptedServer

namespace Client

variable [Url.Names]

/-- The base URL is that of a server. -/
def IsServedBy (c : Client) (s : ScriptedServer) : Prop :=
  ∃ u, Url.parse c.base = .ok u ∧ u.scheme = "http" ∧ u.host = some s.host ∧
    u.effectivePort? = some s.port

/-- The URL of a call can be written into a request: no blank ends the base URL, nothing in the host
needs quotes, and the whole is not too long. -/
structure CanWrite (c : Client) (inquiry : Inquiry) : Prop where
  ends : ∀ ch, c.base.toList.getLast? = some ch → 0x20 < ch.toNat
  host : ∀ u host, Url.parse c.base = .ok u → u.host = some host → IsWritable host
  short : ∀ v, Url.parse (c.address inquiry.endpoint) = .ok v →
    (v.asked.withPairs inquiry.pairs).text.utf8ByteSize < 65535

variable {c : Client} {s : ScriptedServer}

theorem timeout_of_requestOf {inquiry : Inquiry} {r : Request} (h : c.requestOf inquiry = .ok r) :
    r.timeout = inquiry.timeout c.config := by
  rw [requestOf_eq] at h
  obtain ⟨v, -, -, rfl⟩ := parse_of_request h
  rfl

/-- Every request of the client reaches the server. -/
theorem IsServedBy.serves (h : c.IsServedBy s) {inquiry : Inquiry} {r : Request}
    (hr : c.requestOf inquiry = .ok r) : s.serves r = true := by
  obtain ⟨u, hu, hscheme, hhost, hport⟩ := h
  rw [requestOf_eq] at hr
  obtain ⟨v, hv, -, rfl⟩ := parse_of_request hr
  obtain ⟨path, hpath⟩ := c.exists_address inquiry.endpoint
  rw [hpath] at hv
  obtain ⟨hscheme', hhost', hport'⟩ := Url.site_of_parse hu (.inl hscheme) hv
  obtain ⟨hs, hh, hp, -⟩ := asked_withPairs_site v inquiry.pairs
  replace hs : (v.asked.withPairs inquiry.pairs).scheme = u.scheme := hs.trans hscheme'
  replace hh : (v.asked.withPairs inquiry.pairs).host = u.host := hh.trans hhost'
  replace hp : (v.asked.withPairs inquiry.pairs).port = u.port := hp.trans hport'
  have heffective : (v.asked.withPairs inquiry.pairs).effectivePort? = u.effectivePort? := by
    rw [Url.effectivePort?, hs, hp]
    rfl
  simp only [ScriptedServer.serves, hs, hh, heffective, hscheme, hhost, hport, beq_self_eq_true,
    Bool.and_self]

theorem IsServedBy.requestOf_ok (h : c.IsServedBy s) {inquiry : Inquiry} (hw : c.CanWrite inquiry) :
    ∃ r, c.requestOf inquiry = .ok r := by
  obtain ⟨u, hu, hscheme, hhost, -⟩ := h
  obtain ⟨path, hpath⟩ := c.exists_address inquiry.endpoint
  have hmargin : ∀ ch, c.base.toList.getLast? = some ch → Url.isMargin ch = false := by
    intro ch hch
    simpa [Url.isMargin] using hw.ends ch hch
  obtain ⟨v, hv⟩ := Url.exists_parse hu (.inl hscheme) hmargin path
  obtain ⟨hscheme', hhost', -⟩ := Url.site_of_parse hu (.inl hscheme) hv
  rw [← hpath] at hv
  have hrequest := request_eq hv (.inl (hscheme'.trans hscheme)) (hhost'.trans hhost)
    (hw.host u s.host hu hhost) inquiry.method inquiry.pairs inquiry.body (inquiry.timeout c.config)
  rw [if_pos (hw.short v hv), ← requestOf_eq] at hrequest
  exact ⟨_, hrequest⟩

theorem IsServedBy.after (h : c.IsServedBy s) (requests : List Request) :
    c.IsServedBy (s.after requests) := h

/-- The request that a call sends, unless it has none or may not wait at all. -/
def sent? (c : Client) (inquiry : Inquiry) : Option Request :=
  (c.requestOf inquiry).toOption.filter (·.timeout ≠ .zero)

/-- Calls and what becomes of them. The answers come in the order of the requests, and a call is
classified by those to its own. -/
inductive Conversation (c : Client) (reaches : Request → Bool) :
    List Inquiry → List (Except Silence Response) → List Call → List Request → Prop where
  | done : Conversation c reaches [] [] [] []
  /-- A call sends one request, and its answer is the next one. -/
  | sent {inquiry inquiries request answer answers call calls requests} :
    c.requestOf inquiry = .ok request → inquiry.timeout c.config ≠ .zero →
    (∀ response, answer = .ok response → request.next? response = none) →
    call = inquiry.answered (request.outcome answer) → call.Classified (request.outcome answer) →
    Conversation c reaches inquiries answers calls requests →
    Conversation c reaches (inquiry :: inquiries) (answer :: answers) (call :: calls) (request :: requests)
  /-- A call that is sent on has the answers of a trail. -/
  | followed {inquiry inquiries request next response trail answers call calls onward requests outcome} :
    c.requestOf inquiry = .ok request → inquiry.timeout c.config ≠ .zero →
    request.next? response = some next →
    Trail reaches redirectsMax request (.ok response :: trail) (request :: onward) outcome →
    call = inquiry.answered outcome → call.Classified outcome →
    Conversation c reaches inquiries answers calls requests →
    Conversation c reaches (inquiry :: inquiries) (.ok response :: trail ++ answers) (call :: calls)
      (request :: onward ++ requests)
  /-- A call that may not wait at all has timed out before it is sent. -/
  | expired {inquiry inquiries request answers call calls requests} :
    c.requestOf inquiry = .ok request → inquiry.timeout c.config = .zero →
    call = inquiry.answered (request.outcome (.error .timedOut)) →
    call.Classified (request.outcome (.error .timedOut)) →
    Conversation c reaches inquiries answers calls requests →
    Conversation c reaches (inquiry :: inquiries) answers (call :: calls) requests
  /-- A call whose URL cannot be written is refused. -/
  | refused {inquiry inquiries e answers call calls requests} :
    c.requestOf inquiry = .error e → e.kind = .builder → ¬ c.CanWrite inquiry →
    call = inquiry.answered (.error e) → call.Classified (.error e) →
    Conversation c reaches inquiries answers calls requests →
    Conversation c reaches (inquiry :: inquiries) answers (call :: calls) requests

/-- A trail adds to a conversation what one call of it does. -/
theorem Conversation.cons {reaches : Request → Bool} {inquiry : Inquiry} {inquiries : List Inquiry}
    {request : Request} {trail answers : List (Except Silence Response)} {calls : List Call}
    {sent requests : List Request} {outcome : Except RequestError Response}
    (h : Conversation c reaches inquiries answers calls requests) (hr : c.requestOf inquiry = .ok request)
    (htimeout : inquiry.timeout c.config ≠ .zero) (hreaches : reaches request = true)
    (htrail : Trail reaches redirectsMax request trail sent outcome) :
    Conversation c reaches (inquiry :: inquiries) (trail ++ answers) (inquiry.answered outcome :: calls)
      (sent ++ requests) := by
  have hclassified := classified inquiry outcome
  -- the trail is split to see what the first answer does, and is a part of the conversation as a whole
  cases id htrail with
  | elsewhere hnot =>
    rw [hreaches] at hnot
    cases hnot
  | answered _ hnext => exact .sent hr htimeout hnext rfl hclassified h
  | followed _ hnext _ _ => exact .followed hr htimeout hnext htrail rfl hclassified h
  | barred _ hnext _ => exact .followed hr htimeout hnext htrail rfl hclassified h

theorem sent?_eq_some {inquiry : Inquiry} {request : Request} (hr : c.requestOf inquiry = .ok request)
    (htimeout : inquiry.timeout c.config ≠ .zero) : c.sent? inquiry = some request := by
  rw [sent?, hr]
  simp [Except.toOption, timeout_of_requestOf hr, htimeout]

/-- Where no answer names a location, each call that is sent makes one request. -/
theorem Conversation.requests_eq {reaches : Request → Bool} {inquiries : List Inquiry}
    {answers : List (Except Silence Response)} {calls : List Call} {requests : List Request}
    (h : Conversation c reaches inquiries answers calls requests)
    (hlocation : ∀ response, .ok response ∈ answers → response.location = none) :
    requests = inquiries.filterMap c.sent? := by
  induction h with
  | done => rfl
  | sent hr htimeout _ _ _ _ ih =>
    rw [ih fun response hmem => hlocation response (List.mem_cons_of_mem _ hmem)]
    exact (List.filterMap_cons_some (sent?_eq_some hr htimeout)).symm
  | followed _ _ hnext _ _ _ _ _ =>
    -- an answer that sends the caller on names a location
    rw [next?_of_no_location (hlocation _ List.mem_cons_self)] at hnext
    cases hnext
  | expired hr htimeout _ _ _ ih =>
    rw [ih hlocation]
    refine (List.filterMap_cons_none ?_).symm
    rw [sent?, hr]
    simp [Except.toOption, timeout_of_requestOf hr, htimeout]
  | refused hr _ _ _ _ _ ih =>
    rw [ih hlocation]
    refine (List.filterMap_cons_none ?_).symm
    rw [sent?, hr]
    rfl

/-- No call makes more requests than it may be sent on, and one. -/
theorem Conversation.length_le {reaches : Request → Bool} {inquiries : List Inquiry}
    {answers : List (Except Silence Response)} {calls : List Call} {requests : List Request}
    (h : Conversation c reaches inquiries answers calls requests) :
    requests.length ≤ inquiries.length * (redirectsMax + 1) := by
  induction h with
  | done => exact Nat.zero_le _
  | followed _ _ _ htrail _ _ _ ih =>
    have hcall := htrail.length_le
    simp only [List.length_append, List.length_cons, Nat.succ_mul] at hcall ⊢
    omega
  | sent _ _ _ _ _ _ ih =>
    simp only [List.length_cons, Nat.succ_mul]
    omega
  | expired _ _ _ _ _ ih =>
    simp only [List.length_cons, Nat.succ_mul]
    omega
  | refused _ _ _ _ _ _ ih =>
    simp only [List.length_cons, Nat.succ_mul]
    omega

/-- The calls to a server are a conversation. -/
theorem IsServedBy.exists_conversation (inquiries : List Inquiry) : ∀ {s : ScriptedServer}, c.IsServedBy s →
    ∃ requests calls, Gateway.askAll (⟨c, s⟩ : Connection ScriptedServer) inquiries =
        (calls, ⟨c, s.after requests⟩) ∧
      Conversation c s.serves inquiries (s.outcomes requests.length) calls requests := by
  induction inquiries with
  | nil =>
    intro s _
    exact ⟨[], [], by simp [Gateway.askAll, ScriptedServer.after], .done⟩
  | cons inquiry inquiries ih =>
    intro s h
    have hask := Connection.ask_eq (⟨c, s⟩ : Connection ScriptedServer) inquiry
    cases hr : c.requestOf inquiry with
    | error e =>
      have hkind := builder_of_request ((c.requestOf_eq inquiry).symm.trans hr)
      rw [hr] at hask
      -- a URL that can be written makes a request, and there is none
      have hwrite : ¬ c.CanWrite inquiry := by
        intro hw
        obtain ⟨r, hok⟩ := h.requestOf_ok hw
        rw [hr] at hok
        cases hok
      obtain ⟨requests, calls, hcalls, hconversation⟩ := ih h
      exact ⟨requests, _, by simp [Gateway.askAll, hask, Connection.exchange, hcalls],
        .refused hr hkind hwrite rfl (classified inquiry _) hconversation⟩
    | ok r =>
      rw [hr] at hask
      have htimeout := timeout_of_requestOf hr
      by_cases hzero : r.timeout = .zero
      · have hsend : Network.send r s = (.error .timedOut, s) := if_pos hzero
        have htransmit : transmit redirectsMax r s = (r.outcome (.error .timedOut), s) :=
          ScriptedServer.transmit_answered hsend nofun
        obtain ⟨requests, calls, hcalls, hconversation⟩ := ih h
        exact ⟨requests, _, by simp [Gateway.askAll, hask, Connection.exchange, htransmit, hcalls],
          .expired hr (htimeout ▸ hzero) rfl (classified inquiry _) hconversation⟩
      · obtain ⟨answers, sent, outcome, htransmit, htrail, houtcomes⟩ :=
          ScriptedServer.transmit_follows redirectsMax r s hzero
        -- the calls that follow find the server as this one has left it
        obtain ⟨requests, calls, hcalls, hconversation⟩ := ih (h.after sent)
        refine ⟨sent ++ requests, inquiry.answered outcome :: calls, ?_, ?_⟩
        · simp only [Gateway.askAll, hask, Connection.exchange, htransmit, hcalls, ScriptedServer.after_append]
        · rw [List.length_append, houtcomes]
          exact hconversation.cons hr (htimeout ▸ hzero) (h.serves hr) htrail

end Client

/-- Over a served base URL, every sequence of calls is a conversation with what the script of the server
brings, and the server gets the requests of the conversation and no others. They are one for each call that
can be sent, unless an answer names a location, and never more than eleven. A body that is UTF-8 is given back
as it came. -/
theorem calls_classified [Url.Names] {c : Client} {s : ScriptedServer} (h : c.IsServedBy s)
    (inquiries : List Inquiry) : ∃ requests calls,
      Gateway.askAll (⟨c, s⟩ : Connection ScriptedServer) inquiries = (calls, ⟨c, s.after requests⟩) ∧
      c.Conversation s.serves inquiries (s.outcomes requests.length) calls requests ∧
      requests.length ≤ inquiries.length * (redirectsMax + 1) ∧
      ((∀ response, .ok response ∈ s.outcomes requests.length → response.location = none) →
        requests = inquiries.filterMap c.sent?) ∧
      ∀ text : String, Text.ofBytes text.toUTF8.toList = text := by
  obtain ⟨requests, calls, hcalls, hconversation⟩ := h.exists_conversation inquiries
  exact ⟨requests, calls, hcalls, hconversation, hconversation.length_le, hconversation.requests_eq,
    Text.ofBytes_utf8⟩

section Plain

attribute [local instance] Url.Names.plain

def localUrl : Url :=
  { scheme := "http", host := some (.ipv4 0x7f000001), port := some 8080, path := .segments [""] }

/-- A server on this machine that says that it is ready, then accepts an order, then breaks off, then sends the
caller on. -/
def localServer : ScriptedServer :=
  ⟨.ipv4 0x7f000001, 8080, [.response 200 [] 0 none, .response 201 [0x7b, 0x7d] 0 none,
    .response 200 [0x7b, 0xff] 1 none, .response 307 [] 0 (some localUrl)], []⟩

def localClient : Client := ⟨"http://127.0.0.1:8080", none, { baseUrl := "http://127.0.0.1:8080" }⟩

theorem localUrl_read : Url.parse localClient.base = .ok localUrl := by decide +kernel

theorem localClient_served : localClient.IsServedBy localServer :=
  ⟨localUrl, localUrl_read, rfl, rfl, rfl⟩

def localCalls : List Inquiry :=
  [.health, .post "/menu" .null, .post "/menu" .null, .list .discovery]

theorem calls_classified_locally : localClient.IsServedBy localServer ∧ ∃ requests calls,
    requests.length = 5 ∧
    Gateway.askAll (⟨localClient, localServer⟩ : Connection ScriptedServer) localCalls =
      (calls, ⟨localClient, localServer.after requests⟩) ∧
    localClient.Conversation localServer.serves localCalls (localServer.outcomes requests.length) calls
      requests := by
  obtain ⟨requests, calls, hcalls, hconversation, -, -, -⟩ := calls_classified localClient_served localCalls
  have hcount : (Gateway.askAll (⟨localClient, localServer⟩ : Connection ScriptedServer)
      localCalls).2.network.requests.length = 5 := by decide +kernel
  rw [hcalls] at hcount
  exact ⟨localClient_served, requests, calls, hcount, hcalls, hconversation⟩

/-! ### A URL that is too long -/

/-- A path of so many letters. -/
def rowOf (n : Nat) : String := String.ofList ('/' :: List.replicate n 'a')

/-- A client whose base URL goes on with a row of letters. -/
def rowClient (n : Nat) : Client := { localClient with base := localClient.base ++ rowOf n }

theorem rowOf_utf8ByteSize (n : Nat) : (rowOf n).utf8ByteSize = n + 1 := by
  rw [rowOf]
  induction n with
  | zero => rfl
  | succ n ih =>
    rw [List.replicate_succ', ← List.cons_append, String.ofList_append, String.utf8ByteSize_append, ih]
    rfl

theorem rowOf_append (n : Nat) (path : List Char) :
    rowOf n ++ String.ofList path = String.ofList ('/' :: (List.replicate n 'a' ++ path)) := by
  rw [rowOf, ← String.ofList_append, List.cons_append]

/-- What is written behind the base URL of the local client comes below it. -/
theorem parse_local {path : List Char} (h : Url.IsSimple path) :
    ∃ p : Url.Path, p.text = localUrl.stem ++ String.ofList ('/' :: path) ∧
      Url.parse (localClient.base ++ String.ofList ('/' :: path)) = .ok { localUrl with path := p } := by
  have hends : ∀ c, localClient.base.toList.getLast? = some c →
      Url.isMargin c = false ∧ Url.isSlash true c = false := by
    have hlast : localClient.base.toList.getLast? = some '0' := by decide +kernel
    intro c hc
    rw [hlast] at hc
    cases hc
    exact ⟨rfl, rfl⟩
  exact Url.parse_below localUrl_read (.inl rfl) rfl rfl hends (by decide +kernel) h

theorem replicate_simple (n : Nat) : Url.IsSimple (List.replicate n 'a') := by
  intro c hc
  left
  rw [List.eq_of_mem_replicate hc]
  rfl

theorem rowClient_served (n : Nat) : (rowClient n).IsServedBy localServer := by
  obtain ⟨p, -, hparse⟩ := parse_local (replicate_simple n)
  exact ⟨_, hparse, rfl, rfl, rfl⟩

/-- Behind a long base URL, no endpoint of the gateway can be asked for. -/
theorem row_refused {n : Nat} (hn : 65535 ≤ n) {inquiry : Inquiry} (hi : inquiry.IsNamed) :
    ∃ e, (rowClient n).requestOf inquiry = .error e ∧ e.kind = .builder := by
  obtain ⟨path, hendpoint, hpath⟩ := inquiry.endpoint_simple hi
  have hsimple : Url.IsSimple (List.replicate n 'a' ++ '/' :: path) := by
    intro c hc
    rcases List.mem_append.1 hc with hc | hc
    · exact replicate_simple n c hc
    · rcases List.mem_cons.1 hc with rfl | hc
      · exact .inr rfl
      · exact hpath c hc
  obtain ⟨p, hp, hparse⟩ := parse_local hsimple
  rw [← rowOf_append] at hp hparse
  have haddress : Url.parse ((rowClient n).address inquiry.endpoint) = .ok { localUrl with path := p } := by
    rw [hendpoint, Client.address_of_slash, rowClient, String.append_assoc, hparse]
  have hwritable : Client.IsWritable (.ipv4 0x7f000001) := by
    unfold Client.IsWritable
    decide +kernel
  have hlong : ∀ u : Url, u.path = p → ¬ u.text.utf8ByteSize < 65535 := by
    intro u hu
    have hsize : n < p.text.utf8ByteSize := by
      rw [hp, String.utf8ByteSize_append, String.utf8ByteSize_append, rowOf_utf8ByteSize]
      omega
    simp only [Url.text, String.utf8ByteSize_append, hu]
    omega
  rw [Client.requestOf_eq, Client.request_eq haddress (.inl rfl) rfl hwritable,
    if_neg (hlong _ (Client.asked_withPairs_site _ _).2.2.2)]
  exact ⟨_, rfl, rfl⟩

/-- Over a long base URL, a server is not asked whether it is ready, and is taken not to be. -/
theorem row_unhealthy {n : Nat} (hn : 65535 ≤ n) :
    Gateway.isHealthy (⟨rowClient n, localServer⟩ : Connection ScriptedServer) =
      (false, ⟨rowClient n, localServer⟩) := by
  have hnamed : Inquiry.health.IsNamed := trivial
  obtain ⟨e, hrefused, -⟩ := row_refused hn hnamed
  replace hrefused : (rowClient n).healthRequest = .error e := hrefused
  show Connection.isHealthy _ = _
  unfold Connection.isHealthy
  simp only [hrefused]
  rfl

/-- A server that sends the caller on to itself and then says that it is ready. -/
def movedServer : ScriptedServer :=
  ⟨.ipv4 0x7f000001, 8080, [.response 307 [] 0 (some localUrl), .response 200 [] 0 none], []⟩

/-- Not every call makes one request: over a long base URL none is made, although the server is ready, and a
server that sends the caller on is asked again. -/
theorem row_unsent :
    ((rowClient 65536).IsServedBy localServer ∧ localServer.outcomes 1 = [.ok ⟨200, [], true, none⟩] ∧
      Gateway.isHealthy (⟨rowClient 65536, localServer⟩ : Connection ScriptedServer) =
        (false, ⟨rowClient 65536, localServer⟩)) ∧
    localClient.IsServedBy movedServer ∧
      (Gateway.isHealthy (⟨localClient, movedServer⟩ : Connection ScriptedServer)).1 = true ∧
      (Gateway.isHealthy (⟨localClient, movedServer⟩ : Connection ScriptedServer)).2.network.requests.length =
        2 :=
  ⟨⟨rowClient_served 65536, by decide +kernel, row_unhealthy (by decide)⟩, localClient_served, by decide +kernel,
    by decide +kernel⟩

end Plain

end Http

end LunchRush
