import Domain.Base.Iana
import Domain.Net.Cookies

/-! The request gate of `CookiesMiddlewareSvc` (RFC 7873, RFC 9018).
`preprocess` reads the first COOKIE option of a request and either passes the
request on to the inner service or answers it itself: REFUSED with TC for a
cookie-less UDP request from a denied address, FORMERR for a malformed option,
and a reply carrying a fresh server cookie for a prefetch or a server cookie
that fails its check.

The COOKIE option and the server cookie are those of `base::opt::cookie`,
which is not in src/: they follow RFC 7873, Section 4 and RFC 9018, Section 4,
with SipHash-2-4 as a parameter. -/

namespace Domain.Net

/-- `std::net::IpAddr` as its four or sixteen octets. -/
structure IpAddr where
  octets : List UInt8
  deriving DecidableEq, Repr

/-! ### Octets of a timestamp -/

def u32ToBeBytes (v : UInt32) : List UInt8 :=
  [(v.toNat / 2 ^ 24 % 256).toUInt8, (v.toNat / 2 ^ 16 % 256).toUInt8,
    (v.toNat / 2 ^ 8 % 256).toUInt8, (v.toNat % 256).toUInt8]

def u32FromBeBytes (a b c d : UInt8) : UInt32 :=
  .ofNat (a.toNat * 2 ^ 24 + b.toNat * 2 ^ 16 + c.toNat * 2 ^ 8 + d.toNat)

theorem toNat_toUInt8_mod (n : Nat) : (n % 256).toUInt8.toNat = n % 256 :=
  UInt8.toNat_ofNat_of_lt (Nat.mod_lt _ (by decide))

theorem u32FromBeBytes_toBeBytes (v : UInt32) :
    u32FromBeBytes (v.toNat / 2 ^ 24 % 256).toUInt8 (v.toNat / 2 ^ 16 % 256).toUInt8
      (v.toNat / 2 ^ 8 % 256).toUInt8 (v.toNat % 256).toUInt8 = v := by
  have hv := v.toNat_lt_size
  apply UInt32.toNat.inj
  simp only [u32FromBeBytes, toNat_toUInt8_mod]
  rw [UInt32.toNat_ofNat_of_lt] <;> simp only [UInt32.size] at * <;> omega

theorem u32ToBeBytes_eq (v : UInt32) :
    ∃ a b c d, u32ToBeBytes v = [a, b, c, d] ∧ u32FromBeBytes a b c d = v :=
  ⟨_, _, _, _, rfl, u32FromBeBytes_toBeBytes v⟩

/-! ### The COOKIE option -/

/-- Modelled from the spec: `base::wire::ParseError` (not in src/), the two ways
parsing an option fails. -/
inductive ParseError
  | shortInput
  | form
  deriving DecidableEq, Repr

/-- Modelled from the spec: `opt::Cookie` (not in src/), RFC 7873, Section 4: a
client cookie and an optional server cookie. -/
structure Cookie where
  client : List UInt8
  server : Option (List UInt8)
  deriving DecidableEq, Repr

structure OptEntry where
  code : UInt16
  data : List UInt8
  deriving DecidableEq, Repr

def cookieCode : UInt16 := 10

/-- Modelled from the spec: the keyed hash of RFC 9018, Section 4.4 (SipHash-2-4
with the server secret as key), as `opt::cookie` (not in src/) computes it: the
eight octets of the Hash field. -/
structure Hash8 where
  octets : List UInt8
  length_eq : octets.length = 8

@[simp] theorem Hash8.length_octets (h : Hash8) : h.octets.length = 8 := h.length_eq

namespace Cookie

/-- Modelled from the spec: `Cookie::parse` (not in src/). Eight octets of client
cookie come first; what follows is the server cookie, which RFC 7873,
Section 4 bounds to 8 to 32 octets. -/
def parse (data : List UInt8) : Except ParseError Cookie :=
  if data.length < 8 then .error .shortInput
  else if data.drop 8 = [] then .ok ⟨data.take 8, none⟩
  else if (data.drop 8).length < 8 ∨ 32 < (data.drop 8).length then .error .form
  else .ok ⟨data.take 8, some (data.drop 8)⟩

/-- Modelled from the spec: `Compose for Cookie` (not in src/), the client cookie
followed by the server cookie. -/
def compose (c : Cookie) : List UInt8 := c.client ++ c.server.getD []

def WellFormed (c : Cookie) : Prop :=
  c.client.length = 8 ∧ ∀ s, c.server = some s → 8 ≤ s.length ∧ s.length ≤ 32

theorem parse_wellFormed {data : List UInt8} {c : Cookie} (h : parse data = .ok c) :
    c.WellFormed := by
  unfold parse at h
  split_ifs at h with h8 hnil hlen <;> cases h
  · exact ⟨by simp; omega, by simp⟩
  · exact ⟨by simp; omega, by simp only [Option.some.injEq, forall_eq']; omega⟩

theorem parse_compose {c : Cookie} (h : c.WellFormed) : parse c.compose = .ok c := by
  obtain ⟨client, server⟩ := c
  obtain ⟨hc, hs⟩ := h
  simp only at hc hs
  cases server with
  | none => simp [parse, compose, hc]
  | some s =>
    obtain ⟨h1, h2⟩ := hs s rfl
    have hne : s ≠ [] := List.ne_nil_of_length_pos (by omega)
    simp only [parse, compose, Option.getD_some, List.length_append, hc, List.drop_left' hc,
      List.take_left' hc, hne, if_false]
    rw [if_neg (by omega), if_neg (by omega)]

/-! ### The server cookie of RFC 9018 -/

/-- Modelled from the spec: `ServerCookie::new` of RFC 9018, Section 4 (not in
src/): version 1, three reserved octets, the timestamp, then the hash of the
client cookie, those eight octets and the client address. -/
def serverCookieNew (siphash : List UInt8 → List UInt8 → Hash8) (client : List UInt8)
    (timestamp : Serial) (clientIp : IpAddr) (secret : List UInt8) : List UInt8 :=
  let head := [1, 0, 0, 0] ++ u32ToBeBytes timestamp.val
  head ++ (siphash (client ++ head ++ clientIp.octets) secret).octets

/-- Modelled from the spec: the timestamp of a server cookie of RFC 9018,
Section 4, which is sixteen octets; `none` for a server cookie of another form. -/
def serverTimestamp (server : List UInt8) : Option Serial :=
  if server.length = 16 then
    match server.drop 4 with
    | t1 :: t2 :: t3 :: t4 :: _ => some ⟨u32FromBeBytes t1 t2 t3 t4⟩
    | _ => none
  else none

/-- Modelled from the spec: the hash check of RFC 9018, Section 4.4: the last
eight octets are the hash of the client cookie, the first eight octets and the
client address. -/
def serverHashOk (siphash : List UInt8 → List UInt8 → Hash8) (client server : List UInt8)
    (clientIp : IpAddr) (secret : List UInt8) : Bool :=
  server.drop 8 == (siphash (client ++ server.take 8 ++ clientIp.octets) secret).octets

/-- Modelled from the spec: `Cookie::check_server_hash` (not in src/). A cookie
without a server cookie, or with one not of the form of RFC 9018, fails;
otherwise `timestamp_ok` decides on its timestamp (`none` is its panic) and the
hash is recomputed. -/
def checkServerHash (c : Cookie) (siphash : List UInt8 → List UInt8 → Hash8)
    (clientIp : IpAddr) (secret : List UInt8) (timestampOk : Serial → Option Bool) :
    Option Bool :=
  match c.server with
  | none => some false
  | some server =>
    match serverTimestamp server with
    | none => some false
    | some ts => do
      let fresh ← timestampOk ts
      pure (fresh && serverHashOk siphash c.client server clientIp secret)

/-- Modelled from the spec: `Cookie::create_response` (not in src/), the client
cookie with a new server cookie. -/
def createResponse (c : Cookie) (siphash : List UInt8 → List UInt8 → Hash8)
    (timestamp : Serial) (clientIp : IpAddr) (secret : List UInt8) : Cookie :=
  ⟨c.client, some (serverCookieNew siphash c.client timestamp clientIp secret)⟩

section
variable (siphash : List UInt8 → List UInt8 → Hash8) (clientIp : IpAddr) (secret : List UInt8)

def ServerCookieValid (c : Cookie) (now : Serial) : Prop :=
  ∃ server ts, c.server = some server ∧ serverTimestamp server = some ts ∧
    timestampOk now ts = some true ∧ serverHashOk siphash c.client server clientIp secret = true

theorem checkServerHash_timestampOk (c : Cookie) (now : Serial) :
    ∃ b, c.checkServerHash siphash clientIp secret (timestampOk now) = some b ∧
      (b = true ↔ c.ServerCookieValid siphash clientIp secret now) := by
  unfold checkServerHash ServerCookieValid
  rcases hs : c.server with _ | server
  · simp
  · rcases ht : serverTimestamp server with _ | ts
    · simp [ht]
    · simp [ht, timestampOk_eq]

instance (c : Cookie) (now : Serial) : Decidable (c.ServerCookieValid siphash clientIp secret now) :=
  decidable_of_iff (c.checkServerHash siphash clientIp secret (timestampOk now) = some true) (by
    obtain ⟨b, hb, hiff⟩ := checkServerHash_timestampOk siphash clientIp secret c now
    rw [hb, Option.some.injEq, hiff])

theorem serverTimestamp_new (client : List UInt8) (timestamp : Serial) :
    serverTimestamp (serverCookieNew siphash client timestamp clientIp secret) = some timestamp := by
  obtain ⟨a, b, c, d, h, hv⟩ := u32ToBeBytes_eq timestamp.val
  simp [serverTimestamp, serverCookieNew, h, hv]

theorem serverHashOk_new (client : List UInt8) (timestamp : Serial) :
    serverHashOk siphash client (serverCookieNew siphash client timestamp clientIp secret)
      clientIp secret = true := by
  simp [serverHashOk, serverCookieNew, u32ToBeBytes]

theorem createResponse_valid (c : Cookie) {timestamp now : Serial}
    (hts : timestampOk now timestamp = some true) :
    (c.createResponse siphash timestamp clientIp secret).ServerCookieValid siphash clientIp
      secret now :=
  ⟨_, timestamp, rfl, serverTimestamp_new siphash clientIp secret c.client timestamp, hts,
    serverHashOk_new siphash clientIp secret c.client timestamp⟩

theorem createResponse_wellFormed {c : Cookie} (hc : c.WellFormed) (timestamp : Serial) :
    (c.createResponse siphash timestamp clientIp secret).WellFormed :=
  ⟨hc.1, by simp [createResponse, serverCookieNew, u32ToBeBytes]⟩

end

end Cookie

theorem timestampOk_of_sub_le {now ts : Serial} (h : (now.val - ts.val).toNat ≤ 3600) :
    timestampOk now ts = some true := by
  have ha := now.val.toNat_lt_size
  have hb := ts.val.toNat_lt_size
  have h300 : (300 : UInt32).toBitVec.toNat = 300 := rfl
  have h3600 : (3600 : UInt32).toBitVec.toNat = 3600 := rfl
  rw [timestampOk_eq, Option.some.injEq, Bool.and_eq_true, Serial.le_iff, Serial.le_iff]
  simp only [UInt32.add_def, UInt32.sub_def, UInt32.toNat, BitVec.toNat_add, BitVec.toNat_sub,
    h300, h3600] at h ⊢
  simp only [UInt32.toNat, UInt32.size] at ha hb
  omega

/-! ### The middleware -/

/-- The parts of `Request` the middleware reads. -/
structure Request where
  /-- `client_addr().ip()` -/
  clientIp : IpAddr
  /-- `transport_ctx().is_udp()` -/
  isUdp : Bool
  /-- `message().header_counts().qdcount()` -/
  qdcount : UInt16
  /-- The options of the message's OPT record, `none` without one -/
  opt : Option (List OptEntry)

def firstCookieOption (request : Request) : Option OptEntry :=
  request.opt.bind fun opts => opts.find? fun o => o.code == cookieCode

/-- `CookiesMiddlewareSvc::cookie`: the first COOKIE option, parsed (RFC 7873,
Section 5.2: only the first is considered). -/
def cookie (request : Request) : Option (Except ParseError Cookie) :=
  (firstCookieOption request).map fun o => Cookie.parse o.data

theorem cookie_wellFormed {request : Request} {c : Cookie} (h : cookie request = some (.ok c)) :
    c.WellFormed := by
  obtain ⟨o, -, ho⟩ := Option.map_eq_some'.mp h
  exact Cookie.parse_wellFormed ho

theorem cookie_of_data {request : Request} {data : List UInt8}
    (h : (firstCookieOption request).map OptEntry.data = some data) :
    cookie request = some (Cookie.parse data) := by
  obtain ⟨o, ho, rfl⟩ := Option.map_eq_some'.mp h
  simp [cookie, ho]

/-- The code outside src/ that a call depends on: the keyed hash of the server
cookie, and whether `add_edns_options` finds room for the OPT record in the
reply to a request. -/
structure CookieEnv where
  siphash : List UInt8 → List UInt8 → Hash8
  ednsFits : Request → Bool

structure Response where
  /-- Made by `start_reply` from the request, not by `mk_builder_for_target` -/
  reply : Bool
  rcode : OptRcode
  tc : Bool
  /-- The COOKIE option of the response's OPT record -/
  cookie : Option Cookie
  deriving DecidableEq, Repr

/-- `ControlFlow<AdditionalBuilder<..>>`: pass the request on, or answer it. -/
inductive Flow
  | continue
  | break (response : Response)
  deriving DecidableEq, Repr

structure CookiesMiddlewareSvc (σ : Type) where
  svc : Request → σ
  serverSecret : List UInt8
  ipDenyList : List IpAddr

/-- `MiddlewareStream` as `call` returns it: the inner service's future, or one
response of the middleware. -/
inductive CallStream (σ : Type)
  | identityFuture (future : σ)
  | result (response : Response)
  deriving DecidableEq

namespace CookiesMiddlewareSvc

variable {σ : Type}

def new (svc : Request → σ) (serverSecret : List UInt8) : CookiesMiddlewareSvc σ :=
  ⟨svc, serverSecret, []⟩

def withDeniedIps (self : CookiesMiddlewareSvc σ) (ipDenyList : List IpAddr) :
    CookiesMiddlewareSvc σ :=
  { self with ipDenyList := ipDenyList }

section
variable (self : CookiesMiddlewareSvc σ) (env : CookieEnv) (now : Serial) (request : Request)

/-- `response_with_cookie`, with `Serial::now()` as `now`: the reply carries the
client cookie with a new server cookie and the rcode, unless `add_edns_options`
fails, when it goes out as `start_reply` made it. -/
def responseWithCookie (rcode : OptRcode) : Response :=
  let additional : Response := ⟨true, .noerror, false, none⟩
  match cookie request with
  | some (.ok clientCookie) =>
    let responseCookie :=
      clientCookie.createResponse env.siphash now request.clientIp self.serverSecret
    if env.ednsFits request then { additional with cookie := some responseCookie, rcode := rcode }
    else additional
  | _ => additional

def badCookieResponse : Response := self.responseWithCookie env now request .badcookie

def prefetchCookieResponse : Response := self.responseWithCookie env now request .noerror

/-- `CookiesMiddlewareSvc::preprocess`, with `Serial::now()` as `now`; `none` is a
panic. -/
def preprocess : Option Flow :=
  match cookie request with
  | none =>
    if request.isUdp && self.ipDenyList.contains request.clientIp then
      some (.break ⟨false, .refused, true, none⟩)
    else some .continue
  | some (.error _) => some (.break ⟨false, .formerr, false, none⟩)
  | some (.ok c) => do
    let serverCookieExists := c.server.isSome
    let serverCookieIsValid ←
      c.checkServerHash env.siphash request.clientIp self.serverSecret (timestampOk now)
    if !serverCookieIsValid then
      if request.qdcount = 0 then
        if !serverCookieExists then pure (.break (self.prefetchCookieResponse env now request))
        else pure (.break (self.badCookieResponse env now request))
      else if request.isUdp then pure (.break (self.badCookieResponse env now request))
      else pure .continue
    else if request.qdcount = 0 then pure (.break (self.prefetchCookieResponse env now request))
    else pure .continue

/-- `Service::call` of the middleware; `none` is a panic. -/
def call : Option (CallStream σ) :=
  (self.preprocess env now request).map fun
    | .continue => .identityFuture (self.svc request)
    | .break response => .result response

/-! ### How `preprocess` decides -/

theorem preprocess_of_none (hc : cookie request = none) :
    self.preprocess env now request = some
      (if request.isUdp = true ∧ request.clientIp ∈ self.ipDenyList then
        .break ⟨false, .refused, true, none⟩ else .continue) := by
  simp only [preprocess, hc, Bool.and_eq_true, List.elem_iff, List.contains]
  split_ifs <;> rfl

theorem preprocess_of_error {e : ParseError} (hc : cookie request = some (.error e)) :
    self.preprocess env now request = some (.break ⟨false, .formerr, false, none⟩) := by
  simp only [preprocess, hc]

theorem preprocess_of_ok {c : Cookie} (hc : cookie request = some (.ok c)) :
    self.preprocess env now request = some
      (if c.ServerCookieValid env.siphash request.clientIp self.serverSecret now then
        (if request.qdcount = 0 then .break (self.prefetchCookieResponse env now request)
          else .continue)
      else if request.qdcount = 0 then
        (if c.server.isSome then .break (self.badCookieResponse env now request)
          else .break (self.prefetchCookieResponse env now request))
      else if request.isUdp then .break (self.badCookieResponse env now request)
      else .continue) := by
  obtain ⟨b, hb, hiff⟩ :=
    c.checkServerHash_timestampOk env.siphash request.clientIp self.serverSecret now
  simp only [preprocess, hc, hb, Option.bind_eq_bind, Option.some_bind]
  cases b
  · have hv := mt hiff.mpr Bool.false_ne_true
    simp only [hv, if_false, Bool.not_false, if_true, Option.pure_def]
    split_ifs <;> simp_all
  · simp only [hiff.mp rfl, if_true, Bool.not_true, Bool.false_eq_true, if_false, Option.pure_def]
    split_ifs <;> rfl

theorem responseWithCookie_of_ok {c : Cookie} (hc : cookie request = some (.ok c))
    (rcode : OptRcode) :
    self.responseWithCookie env now request rcode =
      if env.ednsFits request then
        ⟨true, rcode, false,
          some (c.createResponse env.siphash now request.clientIp self.serverSecret)⟩
      else ⟨true, .noerror, false, none⟩ := by
  simp only [responseWithCookie, hc]

end

/-! ### The gate -/

/-- What a request that the middleware passes on to the inner service has been
through, one constructor for each way through `preprocess`. -/
inductive Passes (self : CookiesMiddlewareSvc σ) (env : CookieEnv) (now : Serial)
    (request : Request) : Prop
  /-- No COOKIE option (RFC 7873, Section 5.2.1), and not a UDP request from a
  denied address. -/
  | noCookie (h : cookie request = none)
      (hdeny : request.isUdp = true → request.clientIp ∉ self.ipDenyList)
  /-- A question, with a server cookie that checks (Section 5.2.5). -/
  | validCookie (c : Cookie) (h : cookie request = some (.ok c)) (hq : request.qdcount ≠ 0)
      (hv : c.ServerCookieValid env.siphash request.clientIp self.serverSecret now)
  /-- A question over TCP, whatever the server cookie (Section 5.2.3, choice 3). -/
  | tcp (c : Cookie) (h : cookie request = some (.ok c)) (hq : request.qdcount ≠ 0)
      (htcp : request.isUdp = false)

section
variable (self : CookiesMiddlewareSvc σ) (env : CookieEnv) (now : Serial) (request : Request)

theorem preprocess_of_call {r : Response} (h : self.call env now request = some (.result r)) :
    self.preprocess env now request = some (.break r) := by
  obtain ⟨flow, hf⟩ := Option.map_eq_some'.mp h
  cases flow <;> simp_all

theorem call_result_cookie {r : Response} {k : Cookie}
    (h : self.call env now request = some (.result r)) (hk : r.cookie = some k) :
    ∃ c, cookie request = some (.ok c) ∧
      k = c.createResponse env.siphash now request.clientIp self.serverSecret := by
  have hp := self.preprocess_of_call env now request h
  rcases hc : cookie request with _ | e | c
  · rw [preprocess_of_none self env now request hc] at hp
    split_ifs at hp <;> cases hp
    cases hk
  · rw [preprocess_of_error self env now request hc] at hp
    cases hp
    cases hk
  · refine ⟨c, rfl, ?_⟩
    rw [preprocess_of_ok self env now request hc] at hp
    have hr : ∀ rcode, (self.responseWithCookie env now request rcode).cookie = some k →
        k = c.createResponse env.siphash now request.clientIp self.serverSecret := by
      intro rcode hk
      rw [self.responseWithCookie_of_ok env now request hc] at hk
      split_ifs at hk
      exact (Option.some.inj hk).symm
    simp only [prefetchCookieResponse, badCookieResponse] at hp
    split_ifs at hp <;> cases hp
    all_goals exact hr _ hk

theorem preprocess_continue_iff :
    self.preprocess env now request = some .continue ↔ self.Passes env now request := by
  constructor
  · intro h
    rcases hc : cookie request with _ | e | c
    · rw [preprocess_of_none self env now request hc] at h
      refine .noCookie hc fun hu hm => ?_
      simp [hu, hm] at h
    · simp [preprocess_of_error self env now request hc] at h
    · rw [preprocess_of_ok self env now request hc] at h
      by_cases hv : c.ServerCookieValid env.siphash request.clientIp self.serverSecret now
      · by_cases hq : request.qdcount = 0 <;> simp [hv, hq] at h
        exact .validCookie c hc hq hv
      · by_cases hq : request.qdcount = 0
        · by_cases hs : c.server.isSome <;> simp [hv, hq, hs] at h
        · cases hu : request.isUdp <;> simp [hv, hq, hu] at h
          exact .tcp c hc hq hu
  · rintro (⟨hc, hdeny⟩ | ⟨c, hc, hq, hv⟩ | ⟨c, hc, hq, htcp⟩)
    · rw [preprocess_of_none self env now request hc, if_neg (fun h => hdeny h.1 h.2)]
    · simp [preprocess_of_ok self env now request hc, hv, hq]
    · simp [preprocess_of_ok self env now request hc, hq, htcp]

/-- `preprocess` never panics: `timestamp_ok`'s serial additions stay in bounds. -/
theorem preprocess_isSome : ∃ flow, self.preprocess env now request = some flow := by
  rcases hc : cookie request with _ | e | c
  · exact ⟨_, preprocess_of_none self env now request hc⟩
  · exact ⟨_, preprocess_of_error self env now request hc⟩
  · exact ⟨_, preprocess_of_ok self env now request hc⟩

/-- Every call either hands the request to the inner service, exactly when it
passes the gate, or answers it with one response of the middleware's own; it
never panics. A UDP request thus reaches the inner service only without a COOKIE
option from an address off the deny list, or with a question and a server cookie
whose hash checks against the client cookie, the client's address and the
secret, and whose timestamp lies between an hour before and five minutes after
now. -/
theorem call_gate :
    (self.Passes env now request ∧
        self.call env now request = some (.identityFuture (self.svc request))) ∨
      (¬ self.Passes env now request ∧ ∃ r, self.call env now request = some (.result r)) := by
  obtain ⟨flow, h⟩ := self.preprocess_isSome env now request
  cases flow with
  | «continue» =>
    exact .inl ⟨(self.preprocess_continue_iff env now request).mp h, by simp [call, h]⟩
  | «break» r =>
    refine .inr ⟨fun hp => ?_, r, by simp [call, h]⟩
    rw [← self.preprocess_continue_iff env now request, h] at hp
    cases hp

/-- Every response the middleware gives itself is one of three. A UDP request
without a COOKIE option from a denied address gets REFUSED with TC set, and a
malformed COOKIE option gets FORMERR; these are fresh messages without a cookie.
A well-formed COOKIE option is answered only when the request has no question
or its server cookie fails the check: with a reply that carries the client
cookie and a server cookie made now for the client's address, and whose rcode
is BADCOOKIE exactly when the server cookie fails the check and the request
either has a server cookie or a question (RFC 7873, Sections 5.2.3 and 5.4). If
the OPT record does not fit, that reply goes out as NOERROR without a cookie. -/
theorem call_result_response {r : Response}
    (h : self.call env now request = some (.result r)) :
    (cookie request = none ∧ request.isUdp = true ∧ request.clientIp ∈ self.ipDenyList ∧
        r = ⟨false, .refused, true, none⟩) ∨
      ((∃ e, cookie request = some (.error e)) ∧ r = ⟨false, .formerr, false, none⟩) ∨
      ∃ c, cookie request = some (.ok c) ∧
        (request.qdcount = 0 ∨
          ¬ c.ServerCookieValid env.siphash request.clientIp self.serverSecret now) ∧
        r = if env.ednsFits request then
          ⟨true,
            if ¬ c.ServerCookieValid env.siphash request.clientIp self.serverSecret now ∧
              (c.server.isSome ∨ request.qdcount ≠ 0) then .badcookie else .noerror,
            false, some (c.createResponse env.siphash now request.clientIp self.serverSecret)⟩
        else ⟨true, .noerror, false, none⟩ := by
  have hp := self.preprocess_of_call env now request h
  rcases hc : cookie request with _ | e | c
  · rw [preprocess_of_none self env now request hc] at hp
    split_ifs at hp with hd <;> cases hp
    exact .inl ⟨rfl, hd.1, hd.2, rfl⟩
  · rw [preprocess_of_error self env now request hc] at hp
    cases hp
    exact .inr (.inl ⟨⟨e, rfl⟩, rfl⟩)
  · refine .inr (.inr ⟨c, rfl, ?_⟩)
    rw [preprocess_of_ok self env now request hc] at hp
    simp only [prefetchCookieResponse, badCookieResponse,
      self.responseWithCookie_of_ok env now request hc] at hp
    by_cases hv : c.ServerCookieValid env.siphash request.clientIp self.serverSecret now <;>
      by_cases hq : request.qdcount = 0 <;> simp only [hv, hq, if_true, if_false] at hp
    · cases hp
      simp [hv, hq]
    · cases hp
    · by_cases hs : c.server.isSome <;> simp only [hs, if_true, if_false] at hp <;> cases hp <;>
        simp [hv, hq, hs]
    · cases hu : request.isUdp <;> simp only [hu, if_true, if_false] at hp <;> cases hp
      simp [hv, hq]

/-- A middleware that denies `192.0.2.1`, with a toy keyed hash. -/
def exampleSvc : CookiesMiddlewareSvc Nat :=
  (new (fun _ => 0) (List.replicate 16 7)).withDeniedIps [⟨[192, 0, 2, 1]⟩]

def exampleEnv : CookieEnv :=
  ⟨fun input secret => ⟨List.replicate 8 ((input ++ secret).foldl (· + ·) 0), by simp⟩,
    fun _ => true⟩

/-- A client cookie alone, over UDP, with a question, from the denied address. -/
def exampleQuery : Request :=
  ⟨⟨[192, 0, 2, 1]⟩, true, 1, some [⟨cookieCode, [1, 2, 3, 4, 5, 6, 7, 8]⟩]⟩

def exampleCookie : Cookie :=
  (Cookie.mk [1, 2, 3, 4, 5, 6, 7, 8] none).createResponse exampleEnv.siphash ⟨1000⟩
    ⟨[192, 0, 2, 1]⟩ (List.replicate 16 7)

theorem call_result_response_badCookie :
    exampleSvc.call exampleEnv ⟨1000⟩ exampleQuery =
        some (.result ⟨true, .badcookie, false, some exampleCookie⟩) ∧
      ((cookie exampleQuery = none ∧ exampleQuery.isUdp = true ∧
          exampleQuery.clientIp ∈ exampleSvc.ipDenyList ∧
          (⟨true, .badcookie, false, some exampleCookie⟩ : Response) =
            ⟨false, .refused, true, none⟩) ∨
        ((∃ e, cookie exampleQuery = some (.error e)) ∧
          (⟨true, .badcookie, false, some exampleCookie⟩ : Response) =
            ⟨false, .formerr, false, none⟩) ∨
        ∃ c, cookie exampleQuery = some (.ok c) ∧
          (exampleQuery.qdcount = 0 ∨ ¬ c.ServerCookieValid exampleEnv.siphash
            exampleQuery.clientIp exampleSvc.serverSecret ⟨1000⟩) ∧
          (⟨true, .badcookie, false, some exampleCookie⟩ : Response) =
            if exampleEnv.ednsFits exampleQuery then
              ⟨true,
                if ¬ c.ServerCookieValid exampleEnv.siphash exampleQuery.clientIp
                    exampleSvc.serverSecret ⟨1000⟩ ∧
                  (c.server.isSome ∨ exampleQuery.qdcount ≠ 0) then .badcookie else .noerror,
                false, some (c.createResponse exampleEnv.siphash ⟨1000⟩ exampleQuery.clientIp
                  exampleSvc.serverSecret)⟩
            else ⟨true, .noerror, false, none⟩) :=
  have h : exampleSvc.call exampleEnv ⟨1000⟩ exampleQuery =
      some (.result ⟨true, .badcookie, false, some exampleCookie⟩) := by decide
  ⟨h, call_result_response exampleSvc exampleEnv ⟨1000⟩ exampleQuery h⟩

/-- A client that got a cookie in one of the middleware's responses passes the
gate with it, over UDP as well, for the next hour: every later request from the
same address with a question whose first COOKIE option carries that cookie
reaches the inner service, whatever the deny list. This is the retry of RFC 7873,
Section 5.3, which a BADCOOKIE response asks for. -/
theorem call_retry_passes {r : Response} {k : Cookie} {later : Serial} {retry : Request}
    (h : self.call env now request = some (.result r)) (hk : r.cookie = some k)
    (hretry : (firstCookieOption retry).map OptEntry.data = some k.compose)
    (hip : retry.clientIp = request.clientIp) (hq : retry.qdcount ≠ 0)
    (hlater : (later.val - now.val).toNat ≤ 3600) :
    self.call env later retry = some (.identityFuture (self.svc retry)) := by
  obtain ⟨c, hc, rfl⟩ := self.call_result_cookie env now request h hk
  have hwf := Cookie.createResponse_wellFormed env.siphash request.clientIp self.serverSecret
    (cookie_wellFormed hc) now
  have hcr : cookie retry = some (.ok (c.createResponse env.siphash now request.clientIp
      self.serverSecret)) := by
    rw [cookie_of_data hretry, Cookie.parse_compose hwf]
  have hv := Cookie.createResponse_valid env.siphash request.clientIp self.serverSecret c
    (timestampOk_of_sub_le hlater)
  have hp := (self.preprocess_continue_iff env later retry).mpr
    (.validCookie _ hcr hq (by rw [hip]; exact hv))
  simp [call, hp]

def exampleRetry : Request :=
  ⟨⟨[192, 0, 2, 1]⟩, true, 1, some [⟨cookieCode, exampleCookie.compose⟩]⟩

theorem call_retry_passes_example :
    exampleSvc.call exampleEnv ⟨1000⟩ exampleQuery =
        some (.result ⟨true, .badcookie, false, some exampleCookie⟩) ∧
      exampleSvc.call exampleEnv ⟨1010⟩ exampleRetry = some (.identityFuture 0) :=
  have h : exampleSvc.call exampleEnv ⟨1000⟩ exampleQuery =
      some (.result ⟨true, .badcookie, false, some exampleCookie⟩) := by decide
  ⟨h, call_retry_passes exampleSvc exampleEnv ⟨1000⟩ exampleQuery h rfl rfl rfl (by decide)
    (by decide)⟩

end

end CookiesMiddlewareSvc

end Domain.Net
