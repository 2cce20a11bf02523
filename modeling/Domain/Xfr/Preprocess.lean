import Domain.Base.Iana

/-! `XfrMiddlewareSvc::preprocess`: which XFR requests are served, refused or
passed on. A served request ends in `do_axfr`, which looks the caller's
settings up a second time, or in `compute_ixfr`. The zone catalog, the zone
reader and the serial order are collaborators and appear as fields. -/

namespace Domain.Xfr

inductive XfrStrategy
  | axfrOnly
  | ixfrOnly
  | ixfrWithAxfrFallback
  deriving DecidableEq, Repr

inductive CompatibilityMode
  | default
  | backwardCompatible
  deriving DecidableEq, Repr

structure XfrSettings where
  strategy : XfrStrategy
  compatibilityMode : CompatibilityMode
  deriving DecidableEq, Repr

/-- The caller's settings and TSIG key, as `allow_xfr.get_caller` finds them. -/
abbrev AllowXfr (Ip K : Type) := Ip → Option (XfrSettings × Option K)

inductive ZoneType (Ip K : Type)
  | primary (allowXfr : AllowXfr Ip K)
  | other

inductive XfrMode
  | axfrAndIxfr
  | axfrOnly
  deriving DecidableEq, Repr

/-- The content of the answer to the apex SOA query: an RRset (`some` serial for
each SOA record of it) or anything else. -/
inductive SoaContent
  | data (rrs : List (Option Nat))
  | other
  deriving DecidableEq, Repr

/-- A zone of the catalog: its type, the answer to its SOA query (`none` when the
query fails), and whether diffs between two serials are available. -/
structure CatalogZone (Ip K : Type) where
  zoneType : ZoneType Ip K
  soaAnswer : Option SoaContent
  diffsAvailable : Nat → Nat → Bool

/-- The request as `preprocess` reads it. `authoritySoas` is the authority
section limited to SOA records: `none` when the section does not parse, and
within it `none` for a record that does not parse. -/
structure Request (N Ip K : Type) where
  opcodeQuery : Bool
  qr : Bool
  questions : List (Option (N × Nat × Rtype))
  clientIp : Ip
  udp : Bool
  tsigKeyName : Option K
  authoritySoas : Option (List (Option Nat))

/-- The `unreachable!()`s of `do_axfr`. -/
inductive Unreachable
  | soaContent
  | zoneType
  | getCaller
  deriving DecidableEq, Repr

/-- What `preprocess` answers with. The stream of `do_axfr` carries the settings
it was built with; `compute_ixfr` answers an up-to-date client with the SOA. -/
inductive XfrResponse
  | passOn
  | error (rcode : OptRcode)
  | soaAnswer
  | axfrStream (settings : XfrSettings)
  | ixfrSoa
  | ixfrStream (querySerial zoneSerial : Nat)
  | unreachable (site : Unreachable)
  deriving DecidableEq, Repr

inductive IxfrResult
  | ok (r : XfrResponse)
  | fallbackToAxfr
  | err (rcode : OptRcode)
  deriving DecidableEq, Repr

variable {N Ip K : Type}

/-- `get_relevant_question`: a query (not a response) with exactly one question,
for SOA, AXFR or IXFR. -/
def getRelevantQuestion (req : Request N Ip K) : Option (N × Nat × Rtype) :=
  if req.opcodeQuery ∧ !req.qr then
    match req.questions with
    | [some q] =>
      if q.2.2 = Rtype.soa ∨ q.2.2 = Rtype.axfr ∨ q.2.2 = Rtype.ixfr then some q else none
    | _ => none
  else none

/-- `settings_for_client`: the settings of a primary zone for this client,
unless its strategy excludes the query type. -/
def settingsForClient (clientIp : Ip) (qtype : Rtype) (zoneType : ZoneType Ip K) :
    Option XfrSettings × Option K :=
  match zoneType with
  | .other => (none, none)
  | .primary allowXfr =>
    match allowXfr clientIp with
    | none => (none, none)
    | some (xfrSettings, tsigKey) =>
      if (qtype = Rtype.axfr ∧ xfrSettings.strategy = .ixfrOnly) ∨
          (qtype = Rtype.ixfr ∧ xfrSettings.strategy = .axfrOnly) then (none, none)
      else (some xfrSettings, tsigKey)

/-- `do_axfr` up to its stream: it re-derives the caller's settings, and each
`unreachable!()` is a panic. -/
def doAxfr (req : Request N Ip K) (zone : CatalogZone Ip K) : XfrResponse :=
  match zone.soaAnswer with
  | some (.data _) =>
    match zone.zoneType with
    | .primary allowXfr =>
      match allowXfr req.clientIp with
      | some (xfrSettings, _) => .axfrStream xfrSettings
      | none => .unreachable .getCaller
    | .other => .unreachable .zoneType
  | _ => .unreachable .soaContent

/-- `compute_ixfr`: a single SOA when the client is up to date, a fallback when
no diffs are available, and otherwise the incremental stream. -/
def computeIxfr (serialGe : Nat → Nat → Bool) (querySerial zoneSerial : Nat)
    (zone : CatalogZone Ip K) : IxfrResult :=
  if serialGe querySerial zoneSerial then .ok .ixfrSoa
  else if !zone.diffsAvailable querySerial zoneSerial then .fallbackToAxfr
  else .ok (.ixfrStream querySerial zoneSerial)

/-- `do_ixfr`: read the client's serial from the single SOA of the authority
section and the zone's serial from its SOA answer. -/
def doIxfr (serialGe : Nat → Nat → Bool) (req : Request N Ip K) (zone : CatalogZone Ip K)
    (xfrMode : XfrMode) : IxfrResult :=
  if xfrMode = .axfrOnly then .fallbackToAxfr
  else
    match req.authoritySoas with
    | some [some querySerial] =>
      match zone.soaAnswer with
      | some (.data [some zoneSerial]) => computeIxfr serialGe querySerial zoneSerial zone
      | _ => .err OptRcode.servfail
    | _ => .err OptRcode.formerr

/-- `preprocess`. `getZone` is the catalog lookup by name and class. -/
def preprocess [DecidableEq K] (serialGe : Nat → Nat → Bool) (getZone : N → Nat → Option (CatalogZone Ip K))
    (xfrMode : XfrMode) (req : Request N Ip K) : XfrResponse :=
  match getRelevantQuestion req with
  | none => .passOn
  | some (qname, qclass, qtype) =>
    match getZone qname qclass with
    | none => .error OptRcode.notauth
    | some zone =>
      let (xfrSettings, tsigKey) := settingsForClient req.clientIp qtype zone.zoneType
      if tsigKey ≠ req.tsigKeyName then .error OptRcode.notauth
      else if zone.soaAnswer.isNone then .error OptRcode.servfail
      else if qtype = Rtype.soa then .soaAnswer
      else
        match xfrSettings with
        | none => .error OptRcode.refused
        | some settings =>
          if qtype = Rtype.axfr then
            if req.udp then .error OptRcode.notimp else doAxfr req zone
          else
            match doIxfr serialGe req zone xfrMode with
            | .ok r => r
            | .fallbackToAxfr =>
              if settings.strategy ≠ .ixfrWithAxfrFallback then .error OptRcode.refused
              else doAxfr req zone
            | .err rcode => .error rcode

def XfrStrategy.Permits : XfrStrategy → Rtype → Prop
  | .axfrOnly, t => t = Rtype.axfr
  | .ixfrOnly, t => t = Rtype.ixfr
  | .ixfrWithAxfrFallback, t => t = Rtype.axfr ∨ t = Rtype.ixfr

def XfrResponse.IsStream : XfrResponse → Prop
  | .axfrStream _ | .ixfrSoa | .ixfrStream _ _ => True
  | _ => False

def XfrResponse.IsRefusal : XfrResponse → Prop
  | .passOn => True
  | .error rcode => rcode ∈ [OptRcode.notauth, OptRcode.refused, OptRcode.notimp,
      OptRcode.servfail, OptRcode.formerr]
  | _ => False

instance : DecidablePred XfrResponse.IsStream
  | .axfrStream _ | .ixfrSoa | .ixfrStream _ _ => isTrue trivial
  | .passOn | .error _ | .soaAnswer | .unreachable _ => isFalse id

instance : DecidablePred XfrResponse.IsRefusal
  | .passOn => isTrue trivial
  | .error rcode => inferInstanceAs (Decidable (rcode ∈ _))
  | .soaAnswer | .axfrStream _ | .ixfrSoa | .ixfrStream _ _ | .unreachable _ => isFalse id

/-- Conditions (1)–(5) of a transfer: an AXFR or IXFR query for a catalog zone
that is primary, whose caller settings permit the query type under the TSIG key
name of the request; an AXFR stream carries those settings, and answers an IXFR
only under `IxfrWithAxfrFallback`. -/
def TransferAllowed (getZone : N → Nat → Option (CatalogZone Ip K)) (req : Request N Ip K)
    (r : XfrResponse) : Prop :=
  ∃ qname qclass qtype zone allowXfr settings,
    getRelevantQuestion req = some (qname, qclass, qtype) ∧
    (qtype = Rtype.axfr ∨ qtype = Rtype.ixfr) ∧
    getZone qname qclass = some zone ∧ zone.zoneType = .primary allowXfr ∧
    allowXfr req.clientIp = some (settings, req.tsigKeyName) ∧ settings.strategy.Permits qtype ∧
    ∀ s, r = .axfrStream s →
      s = settings ∧ (qtype = Rtype.ixfr → settings.strategy = .ixfrWithAxfrFallback)

theorem getRelevantQuestion_qtype {req : Request N Ip K} {q : N × Nat × Rtype}
    (h : getRelevantQuestion req = some q) :
    q.2.2 = Rtype.soa ∨ q.2.2 = Rtype.axfr ∨ q.2.2 = Rtype.ixfr := by
  unfold getRelevantQuestion at h
  split_ifs at h
  split at h <;> (try split_ifs at h) <;> simp_all

theorem settingsForClient_some {ip : Ip} {qtype : Rtype} {zt : ZoneType Ip K} {s : XfrSettings}
    {k : Option K} (h : settingsForClient ip qtype zt = (some s, k)) :
    ∃ allowXfr, zt = .primary allowXfr ∧ allowXfr ip = some (s, k) ∧
      ¬ (qtype = Rtype.axfr ∧ s.strategy = .ixfrOnly) ∧ ¬ (qtype = Rtype.ixfr ∧ s.strategy = .axfrOnly) := by
  unfold settingsForClient at h
  split at h
  · cases h
  · rename_i allowXfr
    split at h
    · cases h
    · rename_i s' k' hs
      split_ifs at h with hx
      · cases h
      simp only [Prod.mk.injEq, Option.some.injEq] at h
      obtain ⟨rfl, rfl⟩ := h
      exact ⟨allowXfr, rfl, hs, fun h => hx (.inl h), fun h => hx (.inr h)⟩

theorem doAxfr_of_caller {req : Request N Ip K} {zone : CatalogZone Ip K} {allowXfr : AllowXfr Ip K}
    {s : XfrSettings} {k : Option K} (hz : zone.zoneType = .primary allowXfr)
    (hc : allowXfr req.clientIp = some (s, k)) :
    doAxfr req zone = .axfrStream s ∨ doAxfr req zone = .unreachable .soaContent := by
  unfold doAxfr
  split
  · simp [hz, hc]
  · simp

theorem doIxfr_ok {serialGe : Nat → Nat → Bool} {req : Request N Ip K} {zone : CatalogZone Ip K}
    {xfrMode : XfrMode} {r : XfrResponse} (h : doIxfr serialGe req zone xfrMode = .ok r) :
    r = .ixfrSoa ∨ ∃ a b, r = .ixfrStream a b := by
  unfold doIxfr computeIxfr at h
  split_ifs at h
  split at h <;> try cases h
  split at h <;> try cases h
  split_ifs at h <;> cases h <;> simp

theorem doIxfr_err {serialGe : Nat → Nat → Bool} {req : Request N Ip K} {zone : CatalogZone Ip K}
    {xfrMode : XfrMode} {rcode : OptRcode} (h : doIxfr serialGe req zone xfrMode = .err rcode) :
    rcode = OptRcode.servfail ∨ rcode = OptRcode.formerr := by
  unfold doIxfr computeIxfr at h
  split_ifs at h
  split at h
  · split at h
    · split_ifs at h
    · cases h; simp
  · cases h; simp

theorem XfrStrategy.permits_of {s : XfrStrategy} {qtype : Rtype}
    (hq : qtype = Rtype.axfr ∨ qtype = Rtype.ixfr)
    (hax : ¬ (qtype = Rtype.axfr ∧ s = .ixfrOnly)) (hix : ¬ (qtype = Rtype.ixfr ∧ s = .axfrOnly)) :
    s.Permits qtype := by
  cases s <;> simp_all [XfrStrategy.Permits]

theorem doAxfr_of_settings {req : Request N Ip K} {zone : CatalogZone Ip K} {qtype : Rtype}
    {settings : XfrSettings} {k : Option K}
    (hs : settingsForClient req.clientIp qtype zone.zoneType = (some settings, k)) :
    doAxfr req zone = .axfrStream settings ∨ doAxfr req zone = .unreachable .soaContent :=
  have ⟨_, hz, hc, _⟩ := settingsForClient_some hs
  doAxfr_of_caller hz hc

theorem transferAllowed_of {getZone : N → Nat → Option (CatalogZone Ip K)} {req : Request N Ip K}
    {r : XfrResponse} {qname : N} {qclass : Nat} {qtype : Rtype} {zone : CatalogZone Ip K}
    {settings : XfrSettings} (hq : getRelevantQuestion req = some (qname, qclass, qtype))
    (hqt : qtype = Rtype.axfr ∨ qtype = Rtype.ixfr) (hz : getZone qname qclass = some zone)
    (hs : settingsForClient req.clientIp qtype zone.zoneType = (some settings, req.tsigKeyName))
    (hr : ∀ s, r = .axfrStream s →
      s = settings ∧ (qtype = Rtype.ixfr → settings.strategy = .ixfrWithAxfrFallback)) :
    TransferAllowed getZone req r :=
  have ⟨allowXfr, hzt, hc, hax, hix⟩ := settingsForClient_some hs
  ⟨qname, qclass, qtype, zone, allowXfr, settings, hq, hqt, hz, hzt, hc,
    XfrStrategy.permits_of hqt (by simpa using hax) (by simpa using hix), hr⟩

theorem doAxfr_transfer {getZone : N → Nat → Option (CatalogZone Ip K)} {req : Request N Ip K}
    {qname : N} {qclass : Nat} {qtype : Rtype} {zone : CatalogZone Ip K} {settings : XfrSettings}
    (hq : getRelevantQuestion req = some (qname, qclass, qtype))
    (hqt : qtype = Rtype.axfr ∨ qtype = Rtype.ixfr) (hz : getZone qname qclass = some zone)
    (hs : settingsForClient req.clientIp qtype zone.zoneType = (some settings, req.tsigKeyName))
    (hfb : qtype = Rtype.ixfr → settings.strategy = .ixfrWithAxfrFallback) :
    TransferAllowed getZone req (doAxfr req zone) ∧
      ((doAxfr req zone).IsStream ∨ doAxfr req zone = .unreachable .soaContent) := by
  rcases doAxfr_of_settings hs with h | h <;> rw [h]
  · exact ⟨transferAllowed_of hq hqt hz hs (fun s h => by cases h; exact ⟨rfl, hfb⟩), .inl trivial⟩
  · exact ⟨transferAllowed_of hq hqt hz hs (fun s h => by cases h), .inr rfl⟩

theorem doIxfr_transfer {serialGe : Nat → Nat → Bool} {getZone : N → Nat → Option (CatalogZone Ip K)}
    {req : Request N Ip K} {qname : N} {qclass : Nat} {qtype : Rtype} {zone : CatalogZone Ip K}
    {settings : XfrSettings} {xfrMode : XfrMode} {r : XfrResponse}
    (hq : getRelevantQuestion req = some (qname, qclass, qtype)) (hqi : qtype = Rtype.ixfr)
    (hz : getZone qname qclass = some zone)
    (hs : settingsForClient req.clientIp qtype zone.zoneType = (some settings, req.tsigKeyName))
    (hr : doIxfr serialGe req zone xfrMode = .ok r) :
    TransferAllowed getZone req r ∧ (r.IsStream ∨ r = .unreachable .soaContent) := by
  rcases doIxfr_ok hr with rfl | ⟨a, b, rfl⟩ <;>
    exact ⟨transferAllowed_of hq (.inr hqi) hz hs (fun s h => by cases h), .inl trivial⟩

theorem doIxfr_err_refusal {serialGe : Nat → Nat → Bool} {req : Request N Ip K}
    {zone : CatalogZone Ip K} {xfrMode : XfrMode} {rcode : OptRcode}
    (h : doIxfr serialGe req zone xfrMode = .err rcode) : (XfrResponse.error rcode).IsRefusal := by
  rcases doIxfr_err h with rfl | rfl <;> simp [XfrResponse.IsRefusal]

theorem preprocess_cases [DecidableEq K] (serialGe : Nat → Nat → Bool)
    (getZone : N → Nat → Option (CatalogZone Ip K)) (xfrMode : XfrMode) (req : Request N Ip K)
    {r : XfrResponse} (h : preprocess serialGe getZone xfrMode req = r) :
    r.IsRefusal ∨
      (r = .soaAnswer ∧ ∃ qname qclass, getRelevantQuestion req = some (qname, qclass, Rtype.soa)) ∨
      (TransferAllowed getZone req r ∧ (r.IsStream ∨ r = .unreachable .soaContent)) := by
  unfold preprocess at h
  split at h
  · subst h; exact .inl trivial
  rename_i qname qclass qtype hq
  split at h
  · subst h; exact .inl (by decide)
  rename_i zone hz
  rcases hs : settingsForClient req.clientIp qtype zone.zoneType with ⟨_ | settings, k⟩ <;>
    rw [hs] at h <;> dsimp only at h
  · split_ifs at h with _ _ hqs <;> subst h
    · exact .inl (by decide)
    · exact .inl (by decide)
    · exact .inr (.inl ⟨rfl, qname, qclass, hqs ▸ hq⟩)
    · exact .inl (by decide)
  by_cases hk : k = req.tsigKeyName
  swap
  · rw [if_pos hk] at h; subst h; exact .inl (by decide)
  rw [if_neg (not_not.mpr hk)] at h
  subst hk
  split at h
  · subst h; exact .inl (by decide)
  split at h
  · subst h; exact .inr (.inl ⟨rfl, qname, qclass, ‹qtype = _› ▸ hq⟩)
  split at h
  · rename_i hqa
    split at h <;> subst h
    · exact .inl (by decide)
    · exact .inr (.inr (doAxfr_transfer hq (.inl hqa) hz hs fun h =>
        absurd (hqa.symm.trans h) (by decide)))
  have hqi : qtype = Rtype.ixfr := ((getRelevantQuestion_qtype hq).resolve_left ‹_›).resolve_left ‹_›
  split at h
  · subst h; exact .inr (.inr (doIxfr_transfer hq hqi hz hs ‹_›))
  · -- the fallback to AXFR, refused without `IxfrWithAxfrFallback`
    split at h <;> subst h
    · exact .inl (by decide)
    · exact .inr (.inr (doAxfr_transfer hq (.inr hqi) hz hs fun _ => not_not.mp ‹_›))
  · subst h; exact .inl (doIxfr_err_refusal ‹_›)

end Domain.Xfr
