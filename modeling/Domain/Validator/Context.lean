import Domain.Validator.Types

/-! The environment of a `ValidationContext` and `request_as_groups`. Everything
the context calls but does not define (grouping, signature checks, digests,
NSEC3 hashing, the constants of the group and NSEC modules, the upstream) is a
field of `Env`, so every result holds for all of them. The upstream answers a
query from the history of earlier queries and says how long the answer took. -/

namespace Domain.Validator

/-- A parsed reply: its answer and authority sections, `none` where a section or
a record failed to parse. -/
structure Reply where
  answer : Option (List (Option Record))
  authority : Option (List (Option Record))
  deriving DecidableEq, Repr

structure Env where
  /-- `GroupSet::add`; `none` is an error. -/
  groupAdd : GroupSet → Record → Option GroupSet
  /-- `Group::validate_with_node` at a time: state, wildcard, EDE and TTL. -/
  validateWithNode : Nat → Group → Node → ValidationState × Option Name × Option Ede × Nat
  /-- `Group::check_sig_cached(sig, signer_name, key, key_name, key_tag)` at a time. -/
  checkSigCached : Nat → Group → Rrsig → Name → Dnskey → Name → Nat → Bool
  /-- `Dnskey::key_tag`. -/
  keyTag : Dnskey → Nat
  /-- The digest algorithm `d` applied to the canonical owner and DNSKEY RDATA. -/
  digest : Nat → Name → Dnskey → List Nat
  /-- `ttl_for_sig` at a time. -/
  ttlForSig : Nat → Rrsig → Nat
  /-- `cached_nsec3_hash(name, algorithm, iterations, salt)`. -/
  nsec3Hash : Name → Nat → Nat → List Nat → List Nat
  /-- The text of an NSEC3 hash (`to_string`), as octets. -/
  hashText : List Nat → List Nat
  /-- Whether converting a query to the upstream's octets type fails. -/
  octetsConversionFails : Bool
  /-- The upstream: the reply (`none` when the request fails) and the time taken. -/
  upstream : List (Name × Rtype) → Name → Rtype → Option Reply × Nat
  bogusTtl : Nat
  maxBadSigs : Nat
  nsec3IterInsecure : Nat
  nsec3IterBogus : Nat

/-- The state a context's calls change: the clock, the queries sent so far and
the node cache. -/
structure Ctx where
  now : Nat
  queries : List (Name × Rtype)
  nodeCache : Name → Option Node

def maxNodeValid : Nat := 600

/-- `supported_algorithm`: RSASHA1, RSASHA1-NSEC3-SHA1, RSASHA256, RSASHA512,
ECDSAP256SHA256. -/
def supportedAlgorithm (a : Nat) : Bool := a = 5 || a = 7 || a = 8 || a = 10 || a = 13

/-- `supported_digest`: SHA-1, SHA-256, SHA-384. -/
def supportedDigest (d : Nat) : Bool := d = 1 || d = 2 || d = 4

/-- `DnskeyExt::digest`: the digest of owner and key, or an error for an
unsupported digest type. -/
def Env.dnskeyDigest (E : Env) (key : Dnskey) (owner : Name) (digestType : Nat) :
    Option (List Nat) :=
  if supportedDigest digestType then some (E.digest digestType owner key) else none

def parseErrorEde : Option Ede :=
  makeEde ExtendedErrorCode.dnssecBogus "request for DS or DNSKEY failed, parse error"

/-- Group one section of a reply, recording a parse or grouping failure in `ede`. -/
def Env.groupSection (E : Env) (gs : GroupSet) (ede : Option Ede) :
    Option (List (Option Record)) → GroupSet × Option Ede
  | none => (gs, parseErrorEde)
  | some rrs =>
    rrs.foldl (fun acc rr =>
      match rr with
      | none => (acc.1, parseErrorEde)
      | some r =>
        match E.groupAdd acc.1 r with
        | some gs => (gs, acc.2)
        | none => (acc.1, parseErrorEde)) (gs, ede)

/-- The groups of a reply and its EDE; a failed request has no groups. -/
def Env.groupReply (E : Env) : Option Reply → GroupSet × GroupSet × Option Ede
  | none => ([], [], makeEde ExtendedErrorCode.dnssecBogus "request for DS or DNSKEY failed")
  | some reply =>
    let answers := E.groupSection [] none reply.answer
    let authorities := E.groupSection [] answers.2 reply.authority
    (answers.1, authorities.1, authorities.2)

/-- The context once a query for `(name, rtype)` was answered after `took`. -/
def Ctx.sent (ctx : Ctx) (name : Name) (rtype : Rtype) (took : Nat) : Ctx :=
  { ctx with now := ctx.now + took, queries := ctx.queries ++ [(name, rtype)] }

@[simp] theorem Ctx.sent_nodeCache (ctx : Ctx) (name : Name) (rtype : Rtype) (took : Nat) :
    (ctx.sent name rtype took).nodeCache = ctx.nodeCache := rfl

/-- `request_as_groups`: send the query, wait for the reply, and group its answer
and authority sections. A failed request or parse leaves an EDE. -/
def requestAsGroups (E : Env) (ctx : Ctx) (name : Name) (rtype : Rtype) :
    Outcome ((GroupSet × GroupSet × Option Ede) × Ctx) :=
  if E.octetsConversionFails then .err .octetsConversion
  else
    let sent := E.upstream ctx.queries name rtype
    .ok (E.groupReply sent.1, ctx.sent name rtype sent.2)

theorem requestAsGroups_bind_eq_ok {β : Type} {E : Env} {ctx : Ctx} {name : Name} {rtype : Rtype}
    {f : (GroupSet × GroupSet × Option Ede) × Ctx → Outcome β} {b : β}
    (h : (requestAsGroups E ctx name rtype >>= f) = .ok b) :
    f (E.groupReply (E.upstream ctx.queries name rtype).1,
      ctx.sent name rtype (E.upstream ctx.queries name rtype).2) = .ok b := by
  unfold requestAsGroups at h
  split at h
  · cases h
  · exact h

/-! A small signed tree to run the context on: `ex` signs its DNSKEY RRset;
`a.ex` answers its DS query with a signed CNAME; `c.ex` and `d.ex` have a
supported DS matching `key`, and only `d.ex` has a DNSKEY RRset; `five` has no
DNSKEY RRset at all. Every signature check succeeds and every reply is
instant. -/

namespace TestZone

/-- Grouping by owner and type, an RRSIG joining the group it covers. -/
def groupAdd (gs : GroupSet) (r : Record) : Option GroupSet :=
  match r.data with
  | .rrsig s =>
    some (gs.map fun g =>
      if g.owner = r.owner ∧ g.rtype = s.typeCovered then { g with sigs := g.sigs ++ [s] } else g)
  | _ =>
    if gs.any fun g => g.owner = r.owner ∧ g.rtype = r.rtype then
      some (gs.map fun g =>
        if g.owner = r.owner ∧ g.rtype = r.rtype then
          { g with rrs := g.rrs ++ [r], minTtl := min g.minTtl r.ttl } else g)
    else some (gs ++ [⟨r.owner, r.rtype, [r], [], r.ttl⟩])

def ex : Name := [[1]]
def aEx : Name := [[2], [1]]
def bAEx : Name := [[3], [2], [1]]
def cEx : Name := [[4], [1]]
def dEx : Name := [[7], [1]]
def five : Name := [[5]]
def sixFive : Name := [[6], [5]]

def key : Dnskey := ⟨257, 3, 8, [7]⟩
def keyRr (owner : Name) : Record := ⟨owner, 1, 3600, .dnskey key⟩
def sigRr (owner : Name) (t : Rtype) : Record := ⟨owner, 1, 3600, .rrsig ⟨t, 257, []⟩⟩

def reply (name : Name) (rtype : Rtype) : Reply :=
  if name = ex ∧ rtype = Rtype.dnskey then
    ⟨some [some (keyRr ex), some (sigRr ex Rtype.dnskey)], some []⟩
  else if name = aEx ∧ rtype = Rtype.ds then
    ⟨some [some ⟨aEx, 1, 300, .cname [[9]]⟩, some (sigRr aEx Rtype.cname)], some []⟩
  else if (name = cEx ∨ name = dEx) ∧ rtype = Rtype.ds then
    ⟨some [some ⟨name, 1, 300, .ds ⟨257, 8, 2, [7]⟩⟩, some (sigRr name Rtype.ds)], some []⟩
  else if name = dEx ∧ rtype = Rtype.dnskey then
    ⟨some [some (keyRr dEx), some (sigRr dEx Rtype.dnskey)], some []⟩
  else ⟨some [], some []⟩

/-- Key tags are the flags and a digest is the key's public key, so the DS of
`c.ex` and `d.ex` matches `key`. -/
def env : Env where
  groupAdd := groupAdd
  validateWithNode := fun _ _ _ => (.secure, none, none, 3600)
  checkSigCached := fun _ _ _ _ _ _ _ => true
  keyTag := fun k => k.flags
  digest := fun _ _ k => k.publicKey
  ttlForSig := fun _ _ => 3600
  nsec3Hash := fun _ _ _ _ => []
  hashText := id
  octetsConversionFails := false
  upstream := fun _ name rtype => (some (reply name rtype), 0)
  bogusTtl := 60
  maxBadSigs := 1
  nsec3IterInsecure := 100
  nsec3IterBogus := 500

def ctx0 : Ctx := ⟨0, [], fun _ => none⟩

def exNode : Node := ⟨.secure, [key], ex, false, none, 0, 600⟩

/-- The secure intermediate node the signed CNAME gives `a.ex` under `ex`. -/
def aNode : Node := ⟨.secure, [], ex, true, none, 0, 300⟩

def dNode : Node := ⟨.secure, [key], dEx, false, none, 0, 300⟩

end TestZone

end Domain.Validator
