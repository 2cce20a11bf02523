import Domain.Validator.Context

/-! `Node::trust_anchor`: the node of a configured trust anchor, from the DNSKEY
RRset fetched at its owner. An anchor DNSKEY or DS selects a key of the RRset,
and a signature by that key over the RRset makes the node secure. Failed
signature checks are counted against `MAX_BAD_SIGS`. -/

namespace Domain.Validator

structure TrustAnchor where
  owner : Name
  rrs : List Record
  deriving DecidableEq, Repr

/-- `has_key`: the record of the RRset equal to the anchor DNSKEY in owner, class,
type and data. -/
def hasKey (dnskeys : Group) (tkey : Record) : Option Record :=
  match tkey.data with
  | .dnskey tkeyDnskey =>
    dnskeys.rrs.find? fun key =>
      match key.data with
      | .dnskey keyDnskey =>
        tkey.owner = key.owner ∧ tkey.rclass = key.rclass ∧ tkey.rtype = key.rtype ∧
          tkeyDnskey = keyDnskey
      | _ => false
  | _ => none

/-- `has_ds`: the record of the RRset matching the anchor DS in owner, class,
algorithm, key tag and digest over the key's owner. -/
def hasDs (E : Env) (dnskeys : Group) (taRr : Record) : Option Record :=
  match taRr.data with
  | .ds ds =>
    dnskeys.rrs.find? fun key =>
      match key.data with
      | .dnskey keyDnskey =>
        taRr.owner = key.owner ∧ taRr.rclass = key.rclass ∧ ds.algorithm = keyDnskey.algorithm ∧
          ds.keyTag = E.keyTag keyDnskey ∧ E.dnskeyDigest keyDnskey key.owner ds.digestType = some ds.digest
      | _ => false
  | _ => none

/-- The signatures of the DNSKEY RRset tried with one anchored key. The loop
variables are the number of bad signatures and the EDE to report. -/
def trustAnchorSigs (E : Env) (now ttl : Nat) (dnskeys : Group) (taOwner keyName : Name)
    (dnskey : Dnskey) : List Rrsig → Nat × Option Ede → Outcome (Step (Nat × Option Ede) Node)
  | [], st => .ok (.next st)
  | sig :: sigs, (badSigs, optEde) =>
    if sig.keyTag ≠ E.keyTag dnskey then
      trustAnchorSigs E now ttl dnskeys taOwner keyName dnskey sigs (badSigs, optEde)
    else if E.checkSigCached now dnskeys sig taOwner dnskey keyName (E.keyTag dnskey) then
      .ok (.done ⟨.secure, dnskeys.dnskeys, taOwner, false, none, now, min ttl (E.ttlForSig now sig)⟩)
    else if badSigs + 1 > E.maxBadSigs then .panic
    else
      trustAnchorSigs E now ttl dnskeys taOwner keyName dnskey sigs
        (badSigs + 1, if optEde.isNone then makeEde ExtendedErrorCode.dnssecBogus "Bad signature"
          else optEde)

def trustAnchorRrs (E : Env) (now : Nat) (dnskeys : Group) (taOwner : Name) :
    List Record → Nat × Option Ede → Outcome (Step (Nat × Option Ede) Node)
  | [], st => .ok (.next st)
  | taRr :: rest, st =>
    let optDnskeyRr :=
      if taRr.rtype = Rtype.dnskey then hasKey dnskeys taRr
      else if taRr.rtype = Rtype.ds then hasDs E dnskeys taRr
      else none
    match optDnskeyRr with
    | none => trustAnchorRrs E now dnskeys taOwner rest st
    | some dnskeyRr =>
      match dnskeyRr.data with
      | .dnskey dnskey =>
        trustAnchorSigs E now (min maxNodeValid dnskeys.minTtl) dnskeys taOwner dnskeyRr.owner dnskey
            dnskeys.sigs st >>= fun s =>
        match s with
        | .next st => trustAnchorRrs E now dnskeys taOwner rest st
        | .done n => .ok (.done n)
      | _ => trustAnchorRrs E now dnskeys taOwner rest st

/-- `Node::trust_anchor`. The EDE of the DNSKEY reply is not looked at. -/
def trustAnchor (E : Env) (ta : TrustAnchor) (ctx : Ctx) : Outcome (Node × Ctx) :=
  requestAsGroups E ctx ta.owner Rtype.dnskey >>= fun ((answers, _, _), ctx) =>
  match answers.find? fun g => g.rtype = Rtype.dnskey with
  | none =>
    .ok (Node.newDelegation ta.owner .bogus []
      (makeEde ExtendedErrorCode.dnssecBogus "No DNSKEY RRset for trust anchor") E.bogusTtl ctx.now, ctx)
  | some dnskeys =>
    trustAnchorRrs E ctx.now dnskeys ta.owner ta.rrs (0, none) >>= fun s =>
    match s with
    | .done n => .ok (n, ctx)
    | .next (_, optEde) =>
      .ok (Node.newDelegation ta.owner .bogus []
        (if optEde.isNone then makeEde ExtendedErrorCode.dnssecBogus "No signature" else optEde)
        E.bogusTtl ctx.now, ctx)

/-- A key of the DNSKEY RRset is anchored by an anchor record: the record is an
equal DNSKEY (`has_key`) or a DS matching the key's algorithm, tag and digest
over its owner (`has_ds`), with the key's owner and class. -/
def AnchoredBy (E : Env) (taRr key : Record) (k : Dnskey) : Prop :=
  key.data = .dnskey k ∧ taRr.owner = key.owner ∧ taRr.rclass = key.rclass ∧
    ((taRr.data = .dnskey k ∧ taRr.rtype = key.rtype) ∨
      ∃ ds, taRr.data = .ds ds ∧ ds.algorithm = k.algorithm ∧ ds.keyTag = E.keyTag k ∧
        E.dnskeyDigest k key.owner ds.digestType = some ds.digest)

theorem hasKey_eq_some {E : Env} {dnskeys : Group} {tkey key : Record} (h : hasKey dnskeys tkey = some key) :
    key ∈ dnskeys.rrs ∧ ∃ k, AnchoredBy E tkey key k := by
  unfold hasKey at h
  split at h
  · rename_i tk htk
    refine ⟨List.mem_of_find?_eq_some h, ?_⟩
    have hp := List.find?_some h
    split at hp
    · rename_i k hk
      simp only [decide_eq_true_eq] at hp
      obtain ⟨ho, hc, ht, rfl⟩ := hp
      exact ⟨tk, hk, ho, hc, .inl ⟨htk, ht⟩⟩
    · cases hp
  · cases h

theorem hasDs_eq_some {E : Env} {dnskeys : Group} {taRr key : Record} (h : hasDs E dnskeys taRr = some key) :
    key ∈ dnskeys.rrs ∧ ∃ k, AnchoredBy E taRr key k := by
  unfold hasDs at h
  split at h
  · rename_i ds hds
    refine ⟨List.mem_of_find?_eq_some h, ?_⟩
    have hp := List.find?_some h
    split at hp
    · rename_i k hk
      simp only [decide_eq_true_eq] at hp
      obtain ⟨ho, hc, ha, ht, hd⟩ := hp
      exact ⟨k, hk, ho, hc, .inr ⟨ds, hds, ha, ht, hd⟩⟩
    · cases hp
  · cases h

theorem trustAnchorSigs_done {E : Env} {now ttl : Nat} {dnskeys : Group} {taOwner keyName : Name}
    {dnskey : Dnskey} {n : Node} :
    ∀ {sigs : List Rrsig} {st : Nat × Option Ede},
      trustAnchorSigs E now ttl dnskeys taOwner keyName dnskey sigs st = .ok (.done n) →
      ∃ sig ∈ sigs, sig.keyTag = E.keyTag dnskey ∧
        E.checkSigCached now dnskeys sig taOwner dnskey keyName (E.keyTag dnskey) = true ∧
        n = ⟨.secure, dnskeys.dnskeys, taOwner, false, none, now, min ttl (E.ttlForSig now sig)⟩
  | [], _, h => by cases h
  | sig :: sigs, (badSigs, optEde), h => by
    unfold trustAnchorSigs at h
    split_ifs at h with htag hcheck
    on_goal 2 => cases h; exact ⟨sig, List.mem_cons_self _ _, not_not.mp htag, hcheck, rfl⟩
    all_goals exact List.exists_mem_cons_of_exists (trustAnchorSigs_done h)

theorem anchorKey_eq_some {E : Env} {dnskeys : Group} {taRr key : Record}
    (h : (if taRr.rtype = Rtype.dnskey then hasKey dnskeys taRr
      else if taRr.rtype = Rtype.ds then hasDs E dnskeys taRr else none) = some key) :
    key ∈ dnskeys.rrs ∧ ∃ k, AnchoredBy E taRr key k := by
  split_ifs at h
  · exact hasKey_eq_some h
  · exact hasDs_eq_some h

theorem trustAnchorRrs_done {E : Env} {now : Nat} {dnskeys : Group} {taOwner : Name} {n : Node} :
    ∀ {rrs : List Record} {st : Nat × Option Ede},
      trustAnchorRrs E now dnskeys taOwner rrs st = .ok (.done n) →
      ∃ taRr ∈ rrs, ∃ key ∈ dnskeys.rrs, ∃ k, AnchoredBy E taRr key k ∧
        ∃ sig ∈ dnskeys.sigs, sig.keyTag = E.keyTag k ∧
          E.checkSigCached now dnskeys sig taOwner k key.owner (E.keyTag k) = true ∧
          n.state = .secure ∧ n.keys = dnskeys.dnskeys ∧ n.signerName = taOwner ∧
          n.intermediate = false
  | [], _, h => by cases h
  | taRr :: rest, st, h => by
    unfold trustAnchorRrs at h
    dsimp only at h
    generalize hopt : (if taRr.rtype = Rtype.dnskey then hasKey dnskeys taRr
      else if taRr.rtype = Rtype.ds then hasDs E dnskeys taRr else none) = opt at h
    rcases opt with _ | key
    · exact List.exists_mem_cons_of_exists (trustAnchorRrs_done h)
    dsimp only at h
    split at h
    · rename_i k hk
      obtain ⟨s, hs, hrest⟩ := Outcome.bind_eq_ok.mp h
      split at hrest
      · exact List.exists_mem_cons_of_exists (trustAnchorRrs_done hrest)
      · cases hrest
        obtain ⟨sig, hsig, htag, hcheck, rfl⟩ := trustAnchorSigs_done hs
        obtain ⟨hmem, k', hk'⟩ := anchorKey_eq_some hopt
        obtain rfl : k' = k := by simpa [hk] using hk'.1.symm
        exact ⟨taRr, List.mem_cons_self _ _, key, hmem, k', hk', sig, hsig, htag, hcheck,
          rfl, rfl, rfl, rfl⟩
    · exact List.exists_mem_cons_of_exists (trustAnchorRrs_done h)

/-- What a secure anchor node rests on: the first DNSKEY group of the reply to
the anchor's DNSKEY query gives its keys, a key of the group is anchored by an
anchor record, and `check_sig_cached` accepted a signature over the group by
that key. -/
def AnchorKeyProof (E : Env) (ta : TrustAnchor) (ctx : Ctx) (n : Node) : Prop :=
  ∃ dnskeys, ((E.groupReply (E.upstream ctx.queries ta.owner Rtype.dnskey).1).1.find?
      fun g => g.rtype = Rtype.dnskey) = some dnskeys ∧
    n.keys = dnskeys.dnskeys ∧ n.signerName = ta.owner ∧ n.intermediate = false ∧
    ∃ taRr ∈ ta.rrs, ∃ key ∈ dnskeys.rrs, ∃ k, AnchoredBy E taRr key k ∧
      ∃ sig ∈ dnskeys.sigs, sig.keyTag = E.keyTag k ∧
        E.checkSigCached (ctx.now + (E.upstream ctx.queries ta.owner Rtype.dnskey).2) dnskeys sig
          ta.owner k key.owner (E.keyTag k) = true

theorem trustAnchor_eq_ok {E : Env} {ta : TrustAnchor} {ctx ctx' : Ctx} {n : Node}
    (h : trustAnchor E ta ctx = .ok (n, ctx')) :
    ctx' = ctx.sent ta.owner Rtype.dnskey (E.upstream ctx.queries ta.owner Rtype.dnskey).2 ∧
      (n.state = .secure ∧ AnchorKeyProof E ta ctx n ∨
        n.state = .bogus ∧ n.keys = [] ∧ n.intermediate = false) := by
  replace h := requestAsGroups_bind_eq_ok h
  rcases hg : E.groupReply (E.upstream ctx.queries ta.owner Rtype.dnskey).1 with ⟨answers, _, _⟩
  rw [hg] at h
  dsimp only at h
  split at h
  · cases h
    exact ⟨rfl, .inr ⟨rfl, rfl, rfl⟩⟩
  · rename_i dnskeys hfind
    obtain ⟨s, hs, h⟩ := Outcome.bind_eq_ok.mp h
    split at h
    · cases h
      obtain ⟨taRr, hta, key, hkey, k, hk, sig, hsig, htag, hcheck, hsec, hkeys, hsigner, hinter⟩ :=
        trustAnchorRrs_done hs
      exact ⟨rfl, .inl ⟨hsec, dnskeys, by rw [hg]; exact hfind, hkeys, hsigner, hinter, taRr, hta,
        key, hkey, k, hk, sig, hsig, htag, hcheck⟩⟩
    · cases h
      exact ⟨rfl, .inr ⟨rfl, rfl, rfl⟩⟩

end Domain.Validator
