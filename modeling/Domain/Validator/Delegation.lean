import Domain.Validator.Context

/-! `create_child_node`: one delegation step from a parent node to a child name,
with the NSEC and NSEC3 proofs that the child has no DS (`nsec_for_ds`,
`nsec3_for_ds`) and the DNSKEY check of a signed delegation. Every `todo!()`,
`panic!` and failed index of the source is `Outcome.panic`. -/

namespace Domain.Validator

inductive CNsecState
  | insecureDelegation
  | secureIntermediate
  | nothing
  | bogus
  deriving DecidableEq, Repr

/-- `rrs[0]` of an NSEC group, panicking on an empty group or another type. -/
def Group.firstNsec (g : Group) : Outcome Nsec :=
  match g.rrs with
  | ⟨_, _, _, .nsec n⟩ :: _ => .ok n
  | _ => .panic

/-- `rrs[0]` of an NSEC3 group, panicking on an empty group or another type. -/
def Group.firstNsec3 (g : Group) : Outcome Nsec3 :=
  match g.rrs with
  | ⟨_, _, _, .nsec3 n⟩ :: _ => .ok n
  | _ => .panic

/-- `Label::from_slice(..).expect(..)`: a label holds at most 63 octets. -/
def labelFromSlice (s : List Nat) : Outcome Label :=
  if s.length ≤ 63 then .ok s else .panic

/-- The NSEC owned by the target: after the signature check, the bitmap decides. -/
def nsecExact (E : Env) (now : Nat) (g : Group) (node : Node) (nsec : Nsec) :
    Outcome (CNsecState × Nat × Option Ede) :=
  let (state, wildcard, _, ttl) := E.validateWithNode now g node
  if state ≠ .secure then .panic
  else if wildcard.isSome then .panic
  else if Rtype.ds ∈ nsec.types then .panic
  else if Rtype.soa ∈ nsec.types then .panic
  else if Rtype.ns ∈ nsec.types then .ok (.insecureDelegation, ttl, none)
  else .ok (.secureIntermediate, ttl, none)

/-- The NSEC owned by an ancestor of the target: `some` returns from
`nsec_for_ds`, `none` goes on to the range check. -/
def nsecAncestor (E : Env) (now : Nat) (g : Group) (node : Node) (nsec : Nsec) :
    Outcome (Option (CNsecState × Nat × Option Ede)) :=
  let (state, wildcard, ede, ttl) := E.validateWithNode now g node
  match state with
  | .bogus => .ok (some (.bogus, ttl, ede))
  | .insecure | .indeterminate => .panic
  | .secure =>
    if wildcard.isSome then .panic
    else if Rtype.dname ∈ nsec.types then .panic
    else if Rtype.ns ∈ nsec.types ∧ Rtype.soa ∉ nsec.types then .panic
    else .ok none

/-- The NSEC whose range holds the target as an empty non-terminal. -/
def nsecRange (E : Env) (now : Nat) (g : Group) (node : Node) :
    Outcome (CNsecState × Nat × Option Ede) :=
  let (state, wildcard, _, ttl) := E.validateWithNode now g node
  if state ≠ .secure then .panic
  else if wildcard.isSome then .panic
  else .ok (.secureIntermediate, ttl, none)

/-- `nsec_for_ds`: only the first NSEC group is looked at; one that neither
matches, is an ancestor, nor covers the target ends at a `todo!()`. -/
def nsecForDs (E : Env) (now : Nat) (target : Name) (node : Node) :
    GroupSet → Outcome (CNsecState × Nat × Option Ede)
  | [] => .ok (.nothing, maxNodeValid, none)
  | g :: gs =>
    if g.rtype ≠ Rtype.nsec then nsecForDs E now target node gs
    else
      g.firstNsec >>= fun nsec =>
      if target = g.owner then nsecExact E now g node nsec
      else
        (if Name.endsWith target g.owner then nsecAncestor E now g node nsec else .ok none) >>=
          fun early =>
        match early with
        | some r => .ok r
        | none =>
          if Name.nameCmp target g.owner = .gt ∧ Name.nameCmp target nsec.nextName = .lt ∧
              Name.endsWith nsec.nextName target = true then nsecRange E now g node
          else .panic

/-- The NSEC3 whose owner hash is the target's hash: the bitmap decides. -/
def nsec3Exact (E : Env) (now : Nat) (g : Group) (node : Node) (nsec3 : Nsec3) :
    Outcome (CNsecState × Option Ede × Nat) :=
  let (state, _, _, ttl) := E.validateWithNode now g node
  if state ≠ .secure then .panic
  else if Rtype.ds ∈ nsec3.types then .panic
  else if Rtype.soa ∈ nsec3.types then .panic
  else if Rtype.ns ∈ nsec3.types then .ok (.insecureDelegation, none, ttl)
  else .ok (.secureIntermediate, none, ttl)

/-- The NSEC3 whose interval covers the target's hash: only an opt-out record
proves an insecure delegation. -/
def nsec3Covering (E : Env) (now : Nat) (g : Group) (node : Node) (nsec3 : Nsec3) :
    Outcome (CNsecState × Option Ede × Nat) :=
  let (state, _, _, ttl) := E.validateWithNode now g node
  if state ≠ .secure then .panic
  else if !nsec3.optOut then .panic
  else .ok (.insecureDelegation, none, ttl)

def Env.hashLabel (E : Env) (target : Name) (nsec3 : Nsec3) : Outcome Label :=
  labelFromSlice (E.hashText (E.nsec3Hash target nsec3.hashAlgorithm nsec3.iterations nsec3.salt))

/-- `nsec3_for_ds`: the NSEC3 groups are tried in turn until one matches or
covers the target's hash. -/
def nsec3ForDs (E : Env) (now : Nat) (target : Name) (node : Node) :
    GroupSet → Outcome (CNsecState × Option Ede × Nat)
  | [] => .ok (.nothing, none, maxNodeValid)
  | g :: gs =>
    if g.rtype ≠ Rtype.nsec3 then nsec3ForDs E now target node gs
    else
      g.firstNsec3 >>= fun nsec3 =>
      if nsec3.iterations > E.nsec3IterInsecure ∨ nsec3.iterations > E.nsec3IterBogus then .panic
      else if !Name.endsWith target ((Name.parent g.owner).getD []) then .panic
      else
        E.hashLabel target nsec3 >>= fun label =>
        if g.owner.headD [] = label then nsec3Exact E now g node nsec3
        else if Label.cmp (g.owner.headD []) label = .lt ∧
            Label.cmp (E.nsec3Hash target nsec3.hashAlgorithm nsec3.iterations nsec3.salt)
              nsec3.nextOwner = .lt then
          nsec3Covering E now g node nsec3
        else nsec3ForDs E now target node gs

/-- `find_key_for_ds`: the first DNSKEY with the DS algorithm and key tag whose
digest over its owner is the DS digest. Another record type panics. -/
def findKeyForDs (E : Env) (ds : Ds) : List Record → Outcome (Option Record)
  | [] => .ok none
  | key :: keys =>
    match key.data with
    | .dnskey dnskey =>
      if dnskey.algorithm ≠ ds.algorithm ∨ E.keyTag dnskey ≠ ds.keyTag then
        findKeyForDs E ds keys
      else
        match E.dnskeyDigest dnskey key.owner ds.digestType with
        | some d => if ds.digest = d then .ok (some key) else findKeyForDs E ds keys
        | none => findKeyForDs E ds keys
    | _ => .panic

/-- `valid_algs`: whether some DS record has a supported algorithm and digest;
a record that is not a DS panics once it is reached. -/
def anySupportedDs : List Record → Outcome Bool
  | [] => .ok false
  | r :: rs =>
    match r.data with
    | .ds ds =>
      if supportedAlgorithm ds.algorithm && supportedDigest ds.digestType then .ok true
      else anySupportedDs rs
    | _ => .panic

/-- `dnskey_vec`: the keys of a DNSKEY group; another record type panics. -/
def dnskeyVec : List Record → Outcome (List Dnskey)
  | [] => .ok []
  | r :: rs =>
    match r.data with
    | .dnskey k => dnskeyVec rs >>= fun ks => .ok (k :: ks)
    | _ => .panic

/-- The signatures over the child's DNSKEY RRset tried for the key found for a
DS: the first with the key's tag decides, and a failure or no such signature
stops at a `todo!()`. -/
def childKeySigs (E : Env) (now ttl : Nat) (dnskeyGroup : Group) (keyName : Name)
    (dnskey : Dnskey) : List Rrsig → Outcome Node
  | [] => .panic
  | sig :: sigs =>
    if sig.keyTag ≠ E.keyTag dnskey then childKeySigs E now ttl dnskeyGroup keyName dnskey sigs
    else if E.checkSigCached now dnskeyGroup sig keyName dnskey keyName (E.keyTag dnskey) then
      dnskeyVec dnskeyGroup.rrs >>= fun keys =>
        .ok (Node.newDelegation keyName .secure keys none (min ttl (E.ttlForSig now sig)) now)
    else .panic

/-- The loop over the supported DS records: the first whose key is in the child's
DNSKEY RRset decides; running out of DS records stops at a `todo!()`. -/
def childDsLoop (E : Env) (now ttl : Nat) (dnskeyGroup : Group) : List Record → Outcome Node
  | [] => .panic
  | r :: rs =>
    match r.data with
    | .ds ds =>
      if supportedAlgorithm ds.algorithm && supportedDigest ds.digestType then
        findKeyForDs E ds dnskeyGroup.rrs >>= fun found =>
        match found with
        | none => childDsLoop E now ttl dnskeyGroup rs
        | some rDnskey =>
          match rDnskey.data with
          | .dnskey dnskey => childKeySigs E now ttl dnskeyGroup rDnskey.owner dnskey dnskeyGroup.sigs
          | _ => .panic
      else childDsLoop E now ttl dnskeyGroup rs
    | _ => .panic

/-- The DS reply has no DS RRset: a signed CNAME at the name, then the NSEC
proof, then the NSEC3 proof; with neither, the node is bogus. -/
def noDsNode (E : Env) (now : Nat) (name : Name) (node : Node) (parentTtl : Nat)
    (answers authorities : GroupSet) : Outcome Node :=
  match (answers.filter fun g => g.rtype = Rtype.cname).find? fun g => g.owner = name with
  | some g =>
    let (state, _, ede, sigTtl) := E.validateWithNode now g node
    let ttl := min (min parentTtl g.minTtl) sigTtl
    match state with
    | .secure => .ok (Node.newIntermediate .secure node.signerName ede ttl now)
    | .bogus => .ok (Node.newDelegation name .bogus [] ede ttl now)
    | .insecure | .indeterminate => .panic
  | none =>
    nsecForDs E now name node authorities >>= fun (state, ttl, ede) =>
    match state with
    | .insecureDelegation => .ok (Node.newDelegation name .insecure [] ede (min parentTtl ttl) now)
    | .secureIntermediate => .ok (Node.newIntermediate .secure node.signerName ede ttl now)
    | .bogus => .ok (Node.newDelegation name .bogus [] ede ttl now)
    | .nothing =>
      nsec3ForDs E now name node authorities >>= fun (state, ede, ttl) =>
      match state with
      | .insecureDelegation => .ok (Node.newDelegation name .insecure [] ede ttl now)
      | .secureIntermediate => .ok (Node.newIntermediate .secure node.signerName ede ttl now)
      | .bogus | .nothing => .ok (Node.newDelegation name .bogus [] ede ttl now)

/-- The DS reply has a DS RRset: validate it under the parent, then fetch and
check the child's DNSKEY RRset. -/
def dsNode (E : Env) (ctx : Ctx) (name : Name) (node : Node) (parentTtl : Nat)
    (dsGroup : Group) : Outcome (Node × Ctx) :=
  if dsGroup.owner ≠ name then .panic
  else
    let (state, _, ede, sigTtl) := E.validateWithNode ctx.now dsGroup node
    let ttl := min (min parentTtl dsGroup.minTtl) sigTtl
    match state with
    | .bogus => .ok (Node.newDelegation name .bogus [] ede ttl ctx.now, ctx)
    | .insecure | .indeterminate => .panic
    | .secure =>
      anySupportedDs dsGroup.rrs >>= fun validAlgs =>
      if !validAlgs then
        .ok (Node.newDelegation name .insecure []
          (makeEde ExtendedErrorCode.other "No supported algorithm in DS RRset") ttl ctx.now, ctx)
      else
        requestAsGroups E ctx name Rtype.dnskey >>= fun ((answers, _, ede), ctx) =>
        if ede.isSome then .ok (Node.newDelegation name .bogus [] ede E.bogusTtl ctx.now, ctx)
        else
          match answers.find? fun g => g.rtype = Rtype.dnskey with
          | none => .panic
          | some dnskeyGroup =>
            childDsLoop E ctx.now (min ttl dnskeyGroup.minTtl) dnskeyGroup dsGroup.rrs >>= fun n =>
              .ok (n, ctx)

/-- `create_child_node`: query the DS RRset of `name` and derive the child's
node from the parent `node`. -/
def createChildNode (E : Env) (name : Name) (node : Node) (ctx : Ctx) : Outcome (Node × Ctx) :=
  requestAsGroups E ctx name Rtype.ds >>= fun ((answers, authorities, ede), ctx) =>
  if ede.isSome then .ok (Node.newDelegation name .bogus [] ede E.bogusTtl ctx.now, ctx)
  else
    node.ttl ctx.now >>= fun parentTtl =>
    match answers.find? fun g => g.rtype = Rtype.ds with
    | none => noDsNode E ctx.now name node parentTtl answers authorities >>= fun n => .ok (n, ctx)
    | some dsGroup => dsNode E ctx name node parentTtl dsGroup

theorem findKeyForDs_eq_some {E : Env} {ds : Ds} {key : Record} :
    ∀ {rrs : List Record}, findKeyForDs E ds rrs = .ok (some key) →
      key ∈ rrs ∧ ∃ k, key.data = .dnskey k ∧ k.algorithm = ds.algorithm ∧
        E.keyTag k = ds.keyTag ∧ E.dnskeyDigest k key.owner ds.digestType = some ds.digest
  | [], h => by cases h
  | r :: rrs, h => by
    unfold findKeyForDs at h
    split at h
    · rename_i k hk
      split_ifs at h with hm
      · exact (findKeyForDs_eq_some h).imp_left (List.mem_cons_of_mem _)
      · split at h
        · rename_i d hd
          split_ifs at h with hdg
          · cases h
            simp only [not_or, not_not] at hm
            exact ⟨List.mem_cons_self _ _, k, hk, hm.1, hm.2, hdg ▸ hd⟩
          · exact (findKeyForDs_eq_some h).imp_left (List.mem_cons_of_mem _)
        · exact (findKeyForDs_eq_some h).imp_left (List.mem_cons_of_mem _)
    · cases h

theorem dnskeyVec_eq_ok : ∀ {rrs : List Record} {keys : List Dnskey}, dnskeyVec rrs = .ok keys →
    keys = rrs.filterMap fun r => match r.data with
      | .dnskey k => some k
      | _ => none
  | [], _, h => by cases h; rfl
  | r :: rrs, keys, h => by
    unfold dnskeyVec at h
    split at h
    · rename_i k hk
      obtain ⟨ks, hks, h⟩ := Outcome.bind_eq_ok.mp h
      cases h
      simp [List.filterMap_cons, hk, dnskeyVec_eq_ok hks]
    · cases h

theorem childKeySigs_eq_ok {E : Env} {now ttl : Nat} {g : Group} {keyName : Name} {k : Dnskey}
    {n : Node} : ∀ {sigs : List Rrsig}, childKeySigs E now ttl g keyName k sigs = .ok n →
      ∃ sig ∈ sigs, sig.keyTag = E.keyTag k ∧
        E.checkSigCached now g sig keyName k keyName (E.keyTag k) = true ∧
        n = Node.newDelegation keyName .secure g.dnskeys none (min ttl (E.ttlForSig now sig)) now
  | [], h => by cases h
  | sig :: sigs, h => by
    unfold childKeySigs at h
    split_ifs at h with htag hcheck
    · exact List.exists_mem_cons_of_exists (childKeySigs_eq_ok h)
    · obtain ⟨keys, hkeys, h⟩ := Outcome.bind_eq_ok.mp h
      cases h
      exact ⟨sig, List.mem_cons_self _ _, not_not.mp htag, hcheck, by
        rw [dnskeyVec_eq_ok hkeys]; rfl⟩

/-- A DS record with a supported algorithm and digest that matches a DNSKEY
record in algorithm, key tag and digest over the key's owner. -/
def DsMatchesKey (E : Env) (r key : Record) (k : Dnskey) : Prop :=
  ∃ ds, r.data = .ds ds ∧ supportedAlgorithm ds.algorithm = true ∧
    supportedDigest ds.digestType = true ∧ key.data = .dnskey k ∧ k.algorithm = ds.algorithm ∧
    E.keyTag k = ds.keyTag ∧ E.dnskeyDigest k key.owner ds.digestType = some ds.digest

theorem childDsLoop_eq_ok {E : Env} {now ttl : Nat} {g : Group} {n : Node} :
    ∀ {rrs : List Record}, childDsLoop E now ttl g rrs = .ok n →
      ∃ r ∈ rrs, ∃ key ∈ g.rrs, ∃ k, DsMatchesKey E r key k ∧
        childKeySigs E now ttl g key.owner k g.sigs = .ok n
  | [], h => by cases h
  | r :: rrs, h => by
    unfold childDsLoop at h
    split at h
    · rename_i ds hds
      split_ifs at h with hsup
      · obtain ⟨found, hfound, h⟩ := Outcome.bind_eq_ok.mp h
        split at h
        · exact List.exists_mem_cons_of_exists (childDsLoop_eq_ok h)
        · rename_i key
          split at h
          · rename_i k hk
            obtain ⟨hmem, k', hk', halg, htag, hdig⟩ := findKeyForDs_eq_some hfound
            obtain rfl : k' = k := by simpa [hk] using hk'.symm
            simp only [Bool.and_eq_true] at hsup
            exact ⟨r, List.mem_cons_self _ _, key, hmem, k', ⟨ds, hds, hsup.1, hsup.2, hk', halg,
              htag, hdig⟩, h⟩
          · cases h
      · exact List.exists_mem_cons_of_exists (childDsLoop_eq_ok h)
    · cases h

theorem anySupportedDs_eq_false : ∀ {rrs : List Record}, anySupportedDs rrs = .ok false →
    ∀ r ∈ rrs, ∃ ds, r.data = .ds ds ∧
      (supportedAlgorithm ds.algorithm && supportedDigest ds.digestType) = false
  | [], _, _, hr => absurd hr (List.not_mem_nil _)
  | r :: rrs, h, r', hr' => by
    unfold anySupportedDs at h
    split at h
    · rename_i ds hds
      split_ifs at h with hsup
      · cases h
      rcases List.mem_cons.mp hr' with rfl | hr'
      · exact ⟨ds, hds, by simpa using hsup⟩
      · exact anySupportedDs_eq_false h r' hr'
    · cases h

/-- What a secure delegation rests on, once the DS RRset is validated: the first
DNSKEY group of the reply to the DNSKEY query gives the node's keys, a supported
DS record matches a key of the group, and `check_sig_cached` accepted a signature
over the group by that key. -/
def DelegationKeyProof (E : Env) (ctx : Ctx) (name : Name) (dsGroup : Group) (n : Node) : Prop :=
  ∃ dnskeyGroup, ((E.groupReply (E.upstream ctx.queries name Rtype.dnskey).1).1.find?
      fun g => g.rtype = Rtype.dnskey) = some dnskeyGroup ∧
    n.keys = dnskeyGroup.dnskeys ∧
    ∃ r ∈ dsGroup.rrs, ∃ key ∈ dnskeyGroup.rrs, ∃ k, DsMatchesKey E r key k ∧
      n.signerName = key.owner ∧ ∃ sig ∈ dnskeyGroup.sigs, sig.keyTag = E.keyTag k ∧
        E.checkSigCached (ctx.now + (E.upstream ctx.queries name Rtype.dnskey).2) dnskeyGroup sig
          key.owner k key.owner (E.keyTag k) = true

theorem dsNode_eq_ok {E : Env} {ctx ctx' : Ctx} {name : Name} {node n : Node} {parentTtl : Nat}
    {dsGroup : Group} (h : dsNode E ctx name node parentTtl dsGroup = .ok (n, ctx')) :
    dsGroup.owner = name ∧ n.intermediate = false ∧
      (ctx' = ctx ∨ ctx' = ctx.sent name Rtype.dnskey (E.upstream ctx.queries name Rtype.dnskey).2) ∧
      (n.state = .bogus ∧ n.keys = [] ∨
        (E.validateWithNode ctx.now dsGroup node).1 = .secure ∧
          (n.state = .insecure ∧ n.keys = [] ∧ (∀ r ∈ dsGroup.rrs, ∃ ds, r.data = .ds ds ∧
              (supportedAlgorithm ds.algorithm && supportedDigest ds.digestType) = false) ∨
            n.state = .secure ∧ DelegationKeyProof E ctx name dsGroup n)) := by
  unfold dsNode at h
  split_ifs at h with hown
  refine ⟨not_not.mp hown, ?_⟩
  rcases hv : E.validateWithNode ctx.now dsGroup node with ⟨state, wildcard, ede, sigTtl⟩
  rw [hv] at h
  dsimp only at h
  split at h
  · cases h
    exact ⟨rfl, .inl rfl, .inl ⟨rfl, rfl⟩⟩
  · cases h
  · cases h
  obtain ⟨valid, hvalid, h⟩ := Outcome.bind_eq_ok.mp h
  split_ifs at h with hva
  · cases h
    simp only [Bool.not_eq_true'] at hva
    exact ⟨rfl, .inl rfl, .inr ⟨rfl, .inl ⟨rfl, rfl, anySupportedDs_eq_false (hva ▸ hvalid)⟩⟩⟩
  replace h := requestAsGroups_bind_eq_ok h
  rcases hg : E.groupReply (E.upstream ctx.queries name Rtype.dnskey).1 with ⟨answers, _, ede2⟩
  rw [hg] at h
  dsimp only at h
  split_ifs at h with hede
  · cases h
    exact ⟨rfl, .inr rfl, .inl ⟨rfl, rfl⟩⟩
  split at h
  · cases h
  rename_i dnskeyGroup hfind
  obtain ⟨n', hn', h⟩ := Outcome.bind_eq_ok.mp h
  cases h
  obtain ⟨r, hr, key, hkey, k, hmatch, hsigs⟩ := childDsLoop_eq_ok hn'
  obtain ⟨sig, hsig, htag, hcheck, rfl⟩ := childKeySigs_eq_ok hsigs
  exact ⟨rfl, .inr rfl, .inr ⟨rfl, .inr ⟨rfl, dnskeyGroup, by rw [hg]; exact hfind, rfl, r, hr, key,
    hkey, k, hmatch, rfl, sig, hsig, htag, hcheck⟩⟩⟩

/-- The NSEC proof of an insecure delegation that `nsec_for_ds` accepts: the
first NSEC group is owned by the name, validated secure, and its bitmap has NS
but neither DS nor SOA. -/
def NsecInsecureProof (E : Env) (now : Nat) (name : Name) (node : Node) (groups : GroupSet) :
    Prop :=
  ∃ g nsec, (groups.find? fun g => g.rtype = Rtype.nsec) = some g ∧ g.firstNsec = .ok nsec ∧
    g.owner = name ∧ (E.validateWithNode now g node).1 = .secure ∧
    Rtype.ns ∈ nsec.types ∧ Rtype.ds ∉ nsec.types ∧ Rtype.soa ∉ nsec.types

/-- The NSEC proof of a secure intermediate node: the first NSEC group, validated
secure, is owned by the name or covers it. -/
def NsecIntermediateProof (E : Env) (now : Nat) (name : Name) (node : Node) (groups : GroupSet) :
    Prop :=
  ∃ g nsec, (groups.find? fun g => g.rtype = Rtype.nsec) = some g ∧ g.firstNsec = .ok nsec ∧
    (E.validateWithNode now g node).1 = .secure ∧
    (g.owner = name ∨ Name.nameCmp name g.owner = .gt ∧ Name.nameCmp name nsec.nextName = .lt)

theorem nsecExact_eq_ok {E : Env} {now : Nat} {g : Group} {node : Node} {nsec : Nsec}
    {r : CNsecState × Nat × Option Ede} (h : nsecExact E now g node nsec = .ok r) :
    (E.validateWithNode now g node).1 = .secure ∧ Rtype.ds ∉ nsec.types ∧
      Rtype.soa ∉ nsec.types ∧
      (r.1 = .insecureDelegation ∧ Rtype.ns ∈ nsec.types ∨ r.1 = .secureIntermediate) := by
  unfold nsecExact at h
  rcases hv : E.validateWithNode now g node with ⟨state, wildcard, ede, ttl⟩
  rw [hv] at h
  simp only [Outcome.ite_panic_eq_ok, ne_eq, not_not] at h
  obtain ⟨hs, -, hds, hsoa, h⟩ := h
  refine ⟨hs, hds, hsoa, ?_⟩
  split at h <;> cases h
  · exact .inl ⟨rfl, ‹_›⟩
  · exact .inr rfl

theorem nsecAncestor_eq_some {E : Env} {now : Nat} {g : Group} {node : Node} {nsec : Nsec}
    {r : CNsecState × Nat × Option Ede} (h : nsecAncestor E now g node nsec = .ok (some r)) :
    r.1 = .bogus := by
  unfold nsecAncestor at h
  rcases hv : E.validateWithNode now g node with ⟨state, wildcard, ede, ttl⟩
  rw [hv] at h
  dsimp only at h
  split at h
  · cases h; rfl
  · cases h
  · cases h
  · split_ifs at h
    cases h

theorem nsecRange_eq_ok {E : Env} {now : Nat} {g : Group} {node : Node}
    {r : CNsecState × Nat × Option Ede} (h : nsecRange E now g node = .ok r) :
    (E.validateWithNode now g node).1 = .secure ∧ r.1 = .secureIntermediate := by
  unfold nsecRange at h
  rcases hv : E.validateWithNode now g node with ⟨state, wildcard, ede, ttl⟩
  rw [hv] at h
  simp only [Outcome.ite_panic_eq_ok, ne_eq, not_not] at h
  obtain ⟨hs, -, h⟩ := h
  cases h
  exact ⟨hs, rfl⟩

theorem nsecForDs_eq_ok {E : Env} {now : Nat} {target : Name} {node : Node}
    {r : CNsecState × Nat × Option Ede} : ∀ {gs : GroupSet}, nsecForDs E now target node gs = .ok r →
      (r.1 = .insecureDelegation → NsecInsecureProof E now target node gs) ∧
      (r.1 = .secureIntermediate → NsecIntermediateProof E now target node gs) ∧
      (r.1 = .nothing → ∀ g ∈ gs, g.rtype ≠ Rtype.nsec)
  | [], h => by cases h; simp
  | g :: gs, h => by
    unfold nsecForDs at h
    by_cases hg : g.rtype ≠ Rtype.nsec
    · rw [if_pos hg] at h
      have hf : ((g :: gs).find? fun g => g.rtype = Rtype.nsec) =
          gs.find? fun g => g.rtype = Rtype.nsec := List.find?_cons_of_neg _ (by simpa using hg)
      obtain ⟨h1, h2, h3⟩ := nsecForDs_eq_ok h
      simp only [NsecInsecureProof, NsecIntermediateProof, hf] at h1 h2 ⊢
      refine ⟨h1, h2, fun hr g' hg' => ?_⟩
      rcases List.mem_cons.mp hg' with rfl | hg'
      · exact hg
      · exact h3 hr g' hg'
    rw [if_neg hg] at h
    have hf : ((g :: gs).find? fun g => g.rtype = Rtype.nsec) = some g :=
      List.find?_cons_of_pos _ (by simpa using hg)
    obtain ⟨nsec, hnsec, h⟩ := Outcome.bind_eq_ok.mp h
    by_cases htarget : target = g.owner
    · rw [if_pos htarget] at h
      obtain ⟨hsec, hds, hsoa, hr⟩ := nsecExact_eq_ok h
      rcases hr with ⟨hr, hns⟩ | hr <;> rw [hr]
      · exact ⟨fun _ => ⟨g, nsec, hf, hnsec, htarget.symm, hsec, hns, hds, hsoa⟩, nofun, nofun⟩
      · exact ⟨nofun, fun _ => ⟨g, nsec, hf, hnsec, hsec, .inl htarget.symm⟩, nofun⟩
    rw [if_neg htarget] at h
    obtain ⟨early, hearly, h⟩ := Outcome.bind_eq_ok.mp h
    split at h
    · cases h
      have hb : r.1 = .bogus := by
        split_ifs at hearly
        · exact nsecAncestor_eq_some hearly
        · cases hearly
      rw [hb]
      exact ⟨nofun, nofun, nofun⟩
    split_ifs at h with hrange
    obtain ⟨hsec, hr⟩ := nsecRange_eq_ok h
    rw [hr]
    exact ⟨nofun, fun _ => ⟨g, nsec, hf, hnsec, hsec, .inr ⟨hrange.1, hrange.2.1⟩⟩, nofun⟩

/-- The NSEC3 proof of an insecure delegation that `nsec3_for_ds` accepts: an
NSEC3 group validated secure whose owner hash is the name's hash, with NS but
neither DS nor SOA in its bitmap, or whose interval covers the name's hash with
the opt-out flag set. -/
def Nsec3InsecureProof (E : Env) (now : Nat) (name : Name) (node : Node) (groups : GroupSet) :
    Prop :=
  ∃ g ∈ groups, ∃ nsec3 label, g.rtype = Rtype.nsec3 ∧ g.firstNsec3 = .ok nsec3 ∧
    E.hashLabel name nsec3 = .ok label ∧ (E.validateWithNode now g node).1 = .secure ∧
    (g.owner.headD [] = label ∧ Rtype.ns ∈ nsec3.types ∧ Rtype.ds ∉ nsec3.types ∧
        Rtype.soa ∉ nsec3.types ∨
      Label.cmp (g.owner.headD []) label = .lt ∧
        Label.cmp (E.nsec3Hash name nsec3.hashAlgorithm nsec3.iterations nsec3.salt)
          nsec3.nextOwner = .lt ∧
        nsec3.optOut = true)

/-- The NSEC3 proof of a secure intermediate node: an NSEC3 group validated
secure whose owner hash is the name's hash. -/
def Nsec3IntermediateProof (E : Env) (now : Nat) (name : Name) (node : Node) (groups : GroupSet) :
    Prop :=
  ∃ g ∈ groups, ∃ nsec3 label, g.rtype = Rtype.nsec3 ∧ g.firstNsec3 = .ok nsec3 ∧
    E.hashLabel name nsec3 = .ok label ∧ (E.validateWithNode now g node).1 = .secure ∧
    g.owner.headD [] = label

theorem nsec3Exact_eq_ok {E : Env} {now : Nat} {g : Group} {node : Node} {nsec3 : Nsec3}
    {r : CNsecState × Option Ede × Nat} (h : nsec3Exact E now g node nsec3 = .ok r) :
    (E.validateWithNode now g node).1 = .secure ∧ Rtype.ds ∉ nsec3.types ∧
      Rtype.soa ∉ nsec3.types ∧
      (r.1 = .insecureDelegation ∧ Rtype.ns ∈ nsec3.types ∨ r.1 = .secureIntermediate) := by
  unfold nsec3Exact at h
  rcases hv : E.validateWithNode now g node with ⟨state, wildcard, ede, ttl⟩
  rw [hv] at h
  simp only [Outcome.ite_panic_eq_ok, ne_eq, not_not] at h
  obtain ⟨hs, hds, hsoa, h⟩ := h
  refine ⟨hs, hds, hsoa, ?_⟩
  split at h <;> cases h
  · exact .inl ⟨rfl, ‹_›⟩
  · exact .inr rfl

theorem nsec3Covering_eq_ok {E : Env} {now : Nat} {g : Group} {node : Node} {nsec3 : Nsec3}
    {r : CNsecState × Option Ede × Nat} (h : nsec3Covering E now g node nsec3 = .ok r) :
    (E.validateWithNode now g node).1 = .secure ∧ nsec3.optOut = true ∧
      r.1 = .insecureDelegation := by
  unfold nsec3Covering at h
  rcases hv : E.validateWithNode now g node with ⟨state, wildcard, ede, ttl⟩
  rw [hv] at h
  simp only [Outcome.ite_panic_eq_ok, ne_eq, not_not, Bool.not_eq_true', Bool.not_eq_false] at h
  obtain ⟨hs, hopt, h⟩ := h
  cases h
  exact ⟨hs, hopt, rfl⟩

theorem nsec3ForDs_eq_ok {E : Env} {now : Nat} {target : Name} {node : Node}
    {r : CNsecState × Option Ede × Nat} : ∀ {gs : GroupSet}, nsec3ForDs E now target node gs = .ok r →
      (r.1 = .insecureDelegation → Nsec3InsecureProof E now target node gs) ∧
      (r.1 = .secureIntermediate → Nsec3IntermediateProof E now target node gs) ∧
      r.1 ≠ .bogus
  | [], h => by cases h; exact ⟨nofun, nofun, nofun⟩
  | g :: gs, h => by
    unfold nsec3ForDs at h
    by_cases hg : g.rtype ≠ Rtype.nsec3
    · rw [if_pos hg] at h
      obtain ⟨h1, h2, h3⟩ := nsec3ForDs_eq_ok h
      exact ⟨fun hr => List.exists_mem_cons_of_exists (h1 hr),
        fun hr => List.exists_mem_cons_of_exists (h2 hr), h3⟩
    rw [if_neg hg] at h
    obtain ⟨nsec3, hn3, h⟩ := Outcome.bind_eq_ok.mp h
    simp only [Outcome.ite_panic_eq_ok] at h
    obtain ⟨-, -, h⟩ := h
    obtain ⟨label, hl, h⟩ := Outcome.bind_eq_ok.mp h
    have hg' : g.rtype = Rtype.nsec3 := not_not.mp hg
    split_ifs at h with heq hcov
    · obtain ⟨hsec, hds, hsoa, hr⟩ := nsec3Exact_eq_ok h
      rcases hr with ⟨hr, hns⟩ | hr <;> rw [hr]
      · exact ⟨fun _ => ⟨g, List.mem_cons_self _ _, nsec3, label, hg', hn3, hl, hsec,
          .inl ⟨heq, hns, hds, hsoa⟩⟩, nofun, nofun⟩
      · exact ⟨nofun, fun _ => ⟨g, List.mem_cons_self _ _, nsec3, label, hg', hn3, hl, hsec, heq⟩,
          nofun⟩
    · obtain ⟨hsec, hopt, hr⟩ := nsec3Covering_eq_ok h
      rw [hr]
      exact ⟨fun _ => ⟨g, List.mem_cons_self _ _, nsec3, label, hg', hn3, hl, hsec,
        .inr ⟨hcov.1, hcov.2, hopt⟩⟩, nofun, nofun⟩
    · obtain ⟨h1, h2, h3⟩ := nsec3ForDs_eq_ok h
      exact ⟨fun hr => List.exists_mem_cons_of_exists (h1 hr),
        fun hr => List.exists_mem_cons_of_exists (h2 hr), h3⟩

/-- What a secure intermediate node rests on: a CNAME group at the name in the
answer section, or an NSEC or NSEC3 proof in the authority section, validated
secure under the parent. -/
def IntermediateProof (E : Env) (now : Nat) (name : Name) (node : Node)
    (answers authorities : GroupSet) : Prop :=
  (∃ g ∈ answers, g.rtype = Rtype.cname ∧ g.owner = name ∧
      (E.validateWithNode now g node).1 = .secure) ∨
    NsecIntermediateProof E now name node authorities ∨
    Nsec3IntermediateProof E now name node authorities

theorem noDsNode_eq_ok {E : Env} {now : Nat} {name : Name} {node n : Node} {parentTtl : Nat}
    {answers authorities : GroupSet}
    (h : noDsNode E now name node parentTtl answers authorities = .ok n) :
    n.state = .bogus ∧ n.keys = [] ∧ n.intermediate = false ∨
      n.state = .insecure ∧ n.keys = [] ∧ n.intermediate = false ∧
        (NsecInsecureProof E now name node authorities ∨
          Nsec3InsecureProof E now name node authorities) ∨
      n.state = .secure ∧ n.keys = [] ∧ n.intermediate = true ∧ n.signerName = node.signerName ∧
        IntermediateProof E now name node answers authorities := by
  unfold noDsNode at h
  split at h
  · rename_i g hfind
    have hmem := List.mem_filter.mp (List.mem_of_find?_eq_some hfind)
    have hown : g.owner = name := by simpa using List.find?_some hfind
    rcases hv : E.validateWithNode now g node with ⟨state, wildcard, ede, sigTtl⟩
    rw [hv] at h
    dsimp only at h
    split at h <;> cases h
    · exact .inr (.inr ⟨rfl, rfl, rfl, rfl,
        .inl ⟨g, hmem.1, by simpa using hmem.2, hown, by rw [hv]⟩⟩)
    · exact .inl ⟨rfl, rfl, rfl⟩
  obtain ⟨⟨st, ttl, ede⟩, hnsec, h⟩ := Outcome.bind_eq_ok.mp h
  obtain ⟨i1, i2, -⟩ := nsecForDs_eq_ok hnsec
  dsimp only at h
  split at h
  · cases h
    exact .inr (.inl ⟨rfl, rfl, rfl, .inl (i1 rfl)⟩)
  · cases h
    exact .inr (.inr ⟨rfl, rfl, rfl, rfl, .inr (.inl (i2 rfl))⟩)
  · cases h
    exact .inl ⟨rfl, rfl, rfl⟩
  obtain ⟨⟨st3, ede3, ttl3⟩, hnsec3, h⟩ := Outcome.bind_eq_ok.mp h
  obtain ⟨j1, j2, -⟩ := nsec3ForDs_eq_ok hnsec3
  dsimp only at h
  split at h <;> cases h
  · exact .inr (.inl ⟨rfl, rfl, rfl, .inr (j1 rfl)⟩)
  · exact .inr (.inr ⟨rfl, rfl, rfl, rfl, .inr (.inr (j2 rfl))⟩)
  · exact .inl ⟨rfl, rfl, rfl⟩
  · exact .inl ⟨rfl, rfl, rfl⟩

theorem createChildNode_eq_ok {E : Env} {name : Name} {node n : Node} {ctx ctx' : Ctx}
    {reply : Option Reply} {took : Nat} (hq : E.upstream ctx.queries name Rtype.ds = (reply, took))
    (h : createChildNode E name node ctx = .ok (n, ctx')) :
    (E.groupReply reply).2.2.isSome ∧ n.state = .bogus ∧ n.keys = [] ∧ n.intermediate = false ∧
        ctx' = ctx.sent name Rtype.ds took ∨
      (E.groupReply reply).2.2 = none ∧ ∃ parentTtl,
        ((E.groupReply reply).1.find? fun g => g.rtype = Rtype.ds) = none ∧
          noDsNode E (ctx.now + took) name node parentTtl (E.groupReply reply).1
            (E.groupReply reply).2.1 = .ok n ∧ ctx' = ctx.sent name Rtype.ds took ∨
        ∃ dsGroup, ((E.groupReply reply).1.find? fun g => g.rtype = Rtype.ds) = some dsGroup ∧
          dsNode E (ctx.sent name Rtype.ds took) name node parentTtl dsGroup = .ok (n, ctx') := by
  unfold createChildNode at h
  replace h := requestAsGroups_bind_eq_ok h
  rw [hq] at h
  rcases hg : E.groupReply reply with ⟨answers, authorities, ede⟩
  rw [hg] at h
  dsimp only at h
  split_ifs at h with hede
  · cases h
    exact .inl ⟨hede, rfl, rfl, rfl, rfl⟩
  obtain ⟨parentTtl, -, h⟩ := Outcome.bind_eq_ok.mp h
  refine .inr ⟨by simpa using hede, parentTtl, ?_⟩
  split at h
  · rename_i hfind
    obtain ⟨n', hn', h⟩ := Outcome.bind_eq_ok.mp h
    cases h
    exact .inl ⟨hfind, hn', rfl⟩
  · rename_i dsGroup hfind
    exact .inr ⟨dsGroup, hfind, h⟩

theorem createChildNode_state {E : Env} {name : Name} {node n : Node} {ctx ctx' : Ctx}
    (h : createChildNode E name node ctx = .ok (n, ctx')) :
    n.state ≠ .indeterminate ∧ ctx'.nodeCache = ctx.nodeCache ∧
      ∃ qs, ctx'.queries = ctx.queries ++ qs ∧ ∀ q ∈ qs, q.1 = name := by
  rcases createChildNode_eq_ok rfl h with ⟨-, hb, -, -, rfl⟩ | ⟨-, _, ⟨-, hn, rfl⟩ | ⟨_, -, hn⟩⟩
  · exact ⟨by simp [hb], rfl, _, rfl, by simp⟩
  · refine ⟨?_, rfl, _, rfl, by simp⟩
    rcases noDsNode_eq_ok hn with ⟨hs, -⟩ | ⟨hs, -⟩ | ⟨hs, -⟩ <;> simp [hs]
  · obtain ⟨-, -, hc, hs⟩ := dsNode_eq_ok hn
    refine ⟨?_, ?_⟩
    · rcases hs with ⟨hs, -⟩ | ⟨-, ⟨hs, -⟩ | ⟨hs, -⟩⟩ <;> simp [hs]
    · rcases hc with rfl | rfl
      · exact ⟨rfl, _, rfl, by simp⟩
      · exact ⟨rfl, [(name, Rtype.ds), (name, Rtype.dnskey)], by simp [Ctx.sent], by simp⟩

/-- The proofs of an insecure delegation: (a) the first DS group, at the name
and validated secure, has no DS record with a supported algorithm and digest;
(b) or (c) there is no DS group, and an NSEC or NSEC3 proof of an insecure
delegation. -/
def InsecureDelegationProof (E : Env) (now : Nat) (name : Name) (node : Node)
    (reply : GroupSet × GroupSet × Option Ede) : Prop :=
  (∃ dsGroup, (reply.1.find? fun g => g.rtype = Rtype.ds) = some dsGroup ∧ dsGroup.owner = name ∧
      (E.validateWithNode now dsGroup node).1 = .secure ∧
      ∀ r ∈ dsGroup.rrs, ∃ ds, r.data = .ds ds ∧
        (supportedAlgorithm ds.algorithm && supportedDigest ds.digestType) = false) ∨
    (reply.1.find? fun g => g.rtype = Rtype.ds) = none ∧
      (NsecInsecureProof E now name node reply.2.1 ∨ Nsec3InsecureProof E now name node reply.2.1)

theorem createChildNode_insecure_requires {E : Env} {name : Name} {parent n : Node}
    {ctx ctx' : Ctx} {reply : Option Reply} {took : Nat}
    (hq : E.upstream ctx.queries name Rtype.ds = (reply, took))
    (h : createChildNode E name parent ctx = .ok (n, ctx')) :
    (n.state = .insecure →
        InsecureDelegationProof E (ctx.now + took) name parent (E.groupReply reply)) ∧
      ((E.groupReply reply).2.2.isSome → n.state = .bogus) ∧
      (((E.groupReply reply).1.find? fun g => g.rtype = Rtype.ds) = none →
        n.state = .bogus ∨ n.state = .insecure ∨
          n.state = .secure ∧ n.intermediate = true ∧
            IntermediateProof E (ctx.now + took) name parent (E.groupReply reply).1
              (E.groupReply reply).2.1) := by
  rcases createChildNode_eq_ok hq h with
    ⟨-, hb, -⟩ | ⟨hede, _, ⟨hfind, hn, -⟩ | ⟨dsGroup, hfind, hn⟩⟩
  · exact ⟨fun hi => (nomatch hb.symm.trans hi), fun _ => hb, fun _ => .inl hb⟩
  · have hede' : ¬(E.groupReply reply).2.2.isSome := by simp [hede]
    rcases noDsNode_eq_ok hn with ⟨hb, -⟩ | ⟨hi, -, -, hp⟩ | ⟨hs, -, hint, -, hp⟩
    · exact ⟨fun hi => (nomatch hb.symm.trans hi), (absurd · hede'), fun _ => .inl hb⟩
    · exact ⟨fun _ => .inr ⟨hfind, hp⟩, (absurd · hede'), fun _ => .inr (.inl hi)⟩
    · exact ⟨fun hi => (nomatch hs.symm.trans hi), (absurd · hede'), fun _ => .inr (.inr ⟨hs, hint, hp⟩)⟩
  · have hede' : ¬(E.groupReply reply).2.2.isSome := by simp [hede]
    obtain ⟨hown, -, -, hcases⟩ := dsNode_eq_ok hn
    refine ⟨fun hi => ?_, (absurd · hede'), fun hnone => (nomatch hfind.symm.trans hnone)⟩
    rcases hcases with ⟨hb, -⟩ | ⟨hsec, ⟨-, -, hall⟩ | ⟨hs, -⟩⟩
    · exact (nomatch hb.symm.trans hi)
    · exact .inl ⟨dsGroup, hfind, hown, hsec, hall⟩
    · exact (nomatch hs.symm.trans hi)

open TestZone in
theorem createChildNode_insecure_requires_cname :
    env.upstream ctx0.queries aEx Rtype.ds = (some (reply aEx Rtype.ds), 0) ∧
      createChildNode env aEx exNode ctx0 = .ok (aNode, ctx0.sent aEx Rtype.ds 0) ∧
      (aNode.state = .insecure →
          InsecureDelegationProof env (ctx0.now + 0) aEx exNode (env.groupReply (some (reply aEx Rtype.ds)))) ∧
        ((env.groupReply (some (reply aEx Rtype.ds))).2.2.isSome → aNode.state = .bogus) ∧
        (((env.groupReply (some (reply aEx Rtype.ds))).1.find? fun g => g.rtype = Rtype.ds) = none →
          aNode.state = .bogus ∨ aNode.state = .insecure ∨
            aNode.state = .secure ∧ aNode.intermediate = true ∧
              IntermediateProof env (ctx0.now + 0) aEx exNode
                (env.groupReply (some (reply aEx Rtype.ds))).1
                (env.groupReply (some (reply aEx Rtype.ds))).2.1) :=
  ⟨rfl, rfl, createChildNode_insecure_requires rfl rfl⟩

open TestZone in
/-- The DS query for `a.ex` finds no DS RRset and no NSEC or NSEC3 record, only a
signed CNAME at `a.ex`: the child is a secure intermediate node, not a bogus
one. -/
theorem createChildNode_cname_secure :
    ((env.groupReply (some (reply aEx Rtype.ds))).1.find? fun g => g.rtype = Rtype.ds) = none ∧
      (env.groupReply (some (reply aEx Rtype.ds))).2.1 = [] ∧
      createChildNode env aEx exNode ctx0 = .ok (aNode, ctx0.sent aEx Rtype.ds 0) ∧
      aNode.state = .secure :=
  ⟨rfl, rfl, rfl, rfl⟩

namespace TestZone

/-- The DS query for `a.ex` answered with no DS RRset but the signed NSEC record of
`a.ex` itself, whose bitmap has neither NS, DS nor SOA. -/
def nsecReply (name : Name) (rtype : Rtype) : Reply :=
  if name = aEx ∧ rtype = Rtype.ds then
    ⟨some [], some [some ⟨aEx, 1, 3600, .nsec ⟨bAEx, [Rtype.nsec, Rtype.rrsig]⟩⟩,
      some (sigRr aEx Rtype.nsec)]⟩
  else reply name rtype

def nsecEnv : Env := { env with upstream := fun _ name rtype => (some (nsecReply name rtype), 0) }

end TestZone

open TestZone in
/-- The NSEC record of `a.ex` proves a secure intermediate node. Its validity is the
NSEC RRset's 3600, not capped by the parent's remaining 600. -/
theorem createChildNode_outlives_parent :
    exNode.ttl ctx0.now = .ok 600 ∧
      ∃ n ctx', createChildNode nsecEnv aEx exNode ctx0 = .ok (n, ctx') ∧ n.state = .secure ∧
        n.intermediate = true ∧ n.validFor = 3600 :=
  ⟨rfl, _, _, rfl, rfl, rfl, rfl⟩

end Domain.Validator
