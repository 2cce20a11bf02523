import Domain.Validator.Anchor
import Domain.Validator.Delegation

/-! The signature checks of `Node::trust_anchor` and of the DNSKEY loop of
`create_child_node`. Each `…Calls` function follows the control flow of its loop
and lists the results of the `check_sig_cached` calls the loop makes, in order;
the lemmas tie each list to the loop's outcome and to its `bad_sigs` counter.
`trust_anchor` stops at a `todo!()` once `bad_sigs` exceeds `MAX_BAD_SIGS`, the
limit against KeyTrap (CVE-2023-50387); `create_child_node` stops at one on its
first failed check. -/

namespace Domain.Validator

/-- The results of the `check_sig_cached` calls `trustAnchorSigs` makes from
`badSigs` failures. -/
def trustAnchorSigsCalls (E : Env) (now : Nat) (dnskeys : Group) (taOwner keyName : Name)
    (dnskey : Dnskey) : List Rrsig → Nat → List Bool
  | [], _ => []
  | sig :: sigs, badSigs =>
    if sig.keyTag ≠ E.keyTag dnskey then
      trustAnchorSigsCalls E now dnskeys taOwner keyName dnskey sigs badSigs
    else if E.checkSigCached now dnskeys sig taOwner dnskey keyName (E.keyTag dnskey) then [true]
    else if badSigs + 1 > E.maxBadSigs then [false]
    else false :: trustAnchorSigsCalls E now dnskeys taOwner keyName dnskey sigs (badSigs + 1)

def trustAnchorRrsCalls (E : Env) (now : Nat) (dnskeys : Group) (taOwner : Name) :
    List Record → Nat × Option Ede → List Bool
  | [], _ => []
  | taRr :: rest, st =>
    let optDnskeyRr :=
      if taRr.rtype = Rtype.dnskey then hasKey dnskeys taRr
      else if taRr.rtype = Rtype.ds then hasDs E dnskeys taRr
      else none
    match optDnskeyRr with
    | none => trustAnchorRrsCalls E now dnskeys taOwner rest st
    | some dnskeyRr =>
      match dnskeyRr.data with
      | .dnskey dnskey =>
        trustAnchorSigsCalls E now dnskeys taOwner dnskeyRr.owner dnskey dnskeys.sigs st.1 ++
          match trustAnchorSigs E now (min maxNodeValid dnskeys.minTtl) dnskeys taOwner
              dnskeyRr.owner dnskey dnskeys.sigs st with
          | .ok (.next st) => trustAnchorRrsCalls E now dnskeys taOwner rest st
          | _ => []
      | _ => trustAnchorRrsCalls E now dnskeys taOwner rest st

def trustAnchorCalls (E : Env) (ta : TrustAnchor) (ctx : Ctx) : List Bool :=
  match requestAsGroups E ctx ta.owner Rtype.dnskey with
  | .ok ((answers, _, _), ctx) =>
    match answers.find? fun g => g.rtype = Rtype.dnskey with
    | none => []
    | some dnskeys => trustAnchorRrsCalls E ctx.now dnskeys ta.owner ta.rrs (0, none)
  | _ => []

/-- How a loop of `trust_anchor` that started with `bad` failures ends, given the
results of its checks: at the `todo!()` exactly when the failures reach
`MAX_BAD_SIGS + 1`, with a secure node right after a successful check, or having
run out with every failure counted. It never fails otherwise. -/
def SigsEnd (maxBad bad : Nat) (calls : List Bool) : Outcome (Step (Nat × Option Ede) Node) → Prop
  | .panic => true ∉ calls ∧ bad + calls.count false = maxBad + 1
  | .ok (.next (bad', _)) => true ∉ calls ∧ bad' = bad + calls.count false ∧ bad' ≤ maxBad
  | .ok (.done _) => true ∈ calls ∧ bad + calls.count false ≤ maxBad
  | .err _ => False

theorem SigsEnd.count_le {maxBad bad : Nat} {calls : List Bool} {r : Outcome (Step (Nat × Option Ede) Node)}
    (h : SigsEnd maxBad bad calls r) : bad + calls.count false ≤ maxBad + 1 := by
  rcases r with (⟨⟨_, _⟩⟩ | _) | _ | _ <;> simp only [SigsEnd] at h <;> omega

theorem SigsEnd.append {maxBad bad : Nat} {pre calls : List Bool}
    {r : Outcome (Step (Nat × Option Ede) Node)} (hpre : true ∉ pre)
    (h : SigsEnd maxBad (bad + pre.count false) calls r) : SigsEnd maxBad bad (pre ++ calls) r := by
  rcases r with (⟨⟨_, _⟩⟩ | _) | _ | _ <;>
    simp only [SigsEnd, List.mem_append, List.count_append, hpre, false_or] at h ⊢
  · exact ⟨h.1, by omega, by omega⟩
  · exact ⟨h.1, by omega⟩
  · exact ⟨h.1, by omega⟩

theorem SigsEnd.cons_false {maxBad bad : Nat} {calls : List Bool}
    {r : Outcome (Step (Nat × Option Ede) Node)} (h : SigsEnd maxBad (bad + 1) calls r) :
    SigsEnd maxBad bad (false :: calls) r :=
  SigsEnd.append (by simp : true ∉ [false]) h

theorem trustAnchorSigs_end {E : Env} {now ttl : Nat} {dnskeys : Group} {taOwner keyName : Name}
    {dnskey : Dnskey} : ∀ {sigs : List Rrsig} {bad : Nat} {ede : Option Ede}, bad ≤ E.maxBadSigs →
      SigsEnd E.maxBadSigs bad (trustAnchorSigsCalls E now dnskeys taOwner keyName dnskey sigs bad)
        (trustAnchorSigs E now ttl dnskeys taOwner keyName dnskey sigs (bad, ede))
  | [], bad, ede, hb => by simpa [trustAnchorSigsCalls, trustAnchorSigs, SigsEnd] using hb
  | sig :: sigs, bad, ede, hb => by
    unfold trustAnchorSigsCalls trustAnchorSigs
    split_ifs with htag hcheck hover
    · exact trustAnchorSigs_end hb
    · simpa [SigsEnd] using hb
    · simp [SigsEnd]
      omega
    all_goals exact SigsEnd.cons_false (trustAnchorSigs_end (by omega))

theorem trustAnchorRrs_end {E : Env} {now : Nat} {dnskeys : Group} {taOwner : Name} :
    ∀ {rrs : List Record} {bad : Nat} {ede : Option Ede}, bad ≤ E.maxBadSigs →
      SigsEnd E.maxBadSigs bad (trustAnchorRrsCalls E now dnskeys taOwner rrs (bad, ede))
        (trustAnchorRrs E now dnskeys taOwner rrs (bad, ede))
  | [], bad, ede, hb => by simpa [trustAnchorRrsCalls, trustAnchorRrs, SigsEnd] using hb
  | taRr :: rest, bad, ede, hb => by
    unfold trustAnchorRrsCalls trustAnchorRrs
    dsimp only
    generalize (if taRr.rtype = Rtype.dnskey then hasKey dnskeys taRr
      else if taRr.rtype = Rtype.ds then hasDs E dnskeys taRr else none) = opt
    rcases opt with _ | ⟨owner, _, _, k | _ | _ | _ | _ | _ | _⟩
    · exact trustAnchorRrs_end hb
    · dsimp only
      have hin := @trustAnchorSigs_end E now (min maxNodeValid dnskeys.minTtl) dnskeys taOwner
        owner k dnskeys.sigs bad ede hb
      revert hin
      rcases trustAnchorSigs E now (min maxNodeValid dnskeys.minTtl) dnskeys taOwner owner k
        dnskeys.sigs (bad, ede) with (⟨⟨bad', ede'⟩⟩ | n) | e | _ <;> intro hin <;>
        dsimp only [Outcome.ok_bind, Outcome.err_bind, Outcome.panic_bind]
      · obtain ⟨hnot, rfl, hb'⟩ := hin
        exact SigsEnd.append hnot (trustAnchorRrs_end hb')
      · simpa using hin
      · exact hin.elim
      · simpa using hin
    all_goals exact trustAnchorRrs_end hb

theorem trustAnchor_calls (E : Env) (ta : TrustAnchor) (ctx : Ctx) :
    (trustAnchorCalls E ta ctx).count false ≤ E.maxBadSigs + 1 ∧
      (true ∉ trustAnchorCalls E ta ctx →
        (trustAnchor E ta ctx = .panic ↔ (trustAnchorCalls E ta ctx).count false = E.maxBadSigs + 1) ∧
        ∀ n ctx', trustAnchor E ta ctx = .ok (n, ctx') → n.state = .bogus) := by
  unfold trustAnchor trustAnchorCalls requestAsGroups
  by_cases hoct : E.octetsConversionFails = true
  · simp [hoct]
  · simp only [hoct, Bool.false_eq_true, if_false, Outcome.ok_bind]
    generalize ctx.sent ta.owner Rtype.dnskey (E.upstream ctx.queries ta.owner Rtype.dnskey).2 = ctx'
    cases hfind : List.find? (fun g => decide (g.rtype = Rtype.dnskey))
      (E.groupReply (E.upstream ctx.queries ta.owner Rtype.dnskey).1).1 with
    | none => simp [Node.newDelegation]
    | some dnskeys =>
      dsimp only
      have hend := @trustAnchorRrs_end E ctx'.now dnskeys ta.owner ta.rrs 0 none
        (Nat.zero_le E.maxBadSigs)
      refine ⟨by simpa using hend.count_le, fun hnot => ?_⟩
      revert hend
      rcases trustAnchorRrs E ctx'.now dnskeys ta.owner ta.rrs (0, none) with
        (⟨⟨bad', ede'⟩⟩ | n) | e | _ <;> intro hend
      · obtain ⟨-, rfl, hb⟩ := hend
        simp only [Outcome.ok_bind, reduceCtorEq, false_iff]
        exact ⟨by omega, fun n _ h => by cases h; rfl⟩
      · exact absurd hend.1 hnot
      · exact hend.elim
      · simpa using hend.2

/-- The DNSKEY loop of `create_child_node` makes at most one check per key it
finds, and the first failure stops it. -/
def childKeySigsCalls (E : Env) (now : Nat) (dnskeyGroup : Group) (keyName : Name)
    (dnskey : Dnskey) : List Rrsig → List Bool
  | [] => []
  | sig :: sigs =>
    if sig.keyTag ≠ E.keyTag dnskey then childKeySigsCalls E now dnskeyGroup keyName dnskey sigs
    else [E.checkSigCached now dnskeyGroup sig keyName dnskey keyName (E.keyTag dnskey)]

def childDsLoopCalls (E : Env) (now : Nat) (dnskeyGroup : Group) : List Record → List Bool
  | [] => []
  | r :: rs =>
    match r.data with
    | .ds ds =>
      if supportedAlgorithm ds.algorithm && supportedDigest ds.digestType then
        match findKeyForDs E ds dnskeyGroup.rrs with
        | .ok none => childDsLoopCalls E now dnskeyGroup rs
        | .ok (some rDnskey) =>
          match rDnskey.data with
          | .dnskey dnskey => childKeySigsCalls E now dnskeyGroup rDnskey.owner dnskey dnskeyGroup.sigs
          | _ => []
        | _ => []
      else childDsLoopCalls E now dnskeyGroup rs
    | _ => []

theorem childKeySigs_calls {E : Env} {now ttl : Nat} {g : Group} {keyName : Name} {k : Dnskey} :
    ∀ {sigs : List Rrsig}, (childKeySigsCalls E now g keyName k sigs).length ≤ 1 ∧
      (true ∉ childKeySigsCalls E now g keyName k sigs → childKeySigs E now ttl g keyName k sigs = .panic)
  | [] => by simp [childKeySigsCalls, childKeySigs]
  | sig :: sigs => by
    unfold childKeySigsCalls childKeySigs
    split_ifs with htag hcheck
    · exact childKeySigs_calls
    · simp [hcheck]
    · simp

theorem findKeyForDs_ok_or_panic {E : Env} {ds : Ds} :
    ∀ {rrs : List Record}, (∃ found, findKeyForDs E ds rrs = .ok found) ∨ findKeyForDs E ds rrs = .panic
  | [] => .inl ⟨none, rfl⟩
  | r :: rrs => by
    unfold findKeyForDs
    split
    · split_ifs
      · exact findKeyForDs_ok_or_panic
      · split
        · split_ifs
          · exact .inl ⟨_, rfl⟩
          · exact findKeyForDs_ok_or_panic
        · exact findKeyForDs_ok_or_panic
    · exact .inr rfl

theorem childDsLoop_calls {E : Env} {now ttl : Nat} {g : Group} :
    ∀ {rrs : List Record}, (childDsLoopCalls E now g rrs).length ≤ 1 ∧
      (true ∉ childDsLoopCalls E now g rrs → childDsLoop E now ttl g rrs = .panic)
  | [] => by simp [childDsLoopCalls, childDsLoop]
  | r :: rs => by
    unfold childDsLoopCalls childDsLoop
    rcases r with ⟨_, _, _, _ | ds | _ | _ | _ | _ | _⟩ <;> dsimp only
    · simp
    · split_ifs
      · rcases @findKeyForDs_ok_or_panic E ds g.rrs with ⟨found, hf⟩ | hf
        · rw [hf]
          rcases found with _ | ⟨_, _, _, k | _ | _ | _ | _ | _ | _⟩ <;>
            dsimp only [Outcome.ok_bind]
          · exact childDsLoop_calls
          · exact childKeySigs_calls
          all_goals simp
        · simp [hf]
      · exact childDsLoop_calls
    all_goals simp

theorem sigChecks_bounded (E : Env) (ta : TrustAnchor) (ctx : Ctx) (now ttl : Nat) (g : Group)
    (dsRrs : List Record) :
    (trustAnchorCalls E ta ctx).count false ≤ E.maxBadSigs + 1 ∧
      (true ∉ trustAnchorCalls E ta ctx →
        (trustAnchor E ta ctx = .panic ↔ (trustAnchorCalls E ta ctx).count false = E.maxBadSigs + 1) ∧
        ∀ n ctx', trustAnchor E ta ctx = .ok (n, ctx') → n.state = .bogus) ∧
      (childDsLoopCalls E now g dsRrs).count false ≤ 1 ∧
      (true ∉ childDsLoopCalls E now g dsRrs → childDsLoop E now ttl g dsRrs = .panic) :=
  ⟨(trustAnchor_calls E ta ctx).1, (trustAnchor_calls E ta ctx).2,
    (List.count_le_length _ _).trans (@childDsLoop_calls E now ttl g dsRrs).1,
    (@childDsLoop_calls E now ttl g dsRrs).2⟩

namespace TestZone

/-- The test zone with every signature check failing. -/
def badSigEnv : Env := { env with checkSigCached := fun _ _ _ _ _ _ _ => false }

/-- The anchor of `ex` given both as its DNSKEY and as a DS of that key. -/
def exAnchorWithDs : TrustAnchor := ⟨ex, [keyRr ex, ⟨ex, 1, 3600, .ds ⟨257, 8, 2, [7]⟩⟩]⟩

end TestZone

open TestZone in
/-- When no check succeeds, `trust_anchor` stops at its `todo!()` exactly when the
failures reach `MAX_BAD_SIGS + 1`, and the DNSKEY loop of `create_child_node` at
its first failure, where the comments above both `todo!()`s say the DNSKEY RRset
is declared bogus. With `MAX_BAD_SIGS = 1` and the one signature over the DNSKEY
RRset of `ex` failing, the two anchor records of the same key give two failed
checks and `trust_anchor` panics; so does the DNSKEY loop for `d.ex`. -/
theorem trustAnchor_panics_on_bad_sigs :
    (∀ (E : Env) (ta : TrustAnchor) (ctx : Ctx) (now ttl : Nat) (g : Group) (dsRrs : List Record),
      (trustAnchorCalls E ta ctx).count false ≤ E.maxBadSigs + 1 ∧
        (true ∉ trustAnchorCalls E ta ctx →
          (trustAnchor E ta ctx = .panic ↔
            (trustAnchorCalls E ta ctx).count false = E.maxBadSigs + 1) ∧
          ∀ n ctx', trustAnchor E ta ctx = .ok (n, ctx') → n.state = .bogus) ∧
        (childDsLoopCalls E now g dsRrs).count false ≤ 1 ∧
        (true ∉ childDsLoopCalls E now g dsRrs → childDsLoop E now ttl g dsRrs = .panic)) ∧
    trustAnchorCalls badSigEnv exAnchorWithDs ctx0 = [false, false] ∧
      trustAnchor badSigEnv exAnchorWithDs ctx0 = .panic ∧
      createChildNode badSigEnv dEx exNode ctx0 = .panic :=
  ⟨sigChecks_bounded, rfl, rfl, rfl⟩

end Domain.Validator
