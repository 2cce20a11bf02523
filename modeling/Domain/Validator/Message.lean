import Domain.Validator.Context

/-! `validate_msg`: the validation state of a whole reply. The groups of both
sections are validated one by one, the CNAME/DNAME chain gives the name the
answer is about, and the response code selects the proof that is looked for.
The chain, the answer and SOA lookups and the NSEC/NSEC3 proofs live in the
utility and NSEC modules; they are fields of `MsgEnv`, each returning the
section it was handed by `&mut`, so every result holds for all of them. -/

namespace Domain.Validator

inductive NsecState
  | noData
  | nothing
  deriving DecidableEq, Repr

inductive Nsec3State
  | noData
  | nothing
  | noDataInsecure
  | bogus
  deriving DecidableEq, Repr

inductive NsecNXState
  | exists
  | doesNotExist (ce : Name)
  | nothing
  deriving DecidableEq, Repr

inductive Nsec3NXState
  | doesNotExist (ce : Name)
  | doesNotExistInsecure (ce : Name)
  | bogus
  | insecure
  | nothing
  deriving DecidableEq, Repr

structure ValidatedGroup where
  group : Group
  state : ValidationState
  signerName : Name
  wildcard : Option Name
  ede : Option Ede
  deriving DecidableEq, Repr

abbrev Section := List ValidatedGroup

/-- The collaborators of `validate_msg`. -/
structure MsgEnv where
  /-- `Group::validate_with_vc`; `none` fails its `unwrap`. -/
  validateWithVc : Group → Option (ValidationState × Name × Option Name × Option Ede)
  removeRedundantCnames : GroupSet → GroupSet
  /-- `do_cname_dname(qname, qclass, qtype, answers, authorities)`: sname, state, EDE. -/
  doCnameDname : Name → Nat → Rtype → Section → Section →
    (Name × ValidationState × Option Ede) × Section × Section
  /-- `get_answer_state(sname, qclass, qtype, answers)`: state, signer name,
  closest encloser of a wildcard answer, EDE. -/
  getAnswerState : Name → Nat → Rtype → Section →
    Option (ValidationState × Name × Option Name × Option Ede) × Section
  /-- `star_closest_encloser`; `none` is its error. -/
  starClosestEncloser : Name → Option Name
  /-- `check_not_exists_for_wildcard(sname, authorities, signer_name, closest_encloser)`. -/
  checkNotExistsForWildcard : Name → Section → Name → Name →
    (Bool × ValidationState × Option Ede) × Section
  /-- `get_soa_state(sname, qclass, authorities)`: state and signer name of the SOA. -/
  getSoaState : Name → Nat → Section → (Option (ValidationState × Name) × Option Ede) × Section
  nsecForNodata : Name → Section → Rtype → Name → (NsecState × Option Ede) × Section
  nsecForNodataWildcard : Name → Section → Rtype → Name → (NsecState × Option Ede) × Section
  nsec3ForNodata : Name → Section → Rtype → Name → (Nsec3State × Option Ede) × Section
  nsec3ForNotExists : Name → Section → Name → (Nsec3NXState × Option Ede) × Section
  nsecForNxdomain : Name → Section → Name → (NsecNXState × Option Ede) × Section
  nsec3ForNxdomain : Name → Section → Name → (Nsec3NXState × Option Ede) × Section

/-- The message as `validate_msg` reads it: response code, question section, and
the answer and authority sections (`none` where a section or record fails to
parse). -/
structure Msg where
  rcode : OptRcode
  questions : List (Option (Name × Nat × Rtype))
  answer : Option (List (Option Record))
  authority : Option (List (Option Record))
  deriving DecidableEq, Repr

/-- Modelled from the spec (the utility module is not in src/): a secure result
is downgraded to the state of the CNAME/DNAME chain, any other result stands. -/
def mapMaybeSecure (result maybeSecure : ValidationState) : ValidationState :=
  if result = .secure then maybeSecure else result

/-- `GroupSet::add` over the records of a section; a failed record or `add` is an
error. -/
def Env.addRecords (E : Env) : GroupSet → List (Option Record) → Outcome GroupSet
  | gs, [] => .ok gs
  | _, none :: _ => .err .parse
  | gs, some r :: rrs =>
    match E.groupAdd gs r with
    | some gs => E.addRecords gs rrs
    | none => .err .parse

def Env.groupSectionOf (E : Env) : Option (List (Option Record)) → Outcome GroupSet
  | none => .err .parse
  | some rrs => E.addRecords [] rrs

/-- `validate_groups`: the first bogus group ends the loop with its EDE. -/
def validateGroups (M : MsgEnv) : GroupSet → Outcome (Except (Option Ede) Section)
  | [] => .ok (.ok [])
  | g :: gs =>
    match M.validateWithVc g with
    | none => .panic
    | some (state, signerName, wildcard, ede) =>
      if state = .bogus then .ok (.error ede)
      else
        validateGroups M gs >>= fun r =>
        .ok (r.map fun vgs => ⟨g, state, signerName, wildcard, ede⟩ :: vgs)

/-- The single question of the message: none is a `FormError`, a second one too,
once the first has parsed. -/
def singleQuestion : List (Option (Name × Nat × Rtype)) → Outcome (Name × Nat × Rtype)
  | [] => .err .formError
  | none :: _ => .err .parse
  | some q :: rest => if rest.isEmpty then .ok q else .err .formError

/-- The NOERROR answer: `next` when `get_answer_state` finds none. -/
def positiveAnswer (M : MsgEnv) (sname : Name) (qclass : Nat) (qtype : Rtype)
    (maybeSecure : ValidationState) (answers authorities : Section) :
    Step Section (ValidationState × Option Ede) :=
  match M.getAnswerState sname qclass qtype answers with
  | (none, _) => .next authorities
  | (some (state, signerName, closestEncloser, ede), _) =>
    if state ≠ .secure then .done (mapMaybeSecure state maybeSecure, ede)
    else
      match closestEncloser with
      | none => .done (mapMaybeSecure state maybeSecure, ede)
      | some ce =>
        match M.starClosestEncloser ce with
        | none => .done (.bogus, makeEde ExtendedErrorCode.dnssecBogus "cannot create wildcard record")
        | some starName =>
          if sname = starName then .done (mapMaybeSecure state maybeSecure, ede)
          else
            match M.checkNotExistsForWildcard sname authorities signerName ce with
            | ((check, state, ede), _) =>
              if check then .done (mapMaybeSecure state maybeSecure, ede) else .done (.bogus, ede)

/-- The SOA of the authority section: its signer when secure, otherwise the
verdict. -/
def soaSigner (M : MsgEnv) (sname : Name) (qclass : Nat) (authorities : Section) :
    Except (ValidationState × Option Ede) (Name × Section) :=
  match M.getSoaState sname qclass authorities with
  | ((none, ede), _) =>
    .error (.bogus,
      match ede with
      | some ede => some ede
      | none => makeEde ExtendedErrorCode.dnssecBogus "Missing SOA record for NODATA or NXDOMAIN")
  | ((some (state, signerName), ede), authorities) =>
    if state = .secure then .ok (signerName, authorities) else .error (state, ede)

/-- The NODATA proofs, tried in order; every `todo!()` is a panic. -/
def noDataProof (M : MsgEnv) (sname : Name) (qtype : Rtype) (signerName : Name)
    (maybeSecure : ValidationState) (authorities : Section) : Outcome (ValidationState × Option Ede) :=
  match M.nsecForNodata sname authorities qtype signerName with
  | ((.noData, _), _) => .ok (mapMaybeSecure .secure maybeSecure, none)
  | ((.nothing, _), authorities) =>
  match M.nsecForNodataWildcard sname authorities qtype signerName with
  | ((.noData, ede), _) => .ok (mapMaybeSecure .secure maybeSecure, ede)
  | ((.nothing, _), authorities) =>
  match M.nsec3ForNodata sname authorities qtype signerName with
  | ((.noData, _), _) => .ok (mapMaybeSecure .secure maybeSecure, none)
  | ((.noDataInsecure, _), _) | ((.bogus, _), _) => .panic
  | ((.nothing, _), authorities) =>
  match M.nsec3ForNotExists sname authorities signerName with
  | ((.doesNotExistInsecure _, ede), _) => .ok (.insecure, ede)
  | ((.bogus, ede), _) => .ok (.bogus, ede)
  | ((.insecure, _), _) | ((.nothing, _), _) => .panic
  | ((.doesNotExist ce, _), authorities) =>
  match M.starClosestEncloser ce with
  | none => .ok (.bogus, makeEde ExtendedErrorCode.dnssecBogus "cannot create wildcard record")
  | some starName =>
  match M.nsec3ForNodata starName authorities qtype signerName with
  | ((.noData, _), _) => .ok (mapMaybeSecure .secure maybeSecure, none)
  | _ => .panic

/-- The NXDOMAIN proofs: NSEC, then NSEC3, then bogus. -/
def nxDomainProof (M : MsgEnv) (sname signerName : Name) (maybeSecure : ValidationState)
    (authorities : Section) : Outcome (ValidationState × Option Ede) :=
  match M.nsecForNxdomain sname authorities signerName with
  | ((.exists, ede), _) => .ok (.bogus, ede)
  | ((.doesNotExist _, ede), _) => .ok (mapMaybeSecure .secure maybeSecure, ede)
  | ((.nothing, _), authorities) =>
  match M.nsec3ForNxdomain sname authorities signerName with
  | ((.doesNotExist _, _), _) => .ok (mapMaybeSecure .secure maybeSecure, none)
  | ((.doesNotExistInsecure _, ede), _) => .ok (.insecure, ede)
  | ((.bogus, ede), _) => .ok (.bogus, ede)
  | ((.insecure, _), _) => .panic
  | ((.nothing, ede), _) =>
    .ok (.bogus,
      if ede.isNone then makeEde ExtendedErrorCode.dnssecBogus "No NEC/NSEC3 proof for non-existance"
      else ede)

def validateMsg (E : Env) (M : MsgEnv) (msg : Msg) : Outcome (ValidationState × Option Ede) :=
  E.groupSectionOf msg.answer >>= fun answers =>
  E.groupSectionOf msg.authority >>= fun authorities =>
  validateGroups M (M.removeRedundantCnames answers) >>= fun answers =>
  match answers with
  | .error ede => .ok (.bogus, ede)
  | .ok answers =>
  validateGroups M authorities >>= fun authorities =>
  match authorities with
  | .error ede => .ok (.bogus, ede)
  | .ok authorities =>
  singleQuestion msg.questions >>= fun (qname, qclass, qtype) =>
  match M.doCnameDname qname qclass qtype answers authorities with
  | ((sname, state, ede), answers, authorities) =>
  let maybeSecure := mapMaybeSecure state .secure
  if maybeSecure = .bogus then .ok (maybeSecure, ede)
  else
    let afterAnswer : Step Section (ValidationState × Option Ede) :=
      if msg.rcode = OptRcode.noerror then
        positiveAnswer M sname qclass qtype maybeSecure answers authorities
      else .next authorities
    match afterAnswer with
    | .done r => .ok r
    | .next authorities =>
    match soaSigner M sname qclass authorities with
    | .error r => .ok r
    | .ok (signerName, authorities) =>
    if msg.rcode = OptRcode.noerror then noDataProof M sname qtype signerName maybeSecure authorities
    else nxDomainProof M sname signerName maybeSecure authorities

theorem validateMsg_rcode_ne_noerror (E : Env) (M : MsgEnv) (msg : Msg)
    (h : msg.rcode ≠ OptRcode.noerror) :
    validateMsg E M msg = validateMsg E M { msg with rcode := OptRcode.nxdomain } := by
  have hnx : OptRcode.nxdomain ≠ OptRcode.noerror := by decide
  simp only [validateMsg, h, hnx, if_false]

/-- Collaborators that see a secure chain, a secure SOA and an NSEC proof that
the name does not exist, and no other proof. -/
def nxDomainByNsec : MsgEnv where
  validateWithVc := fun _ => some (.secure, [], none, none)
  removeRedundantCnames := id
  doCnameDname := fun qname _ _ answers authorities => ((qname, .secure, none), answers, authorities)
  getAnswerState := fun _ _ _ answers => (none, answers)
  starClosestEncloser := some
  checkNotExistsForWildcard := fun _ authorities _ _ => ((false, .bogus, none), authorities)
  getSoaState := fun _ _ authorities => ((some (.secure, []), none), authorities)
  nsecForNodata := fun _ authorities _ _ => ((.nothing, none), authorities)
  nsecForNodataWildcard := fun _ authorities _ _ => ((.nothing, none), authorities)
  nsec3ForNodata := fun _ authorities _ _ => ((.nothing, none), authorities)
  nsec3ForNotExists := fun _ authorities _ => ((.nothing, none), authorities)
  nsecForNxdomain := fun _ authorities _ => ((.doesNotExist [], none), authorities)
  nsec3ForNxdomain := fun _ authorities _ => ((.nothing, none), authorities)

/-- Every response code other than NOERROR takes the NXDOMAIN path, so a
SERVFAIL reply to a single question is validated as Secure on the strength of an
NSEC proof that the name does not exist. -/
theorem validateMsg_servfail_secure :
    (∀ E M (msg : Msg), msg.rcode ≠ OptRcode.noerror →
      validateMsg E M msg = validateMsg E M { msg with rcode := OptRcode.nxdomain }) ∧
    ∀ E, validateMsg E nxDomainByNsec
      ⟨OptRcode.servfail, [some ([[1]], 1, Rtype.soa)], some [], some []⟩ = .ok (.secure, none) :=
  ⟨validateMsg_rcode_ne_noerror, fun _ => rfl⟩

/-- A reply without a question whose answer holds one record, a group that
`validate_with_vc` finds bogus: `validate_msg` reports Bogus instead of
`FormError`, since the groups are validated before the question is read. -/
theorem validateMsg_no_question_bogus :
    singleQuestion [] = .err .formError ∧
      validateMsg TestZone.env { nxDomainByNsec with validateWithVc := fun _ => some (.bogus, [], none, none) }
        ⟨OptRcode.noerror, [], some [some (TestZone.keyRr TestZone.ex)], some []⟩ = .ok (.bogus, none) :=
  ⟨rfl, rfl⟩

@[simp] theorem mapMaybeSecure_eq_secure {r m : ValidationState} :
    mapMaybeSecure r m = .secure ↔ r = .secure ∧ m = .secure := by
  unfold mapMaybeSecure
  split_ifs with h <;> simp [h]

/-- A section validated group by group: the verdicts of `validate_with_vc`, in
order, none of them bogus. -/
def SectionValidated (M : MsgEnv) (gs : GroupSet) (vgs : Section) : Prop :=
  vgs.map ValidatedGroup.group = gs ∧
    ∀ v ∈ vgs, M.validateWithVc v.group = some (v.state, v.signerName, v.wildcard, v.ede) ∧
      v.state ≠ .bogus

theorem validateGroups_eq_ok {M : MsgEnv} :
    ∀ {gs : GroupSet} {vgs : Section}, validateGroups M gs = .ok (.ok vgs) → SectionValidated M gs vgs
  | [], vgs, h => by
    cases h
    exact ⟨rfl, nofun⟩
  | g :: gs, vgs, h => by
    unfold validateGroups at h
    split at h
    · cases h
    rename_i state signerName wildcard ede hv
    split_ifs at h with hb
    · cases h
    obtain ⟨r, hr, h⟩ := Outcome.bind_eq_ok.mp h
    rcases r with _ | vgs'
    · cases h
    cases h
    obtain ⟨hmap, hall⟩ := validateGroups_eq_ok hr
    refine ⟨by simp [Except.map, hmap], fun v hv' => ?_⟩
    rcases List.mem_cons.mp hv' with rfl | hv'
    · exact ⟨hv, hb⟩
    · exact hall v hv'

/-- What a secure positive answer rests on: `get_answer_state` found a secure
answer that is no wildcard expansion, or the expansion of the wildcard name
itself, or one whose non-existence check passed secure. -/
def SecureAnswer (M : MsgEnv) (sname : Name) (qclass : Nat) (qtype : Rtype)
    (answers authorities : Section) : Prop :=
  ∃ signerName closestEncloser ede rest,
    M.getAnswerState sname qclass qtype answers =
      (some (.secure, signerName, closestEncloser, ede), rest) ∧
    ∀ ce, closestEncloser = some ce → ∃ starName, M.starClosestEncloser ce = some starName ∧
      (sname = starName ∨ ∃ ede' rest',
        M.checkNotExistsForWildcard sname authorities signerName ce = ((true, .secure, ede'), rest'))

theorem done_mapMaybeSecure {σ : Type} {r m : ValidationState} {e ede : Option Ede}
    (h : (Step.done (mapMaybeSecure r m, e) : Step σ _) = .done (.secure, ede)) :
    r = .secure ∧ m = .secure :=
  mapMaybeSecure_eq_secure.mp (Prod.mk.inj (Step.done.inj h)).1

theorem positiveAnswer_eq_done {M : MsgEnv} {sname : Name} {qclass : Nat} {qtype : Rtype}
    {maybeSecure : ValidationState} {answers authorities : Section} {ede : Option Ede}
    (h : positiveAnswer M sname qclass qtype maybeSecure answers authorities = .done (.secure, ede)) :
    maybeSecure = .secure ∧ SecureAnswer M sname qclass qtype answers authorities := by
  unfold positiveAnswer at h
  split at h
  · cases h
  rename_i state signerName ce ede0 rest ha
  split_ifs at h with hs
  · exact absurd (done_mapMaybeSecure h).1 hs
  obtain rfl : state = .secure := not_not.mp hs
  split at h
  · exact ⟨(done_mapMaybeSecure h).2, signerName, none, ede0, rest, ha, nofun⟩
  rename_i ce
  split at h
  · cases h
  rename_i starName hstar
  split_ifs at h with hname
  · exact ⟨(done_mapMaybeSecure h).2, signerName, some ce, ede0, rest, ha, by
      rintro _ ⟨⟩; exact ⟨starName, hstar, .inl hname⟩⟩
  rcases hc : M.checkNotExistsForWildcard sname authorities signerName ce with
    ⟨⟨check, state', ede'⟩, rest'⟩
  rw [hc] at h
  dsimp only at h
  split_ifs at h with hcheck
  · obtain ⟨rfl, hms⟩ := done_mapMaybeSecure h
    exact ⟨hms, signerName, some ce, ede0, rest, ha, by
      rintro _ ⟨⟩; exact ⟨starName, hstar, .inr ⟨ede', rest', hcheck ▸ hc⟩⟩⟩
  · cases h

theorem positiveAnswer_eq_next {M : MsgEnv} {sname : Name} {qclass : Nat} {qtype : Rtype}
    {maybeSecure : ValidationState} {answers authorities authorities' : Section}
    (h : positiveAnswer M sname qclass qtype maybeSecure answers authorities = .next authorities') :
    (M.getAnswerState sname qclass qtype answers).1 = none ∧ authorities' = authorities := by
  unfold positiveAnswer at h
  split at h
  · rename_i ha
    cases h
    simp [ha]
  split_ifs at h
  split at h
  · cases h
  split at h
  · cases h
  split_ifs at h
  split at h
  split_ifs at h

theorem soaSigner_eq_ok {M : MsgEnv} {sname : Name} {qclass : Nat}
    {authorities authorities' : Section} {signerName : Name}
    (h : soaSigner M sname qclass authorities = .ok (signerName, authorities')) :
    ∃ ede, M.getSoaState sname qclass authorities = ((some (.secure, signerName), ede), authorities') := by
  unfold soaSigner at h
  split at h
  · cases h
  rename_i state signer ede rest hsoa
  split_ifs at h with hs
  cases h
  exact ⟨ede, hs ▸ hsoa⟩

theorem soaSigner_error_ne_secure {M : MsgEnv} {sname : Name} {qclass : Nat}
    {authorities : Section} {r : ValidationState × Option Ede}
    (h : soaSigner M sname qclass authorities = .error r) : r.1 ≠ .secure := by
  unfold soaSigner at h
  split at h
  · cases h
    nofun
  split_ifs at h with hs
  cases h
  exact hs

theorem ok_mapMaybeSecure {r m : ValidationState} {e ede : Option Ede}
    (h : (Outcome.ok (mapMaybeSecure r m, e)) = .ok (.secure, ede)) : r = .secure ∧ m = .secure :=
  mapMaybeSecure_eq_secure.mp (Prod.mk.inj (Outcome.ok.inj h)).1

/-- The NODATA proofs behind a secure verdict, each tried on the authority
section the one before left: NSEC NODATA, NSEC wildcard NODATA, NSEC3 NODATA,
or NSEC3 non-existence of the name followed by NSEC3 NODATA at its wildcard. -/
def SecureNoData (M : MsgEnv) (sname : Name) (qtype : Rtype) (signerName : Name)
    (authorities : Section) : Prop :=
  (∃ e a, M.nsecForNodata sname authorities qtype signerName = ((.noData, e), a)) ∨
  ∃ e1 a1, M.nsecForNodata sname authorities qtype signerName = ((.nothing, e1), a1) ∧
  ((∃ e a, M.nsecForNodataWildcard sname a1 qtype signerName = ((.noData, e), a)) ∨
  ∃ e2 a2, M.nsecForNodataWildcard sname a1 qtype signerName = ((.nothing, e2), a2) ∧
  ((∃ e a, M.nsec3ForNodata sname a2 qtype signerName = ((.noData, e), a)) ∨
  ∃ e3 a3, M.nsec3ForNodata sname a2 qtype signerName = ((.nothing, e3), a3) ∧
  ∃ ce e4 a4 starName, M.nsec3ForNotExists sname a3 signerName = ((.doesNotExist ce, e4), a4) ∧
    M.starClosestEncloser ce = some starName ∧
    ∃ e a, M.nsec3ForNodata starName a4 qtype signerName = ((.noData, e), a)))

theorem noDataProof_secure {M : MsgEnv} {sname : Name} {qtype : Rtype} {signerName : Name}
    {maybeSecure : ValidationState} {authorities : Section} {ede : Option Ede}
    (h : noDataProof M sname qtype signerName maybeSecure authorities = .ok (.secure, ede)) :
    maybeSecure = .secure ∧ SecureNoData M sname qtype signerName authorities := by
  unfold noDataProof at h
  split at h
  · rename_i e a h1
    exact ⟨(ok_mapMaybeSecure h).2, .inl ⟨e, a, h1⟩⟩
  rename_i e1 a1 h1
  split at h
  · rename_i e a h2
    exact ⟨(ok_mapMaybeSecure h).2, .inr ⟨e1, a1, h1, .inl ⟨e, a, h2⟩⟩⟩
  rename_i e2 a2 h2
  split at h
  · rename_i e a h3
    exact ⟨(ok_mapMaybeSecure h).2, .inr ⟨e1, a1, h1, .inr ⟨e2, a2, h2, .inl ⟨e, a, h3⟩⟩⟩⟩
  · cases h
  · cases h
  rename_i e3 a3 h3
  split at h
  · cases h
  · cases h
  · cases h
  · cases h
  rename_i ce e4 a4 h4
  split at h
  · cases h
  rename_i starName hstar
  split at h
  · rename_i e a h5
    exact ⟨(ok_mapMaybeSecure h).2, .inr ⟨e1, a1, h1, .inr ⟨e2, a2, h2, .inr ⟨e3, a3, h3, ce, e4,
      a4, starName, h4, hstar, e, a, h5⟩⟩⟩⟩
  · cases h

/-- The proofs of non-existence behind a secure verdict: NSEC, or, finding no
NSEC proof, NSEC3 on the authority section the NSEC lookup left. -/
def SecureNxDomain (M : MsgEnv) (sname signerName : Name) (authorities : Section) : Prop :=
  (∃ ce e a, M.nsecForNxdomain sname authorities signerName = ((.doesNotExist ce, e), a)) ∨
  ∃ e1 a1, M.nsecForNxdomain sname authorities signerName = ((.nothing, e1), a1) ∧
    ∃ ce e a, M.nsec3ForNxdomain sname a1 signerName = ((.doesNotExist ce, e), a)

theorem nxDomainProof_secure {M : MsgEnv} {sname signerName : Name}
    {maybeSecure : ValidationState} {authorities : Section} {ede : Option Ede}
    (h : nxDomainProof M sname signerName maybeSecure authorities = .ok (.secure, ede)) :
    maybeSecure = .secure ∧ SecureNxDomain M sname signerName authorities := by
  unfold nxDomainProof at h
  split at h
  · cases h
  · rename_i ce e a h1
    exact ⟨(ok_mapMaybeSecure h).2, .inl ⟨ce, e, a, h1⟩⟩
  rename_i e1 a1 h1
  split at h
  · rename_i ce e a h2
    exact ⟨(ok_mapMaybeSecure h).2, .inr ⟨e1, a1, h1, ce, e, a, h2⟩⟩
  all_goals cases h

/-- What a Secure verdict of `validate_msg` rests on. Both sections group and
validate with no bogus group, the question is single, and the CNAME/DNAME chain
is secure. Then either the response code is NOERROR and the answer is secure; or
it is NOERROR, no answer is found, the SOA is secure and a NODATA proof holds; or
it is any other code, the SOA is secure and an NSEC or NSEC3 proof of
non-existence holds. -/
def SecureVerdictBasis (E : Env) (M : MsgEnv) (msg : Msg) : Prop :=
  ∃ answers authorities vAnswers vAuthorities qname qclass qtype sname cnameEde answers'
    authorities',
    E.groupSectionOf msg.answer = .ok answers ∧ E.groupSectionOf msg.authority = .ok authorities ∧
    SectionValidated M (M.removeRedundantCnames answers) vAnswers ∧
    SectionValidated M authorities vAuthorities ∧
    singleQuestion msg.questions = .ok (qname, qclass, qtype) ∧
    M.doCnameDname qname qclass qtype vAnswers vAuthorities =
      ((sname, .secure, cnameEde), answers', authorities') ∧
    (msg.rcode = OptRcode.noerror ∧ SecureAnswer M sname qclass qtype answers' authorities' ∨
      msg.rcode = OptRcode.noerror ∧ (M.getAnswerState sname qclass qtype answers').1 = none ∧
        (∃ signerName soaEde authorities'',
          M.getSoaState sname qclass authorities' =
            ((some (.secure, signerName), soaEde), authorities'') ∧
          SecureNoData M sname qtype signerName authorities'') ∨
      msg.rcode ≠ OptRcode.noerror ∧
        ∃ signerName soaEde authorities'',
          M.getSoaState sname qclass authorities' =
            ((some (.secure, signerName), soaEde), authorities'') ∧
          SecureNxDomain M sname signerName authorities'')

/-- For every message and whatever the collaborators answer, a Secure verdict of
`validate_msg` rests on `SecureVerdictBasis`. -/
theorem validateMsg_secure_requires {E : Env} {M : MsgEnv} {msg : Msg} {ede : Option Ede}
    (h : validateMsg E M msg = .ok (.secure, ede)) : SecureVerdictBasis E M msg := by
  unfold validateMsg at h
  obtain ⟨answers, ha, h⟩ := Outcome.bind_eq_ok.mp h
  obtain ⟨authorities, hau, h⟩ := Outcome.bind_eq_ok.mp h
  obtain ⟨va, hva, h⟩ := Outcome.bind_eq_ok.mp h
  rcases va with _ | vAnswers
  · cases h
  obtain ⟨vu, hvu, h⟩ := Outcome.bind_eq_ok.mp h
  rcases vu with _ | vAuthorities
  · cases h
  obtain ⟨⟨qname, qclass, qtype⟩, hq, h⟩ := Outcome.bind_eq_ok.mp h
  rcases hc : M.doCnameDname qname qclass qtype vAnswers vAuthorities with
    ⟨⟨sname, state, cnameEde⟩, answers', authorities'⟩
  simp only [hc] at h
  split_ifs at h with hb hr
  · exact absurd (Prod.mk.inj (Outcome.ok.inj h)).1 (by rw [hb]; nofun)
  all_goals refine ⟨answers, authorities, vAnswers, vAuthorities, qname, qclass, qtype, sname,
    cnameEde, answers', authorities', ha, hau, validateGroups_eq_ok hva, validateGroups_eq_ok hvu,
    hq, ?_⟩
  · -- NOERROR: a positive answer, or no answer and a NODATA proof
    split at h
    · rename_i r hpa
      cases h
      obtain ⟨hms, hans⟩ := positiveAnswer_eq_done hpa
      obtain ⟨rfl, -⟩ := mapMaybeSecure_eq_secure.mp hms
      exact ⟨hc, .inl ⟨hr, hans⟩⟩
    rename_i a hpa
    obtain ⟨hnone, rfl⟩ := positiveAnswer_eq_next hpa
    split at h
    · rename_i r hsoa
      cases h
      exact absurd rfl (soaSigner_error_ne_secure hsoa)
    rename_i signerName a hsoa
    obtain ⟨soaEde, hsoa⟩ := soaSigner_eq_ok hsoa
    obtain ⟨hms, hnd⟩ := noDataProof_secure h
    obtain ⟨rfl, -⟩ := mapMaybeSecure_eq_secure.mp hms
    exact ⟨hc, .inr (.inl ⟨hr, hnone, signerName, soaEde, a, hsoa, hnd⟩)⟩
  · -- any other response code: a proof of non-existence
    split at h
    · rename_i hnext
      cases hnext
    rename_i a hnext
    cases hnext
    split at h
    · rename_i r hsoa
      cases h
      exact absurd rfl (soaSigner_error_ne_secure hsoa)
    rename_i signerName a hsoa
    obtain ⟨soaEde, hsoa⟩ := soaSigner_eq_ok hsoa
    obtain ⟨hms, hnx⟩ := nxDomainProof_secure h
    obtain ⟨rfl, -⟩ := mapMaybeSecure_eq_secure.mp hms
    exact ⟨hc, .inr (.inr ⟨hr, signerName, soaEde, a, hsoa, hnx⟩)⟩

theorem validateMsg_secure_requires_nxdomain :
    validateMsg TestZone.env nxDomainByNsec
        ⟨OptRcode.nxdomain, [some ([[1]], 1, Rtype.soa)], some [], some []⟩ = .ok (.secure, none) ∧
      SecureVerdictBasis TestZone.env nxDomainByNsec
        ⟨OptRcode.nxdomain, [some ([[1]], 1, Rtype.soa)], some [], some []⟩ :=
  have h : validateMsg TestZone.env nxDomainByNsec
      ⟨OptRcode.nxdomain, [some ([[1]], 1, Rtype.soa)], some [], some []⟩ = .ok (.secure, none) := rfl
  ⟨h, validateMsg_secure_requires h⟩

end Domain.Validator
