import Domain.Xfr.Axfr

/-! The batching task of `compute_ixfr`. It sends the current zone SOA, then for
each diff the deleted and the added RRsets found under the queried name (each
section led by its SOA), then the zone SOA again. Every record is pushed with
the queried name as its owner. -/

namespace Domain.Xfr

variable {N D : Type} [DecidableEq N]

structure ZoneDiff (N D : Type) where
  removed : List (N × List (Rrset D))
  added : List (N × List (Rrset D))
  deriving DecidableEq, Repr

/-- The iterators built for one section of a diff: its SOA RRset, then its other
RRsets. `none` stands for the `unwrap` of a missing SOA. -/
def sectionRrsets (rrsets : List (Rrset D)) : Option (List (Rrset D)) :=
  (rrsets.find? fun r => r.rtype = Rtype.soa).map fun soa =>
    soa :: rrsets.filter fun r => r.rtype ≠ Rtype.soa

/-- The RRsets of one difference sequence, from the entries of `removed` and
`added` under `qname`; `none` stands for a failing `unwrap`. -/
def diffRrsets (qname : N) (diff : ZoneDiff N D) : Option (List (Rrset D)) := do
  let deleted ← diff.removed.lookup qname
  let added ← diff.added.lookup qname
  let deleted ← sectionRrsets deleted
  let added ← sectionRrsets added
  pure (deleted ++ added)

/-- The RRsets the `flat_map` yields before it panics, if it does. -/
def diffSequences (qname : N) : List (ZoneDiff N D) → List (Rrset D) × Bool
  | [] => ([], false)
  | diff :: diffs =>
    match diffRrsets qname diff with
    | none => ([], true)
    | some rrsets =>
      let rest := diffSequences qname diffs
      (rrsets ++ rest.1, rest.2)

/-- The `'outer`/`'inner` loops for one RRset, `fuel` bounding the passes of the
`'inner` loop. After a response is handed back the loop starts over from the same
`records_to_process`. Returns the batcher, what was sent, and whether the loops
were left (`false`: out of fuel). -/
def ixfrRrsetLoop (c : Composer N D) (owner : N) (rrset : Rrset D) :
    Nat → RrBatcher N D → List D → Nat → RrBatcher N D × List (Sent N D) × Bool
  | 0, b, _, _ => (b, [], false)
  | fuel + 1, b, records, n =>
    match pushRecords c owner rrset.ttl b n records with
    | (b, n, .breakInner a) =>
      let rest := ixfrRrsetLoop c owner rrset fuel b records n
      (rest.1, .answer a.answers :: rest.2.1, rest.2.2)
    | (b, _, .pushError) => (b, [.servfail], true)
    | (b, n, .completed) =>
      if n < rrset.data.length then ixfrRrsetLoop c owner rrset fuel b (rrset.data.drop n) n
      else (b, [], true)

def ixfrRrsetsLoop (c : Composer N D) (owner : N) (fuel : Nat) :
    RrBatcher N D → List (Rrset D) → RrBatcher N D × List (Sent N D) × Bool
  | b, [] => (b, [], true)
  | b, rrset :: rrsets =>
    match ixfrRrsetLoop c owner rrset fuel b rrset.data 0 with
    | (b, sent, true) =>
      let rest := ixfrRrsetsLoop c owner fuel b rrsets
      (rest.1, sent ++ rest.2.1, rest.2.2)
    | (b, sent, false) => (b, sent, false)

/-- The background task of `compute_ixfr` for the question name `qname`. The
batcher has no limits of its own. -/
def computeIxfrTask (c : Composer N D) (qname : N) (zoneSoaRrset : Rrset D)
    (diffs : List (ZoneDiff N D)) (fuel : Nat) : List (Sent N D) × Finish :=
  let seq := diffSequences qname diffs
  let rrsets := zoneSoaRrset :: seq.1 ++ (if seq.2 then [] else [zoneSoaRrset])
  match ixfrRrsetsLoop c qname fuel RrBatcher.new rrsets with
  | (_, sent, false) => (sent, .outOfFuel)
  | (b, sent, true) =>
    if seq.2 then (sent, .panic)
    else (sent ++ (b.take.2.map fun a => Sent.answer a.answers).toList, .endTransaction)

/-- One section of a difference sequence as RFC 1995 lays it out: the section's
SOA under the zone apex, then every other RRset under its own owner. -/
def sectionAnswers (apex : N) (sec : List (N × List (Rrset D))) : List (Rr N D) :=
  (((sec.lookup apex).getD []).filter fun r => r.rtype = Rtype.soa).flatMap (·.rrs apex) ++
    sec.flatMap fun x => (x.2.filter fun r => r.rtype ≠ Rtype.soa).flatMap (·.rrs x.1)

def ixfrAnswers (apex : N) (zoneSoa : Rrset D) (diffs : List (ZoneDiff N D)) : List (Rr N D) :=
  zoneSoa.rrs apex ++
    diffs.flatMap (fun d => sectionAnswers apex d.removed ++ sectionAnswers apex d.added) ++
    zoneSoa.rrs apex

/-- A diff that also changes a record below the apex: the task ends normally, but
only the apex entries are read and the change at owner `1` is never sent. -/
theorem computeIxfrTask_drops_non_apex_rr :
    let diffs : List (ZoneDiff Nat Nat) :=
      [⟨[(0, [⟨Rtype.soa, 3600, [10]⟩]), (1, [⟨⟨1⟩, 300, [5]⟩])],
        [(0, [⟨Rtype.soa, 3600, [11]⟩]), (1, [⟨⟨1⟩, 300, [6]⟩])]⟩]
    let run := computeIxfrTask (⟨0, 65535, fun _ => 1⟩ : Composer Nat Nat) 0
      ⟨Rtype.soa, 3600, [11]⟩ diffs 2
    run = ([.answer [⟨0, 3600, 11⟩, ⟨0, 3600, 10⟩, ⟨0, 3600, 11⟩, ⟨0, 3600, 11⟩]],
      .endTransaction) ∧
    (⟨1, 300, 5⟩ : Rr Nat Nat) ∈ ixfrAnswers 0 ⟨Rtype.soa, 3600, [11]⟩ diffs ∧
    (⟨1, 300, 5⟩ : Rr Nat Nat) ∉ Sent.answers run.1 := by
  decide

end Domain.Xfr
