import Domain.Xfr.Batcher

/-! The batching task of `do_axfr`. It receives `(owner, rrset)` pairs from the
zone walker over a channel, packs their records into responses and sends the
responses into the result stream. The channel contents are the zone SOA, the
walked non-SOA RRsets and the zone SOA again; the loop ends when it has seen the
SOA twice. -/

namespace Domain.Xfr

variable {N D : Type} [DecidableEq D]

/-- The local variables of the batching loop. `zoneSoaRrset` is the variable the
outer loop fetches into; `currentRrset` is the one the inner loop fetches into and
whose TTL and records the loop reads. -/
structure AxfrState (N D : Type) where
  owner : N
  zoneSoaRrset : Rrset D
  currentRrset : Rrset D
  recordsToProcess : List D
  soaSeenCount : Nat
  numRrsAdded : Nat
  batcher : RrBatcher N D

/-- How the `'inner` loop ends: with a response to send (`break 'inner`), by
`break 'outer` after a push error, or by the `unwrap` of a receive on a closed
channel. -/
inductive InnerExit (N D : Type)
  | send (a : Option (AnswerBuilder N D))
  | breakOuter
  | panic
  deriving DecidableEq, Repr

inductive Sent (N D : Type)
  | answer (rrs : List (Rr N D))
  | servfail
  deriving DecidableEq, Repr

inductive Finish
  | endTransaction
  | panic
  | outOfFuel
  deriving DecidableEq, Repr

/-- The body of the `'inner` loop up to its receive: count an SOA sighting, push
the pending records, and stop on a break or, after the second SOA, with the
batcher's last response. `none` means the loop goes on to receive. -/
def axfrInnerBody (c : Composer N D) (saved : List D) (s : AxfrState N D) :
    AxfrState N D × Option (InnerExit N D) :=
  let seen := if s.recordsToProcess = saved then s.soaSeenCount + 1 else s.soaSeenCount
  let (b, n, ex) :=
    pushRecords c s.owner s.currentRrset.ttl s.batcher s.numRrsAdded s.recordsToProcess
  let s := { s with soaSeenCount := seen, batcher := b, numRrsAdded := n }
  match ex with
  | .breakInner a => (s, some (.send (some a)))
  | .pushError => (s, some .breakOuter)
  | .completed =>
    if seen = 2 then ({ s with batcher := b.take.1 }, some (.send b.take.2)) else (s, none)

/-- The `'inner` loop. Each receive goes into `owner` and `currentRrset`. -/
def axfrInnerLoop (c : Composer N D) (saved : List D) :
    List (N × Rrset D) → AxfrState N D → AxfrState N D × List (N × Rrset D) × InnerExit N D
  | q, s =>
    match axfrInnerBody c saved s, q with
    | (s', some ex), q => (s', q, ex)
    | (s', none), [] => (s', [], .panic)
    | (s', none), (o, r) :: q' =>
      axfrInnerLoop c saved q' { s' with owner := o, currentRrset := r, recordsToProcess := r.data }

/-- Where one pass of the `'outer` loop leaves the task: looping on with the
channel rest and the variables, or finished; either way with what it sent. -/
inductive AxfrNext (N D : Type)
  | loop (q : List (N × Rrset D)) (s : AxfrState N D) (sent : List (Sent N D))
  | finish (sent : List (Sent N D)) (fin : Finish)

/-- One pass of the `'outer` loop. After sending, records left over are re-read
from `currentRrset` at offset `numRrsAdded`; otherwise the next RRset is received
into `zoneSoaRrset`. -/
def axfrOuterStep (c : Composer N D) (saved : List D) (q : List (N × Rrset D))
    (s : AxfrState N D) : AxfrNext N D :=
  match axfrInnerLoop c saved q { s with numRrsAdded := 0 } with
  | (_, _, .panic) => .finish [] .panic
  | (_, _, .breakOuter) => .finish [] .endTransaction
  | (s, q, .send a) =>
    let sent := (a.map fun a => Sent.answer a.answers).toList
    if s.numRrsAdded < s.recordsToProcess.length then
      if s.numRrsAdded ≤ s.currentRrset.data.length then
        .loop q { s with recordsToProcess := s.currentRrset.data.drop s.numRrsAdded } sent
      else .finish sent .panic
    else if s.soaSeenCount = 2 then .finish sent .endTransaction
    else
      match q with
      | [] => .finish (sent ++ [.servfail]) .endTransaction
      | (o, r) :: q => .loop q { s with owner := o, zoneSoaRrset := r, recordsToProcess := r.data } sent

/-- The `'outer` loop, `fuel` bounding its passes; `out` is what the result
stream has received so far. -/
def axfrOuterLoop (c : Composer N D) (saved : List D) :
    Nat → List (N × Rrset D) → AxfrState N D → List (Sent N D) → List (Sent N D) × Finish
  | 0, _, _, out => (out, .outOfFuel)
  | fuel + 1, q, s, out =>
    match axfrOuterStep c saved q s with
    | .loop q s sent => axfrOuterLoop c saved fuel q s (out ++ sent)
    | .finish sent fin => (out ++ sent, fin)

/-- The batching task of `do_axfr` on the channel contents `q`. The first item
must be the SOA (`assert_eq!`); compatibility mode sets a hard limit of one RR. -/
def doAxfrBatcher (c : Composer N D) (compatibilityMode : Bool) (softByteLimit : Nat)
    (fuel : Nat) : List (N × Rrset D) → List (Sent N D) × Finish
  | [] => ([], .panic)
  | (owner, zoneSoaRrset) :: q =>
    if zoneSoaRrset.rtype ≠ Rtype.soa then ([], .panic)
    else
      let b : RrBatcher N D := if compatibilityMode then RrBatcher.new.setHardRrLimit 1 else .new
      axfrOuterLoop c zoneSoaRrset.data fuel q
        ⟨owner, zoneSoaRrset, zoneSoaRrset, zoneSoaRrset.data, 0, 0, b.setSoftByteLimit softByteLimit⟩ []

/-- What the channel carries: the SOA, the walked non-SOA RRsets, the SOA. -/
def axfrChannel (apex : N) (soa : Rrset D) (walk : List (N × Rrset D)) : List (N × Rrset D) :=
  (apex, soa) :: walk.filter (fun x => x.2.rtype ≠ Rtype.soa) ++ [(apex, soa)]

def Rrset.rrs (owner : N) (r : Rrset D) : List (Rr N D) :=
  r.data.map fun d => ⟨owner, r.ttl, d⟩

def axfrAnswers (apex : N) (soa : Rrset D) (walk : List (N × Rrset D)) : List (Rr N D) :=
  soa.rrs apex ++ walk.flatMap (fun x => x.2.rrs x.1) ++ soa.rrs apex

def Sent.answers : List (Sent N D) → List (Rr N D)
  | [] => []
  | .answer rrs :: out => rrs ++ Sent.answers out
  | .servfail :: out => Sent.answers out

theorem axfrOuterLoop_cycle {c : Composer N D} {saved : List D} {q : List (N × Rrset D)}
    {s : AxfrState N D} {sent : List (Sent N D)} (h : axfrOuterStep c saved q s = .loop q s sent)
    (fuel : Nat) (out : List (Sent N D)) : (axfrOuterLoop c saved fuel q s out).2 = .outOfFuel := by
  induction fuel generalizing out with
  | zero => rfl
  | succ fuel ih => simp only [axfrOuterLoop, h, ih]

/-- In compatibility mode the task ends normally, but the second record of a
two-record RRset is never sent and the first goes out with the SOA's TTL: the
RRset was received into `zoneSoaRrset` while the loop reads `currentRrset`. -/
theorem doAxfrBatcher_compat_drops_rr :
    let soa : Rrset Nat := ⟨Rtype.soa, 3600, [0]⟩
    let walk : List (Nat × Rrset Nat) := [(1, ⟨⟨1⟩, 300, [1, 2]⟩)]
    let run := doAxfrBatcher (⟨0, 65535, fun _ => 1⟩ : Composer Nat Nat) true 65535 3
      (axfrChannel 0 soa walk)
    run = ([.answer [⟨0, 3600, 0⟩], .answer [⟨1, 3600, 1⟩], .answer [⟨0, 3600, 0⟩]],
      .endTransaction) ∧ Sent.answers run.1 ≠ axfrAnswers 0 soa walk := by
  decide

/-- With a second, three-record RRset the task never ends: it re-sends the
record at offset one of `currentRrset` on every pass. -/
theorem doAxfrBatcher_compat_never_ends (fuel : Nat) :
    (doAxfrBatcher (⟨0, 65535, fun _ => 1⟩ : Composer Nat Nat) true 65535 fuel
      (axfrChannel 0 ⟨Rtype.soa, 3600, [0]⟩
        [(1, ⟨⟨1⟩, 300, [1, 2]⟩), (2, ⟨⟨1⟩, 300, [3, 4, 5]⟩)])).2 = .outOfFuel := by
  let s : AxfrState Nat Nat := ⟨2, ⟨⟨1⟩, 300, [1, 2]⟩, ⟨⟨1⟩, 300, [3, 4, 5]⟩, [4, 5], 1, 1,
    ⟨some 1, some 65535, none⟩⟩
  have hcycle := @axfrOuterLoop_cycle Nat Nat _ ⟨0, 65535, fun _ => 1⟩ [0]
    [(0, ⟨Rtype.soa, 3600, [0]⟩)] s [.answer [⟨2, 300, 4⟩]] rfl
  match fuel with
  | 0 | 1 | 2 => rfl
  | fuel + 3 => exact hcycle fuel _

end Domain.Xfr
