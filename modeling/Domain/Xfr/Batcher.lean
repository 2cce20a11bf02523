import Mathlib.Logic.Relation
import Domain.Base.Iana

/-! The `RrBatcher` of the XFR middleware. A response under construction is
reduced to its push limit and its answer section; pushing fails once header,
question and answers would exceed the limit. -/

namespace Domain.Xfr

/-- One answer record as the batcher pushes it. The class is the same for every
record of a transfer and is left out. -/
structure Rr (N D : Type) where
  owner : N
  ttl : Nat
  data : D
  deriving DecidableEq, Repr

/-- The sizes the message builder works with: the bytes taken by header and
question, the push limit of a builder nobody limited, and each record's length. -/
structure Composer (N D : Type) where
  questionLen : Nat
  defaultLimit : Nat
  rrLen : Rr N D → Nat

structure AnswerBuilder (N D : Type) where
  limit : Nat
  answers : List (Rr N D)
  deriving DecidableEq, Repr

variable {N D : Type}

def AnswerBuilder.ancount (a : AnswerBuilder N D) : Nat := a.answers.length

def AnswerBuilder.len (c : Composer N D) (a : AnswerBuilder N D) : Nat :=
  c.questionLen + (a.answers.map c.rrLen).foldl (· + ·) 0

/-- `start_answer` on a fresh builder whose push limit is `limit`. -/
def startAnswer (c : Composer N D) (limit : Nat) : Except Unit (AnswerBuilder N D) :=
  if c.questionLen ≤ limit then .ok ⟨limit, []⟩ else .error ()

def AnswerBuilder.push (c : Composer N D) (a : AnswerBuilder N D) (r : Rr N D) :
    Except Unit (AnswerBuilder N D) :=
  if a.len c + c.rrLen r ≤ a.limit then .ok { a with answers := a.answers ++ [r] } else .error ()

inductive PushResult (N D : Type)
  | pushedAndReadyForMore
  | pushedAndLimitReached (a : AnswerBuilder N D)
  | notPushedMessageFull (a : AnswerBuilder N D)
  deriving DecidableEq, Repr

structure RrBatcher (N D : Type) where
  hardRrLimit : Option Nat
  softByteLimit : Option Nat
  answer : Option (Except Unit (AnswerBuilder N D))

def RrBatcher.new : RrBatcher N D := ⟨none, none, none⟩

def RrBatcher.setHardRrLimit (b : RrBatcher N D) (rrLimit : Nat) : RrBatcher N D :=
  { b with hardRrLimit := some rrLimit }

def RrBatcher.setSoftByteLimit (b : RrBatcher N D) (byteLimit : Nat) : RrBatcher N D :=
  { b with softByteLimit := some byteLimit }

def RrBatcher.push (c : Composer N D) (b : RrBatcher N D) (r : Rr N D) :
    RrBatcher N D × Except Unit (PushResult N D) :=
  match b.answer.getD (startAnswer c (b.softByteLimit.getD c.defaultLimit)) with
  | .error e => ({ b with answer := none }, .error e)
  | .ok a =>
    match a.push c r with
    | .ok a' =>
      if some a'.ancount = b.hardRrLimit then
        ({ b with answer := none }, .ok (.pushedAndLimitReached a'))
      else ({ b with answer := some (.ok a') }, .ok .pushedAndReadyForMore)
    | .error e =>
      if 0 < a.ancount then ({ b with answer := none }, .ok (.notPushedMessageFull a))
      else ({ b with answer := none }, .error e)

def RrBatcher.take (b : RrBatcher N D) : RrBatcher N D × Option (AnswerBuilder N D) :=
  ({ b with answer := none }, b.answer.bind Except.toOption)

def RrBatcher.pending (b : RrBatcher N D) : List (Rr N D) :=
  match b.answer with
  | some (.ok a) => a.answers
  | _ => []

structure Rrset (D : Type) where
  rtype : Rtype
  ttl : Nat
  data : List D
  deriving DecidableEq, Repr

inductive ForExit (N D : Type)
  | completed
  | breakInner (a : AnswerBuilder N D)
  | pushError
  deriving DecidableEq, Repr

/-- The `for rr in records_to_process` loop shared by the AXFR and IXFR batching
tasks: push each record with the given owner and TTL, counting the records pushed,
until a response is handed back or pushing fails. -/
def pushRecords (c : Composer N D) (owner : N) (ttl : Nat) :
    RrBatcher N D → Nat → List D → RrBatcher N D × Nat × ForExit N D
  | b, n, [] => (b, n, .completed)
  | b, n, d :: ds =>
    match b.push c ⟨owner, ttl, d⟩ with
    | (b', .ok .pushedAndReadyForMore) => pushRecords c owner ttl b' (n + 1) ds
    | (b', .ok (.pushedAndLimitReached a)) => (b', n + 1, .breakInner a)
    | (b', .ok (.notPushedMessageFull a)) => (b', n, .breakInner a)
    | (b', .error _) => (b', n, .pushError)

@[simp] theorem RrBatcher.push_hardRrLimit (c : Composer N D) (b : RrBatcher N D) (r : Rr N D) :
    (b.push c r).1.hardRrLimit = b.hardRrLimit := by
  unfold RrBatcher.push; split <;> (try split) <;> (try split) <;> rfl

@[simp] theorem RrBatcher.push_softByteLimit (c : Composer N D) (b : RrBatcher N D) (r : Rr N D) :
    (b.push c r).1.softByteLimit = b.softByteLimit := by
  unfold RrBatcher.push; split <;> (try split) <;> (try split) <;> rfl

@[simp] theorem RrBatcher.take_pending (b : RrBatcher N D) : b.take.1.pending = [] := rfl

@[simp] theorem RrBatcher.take_hardRrLimit (b : RrBatcher N D) :
    b.take.1.hardRrLimit = b.hardRrLimit := rfl

@[simp] theorem RrBatcher.take_softByteLimit (b : RrBatcher N D) :
    b.take.1.softByteLimit = b.softByteLimit := rfl

theorem startAnswer_eq_ok {c : Composer N D} {limit : Nat} {a : AnswerBuilder N D}
    (h : startAnswer c limit = .ok a) : a = ⟨limit, []⟩ ∧ a.len c ≤ a.limit := by
  unfold startAnswer at h
  split_ifs at h with hq
  cases h
  exact ⟨rfl, by simpa [AnswerBuilder.len] using hq⟩

theorem AnswerBuilder.push_eq_ok {c : Composer N D} {a a' : AnswerBuilder N D} {r : Rr N D}
    (h : a.push c r = .ok a') : a' = { a with answers := a.answers ++ [r] } ∧ a'.len c ≤ a'.limit := by
  unfold AnswerBuilder.push at h
  split_ifs at h with hl
  cases h
  exact ⟨rfl, by simpa [AnswerBuilder.len, Nat.add_assoc] using hl⟩

theorem RrBatcher.started_eq_ok {c : Composer N D} {b : RrBatcher N D} {limit : Nat}
    {a : AnswerBuilder N D} (h : b.answer.getD (startAnswer c limit) = .ok a) :
    a.answers = b.pending ∧
      (b.answer = some (.ok a) ∨ b.answer = none ∧ a.limit = limit ∧ a.len c ≤ a.limit) := by
  unfold RrBatcher.pending
  rcases hb : b.answer with _ | (_ | a0)
  · rw [hb, Option.getD_none] at h
    obtain ⟨rfl, hl⟩ := startAnswer_eq_ok h
    exact ⟨rfl, .inr ⟨rfl, rfl, hl⟩⟩
  · rw [hb, Option.getD_some] at h
    cases h
  · rw [hb, Option.getD_some] at h
    cases h
    exact ⟨rfl, .inl rfl⟩

/-- What one push does. It works on the held builder or a fresh one at the byte
limit, and either keeps it with the record added, hands it back with the record
added once the hard RR limit is reached, hands back a non-empty one without the
record when the record does not fit, or fails with nothing pending. -/
theorem RrBatcher.push_cases {c : Composer N D} {b b' : RrBatcher N D} {r : Rr N D}
    {res : Except Unit (PushResult N D)} (h : b.push c r = (b', res)) :
    b'.hardRrLimit = b.hardRrLimit ∧ b'.softByteLimit = b.softByteLimit ∧
      ((∃ a, b.answer.getD (startAnswer c (b.softByteLimit.getD c.defaultLimit)) = .ok a ∧
          ∃ a', a.push c r = .ok a' ∧
            (some a'.ancount ≠ b.hardRrLimit ∧ res = .ok .pushedAndReadyForMore ∧
                b'.answer = some (.ok a') ∨
              some a'.ancount = b.hardRrLimit ∧ res = .ok (.pushedAndLimitReached a') ∧
                b'.answer = none)) ∨
        (∃ a, b.answer.getD (startAnswer c (b.softByteLimit.getD c.defaultLimit)) = .ok a ∧
          a.push c r = .error () ∧ 0 < a.ancount ∧ res = .ok (.notPushedMessageFull a) ∧
          b'.answer = none) ∨
        res = .error () ∧ b'.answer = none ∧ b.pending = []) := by
  unfold RrBatcher.push at h
  split at h
  · rename_i hs
    cases h
    refine ⟨rfl, rfl, .inr (.inr ⟨rfl, rfl, ?_⟩)⟩
    unfold RrBatcher.pending
    rcases hb : b.answer with _ | (_ | a)
    · rfl
    · rfl
    · simp [hb] at hs
  rename_i a hs
  split at h
  · rename_i a' hp
    split_ifs at h with hk <;> cases h
    · exact ⟨rfl, rfl, .inl ⟨a, hs, a', hp, .inr ⟨hk, rfl, rfl⟩⟩⟩
    · exact ⟨rfl, rfl, .inl ⟨a, hs, a', hp, .inl ⟨hk, rfl, rfl⟩⟩⟩
  · rename_i hp
    split_ifs at h with h0 <;> cases h
    · exact ⟨rfl, rfl, .inr (.inl ⟨a, hs, hp, h0, rfl, rfl⟩)⟩
    · refine ⟨rfl, rfl, .inr (.inr ⟨rfl, rfl, ?_⟩)⟩
      rw [← (RrBatcher.started_eq_ok hs).1]
      exact List.length_eq_zero.mp (Nat.eq_zero_of_not_pos h0)

theorem RrBatcher.push_pending (c : Composer N D) (b : RrBatcher N D) (r : Rr N D) :
    match b.push c r with
    | (b', .ok .pushedAndReadyForMore) => b'.pending = b.pending ++ [r]
    | (b', .ok (.pushedAndLimitReached a)) => a.answers = b.pending ++ [r] ∧ b'.pending = []
    | (b', .ok (.notPushedMessageFull a)) => a.answers = b.pending ∧ b'.pending = []
    | (b', .error _) => b.pending = [] ∧ b'.pending = [] := by
  rcases hp : b.push c r with ⟨b', res⟩
  obtain ⟨-, -, ⟨a, hs, a', hpush, hkept⟩ | ⟨a, hs, -, -, rfl, hb'⟩ | ⟨rfl, hb', hb⟩⟩ :=
    RrBatcher.push_cases hp
  · rw [← (RrBatcher.started_eq_ok hs).1]
    rcases hkept with ⟨-, rfl, hb'⟩ | ⟨-, rfl, hb'⟩ <;>
      simp [RrBatcher.pending, hb', (AnswerBuilder.push_eq_ok hpush).1]
  · rw [← (RrBatcher.started_eq_ok hs).1]
    simp [RrBatcher.pending, hb']
  · exact ⟨hb, by simp [RrBatcher.pending, hb']⟩

/-- The `for rr in records_to_process` loop loses no record: it stops after the
first `k` records, which follow the records pending before in the response it
hands back, or stay pending when the loop completes, and `k` is what it adds to
the count. A push error leaves nothing pending and happens only at the first
record, on a batcher with nothing pending. -/
theorem pushRecords_keeps_records {c : Composer N D} {owner : N} {ttl : Nat} :
    ∀ {ds : List D} {b b' : RrBatcher N D} {n n' : Nat} {ex : ForExit N D},
      pushRecords c owner ttl b n ds = (b', n', ex) →
      ∃ k ≤ ds.length, n' = n + k ∧
        (ex = .completed ∧ k = ds.length ∧
            b'.pending = b.pending ++ (ds.take k).map (Rr.mk owner ttl) ∨
          (∃ a, ex = .breakInner a ∧ a.answers = b.pending ++ (ds.take k).map (Rr.mk owner ttl) ∧
            b'.pending = []) ∨
          ex = .pushError ∧ k = 0 ∧ b.pending = [] ∧ b'.pending = [])
  | [], b, b', n, n', ex, h => by
    cases h
    exact ⟨0, le_rfl, rfl, .inl ⟨rfl, rfl, by simp⟩⟩
  | d :: ds, b, b', n, n', ex, h => by
    have hk := RrBatcher.push_pending c b ⟨owner, ttl, d⟩
    unfold pushRecords at h
    rcases hp : b.push c ⟨owner, ttl, d⟩ with ⟨b1, _ | (_ | a | a)⟩ <;> rw [hp] at h hk <;>
      dsimp only at h hk
    · cases h
      exact ⟨0, Nat.zero_le _, rfl, .inr (.inr ⟨rfl, rfl, hk⟩)⟩
    · obtain ⟨k, hle, rfl, hex⟩ := pushRecords_keeps_records h
      refine ⟨k + 1, Nat.succ_le_succ hle, by omega, ?_⟩
      rw [hk] at hex
      simp only [List.take_succ_cons, List.map_cons, List.append_assoc, List.singleton_append]
        at hex ⊢
      rcases hex with ⟨hc, rfl, hpend⟩ | ⟨a, ha, hans, hpend⟩ | ⟨-, -, hnil, -⟩
      · exact .inl ⟨hc, rfl, hpend⟩
      · exact .inr (.inl ⟨a, ha, hans, hpend⟩)
      · simp at hnil
    · cases h
      exact ⟨1, by simp, rfl, .inr (.inl ⟨a, rfl, by simpa using hk.1, hk.2⟩)⟩
    · cases h
      exact ⟨0, Nat.zero_le _, rfl, .inr (.inl ⟨a, rfl, by simpa using hk.1, hk.2⟩)⟩

theorem pushRecords_keeps_records_full :
    let c : Composer Nat Nat := ⟨12, 40, fun _ => 10⟩
    let b : RrBatcher Nat Nat := RrBatcher.new
    let a : AnswerBuilder Nat Nat := ⟨40, [⟨0, 300, 1⟩, ⟨0, 300, 2⟩]⟩
    pushRecords c 0 300 b 0 [1, 2, 3] = (b, 2, .breakInner a) ∧
      ∃ k ≤ [1, 2, 3].length, 2 = 0 + k ∧
        (ForExit.breakInner a = .completed ∧ k = [1, 2, 3].length ∧
            b.pending = b.pending ++ ([1, 2, 3].take k).map (Rr.mk 0 300) ∨
          (∃ a', ForExit.breakInner a = .breakInner a' ∧
            a'.answers = b.pending ++ ([1, 2, 3].take k).map (Rr.mk 0 300) ∧ b.pending = []) ∨
          ForExit.breakInner a = .pushError ∧ k = 0 ∧ b.pending = [] ∧ b.pending = []) :=
  have h : pushRecords (⟨12, 40, fun _ => 10⟩ : Composer Nat Nat) 0 300 RrBatcher.new 0 [1, 2, 3] =
      (RrBatcher.new, 2, .breakInner ⟨40, [⟨0, 300, 1⟩, ⟨0, 300, 2⟩]⟩) := rfl
  ⟨h, pushRecords_keeps_records h⟩

/-- A response within a batcher's limits: its push limit is the batcher's byte
limit (the builder's default when none was set), header, question and answers
fit in it, and it holds at most the hard RR limit of records. -/
def RrBatcher.Fits (c : Composer N D) (b : RrBatcher N D) (a : AnswerBuilder N D) : Prop :=
  a.limit = b.softByteLimit.getD c.defaultLimit ∧ a.len c ≤ a.limit ∧
    ∀ k, b.hardRrLimit = some k → a.ancount ≤ k

/-- The invariant of a batcher in use: its hard RR limit, if any, is positive, and
a response it holds is within its limits and below the hard RR limit. -/
def RrBatcher.Inv (c : Composer N D) (b : RrBatcher N D) : Prop :=
  (∀ k, b.hardRrLimit = some k → 0 < k) ∧
    ∀ a, b.answer = some (.ok a) → b.Fits c a ∧ some a.ancount ≠ b.hardRrLimit

/-- What the batching tasks do with a batcher once its limits are set: push a
record, or take the response it holds. -/
inductive RrBatcher.Step (c : Composer N D) : RrBatcher N D → RrBatcher N D → Prop
  | push (b : RrBatcher N D) (r : Rr N D) : RrBatcher.Step c b (b.push c r).1
  | take (b : RrBatcher N D) : RrBatcher.Step c b b.take.1

section Limits

variable {c : Composer N D} {b b' : RrBatcher N D} {a : AnswerBuilder N D}

theorem RrBatcher.Fits.of_limits (hk : b'.hardRrLimit = b.hardRrLimit)
    (hs : b'.softByteLimit = b.softByteLimit) (hf : b.Fits c a) : b'.Fits c a := by
  unfold RrBatcher.Fits at *
  rwa [hk, hs]

theorem RrBatcher.Inv.of_none (hk : ∀ k, b.hardRrLimit = some k → 0 < k) (h : b.answer = none) :
    b.Inv c :=
  ⟨hk, fun _ ha => by simp [h] at ha⟩

theorem RrBatcher.Inv.started (hinv : b.Inv c)
    (hs : b.answer.getD (startAnswer c (b.softByteLimit.getD c.defaultLimit)) = .ok a) :
    b.Fits c a ∧ ∀ k, b.hardRrLimit = some k → a.ancount < k := by
  rcases (RrBatcher.started_eq_ok hs).2 with hb | ⟨hb, hl, hlen⟩
  · obtain ⟨hf, hne⟩ := hinv.2 a hb
    exact ⟨hf, fun k hk => lt_of_le_of_ne (hf.2.2 k hk) fun he => hne (by rw [hk, he])⟩
  · have h0 : a.ancount = 0 := by
      simp [AnswerBuilder.ancount, (RrBatcher.started_eq_ok hs).1, RrBatcher.pending, hb]
    exact ⟨⟨hl, hlen, fun _ _ => h0 ▸ Nat.zero_le _⟩, fun k hk => h0 ▸ hinv.1 k hk⟩

theorem RrBatcher.Fits.push {a' : AnswerBuilder N D} {r : Rr N D} (hf : b.Fits c a)
    (hlt : ∀ k, b.hardRrLimit = some k → a.ancount < k) (hp : a.push c r = .ok a') :
    b.Fits c a' := by
  obtain ⟨rfl, hlen⟩ := AnswerBuilder.push_eq_ok hp
  refine ⟨hf.1, hlen, fun k hk => ?_⟩
  have := hlt k hk
  simp only [AnswerBuilder.ancount, List.length_append, List.length_singleton] at this ⊢
  omega

theorem RrBatcher.Inv.push {r : Rr N D} {res : Except Unit (PushResult N D)} (hinv : b.Inv c)
    (h : b.push c r = (b', res)) :
    b'.Inv c ∧ ∀ a, res = .ok (.pushedAndLimitReached a) ∨ res = .ok (.notPushedMessageFull a) →
      b.Fits c a := by
  obtain ⟨hk, hs, hcases⟩ := RrBatcher.push_cases h
  have hpos : ∀ k, b'.hardRrLimit = some k → 0 < k := hk ▸ hinv.1
  rcases hcases with ⟨a, hst, a', hp, ⟨hne, rfl, hb'⟩ | ⟨-, rfl, hb'⟩⟩ | ⟨a, hst, -, -, rfl, hb'⟩ |
    ⟨rfl, hb', -⟩
  · obtain ⟨hf, hlt⟩ := hinv.started hst
    refine ⟨⟨hpos, fun a'' ha'' => ?_⟩, fun _ h => by rcases h with h | h <;> cases h⟩
    cases hb' ▸ ha''
    exact ⟨(hf.push hlt hp).of_limits hk hs, hk ▸ hne⟩
  · obtain ⟨hf, hlt⟩ := hinv.started hst
    refine ⟨.of_none hpos hb', fun _ h => ?_⟩
    rcases h with h | h <;> cases h
    exact hf.push hlt hp
  · refine ⟨.of_none hpos hb', fun _ h => ?_⟩
    rcases h with h | h <;> cases h
    exact (hinv.started hst).1
  · exact ⟨.of_none hpos hb', fun _ h => by rcases h with h | h <;> cases h⟩

theorem RrBatcher.Inv.take (hinv : b.Inv c) :
    b.take.1.Inv c ∧ ∀ a, b.take.2 = some a → b.Fits c a := by
  refine ⟨.of_none hinv.1 rfl, fun a h => ?_⟩
  rcases hb : b.answer with _ | (_ | a0) <;>
    simp only [RrBatcher.take, hb, Option.none_bind, Option.some_bind, Except.toOption] at h <;>
    cases h
  exact (hinv.2 a hb).1

theorem RrBatcher.Step.inv (hs : RrBatcher.Step c b b') (hinv : b.Inv c) :
    b'.Inv c ∧ b'.hardRrLimit = b.hardRrLimit ∧ b'.softByteLimit = b.softByteLimit := by
  cases hs with
  | push r => exact ⟨(hinv.push rfl).1, by simp, by simp⟩
  | take => exact ⟨hinv.take.1, rfl, rfl⟩

end Limits

/-- From a batcher holding no response, with a positive hard RR limit if any,
every run of pushes and takes keeps each response the batcher hands back, from a
push or a take, within the limits set: the byte limit, and the hard RR limit of
records. -/
theorem RrBatcher.responses_within_limits {c : Composer N D} {b0 b : RrBatcher N D}
    (h0 : b0.answer = none) (hk : ∀ k, b0.hardRrLimit = some k → 0 < k)
    (hrun : Relation.ReflTransGen (RrBatcher.Step c) b0 b) :
    (∀ r a, (b.push c r).2 = .ok (.pushedAndLimitReached a) ∨
        (b.push c r).2 = .ok (.notPushedMessageFull a) → b0.Fits c a) ∧
      ∀ a, b.take.2 = some a → b0.Fits c a := by
  have hreach : b.Inv c ∧ b.hardRrLimit = b0.hardRrLimit ∧ b.softByteLimit = b0.softByteLimit := by
    induction hrun with
    | refl => exact ⟨.of_none hk h0, rfl, rfl⟩
    | tail _ hs ih =>
      obtain ⟨hinv, hk', hs'⟩ := hs.inv ih.1
      exact ⟨hinv, hk'.trans ih.2.1, hs'.trans ih.2.2⟩
  obtain ⟨hinv, hk', hs'⟩ := hreach
  exact ⟨fun r a ha => ((hinv.push rfl).2 a ha).of_limits hk'.symm hs'.symm,
    fun a ha => (hinv.take.2 a ha).of_limits hk'.symm hs'.symm⟩

theorem RrBatcher.responses_within_limits_compat :
    let c : Composer Nat Nat := ⟨12, 65535, fun _ => 16⟩
    let b0 : RrBatcher Nat Nat := (RrBatcher.new.setHardRrLimit 1).setSoftByteLimit 512
    b0.answer = none ∧ (∀ k, b0.hardRrLimit = some k → 0 < k) ∧
      (∀ r a, (b0.push c r).2 = .ok (.pushedAndLimitReached a) ∨
          (b0.push c r).2 = .ok (.notPushedMessageFull a) → b0.Fits c a) ∧
        ∀ a, b0.take.2 = some a → b0.Fits c a :=
  have hk : ∀ k, ((RrBatcher.new.setHardRrLimit 1).setSoftByteLimit 512 :
      RrBatcher Nat Nat).hardRrLimit = some k → 0 < k := fun _ h => by cases h; decide
  ⟨rfl, hk, RrBatcher.responses_within_limits rfl hk .refl⟩

end Domain.Xfr
