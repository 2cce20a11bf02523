import Domain.Base.Iana

/-! The data the validation context works with: names, the record data it
inspects, RR groups, nodes, and the outcome of a fallible, possibly panicking
call. Names are kept in canonical (lower) case, so the case-insensitive
comparisons of the source are comparisons of octets here. Time is a tick count;
TTLs and durations are in the same unit. -/

namespace Domain.Validator

abbrev Label := List Nat

/-- A domain name as its labels, leftmost first; the root is `[]`. -/
abbrev Name := List Label

def Name.parent : Name → Option Name
  | [] => none
  | _ :: n => some n

def Name.endsWith (n s : Name) : Bool := s.isSuffixOf n

/-- Lexicographic order of two sequences under an order of their elements; a
sequence that runs out first sorts first. -/
def lexCmp {α : Type} (cmp : α → α → Ordering) : List α → List α → Ordering
  | [], [] => .eq
  | [], _ :: _ => .lt
  | _ :: _, [] => .gt
  | x :: xs, y :: ys => (cmp x y).then (lexCmp cmp xs ys)

def octetCmp (x y : Nat) : Ordering := if x < y then .lt else if y < x then .gt else .eq

/-- The order of labels and of hash octet strings: octet by octet, a proper
prefix first. -/
def Label.cmp : Label → Label → Ordering := lexCmp octetCmp

/-- The canonical order of RFC 4034, Section 6.1 on label sequences: compare
from the rightmost label leftward; a name that runs out first sorts first. -/
def Name.nameCmp (a b : Name) : Ordering :=
  lexCmp Label.cmp a.reverse b.reverse

inductive ValidationState
  | secure
  | insecure
  | bogus
  | indeterminate
  deriving DecidableEq, Repr

structure Ede where
  code : Nat
  text : String
  deriving DecidableEq, Repr

namespace ExtendedErrorCode

def other : Nat := 0
def dnssecIndeterminate : Nat := 5
def dnssecBogus : Nat := 6

end ExtendedErrorCode

def makeEde (code : Nat) (text : String) : Option Ede := some ⟨code, text⟩

structure Dnskey where
  flags : Nat
  protocol : Nat
  algorithm : Nat
  publicKey : List Nat
  deriving DecidableEq, Repr

structure Ds where
  keyTag : Nat
  algorithm : Nat
  digestType : Nat
  digest : List Nat
  deriving DecidableEq, Repr

structure Nsec where
  nextName : Name
  types : List Rtype
  deriving DecidableEq, Repr

structure Nsec3 where
  hashAlgorithm : Nat
  optOut : Bool
  iterations : Nat
  salt : List Nat
  nextOwner : List Nat
  types : List Rtype
  deriving DecidableEq, Repr

/-- An RRSIG as the context reads it: the type it covers, its key tag, and the
rest of its data. -/
structure Rrsig where
  typeCovered : Rtype
  keyTag : Nat
  rdata : List Nat
  deriving DecidableEq, Repr

/-- The record data the context looks into; any other type is `other`. -/
inductive RecordData
  | dnskey (k : Dnskey)
  | ds (d : Ds)
  | cname (target : Name)
  | nsec (n : Nsec)
  | nsec3 (n : Nsec3)
  | rrsig (s : Rrsig)
  | other (rtype : Rtype) (rdata : List Nat)
  deriving DecidableEq, Repr

def RecordData.rtype : RecordData → Rtype
  | .dnskey _ => Rtype.dnskey
  | .ds _ => Rtype.ds
  | .cname _ => Rtype.cname
  | .nsec _ => Rtype.nsec
  | .nsec3 _ => Rtype.nsec3
  | .rrsig _ => Rtype.rrsig
  | .other t _ => t

structure Record where
  owner : Name
  rclass : Nat
  ttl : Nat
  data : RecordData
  deriving DecidableEq, Repr

def Record.rtype (r : Record) : Rtype := r.data.rtype

/-- An RR group of a reply: the records sharing owner, class and type, with the
signatures covering them and the minimum TTL. -/
structure Group where
  owner : Name
  rtype : Rtype
  rrs : List Record
  sigs : List Rrsig
  minTtl : Nat
  deriving DecidableEq, Repr

abbrev GroupSet := List Group

def Group.dnskeys (g : Group) : List Dnskey :=
  g.rrs.filterMap fun r =>
    match r.data with
    | .dnskey k => some k
    | _ => none

/-- The validated signing state at one name (`Node` of the source). -/
structure Node where
  state : ValidationState
  keys : List Dnskey
  signerName : Name
  intermediate : Bool
  ede : Option Ede
  createdAt : Nat
  validFor : Nat
  deriving DecidableEq, Repr

/-- `Node::new_delegation`, created at time `now`. -/
def Node.newDelegation (signerName : Name) (state : ValidationState) (keys : List Dnskey)
    (ede : Option Ede) (validFor now : Nat) : Node :=
  ⟨state, keys, signerName, false, ede, now, validFor⟩

/-- `Node::new_intermediate`; the node's own name is only logged. -/
def Node.newIntermediate (state : ValidationState) (signerName : Name) (ede : Option Ede)
    (validFor now : Nat) : Node :=
  ⟨state, [], signerName, true, ede, now, validFor⟩

def Node.indeterminate (name : Name) (ede : Option Ede) (validFor now : Nat) : Node :=
  ⟨.indeterminate, [], name, false, ede, now, validFor⟩

def Node.expired (n : Node) (now : Nat) : Bool := decide (n.validFor < now - n.createdAt)

inductive Error
  | formError
  | octetsConversion
  | parse
  deriving DecidableEq, Repr

/-- A `for` loop that may leave its function early: `next` carries the loop
variables on, `done` is the function's result. -/
inductive Step (σ α : Type)
  | next (s : σ)
  | done (a : α)
  deriving DecidableEq, Repr

/-- The result of a call that may return `Err` or stop at a panic
(`todo!()`, `panic!`, a failed `unwrap`, `expect` or index, an overflowing
`Duration` subtraction). -/
inductive Outcome (α : Type)
  | ok (a : α)
  | err (e : Error)
  | panic
  deriving DecidableEq, Repr

namespace Outcome

def bind {α β : Type} : Outcome α → (α → Outcome β) → Outcome β
  | .ok a, f => f a
  | .err e, _ => .err e
  | .panic, _ => .panic

instance : Monad Outcome where
  pure := .ok
  bind := bind

@[simp] theorem pure_eq {α : Type} (a : α) : (pure a : Outcome α) = .ok a := rfl

@[simp] theorem ok_bind {α β : Type} (a : α) (f : α → Outcome β) : (Outcome.ok a >>= f) = f a :=
  rfl

@[simp] theorem err_bind {α β : Type} (e : Error) (f : α → Outcome β) :
    (Outcome.err e >>= f) = .err e := rfl

@[simp] theorem panic_bind {α β : Type} (f : α → Outcome β) : (Outcome.panic >>= f) = .panic :=
  rfl

theorem bind_eq_ok {α β : Type} {x : Outcome α} {f : α → Outcome β} {b : β} :
    (x >>= f) = .ok b ↔ ∃ a, x = .ok a ∧ f a = .ok b := by
  cases x <;> simp

theorem bind_congr {α β : Type} {x : Outcome α} {f g : α → Outcome β}
    (h : ∀ a, x = .ok a → f a = g a) : (x >>= f) = (x >>= g) := by
  cases x <;> simp [h]

theorem ite_panic_eq_ok {α : Type} {c : Prop} [Decidable c] {x : Outcome α} {a : α} :
    ((if c then .panic else x) = .ok a) ↔ ¬c ∧ x = .ok a := by
  split <;> simp_all

end Outcome

/-- `Node::ttl` at time `now`: `valid_for - elapsed`, a `Duration` subtraction
that panics when the node has outlived its validity. -/
def Node.ttl (n : Node) (now : Nat) : Outcome Nat :=
  if now - n.createdAt ≤ n.validFor then .ok (n.validFor - (now - n.createdAt)) else .panic

end Domain.Validator
