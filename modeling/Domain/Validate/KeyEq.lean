import Mathlib.Data.Nat.Digits
import Domain.Validate.PublicKey

/-! `PartialEq` for the public keys of `validate`. An RSA key compares its
modulus and its exponent after their leading zero bytes, which is equality of
the big-endian integers they denote; the other keys compare their bytes, and
keys of two algorithms are never equal. So `PartialEq` is an equivalence
relation, as `Eq` asks of it. -/

namespace Domain.Validate

/-- `cmp_without_leading` of `PartialEq for RsaPublicKey`: each byte string from
its first nonzero byte (`position(..).unwrap_or(len)` is `findIdx`), equal when
the lengths agree (`verify_slices_are_equal` is equality, in constant time). -/
def cmpWithoutLeading (a b : List UInt8) : Bool :=
  let a := a.drop (a.findIdx (· != 0))
  let b := b.drop (b.findIdx (· != 0))
  if a.length = b.length then a == b else false

def RsaPublicKey.eq (self other : RsaPublicKey) : Bool :=
  cmpWithoutLeading self.n other.n && cmpWithoutLeading self.e other.e

/-- `PartialEq for RawPublicKey`: the same algorithm and equal keys, the
fixed-size ones by `verify_slices_are_equal`. -/
def RawPublicKey.eq : RawPublicKey → RawPublicKey → Bool
  | .rsaSha1 a, .rsaSha1 b | .rsaSha1Nsec3Sha1 a, .rsaSha1Nsec3Sha1 b
  | .rsaSha256 a, .rsaSha256 b | .rsaSha512 a, .rsaSha512 b => a.eq b
  | .ecdsaP256Sha256 a, .ecdsaP256Sha256 b => a.val == b.val
  | .ecdsaP384Sha384 a, .ecdsaP384Sha384 b => a.val == b.val
  | .ed25519 a, .ed25519 b => a.val == b.val
  | .ed448 a, .ed448 b => a.val == b.val
  | _, _ => false

def beValue (a : List UInt8) : Nat := Nat.ofDigits 256 (a.reverse.map UInt8.toNat)

theorem drop_findIdx (a : List UInt8) : a.drop (a.findIdx (· != 0)) = a.dropWhile (· == 0) := by
  induction a with
  | nil => rfl
  | cons x xs ih =>
    by_cases hx : x = 0
    · simp [List.findIdx_cons, List.dropWhile_cons, hx, ih]
    · simp [List.findIdx_cons, List.dropWhile_cons, hx, bne_iff_ne.mpr hx]

theorem beValue_cons_zero (xs : List UInt8) : beValue (0 :: xs) = beValue xs := by
  simp [beValue, Nat.ofDigits_append]

theorem beValue_dropWhile (a : List UInt8) : beValue (a.dropWhile (· == 0)) = beValue a := by
  induction a with
  | nil => rfl
  | cons x xs ih =>
    by_cases hx : x = 0
    · subst hx
      rw [List.dropWhile_cons, if_pos (beq_self_eq_true _), ih, beValue_cons_zero]
    · simp [List.dropWhile_cons, hx]

theorem digits_beValue {a : List UInt8} (ha : ∀ h : a ≠ [], a.head h ≠ 0) :
    Nat.digits 256 (beValue a) = a.reverse.map UInt8.toNat := by
  refine Nat.digits_ofDigits _ (by norm_num) _ (fun l hl => ?_) (fun h => ?_)
  · obtain ⟨b, -, rfl⟩ := List.mem_map.mp hl
    exact b.toNat_lt_size
  · rw [List.getLast_map, List.getLast_reverse]
    exact fun h0 => ha _ (UInt8.toNat.inj h0)

theorem cmpWithoutLeading_iff (a b : List UInt8) :
    cmpWithoutLeading a b = true ↔ beValue a = beValue b := by
  have hz : ∀ c : List UInt8, ∀ h : c.dropWhile (· == 0) ≠ [], (c.dropWhile (· == 0)).head h ≠ 0 :=
    fun c h => by simpa using List.head_dropWhile_not (· == 0) c h
  simp only [cmpWithoutLeading, drop_findIdx]
  rw [← beValue_dropWhile a, ← beValue_dropWhile b]
  constructor
  · intro h
    split_ifs at h
    exact congrArg beValue (beq_iff_eq.mp h)
  · intro h
    have := congrArg (Nat.digits 256) h
    rw [digits_beValue (hz a), digits_beValue (hz b)] at this
    have hab := List.reverse_injective
      (List.map_injective_iff.mpr (fun _ _ => UInt8.toNat.inj) this)
    simp [hab]

namespace RawPublicKey

/-- What `PartialEq` compares of a key: its algorithm, and the integers of an RSA
key or the bytes of another. -/
def compared : RawPublicKey → Nat × ((Nat × Nat) ⊕ List UInt8)
  | .rsaSha1 k => (SecAlg.rsasha1, .inl (beValue k.n, beValue k.e))
  | .rsaSha1Nsec3Sha1 k => (SecAlg.rsasha1Nsec3Sha1, .inl (beValue k.n, beValue k.e))
  | .rsaSha256 k => (SecAlg.rsasha256, .inl (beValue k.n, beValue k.e))
  | .rsaSha512 k => (SecAlg.rsasha512, .inl (beValue k.n, beValue k.e))
  | .ecdsaP256Sha256 k => (SecAlg.ecdsap256sha256, .inr k.val)
  | .ecdsaP384Sha384 k => (SecAlg.ecdsap384sha384, .inr k.val)
  | .ed25519 k => (SecAlg.ed25519, .inr k.val)
  | .ed448 k => (SecAlg.ed448, .inr k.val)

theorem compared_fst (k : RawPublicKey) : k.compared.1 = k.algorithm := by
  cases k <;> rfl

theorem rsaEq_iff (k k' : RsaPublicKey) :
    k.eq k' = true ↔ beValue k.n = beValue k'.n ∧ beValue k.e = beValue k'.e := by
  rw [RsaPublicKey.eq, Bool.and_eq_true, cmpWithoutLeading_iff, cmpWithoutLeading_iff]

theorem eq_iff_compared (a b : RawPublicKey) : a.eq b = true ↔ a.compared = b.compared := by
  cases a <;> cases b <;>
    simp [eq, compared, rsaEq_iff, SecAlg.rsasha1, SecAlg.rsasha1Nsec3Sha1, SecAlg.rsasha256,
      SecAlg.rsasha512, SecAlg.ecdsap256sha256, SecAlg.ecdsap384sha384, SecAlg.ed25519,
      SecAlg.ed448, Subtype.ext_iff]

/-- Two RSA keys are equal exactly when their moduli and their exponents are
equal as big-endian integers, leading zero bytes aside; equal keys have the
same algorithm; and `PartialEq` is reflexive, symmetric and transitive. -/
theorem publicKey_eq_equivalence :
    (∀ k k' : RsaPublicKey,
        k.eq k' = true ↔ beValue k.n = beValue k'.n ∧ beValue k.e = beValue k'.e) ∧
      (∀ a b : RawPublicKey, a.eq b = true → a.algorithm = b.algorithm) ∧
      Equivalence fun a b : RawPublicKey => a.eq b = true := by
  refine ⟨rsaEq_iff, fun a b h => ?_, ⟨fun a => ?_, fun h => ?_, fun h h' => ?_⟩⟩
  · rw [← compared_fst, ← compared_fst, (eq_iff_compared a b).mp h]
  · exact (eq_iff_compared a a).mpr rfl
  · exact (eq_iff_compared _ _).mpr ((eq_iff_compared _ _).mp h).symm
  · exact (eq_iff_compared _ _).mpr
      (((eq_iff_compared _ _).mp h).trans ((eq_iff_compared _ _).mp h'))

end RawPublicKey

end Domain.Validate
