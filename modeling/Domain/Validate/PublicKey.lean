import Domain.Base.Iana
import Domain.NewName.Label

/-! Public keys of `validate`. `RawPublicKey::from_dnskey` reads the public-key
field of a DNSKEY record for the record's algorithm, and `to_dnskey` writes it
back. An RSA key (RFC 3110) starts with the length of its exponent, in one byte,
or in three when the first is zero; an ECDSA point (RFC 6605) leaves its `0x04`
marker off the wire; an Ed25519 or Ed448 key is its bytes. -/

namespace Domain.Validate

open NewName (toNat_toUInt8)

inductive FromDnskeyError
  | unsupportedAlgorithm
  | unsupportedProtocol
  | invalidKey
  deriving DecidableEq, Repr

def u16FromBeBytes (hi lo : UInt8) : Nat := hi.toNat * 256 + lo.toNat

/-- `u16::to_be_bytes`, of a value below `2^16`. -/
def u16ToBeBytes (x : Nat) : List UInt8 := [(x / 256).toUInt8, (x % 256).toUInt8]

theorem u16FromBeBytes_lt (hi lo : UInt8) : u16FromBeBytes hi lo < 65536 := by
  have := hi.toNat_lt_size
  have := lo.toNat_lt_size
  unfold u16FromBeBytes UInt8.size at *
  omega

theorem u16ToBeBytes_fromBeBytes (hi lo : UInt8) :
    u16ToBeBytes (u16FromBeBytes hi lo) = [hi, lo] := by
  have := hi.toNat_lt_size
  have := lo.toNat_lt_size
  unfold UInt8.size at *
  have hhi : (u16FromBeBytes hi lo / 256).toUInt8.toNat = hi.toNat := by
    rw [toNat_toUInt8] <;> unfold u16FromBeBytes <;> omega
  have hlo : (u16FromBeBytes hi lo % 256).toUInt8.toNat = lo.toNat := by
    rw [toNat_toUInt8] <;> unfold u16FromBeBytes <;> omega
  rw [u16ToBeBytes, UInt8.toNat.inj hhi, UInt8.toNat.inj hlo]

theorem u16FromBeBytes_toBeBytes {x : Nat} (h : x < 65536) :
    u16FromBeBytes (x / 256).toUInt8 (x % 256).toUInt8 = x := by
  rw [u16FromBeBytes, toNat_toUInt8 (by omega), toNat_toUInt8 (by omega)]
  omega

/-- `RsaPublicKey`: the modulus and the exponent, big-endian. -/
structure RsaPublicKey where
  n : List UInt8
  e : List UInt8
  deriving DecidableEq, Repr

namespace RsaPublicKey

/-- The exponent length and the offset of the exponent: the first byte when it
is not zero, else the big-endian `u16` after it when that is not zero. -/
def expLenOff (d0 d1 d2 : UInt8) : Option (Nat × Nat) :=
  if d0.toNat ≠ 0 then some (d0.toNat, 1)
  else if [d1.toNat, d2.toNat] ≠ [0, 0] then some (u16FromBeBytes d1 d2, 3)
  else none

def fromDnskey (data : List UInt8) : Except FromDnskeyError RsaPublicKey :=
  match data with
  | d0 :: d1 :: d2 :: _ =>
    match expLenOff d0 d1 d2 with
    | some (expLen, off) =>
      if expLen ≤ (data.drop off).length then
        .ok { n := data.drop (off + expLen), e := (data.drop off).take expLen }
      else .error .invalidKey
    | none => .error .invalidKey
  | _ => .error .invalidKey

/-- `RsaPublicKey::to_dnskey`; `none` is its `unreachable!` panic, for an
exponent of 64 KiB or more. -/
def toDnskey (k : RsaPublicKey) : Option (List UInt8) :=
  if k.e.length < 256 then some (k.e.length.toUInt8 :: (k.e ++ k.n))
  else if k.e.length < 65536 then some (0 :: u16ToBeBytes k.e.length ++ (k.e ++ k.n))
  else none

theorem expLenOff_eq_some {d0 d1 d2 : UInt8} {expLen off : Nat} :
    expLenOff d0 d1 d2 = some (expLen, off) ↔
      d0.toNat ≠ 0 ∧ expLen = d0.toNat ∧ off = 1 ∨
        d0.toNat = 0 ∧ 0 < expLen ∧ expLen = u16FromBeBytes d1 d2 ∧ off = 3 := by
  have h12 : [d1.toNat, d2.toNat] ≠ [0, 0] ↔ 0 < u16FromBeBytes d1 d2 := by
    simp only [ne_eq, List.cons.injEq, and_true, u16FromBeBytes]
    omega
  simp only [expLenOff, h12]
  split_ifs <;> simp only [Option.some.injEq, Prod.mk.injEq, reduceCtorEq, false_iff] <;> omega

theorem fromDnskey_of_expLenOff {d0 d1 d2 : UInt8} {rest e n : List UInt8} {off : Nat}
    (hoff : expLenOff d0 d1 d2 = some (e.length, off))
    (hdata : (d0 :: d1 :: d2 :: rest).drop off = e ++ n) :
    fromDnskey (d0 :: d1 :: d2 :: rest) = .ok ⟨n, e⟩ := by
  simp only [fromDnskey, hoff, hdata, List.length_append, Nat.le_add_right, if_true,
    List.take_left, ← List.drop_drop, List.drop_left]

theorem fromDnskey_eq_ok {data : List UInt8} {k : RsaPublicKey} :
    fromDnskey data = .ok k ↔ 3 ≤ data.length ∧ 0 < k.e.length ∧
      (k.e.length < 256 ∧ data = k.e.length.toUInt8 :: (k.e ++ k.n) ∨
        k.e.length < 65536 ∧ data = 0 :: u16ToBeBytes k.e.length ++ (k.e ++ k.n)) := by
  constructor
  · intro h
    match data, h with
    | d0 :: d1 :: d2 :: rest, h =>
      rcases hoff : expLenOff d0 d1 d2 with _ | ⟨expLen, off⟩ <;>
        simp only [fromDnskey, hoff, reduceCtorEq] at h
      split_ifs at h with hlen
      cases h
      have hd0 := d0.toNat_lt_size
      rcases expLenOff_eq_some.mp hoff with ⟨h0, rfl, rfl⟩ | ⟨h0, hpos, rfl, rfl⟩
      · simp only [List.drop_one, List.tail_cons] at hlen ⊢
        rw [List.length_take_of_le hlen, ← List.drop_drop, List.drop_one,
          List.tail_cons, List.take_append_drop, UInt8.toNat.inj (toNat_toUInt8 hd0)]
        exact ⟨by simp, by omega, .inl ⟨hd0, rfl⟩⟩
      · simp only [List.drop_succ_cons, List.drop_zero] at hlen ⊢
        rw [List.length_take_of_le hlen, ← List.drop_drop, List.drop_succ_cons,
          List.drop_succ_cons, List.drop_succ_cons, List.drop_zero, List.take_append_drop,
          u16ToBeBytes_fromBeBytes, UInt8.toNat.inj (show d0.toNat = (0 : UInt8).toNat from h0)]
        exact ⟨by simp, hpos, .inr ⟨u16FromBeBytes_lt d1 d2, rfl⟩⟩
  · rintro ⟨h3, hpos, ⟨hlt, rfl⟩ | ⟨hlt, rfl⟩⟩
    · obtain ⟨d1, d2, rest, hr⟩ : ∃ d1 d2 rest, k.e ++ k.n = d1 :: d2 :: rest := by
        match hxs : k.e ++ k.n, h3 with
        | d1 :: d2 :: rest, _ => exact ⟨d1, d2, rest, rfl⟩
        | [], h3 | [_], h3 => simp [hxs] at h3
      rw [hr]
      refine fromDnskey_of_expLenOff (expLenOff_eq_some.mpr (.inl ⟨?_, ?_, rfl⟩)) ?_
      all_goals simp only [toNat_toUInt8 hlt, List.drop_one, List.tail_cons, ← hr]
      omega
    · exact fromDnskey_of_expLenOff (expLenOff_eq_some.mpr
        (.inr ⟨rfl, hpos, (u16FromBeBytes_toBeBytes hlt).symm, rfl⟩)) rfl

/-- Key data that writes its exponent length in three bytes though it is below
256; `to_dnskey` writes such a length in one byte. -/
def expLenOverlong : List UInt8 → Bool
  | d0 :: d1 :: d2 :: _ => decide (d0.toNat = 0 ∧ u16FromBeBytes d1 d2 < 256)
  | _ => false

theorem expLenOverlong_cons {d0 : UInt8} (h : d0.toNat ≠ 0) (rest : List UInt8) :
    expLenOverlong (d0 :: rest) = false := by
  rcases rest with _ | ⟨_, _ | ⟨_, _⟩⟩ <;> simp [expLenOverlong, h]

theorem toDnskey_of_fromDnskey {data : List UInt8} {k : RsaPublicKey}
    (h : fromDnskey data = .ok k) : k.toDnskey = some data ↔ expLenOverlong data = false := by
  obtain ⟨-, hpos, ⟨hlt, rfl⟩ | ⟨hlt, rfl⟩⟩ := fromDnskey_eq_ok.mp h
  · simp only [toDnskey, if_pos hlt, expLenOverlong_cons (by rw [toNat_toUInt8 hlt]; omega)]
  · have hover : expLenOverlong (0 :: u16ToBeBytes k.e.length ++ (k.e ++ k.n)) =
        decide (k.e.length < 256) := by
      simp [expLenOverlong, u16ToBeBytes, u16FromBeBytes_toBeBytes hlt]
    rw [hover, toDnskey]
    split_ifs with hs
    · simp only [Option.some.injEq, hs, decide_True, Bool.true_eq_false, iff_false]
      intro heq
      simpa [u16ToBeBytes] using congrArg List.length heq
    · simp [hs]

def Encodable (k : RsaPublicKey) : Prop :=
  0 < k.e.length ∧ k.e.length < 65536 ∧ k.n ≠ []

theorem fromDnskey_toDnskey {k : RsaPublicKey} (hk : k.Encodable) :
    ∃ data, k.toDnskey = some data ∧ fromDnskey data = .ok k := by
  obtain ⟨hpos, hlt, hn⟩ := hk
  by_cases hs : k.e.length < 256
  · have := List.length_pos.mpr hn
    exact ⟨_, if_pos hs, fromDnskey_eq_ok.mpr ⟨by simp; omega, hpos, .inl ⟨hs, rfl⟩⟩⟩
  · exact ⟨_, by rw [toDnskey, if_neg hs, if_pos hlt],
      fromDnskey_eq_ok.mpr ⟨by simp [u16ToBeBytes], hpos, .inr ⟨hlt, rfl⟩⟩⟩

end RsaPublicKey

/-- `RawPublicKey`; each fixed-size array `[u8; k]` is a list of `k` bytes. -/
inductive RawPublicKey
  | rsaSha1 (k : RsaPublicKey)
  | rsaSha1Nsec3Sha1 (k : RsaPublicKey)
  | rsaSha256 (k : RsaPublicKey)
  | rsaSha512 (k : RsaPublicKey)
  | ecdsaP256Sha256 (k : {b : List UInt8 // b.length = 65})
  | ecdsaP384Sha384 (k : {b : List UInt8 // b.length = 97})
  | ed25519 (k : {b : List UInt8 // b.length = 32})
  | ed448 (k : {b : List UInt8 // b.length = 57})
  deriving DecidableEq, Repr

namespace RawPublicKey

def algorithm : RawPublicKey → Nat
  | .rsaSha1 _ => SecAlg.rsasha1
  | .rsaSha1Nsec3Sha1 _ => SecAlg.rsasha1Nsec3Sha1
  | .rsaSha256 _ => SecAlg.rsasha256
  | .rsaSha512 _ => SecAlg.rsasha512
  | .ecdsaP256Sha256 _ => SecAlg.ecdsap256sha256
  | .ecdsaP384Sha384 _ => SecAlg.ecdsap384sha384
  | .ed25519 _ => SecAlg.ed25519
  | .ed448 _ => SecAlg.ed448

/-- The ECDSA arms of `from_dnskey`: a `[u8; size]` of the `0x04` marker and
`data`, when `data` fills the rest of it. -/
def ecdsaPoint (size : Nat) (data : List UInt8) :
    Except FromDnskeyError {b : List UInt8 // b.length = size} :=
  if h : size = 1 + data.length then .ok ⟨4 :: data, by simp [h, Nat.add_comm]⟩
  else .error .invalidKey

/-- The EdDSA arms of `from_dnskey`: `Box<[u8]>::try_into` a `[u8; size]`. -/
def fixedKey (size : Nat) (data : List UInt8) :
    Except FromDnskeyError {b : List UInt8 // b.length = size} :=
  if h : data.length = size then .ok ⟨data, h⟩ else .error .invalidKey

def fromDnskey (algorithm : Nat) (data : List UInt8) : Except FromDnskeyError RawPublicKey :=
  if algorithm = SecAlg.rsasha1 then (RsaPublicKey.fromDnskey data).map .rsaSha1
  else if algorithm = SecAlg.rsasha1Nsec3Sha1 then
    (RsaPublicKey.fromDnskey data).map .rsaSha1Nsec3Sha1
  else if algorithm = SecAlg.rsasha256 then (RsaPublicKey.fromDnskey data).map .rsaSha256
  else if algorithm = SecAlg.rsasha512 then (RsaPublicKey.fromDnskey data).map .rsaSha512
  else if algorithm = SecAlg.ecdsap256sha256 then (ecdsaPoint 65 data).map .ecdsaP256Sha256
  else if algorithm = SecAlg.ecdsap384sha384 then (ecdsaPoint 97 data).map .ecdsaP384Sha384
  else if algorithm = SecAlg.ed25519 then (fixedKey 32 data).map .ed25519
  else if algorithm = SecAlg.ed448 then (fixedKey 57 data).map .ed448
  else .error .unsupportedAlgorithm

/-- `RawPublicKey::to_dnskey`; `none` is the panic of `RsaPublicKey::to_dnskey`. -/
def toDnskey : RawPublicKey → Option (List UInt8)
  | .rsaSha1 k | .rsaSha1Nsec3Sha1 k | .rsaSha256 k | .rsaSha512 k => k.toDnskey
  | .ecdsaP256Sha256 k => some k.val.tail
  | .ecdsaP384Sha384 k => some k.val.tail
  | .ed25519 k => some k.val
  | .ed448 k => some k.val

def isRsa : RawPublicKey → Bool
  | .rsaSha1 _ | .rsaSha1Nsec3Sha1 _ | .rsaSha256 _ | .rsaSha512 _ => true
  | _ => false

def ReadFrom (data : List UInt8) : RawPublicKey → Prop
  | .rsaSha1 k | .rsaSha1Nsec3Sha1 k | .rsaSha256 k | .rsaSha512 k =>
    RsaPublicKey.fromDnskey data = .ok k
  | .ecdsaP256Sha256 k => k.val = 4 :: data
  | .ecdsaP384Sha384 k => k.val = 4 :: data
  | .ed25519 k => k.val = data
  | .ed448 k => k.val = data

theorem map_eq_ok {α β : Type} {f : α → β} {x : Except FromDnskeyError α} {b : β} :
    x.map f = .ok b ↔ ∃ a, x = .ok a ∧ f a = b := by
  cases x <;> simp [Except.map]

theorem ecdsaPoint_eq_ok {size : Nat} {data : List UInt8} {p : {b : List UInt8 // b.length = size}} :
    ecdsaPoint size data = .ok p ↔ p.val = 4 :: data := by
  unfold ecdsaPoint
  split_ifs with h
  · simp only [Except.ok.injEq, Subtype.ext_iff, eq_comm]
  · simp only [reduceCtorEq, false_iff]
    intro hp
    exact h (by rw [← p.property, hp, List.length_cons, Nat.add_comm])

theorem fixedKey_eq_ok {size : Nat} {data : List UInt8} {p : {b : List UInt8 // b.length = size}} :
    fixedKey size data = .ok p ↔ p.val = data := by
  unfold fixedKey
  split_ifs with h
  · simp only [Except.ok.injEq, Subtype.ext_iff, eq_comm]
  · simp only [reduceCtorEq, false_iff]
    exact fun hp => h (hp ▸ p.property)

theorem fromDnskey_eq_ok {a : Nat} {data : List UInt8} {k : RawPublicKey} :
    fromDnskey a data = .ok k ↔ k.algorithm = a ∧ k.ReadFrom data := by
  constructor
  · intro h
    simp only [fromDnskey, ite_eq_iff] at h
    rcases h with ⟨rfl, h⟩ | ⟨-, ⟨rfl, h⟩ | ⟨-, ⟨rfl, h⟩ | ⟨-, ⟨rfl, h⟩ | ⟨-, ⟨rfl, h⟩ |
      ⟨-, ⟨rfl, h⟩ | ⟨-, ⟨rfl, h⟩ | ⟨-, ⟨rfl, h⟩ | ⟨-, h⟩⟩⟩⟩⟩⟩⟩⟩
    all_goals first
      | cases h
      | obtain ⟨r, hr, rfl⟩ := map_eq_ok.mp h
        exact ⟨rfl, by simpa only [ReadFrom, ecdsaPoint_eq_ok, fixedKey_eq_ok] using hr⟩
  · rintro ⟨rfl, hk⟩
    cases k <;> simp only [ReadFrom] at hk
    case ecdsaP256Sha256 | ecdsaP384Sha384 => exact congrArg (Except.map _) (ecdsaPoint_eq_ok.mpr hk)
    case ed25519 | ed448 => exact congrArg (Except.map _) (fixedKey_eq_ok.mpr hk)
    all_goals exact congrArg (Except.map _) hk

theorem toDnskey_of_fromDnskey {a : Nat} {data : List UInt8} {k : RawPublicKey}
    (h : fromDnskey a data = .ok k) :
    k.toDnskey = some data ↔ (k.isRsa → RsaPublicKey.expLenOverlong data = false) := by
  have hk := (fromDnskey_eq_ok.mp h).2
  cases k <;> simp only [ReadFrom, toDnskey, isRsa] at hk ⊢
  case ecdsaP256Sha256 | ecdsaP384Sha384 | ed25519 | ed448 => simp [hk]
  all_goals simpa using RsaPublicKey.toDnskey_of_fromDnskey hk

/-- The keys `from_dnskey` reads back from what `to_dnskey` writes: RSA keys with
an exponent of 1 to 65535 bytes and a modulus, ECDSA points with the `0x04`
marker, and every EdDSA key. -/
def Encodable : RawPublicKey → Prop
  | .rsaSha1 k | .rsaSha1Nsec3Sha1 k | .rsaSha256 k | .rsaSha512 k => k.Encodable
  | .ecdsaP256Sha256 k => k.val.head? = some 4
  | .ecdsaP384Sha384 k => k.val.head? = some 4
  | .ed25519 _ | .ed448 _ => True

theorem fromDnskey_toDnskey {k : RawPublicKey} (hk : k.Encodable) :
    ∃ data, k.toDnskey = some data ∧ fromDnskey k.algorithm data = .ok k := by
  suffices ∃ data, k.toDnskey = some data ∧ k.ReadFrom data from
    let ⟨data, h, hread⟩ := this
    ⟨data, h, fromDnskey_eq_ok.mpr ⟨rfl, hread⟩⟩
  cases k with
  | rsaSha1 r | rsaSha1Nsec3Sha1 r | rsaSha256 r | rsaSha512 r =>
    exact RsaPublicKey.fromDnskey_toDnskey hk
  | ecdsaP256Sha256 p | ecdsaP384Sha384 p => exact ⟨_, rfl, List.eq_cons_of_mem_head? hk⟩
  | ed25519 p | ed448 p => exact ⟨_, rfl, rfl⟩

/-- `from_dnskey` and `to_dnskey` are inverse on the DNSKEY public-key format,
for raw keys and for RSA keys alone: what `from_dnskey` reads has the algorithm
asked for and is written back as the same data, an ECDSA or EdDSA key always and
an RSA key exactly when the data does not write its exponent length in three
bytes though below 256; and every encodable key is read back as itself. -/
theorem dnskey_roundTrip :
    (∀ a data (k : RawPublicKey), fromDnskey a data = .ok k →
      k.algorithm = a ∧
        (k.toDnskey = some data ↔ (k.isRsa → RsaPublicKey.expLenOverlong data = false))) ∧
    (∀ k : RawPublicKey, k.Encodable →
      ∃ data, k.toDnskey = some data ∧ fromDnskey k.algorithm data = .ok k) ∧
    (∀ data (k : RsaPublicKey), RsaPublicKey.fromDnskey data = .ok k →
      (k.toDnskey = some data ↔ RsaPublicKey.expLenOverlong data = false)) ∧
    (∀ k : RsaPublicKey, k.Encodable →
      ∃ data, k.toDnskey = some data ∧ RsaPublicKey.fromDnskey data = .ok k) :=
  ⟨fun _ _ _ h => ⟨(fromDnskey_eq_ok.mp h).1, toDnskey_of_fromDnskey h⟩,
    fun _ => fromDnskey_toDnskey,
    fun _ _ => RsaPublicKey.toDnskey_of_fromDnskey,
    fun _ => RsaPublicKey.fromDnskey_toDnskey⟩

theorem dnskey_roundTrip_rsaSha256 :
    ∃ data, (RawPublicKey.rsaSha256 ⟨[171], [1, 0, 1]⟩).toDnskey = some data ∧
      fromDnskey SecAlg.rsasha256 data = .ok (.rsaSha256 ⟨[171], [1, 0, 1]⟩) :=
  dnskey_roundTrip.2.1 _ ⟨by decide, by decide, by decide⟩

end RawPublicKey

inductive AlgorithmError
  | unsupported
  | badSig
  | invalidData
  deriving DecidableEq, Repr

/-- The offset and the length of the exponent as `rsa_exponent_modulus` reads
them: the first byte, or after a zero first byte the 16 bits that follow. -/
def rsaPosExpLen (d0 d1 d2 : UInt8) : Nat × Nat :=
  if d0.toNat = 0 then (3, d1.toNat <<< 8 ||| d2.toNat) else (1, d0.toNat)

/-- `rsa_exponent_modulus` on the public key of a DNSKEY: the exponent and the
modulus, `Unsupported` below `min_len` bytes of both. `none` is a panic of its
slicing (`public_key[pos..]`, `split_at`). -/
def rsaExponentModulus (publicKey : List UInt8) (minLen : Nat) :
    Option (Except AlgorithmError (List UInt8 × List UInt8)) :=
  match publicKey with
  | d0 :: d1 :: d2 :: _ :: _ =>
    let (pos, expLen) := rsaPosExpLen d0 d1 d2
    if pos ≤ publicKey.length then
      let rest := publicKey.drop pos
      if rest.length < pos + expLen then some (.error .invalidData)
      else if rest.length < minLen then some (.error .unsupported)
      else if expLen ≤ rest.length then some (.ok (rest.take expLen, rest.drop expLen))
      else none
    else none
  | _ => some (.error .invalidData)

theorem shiftLeft_or_eq_u16FromBeBytes (d1 d2 : UInt8) :
    d1.toNat <<< 8 ||| d2.toNat = u16FromBeBytes d1 d2 := by
  rw [u16FromBeBytes, Nat.shiftLeft_eq, Nat.mul_comm, ← Nat.mul_add_lt_is_or d2.toNat_lt_size]

/-- Both readers take the same exponent length and offset, but where
`from_dnskey` sees a zero extended length, `rsa_exponent_modulus` reads an
empty exponent after three bytes. -/
theorem rsaPosExpLen_eq (d0 d1 d2 : UInt8) :
    rsaPosExpLen d0 d1 d2 = ((RsaPublicKey.expLenOff d0 d1 d2).getD (0, 3)).swap := by
  have h12 : [d1.toNat, d2.toNat] ≠ [0, 0] ↔ 0 < u16FromBeBytes d1 d2 := by
    simp only [ne_eq, List.cons.injEq, and_true, u16FromBeBytes]
    omega
  simp only [rsaPosExpLen, RsaPublicKey.expLenOff, h12, shiftLeft_or_eq_u16FromBeBytes]
  split_ifs <;>
    simp only [Option.getD_some, Option.getD_none, Prod.swap_prod_mk, Prod.mk.injEq, true_and] <;>
    omega

theorem rsaPosExpLen_fst_le (d0 d1 d2 : UInt8) : (rsaPosExpLen d0 d1 d2).1 ≤ 3 := by
  unfold rsaPosExpLen
  split_ifs <;> simp

theorem rsaExponentModulus_ne_none (d : List UInt8) (m : Nat) : rsaExponentModulus d m ≠ none := by
  match d with
  | d0 :: d1 :: d2 :: d3 :: rest =>
    have hpos := rsaPosExpLen_fst_le d0 d1 d2
    obtain ⟨pos, expLen⟩ := rsaPosExpLen d0 d1 d2
    simp only [rsaExponentModulus]
    split_ifs <;> simp_all <;> omega
  | [] | [_] | [_, _] | [_, _, _] => simp [rsaExponentModulus]

theorem rsaExponentModulus_cons {d0 d1 d2 d3 : UInt8} {rest : List UInt8} {m pos expLen : Nat}
    (h : rsaPosExpLen d0 d1 d2 = (pos, expLen)) :
    rsaExponentModulus (d0 :: d1 :: d2 :: d3 :: rest) m =
      if ((d0 :: d1 :: d2 :: d3 :: rest).drop pos).length < pos + expLen then
        some (.error .invalidData)
      else if ((d0 :: d1 :: d2 :: d3 :: rest).drop pos).length < m then some (.error .unsupported)
      else some (.ok (((d0 :: d1 :: d2 :: d3 :: rest).drop pos).take expLen,
        ((d0 :: d1 :: d2 :: d3 :: rest).drop pos).drop expLen)) := by
  have hpos := rsaPosExpLen_fst_le d0 d1 d2
  rw [h] at hpos
  simp only [rsaExponentModulus, h]
  split_ifs <;> first | rfl | (simp only [List.length_drop, List.length_cons] at *; omega)

theorem fromDnskey_of_rsaExponentModulus {d : List UInt8} {m : Nat} {e n : List UInt8}
    (h : rsaExponentModulus d m = some (.ok (e, n))) :
    RsaPublicKey.fromDnskey d = .ok ⟨n, e⟩ ↔ e ≠ [] := by
  match d, h with
  | d0 :: d1 :: d2 :: d3 :: rest, h =>
    rcases hoff : RsaPublicKey.expLenOff d0 d1 d2 with _ | ⟨expLen, off⟩
    · rw [rsaExponentModulus_cons (show rsaPosExpLen d0 d1 d2 = (3, 0) by
        rw [rsaPosExpLen_eq, hoff]; rfl)] at h
      split_ifs at h <;> cases h
      simp [RsaPublicKey.fromDnskey, hoff]
    · rw [rsaExponentModulus_cons (show rsaPosExpLen d0 d1 d2 = (off, expLen) by
        rw [rsaPosExpLen_eq, hoff]; rfl)] at h
      split_ifs at h with h1 h2 <;> cases h
      obtain ⟨hexp, -⟩ : 0 < expLen ∧ off ≤ 3 := by
        rcases RsaPublicKey.expLenOff_eq_some.mp hoff with ⟨h0, rfl, rfl⟩ | ⟨-, hpos, -, rfl⟩ <;> omega
      have hle : expLen ≤ ((d0 :: d1 :: d2 :: d3 :: rest).drop off).length := by omega
      simp only [RsaPublicKey.fromDnskey, hoff, hle, if_true, ← List.drop_drop, ne_eq, true_iff]
      rw [← List.length_eq_zero, List.length_take_of_le hle]
      omega
  | [] , h | [_], h | [_, _], h | [_, _, _], h => cases h

theorem rsaExponentModulus_of_fromDnskey {d : List UInt8} {k : RsaPublicKey} {m : Nat}
    (h : RsaPublicKey.fromDnskey d = .ok k) (hm : m ≤ k.e.length + k.n.length) :
    rsaExponentModulus d m = some (.ok (k.e, k.n)) ↔
      3 < d.length ∧ d.length - (k.e.length + k.n.length) ≤ k.n.length := by
  match d, h with
  | [d0, d1, d2], h => simp [rsaExponentModulus]
  | d0 :: d1 :: d2 :: d3 :: rest, h =>
    rcases hoff : RsaPublicKey.expLenOff d0 d1 d2 with _ | ⟨expLen, off⟩ <;>
      simp only [RsaPublicKey.fromDnskey, hoff, reduceCtorEq] at h
    split_ifs at h with hle
    cases h
    have hoff3 : off ≤ 3 := by
      rcases RsaPublicKey.expLenOff_eq_some.mp hoff with ⟨-, -, rfl⟩ | ⟨-, -, -, rfl⟩ <;> omega
    rw [rsaExponentModulus_cons (show rsaPosExpLen d0 d1 d2 = (off, expLen) by
      rw [rsaPosExpLen_eq, hoff]; rfl), ← List.drop_drop]
    simp only [List.length_drop, List.length_take, List.length_cons] at hle hm ⊢
    split_ifs <;> simp <;> omega

/-- The two RSA readers disagree. Neither panics, but `rsa_exponent_modulus`
accepts an empty exponent behind a zero extended length, which `from_dnskey`
refuses, and refuses data `from_dnskey` reads: three bytes, or a modulus shorter
than the header. -/
theorem rsaExponentModulus_fromDnskey_disagree :
    (∀ d m, rsaExponentModulus d m ≠ none) ∧
    (∀ d m e n, rsaExponentModulus d m = some (.ok (e, n)) →
      (RsaPublicKey.fromDnskey d = .ok ⟨n, e⟩ ↔ e ≠ [])) ∧
    (∀ d m (k : RsaPublicKey), RsaPublicKey.fromDnskey d = .ok k →
      m ≤ k.e.length + k.n.length →
      (rsaExponentModulus d m = some (.ok (k.e, k.n)) ↔
        3 < d.length ∧ d.length - (k.e.length + k.n.length) ≤ k.n.length)) ∧
    rsaExponentModulus [0, 0, 0, 1, 2, 3] 0 = some (.ok ([], [1, 2, 3])) ∧
    RsaPublicKey.fromDnskey [0, 0, 0, 1, 2, 3] = .error .invalidKey ∧
    RsaPublicKey.fromDnskey [3, 1, 2, 3] = .ok ⟨[], [1, 2, 3]⟩ ∧
    rsaExponentModulus [3, 1, 2, 3] 0 = some (.error .invalidData) :=
  ⟨rsaExponentModulus_ne_none, fun _ _ _ _ => fromDnskey_of_rsaExponentModulus,
    fun _ _ _ h => rsaExponentModulus_of_fromDnskey h, rfl, rfl, rfl, rfl⟩

end Domain.Validate
