import Mathlib.Data.Nat.Bitwise
import Mathlib.Data.UInt
import Mathlib.Data.Fin.VecNotation

/-! The AVX2 intrinsics of the parser example, on the 64-bit lanes of an `__m256i`. A
lane is a `UInt64` whose bytes are little-endian: byte `i` is the byte at address `i`
of an eight-byte load. The byte-wise intrinsics (`epi8`) act on the list of a lane's
bytes, the 64-bit and bitwise ones are `UInt64` arithmetic, and `laneBytes_ofBytes`,
`ofBytes_laneBytes` and the `*_eq_bytewise` lemmas pass between the two views. The
borrow lemmas are what the masks of the parser rest on: subtracting one from a lane of
marks borrows through the bytes below the first mark. The intrinsics that mix lanes
(`testz`, `permute4x64`) are on `M256`, the four lanes of a register. -/

namespace Domain.Parser

/-- The number that bytes hold little-endian, the first byte the lowest. -/
def bytesVal : List UInt8 → Nat
  | [] => 0
  | b :: bs => b.toNat + 256 * bytesVal bs

def toBytes : Nat → Nat → List UInt8
  | 0, _ => []
  | n + 1, x => (x % 256).toUInt8 :: toBytes n (x / 256)

def laneBytes (v : UInt64) : List UInt8 := toBytes 8 v.toNat

def ofBytes (bs : List UInt8) : UInt64 := (bytesVal bs).toUInt64

@[simp] theorem bytesVal_nil : bytesVal [] = 0 := rfl

@[simp] theorem bytesVal_cons (b : UInt8) (bs : List UInt8) :
    bytesVal (b :: bs) = b.toNat + 256 * bytesVal bs := rfl

theorem bytesVal_lt (l : List UInt8) : bytesVal l < 256 ^ l.length := by
  induction l with
  | nil => simp
  | cons b l ih =>
    have hb := b.toNat_lt_size
    simp only [UInt8.size] at hb
    simp only [bytesVal_cons, List.length_cons, pow_succ]
    omega

@[simp] theorem length_toBytes (n x : Nat) : (toBytes n x).length = n := by
  induction n generalizing x <;> simp [toBytes, *]

theorem toNat_toUInt8 (n : Nat) : n.toUInt8.toNat = n % 256 := by
  simp [Nat.toUInt8, UInt8.toNat, UInt8.ofNat]

theorem bytesVal_toBytes (n x : Nat) : bytesVal (toBytes n x) = x % 256 ^ n := by
  induction n generalizing x with
  | zero => simp [toBytes, Nat.mod_one]
  | succ n ih =>
    rw [toBytes, bytesVal_cons, ih, toNat_toUInt8, Nat.mod_mod, pow_succ, Nat.mul_comm _ 256,
      Nat.mod_mul]

theorem toBytes_bytesVal (l : List UInt8) : toBytes l.length (bytesVal l) = l := by
  induction l with
  | nil => rfl
  | cons b l ih =>
    have hb := b.toNat_lt_size
    simp only [UInt8.size] at hb
    have h1 : (b.toNat + 256 * bytesVal l) % 256 = b.toNat := by omega
    have h2 : (b.toNat + 256 * bytesVal l) / 256 = bytesVal l := by omega
    simp only [List.length_cons, toBytes, bytesVal_cons, h1, h2, ih, List.cons.injEq, and_true]
    exact UInt8.toNat.inj (by rw [toNat_toUInt8]; omega)

theorem toNat_toUInt64 (n : Nat) : n.toUInt64.toNat = n % 2 ^ 64 := rfl

@[simp] theorem length_laneBytes (v : UInt64) : (laneBytes v).length = 8 :=
  length_toBytes 8 _

theorem toNat_ofBytes {l : List UInt8} (h : l.length ≤ 8) : (ofBytes l).toNat = bytesVal l := by
  have hl := bytesVal_lt l
  have hp : 256 ^ l.length ≤ 2 ^ 64 := (Nat.pow_le_pow_right (by decide) h).trans_eq rfl
  rw [ofBytes, toNat_toUInt64, Nat.mod_eq_of_lt (by omega)]

theorem bytesVal_laneBytes (v : UInt64) : bytesVal (laneBytes v) = v.toNat := by
  rw [laneBytes, bytesVal_toBytes, Nat.mod_eq_of_lt (show v.toNat < 256 ^ 8 from v.toNat_lt_size)]

theorem laneBytes_ofBytes {l : List UInt8} (h : l.length = 8) : laneBytes (ofBytes l) = l := by
  rw [laneBytes, toNat_ofBytes h.le, ← h, toBytes_bytesVal]

@[simp] theorem ofBytes_laneBytes (v : UInt64) : ofBytes (laneBytes v) = v :=
  UInt64.toNat.inj (by rw [toNat_ofBytes (length_laneBytes v).le, bytesVal_laneBytes])

/-! The 64-bit operations on `toNat`. -/

theorem toNat_lt_two_pow (v : UInt64) : v.toNat < 2 ^ 64 := v.toNat_lt_size

theorem toNat_land (a b : UInt64) : (a &&& b).toNat = a.toNat &&& b.toNat := BitVec.toNat_and ..

theorem toNat_lor (a b : UInt64) : (a ||| b).toNat = a.toNat ||| b.toNat := BitVec.toNat_or ..

theorem toNat_xor (a b : UInt64) : (a ^^^ b).toNat = a.toNat ^^^ b.toNat := BitVec.toNat_xor ..

theorem toNat_complement (a : UInt64) : (~~~a).toNat = 2 ^ 64 - 1 - a.toNat :=
  BitVec.toNat_not ..

theorem toNat_sub (a b : UInt64) : (a - b).toNat = (2 ^ 64 - b.toNat + a.toNat) % 2 ^ 64 :=
  BitVec.toNat_sub ..

theorem toNat_add (a b : UInt64) : (a + b).toNat = (a.toNat + b.toNat) % 2 ^ 64 :=
  BitVec.toNat_add ..

/-! Byte-wise operations. -/

def bytewise (f : UInt8 → UInt8 → UInt8) (a b : UInt64) : UInt64 :=
  ofBytes (List.zipWith f (laneBytes a) (laneBytes b))

def set1Epi8 (b : UInt8) : UInt64 := ofBytes (List.replicate 8 b)

def cmpeqEpi8 : UInt64 → UInt64 → UInt64 := bytewise fun x y => if x = y then 0xFF else 0

/-- `_mm256_sub_epi8`, wrapping. -/
def subEpi8 : UInt64 → UInt64 → UInt64 := bytewise (· - ·)

/-- `_mm256_add_epi8`, wrapping. -/
def addEpi8 : UInt64 → UInt64 → UInt64 := bytewise (· + ·)

@[simp] theorem laneBytes_bytewise (f : UInt8 → UInt8 → UInt8) (a b : UInt64) :
    laneBytes (bytewise f a b) = List.zipWith f (laneBytes a) (laneBytes b) :=
  laneBytes_ofBytes (by simp)

@[simp] theorem laneBytes_set1Epi8 (b : UInt8) : laneBytes (set1Epi8 b) = List.replicate 8 b :=
  laneBytes_ofBytes (List.length_replicate 8 b)

theorem bitwise_digit {f : Bool → Bool → Bool} (hf : f false false = false) {a b : Nat}
    (x y : Nat) (ha : a < 2 ^ 8) (hb : b < 2 ^ 8) :
    Nat.bitwise f (a + 256 * x) (b + 256 * y) = Nat.bitwise f a b + 256 * Nat.bitwise f x y := by
  have hab : Nat.bitwise f a b < 2 ^ 8 := Nat.bitwise_lt_two_pow ha hb
  apply Nat.eq_of_testBit_eq
  intro j
  rw [show (256 : Nat) = 2 ^ 8 from rfl, Nat.add_comm a, Nat.add_comm b, Nat.add_comm _ (2 ^ 8 * _),
    Nat.testBit_bitwise hf, Nat.testBit_mul_pow_two_add _ ha, Nat.testBit_mul_pow_two_add _ hb,
    Nat.testBit_mul_pow_two_add _ hab]
  split <;> simp only [Nat.testBit_bitwise hf]

theorem bytesVal_zipWith_bitwise {f : UInt8 → UInt8 → UInt8} {g : Bool → Bool → Bool}
    (hg : g false false = false) (hf : ∀ x y, (f x y).toNat = Nat.bitwise g x.toNat y.toNat) :
    ∀ {l m : List UInt8}, l.length = m.length →
      bytesVal (List.zipWith f l m) = Nat.bitwise g (bytesVal l) (bytesVal m)
  | [], [], _ => Nat.bitwise_zero.symm
  | x :: l, y :: m, h => by
    rw [List.zipWith_cons_cons, bytesVal_cons, bytesVal_cons, bytesVal_cons, hf,
      bytesVal_zipWith_bitwise hg hf (Nat.succ.inj h),
      bitwise_digit hg _ _ x.toNat_lt_size y.toNat_lt_size]

theorem bitwise_eq_bytewise {f : UInt8 → UInt8 → UInt8} {g : Bool → Bool → Bool} {op : UInt64 → UInt64 → UInt64}
    (hg : g false false = false) (hf : ∀ x y, (f x y).toNat = Nat.bitwise g x.toNat y.toNat)
    (hop : ∀ a b, (op a b).toNat = Nat.bitwise g a.toNat b.toNat) (a b : UInt64) :
    op a b = bytewise f a b := by
  apply UInt64.toNat.inj
  rw [hop, bytewise, toNat_ofBytes (by simp), bytesVal_zipWith_bitwise hg hf (by simp),
    bytesVal_laneBytes, bytesVal_laneBytes]

theorem land_eq_bytewise : ∀ a b : UInt64, a &&& b = bytewise (· &&& ·) a b :=
  bitwise_eq_bytewise rfl (fun _ _ => BitVec.toNat_and ..) toNat_land

theorem lor_eq_bytewise : ∀ a b : UInt64, a ||| b = bytewise (· ||| ·) a b :=
  bitwise_eq_bytewise rfl (fun _ _ => BitVec.toNat_or ..) toNat_lor

theorem land_digit {a b : Nat} (x y : Nat) (ha : a < 2 ^ 8) (hb : b < 2 ^ 8) :
    (a + 256 * x) &&& (b + 256 * y) = (a &&& b) + 256 * (x &&& y) :=
  bitwise_digit rfl x y ha hb

theorem xor_digit {a b : Nat} (x y : Nat) (ha : a < 2 ^ 8) (hb : b < 2 ^ 8) :
    (a + 256 * x) ^^^ (b + 256 * y) = (a ^^^ b) + 256 * (x ^^^ y) :=
  bitwise_digit rfl x y ha hb

theorem mod_digit {a : Nat} (x P : Nat) (ha : a < 256) :
    (a + 256 * x) % (256 * P) = a + 256 * (x % P) := by
  have h : (a + 256 * x) / 256 = x := by omega
  rw [Nat.mod_mul, h]
  omega

theorem complement_land_self {x k : Nat} (h : x < 256 ^ k) : (256 ^ k - 1 - x) &&& x = 0 := by
  rw [show 256 ^ k = 2 ^ (8 * k) by rw [pow_mul]; rfl] at *
  apply Nat.eq_of_testBit_eq
  intro i
  rw [Nat.testBit_and, show 2 ^ (8 * k) - 1 - x = 2 ^ (8 * k) - (x + 1) by omega,
    Nat.testBit_two_pow_sub_succ h, Nat.zero_testBit]
  cases Nat.testBit x i <;> simp

/-- Bytes of `l` marked by `p` with the byte `m`: `m` where `p` holds, zero elsewhere. -/
def marks (p : UInt8 → Bool) (m : UInt8) (l : List UInt8) : List UInt8 :=
  l.map fun b => if p b then m else 0

@[simp] theorem length_marks (p : UInt8 → Bool) (m : UInt8) (l : List UInt8) :
    (marks p m l).length = l.length :=
  List.length_map _ _

theorem bytesVal_marks_cons (p : UInt8 → Bool) (m b : UInt8) (l : List UInt8) :
    bytesVal (marks p m (b :: l)) = (if p b then m.toNat else 0) + 256 * bytesVal (marks p m l) := by
  simp only [marks, List.map_cons, bytesVal_cons]
  split <;> rfl

/-- Subtracting one from marks of `1` borrows through the unmarked bytes below the
first mark; `!marks & (marks - 1)` keeps exactly those bytes, all-ones. -/
theorem complement_land_pred_marks (p : UInt8 → Bool) (l : List UInt8) :
    (256 ^ l.length - 1 - bytesVal (marks p 1 l)) &&&
        ((256 ^ l.length - 1 + bytesVal (marks p 1 l)) % 256 ^ l.length) =
      256 ^ l.findIdx p - 1 := by
  induction l with
  | nil => simp [marks]
  | cons b l ih =>
    have hV := bytesVal_lt (marks p 1 l)
    have hf : 1 ≤ 256 ^ l.findIdx p := Nat.one_le_pow _ _ (by decide)
    rw [length_marks] at hV
    have hz := complement_land_self hV
    rw [bytesVal_marks_cons, List.length_cons, List.findIdx_cons, pow_succ, Nat.mul_comm _ 256]
    generalize bytesVal (marks p 1 l) = V at *
    generalize 256 ^ l.length = P at *
    cases p b
    · have h1 : 256 * P - 1 - (0 + 256 * V) = 255 + 256 * (P - 1 - V) := by omega
      have h2 : 256 * P - 1 + (0 + 256 * V) = 255 + 256 * (P - 1 + V) := by omega
      rw [if_neg Bool.false_ne_true, h1, h2, mod_digit _ _ (by decide),
        land_digit _ _ (by decide) (by decide), ih, cond_false, pow_succ,
        show (255 &&& 255 : Nat) = 255 from rfl]
      omega
    · have h1 : 256 * P - 1 - (1 + 256 * V) = 254 + 256 * (P - 1 - V) := by omega
      have h2 : 256 * P - 1 + (1 + 256 * V) = 0 + 256 * (V + P) := by omega
      rw [if_pos rfl, show (1 : UInt8).toNat = 1 from rfl, h1, h2, mod_digit _ _ (by decide),
        land_digit _ _ (by decide) (by decide), Nat.add_mod_right, Nat.mod_eq_of_lt hV, hz]
      rfl

theorem xor_pred_marks (p : UInt8 → Bool) (l : List UInt8) (h : l.findIdx p < l.length) :
    bytesVal (marks p 0x80 l) ^^^
        ((256 ^ l.length - 1 + bytesVal (marks p 0x80 l)) % 256 ^ l.length) =
      256 ^ (l.findIdx p + 1) - 1 := by
  induction l with
  | nil => exact absurd h (Nat.lt_irrefl 0)
  | cons b l ih =>
    have hV := bytesVal_lt (marks p 0x80 l)
    rw [length_marks] at hV
    rw [List.findIdx_cons, List.length_cons] at *
    rw [bytesVal_marks_cons, pow_succ, Nat.mul_comm _ 256]
    cases hb : p b
    · rw [hb, cond_false] at h
      have hf : 1 ≤ 256 ^ (l.findIdx p + 1) := Nat.one_le_pow _ _ (by decide)
      have h2 : 256 * 256 ^ l.length - 1 + (0 + 256 * bytesVal (marks p 0x80 l)) =
          255 + 256 * (256 ^ l.length - 1 + bytesVal (marks p 0x80 l)) := by omega
      rw [if_neg Bool.false_ne_true, h2, mod_digit _ _ (by decide),
        xor_digit _ _ (by decide) (by decide), ih (by omega), cond_false, pow_succ _ (_ + 1),
        show (0 ^^^ 255 : Nat) = 255 from rfl]
      omega
    · have h2 : 256 * 256 ^ l.length - 1 + (0x80 + 256 * bytesVal (marks p 0x80 l)) =
          127 + 256 * (bytesVal (marks p 0x80 l) + 256 ^ l.length) := by omega
      rw [if_pos rfl, show (0x80 : UInt8).toNat = 0x80 from rfl, h2, mod_digit _ _ (by decide),
        xor_digit _ _ (by decide) (by decide), Nat.add_mod_right, Nat.mod_eq_of_lt hV,
        Nat.xor_self, cond_true]
      rfl

theorem toBytes_pow_sub_one {p n : Nat} (h : p ≤ n) :
    toBytes n (256 ^ p - 1) = List.replicate p 0xFF ++ List.replicate (n - p) 0 := by
  induction n generalizing p with
  | zero => rw [Nat.le_zero.mp h]; rfl
  | succ n ih =>
    cases p with
    | zero =>
      have h0 := ih (Nat.zero_le n)
      simp only [pow_zero, Nat.sub_self, Nat.sub_zero] at h0 ⊢
      rw [toBytes, Nat.zero_div, h0]
      rfl
    | succ p =>
      have hp : 1 ≤ 256 ^ p := Nat.one_le_pow _ _ (by decide)
      have h1 : (256 ^ (p + 1) - 1) % 256 = 255 := by rw [pow_succ]; omega
      have h2 : (256 ^ (p + 1) - 1) / 256 = 256 ^ p - 1 := by rw [pow_succ]; omega
      rw [toBytes, h1, h2, ih (by omega), Nat.add_sub_add_right]
      rfl

theorem laneBytes_of_toNat {v : UInt64} {p : Nat} (hp : p ≤ 8) (h : v.toNat = 256 ^ p - 1) :
    laneBytes v = List.replicate p 0xFF ++ List.replicate (8 - p) 0 := by
  rw [laneBytes, h, toBytes_pow_sub_one hp]

theorem toBytes_div_256 {n x : Nat} (h : x < 256 ^ (n + 1)) :
    toBytes (n + 1) (x / 256) = toBytes n (x / 256) ++ [0] := by
  induction n generalizing x with
  | zero =>
    rw [show x / 256 = 0 by omega]
    rfl
  | succ n ih =>
    rw [toBytes, ih (by rw [pow_succ] at h ⊢; omega), toBytes, List.cons_append]

theorem toBytes_div_pow {n x : Nat} (h : x < 256 ^ n) :
    ∀ {k : Nat}, k ≤ n → toBytes n (x / 256 ^ k) = (toBytes n x).drop k ++ List.replicate k 0
  | 0, _ => by simp
  | k + 1, hk => by
    obtain ⟨m, rfl⟩ : ∃ m, n = m + 1 := ⟨n - 1, by omega⟩
    have hy : x / 256 ^ k < 256 ^ (m + 1) := lt_of_le_of_lt (Nat.div_le_self _ _) h
    have hne : (toBytes (m + 1) x).drop k ≠ [] :=
      List.ne_nil_of_length_pos (by rw [List.length_drop, length_toBytes]; omega)
    rw [pow_succ, ← Nat.div_div_eq_div_mul, toBytes_div_256 hy,
      show toBytes m (x / 256 ^ k / 256) = (toBytes (m + 1) (x / 256 ^ k)).tail from rfl,
      toBytes_div_pow h (by omega : k ≤ m + 1), List.tail_append_of_ne_nil hne, List.tail_drop,
      List.replicate_succ', List.append_assoc]

theorem laneBytes_shiftRight {v s : UInt64} {k : Nat} (hs : s.toNat = 8 * k) (hk : k < 8) :
    laneBytes (v >>> s) = (laneBytes v).drop k ++ List.replicate k 0 := by
  have hv : (v >>> s).toNat = v.toNat / 256 ^ k := by
    show v.toNat >>> (s % 64).toNat = _
    rw [UInt64.toNat_mod, hs, show (64 : UInt64).toNat = 64 from rfl, Nat.mod_eq_of_lt (by omega),
      Nat.shiftRight_eq_div_pow, pow_mul]
    rfl
  rw [laneBytes, hv, toBytes_div_pow v.toNat_lt_size hk.le]
  rfl

/-! The 64-bit operations. `_mm256_add_epi64`, `_mm256_sub_epi64`, `_mm256_and_si256`,
`_mm256_or_si256`, `_mm256_xor_si256`, `_mm256_slli_epi64` and `_mm256_srli_epi64` are
`+`, `-`, `&&&`, `|||`, `^^^`, `<<<` and `>>>` of `UInt64` on each lane, the shifts for
the immediates below 64 that the parser gives them. -/

/-- `_mm256_andnot_si256(a, b)`: the bits of `b` that are clear in `a`. -/
def andnotSi256 (a b : UInt64) : UInt64 := ~~~a &&& b

def cmpeqEpi64 (a b : UInt64) : UInt64 := if a = b then ~~~0 else 0

/-- `_mm256_cmpgt_epi64`: all-ones where `a` is the greater, both read as signed. -/
def cmpgtEpi64 (a b : UInt64) : UInt64 :=
  if b.toBitVec.toInt < a.toBitVec.toInt then ~~~0 else 0

theorem cmpgtEpi64_of_lt {a b : UInt64} (ha : a.toNat < 2 ^ 63) (hb : b.toNat < 2 ^ 63) :
    cmpgtEpi64 a b = if b.toNat < a.toNat then ~~~0 else 0 := by
  have ha' : 2 * a.toBitVec.toNat < 2 ^ 64 := by change 2 * a.toNat < _; omega
  have hb' : 2 * b.toBitVec.toNat < 2 ^ 64 := by change 2 * b.toNat < _; omega
  simp only [cmpgtEpi64, BitVec.toInt_eq_toNat_cond, ha', hb', if_true, Int.ofNat_lt]
  rfl

theorem land_complement_zero (c : UInt64) : c &&& ~~~0 = c :=
  UInt64.toNat.inj (by
    rw [toNat_land, toNat_complement, UInt64.toNat_zero, Nat.sub_zero,
      Nat.and_pow_two_sub_one_eq_mod, Nat.mod_eq_of_lt (toNat_lt_two_pow c)])

theorem land_zero (c : UInt64) : c &&& 0 = 0 :=
  UInt64.toNat.inj (by rw [toNat_land, UInt64.toNat_zero, Nat.and_zero])

theorem toNat_shiftLeft (a : UInt64) {s : UInt64} (hs : s.toNat < 64) :
    (a <<< s).toNat = a.toNat * 2 ^ s.toNat % 2 ^ 64 := by
  show (a.toBitVec <<< (s % 64).toNat).toNat = _
  rw [BitVec.toNat_shiftLeft, UInt64.toNat_mod, show (64 : UInt64).toNat = 64 from rfl,
    Nat.mod_eq_of_lt hs, Nat.shiftLeft_eq]
  rfl

theorem cmpgtEpi64_neg_one (a : UInt64) :
    cmpgtEpi64 a (~~~0) = if a.toNat < 2 ^ 63 then ~~~0 else 0 := by
  have ha := toNat_lt_two_pow a
  have h1 : (~~~0 : UInt64).toBitVec.toNat = 2 ^ 64 - 1 := rfl
  simp only [cmpgtEpi64, BitVec.toInt_eq_toNat_cond, h1]
  change (if _ < (if 2 * a.toNat < _ then (a.toNat : Int) else _) then _ else _) = _
  split_ifs <;> first | rfl | omega

theorem cmpgtEpi64_zero_left (a : UInt64) :
    cmpgtEpi64 0 a = if 2 ^ 63 ≤ a.toNat then ~~~0 else 0 := by
  have ha := toNat_lt_two_pow a
  simp only [cmpgtEpi64, BitVec.toInt_eq_toNat_cond, UInt64.toBitVec_ofNat, BitVec.toNat_ofNat]
  change (if (if 2 * a.toNat < _ then (a.toNat : Int) else _) < _ then _ else _) = _
  split_ifs <;> first | rfl | omega

/-- `__m256i`: four 64-bit lanes, lane 0 the lowest. -/
abbrev M256 := Fin 4 → UInt64

/-- `_mm256_set_epi64x(e3, e2, e1, e0)`: the last argument in lane 0. -/
def setEpi64x (e3 e2 e1 e0 : UInt64) : M256 := ![e0, e1, e2, e3]

/-- `_mm256_testz_si256(a, b) != 0`: no bit is set in both. -/
def testzSi256 (a b : M256) : Bool := decide (∀ i, a i &&& b i = 0)

/-- `_mm256_permute4x64_epi64(a, imm)`: lane `j` is the lane of `a` that bits `2j` and
`2j + 1` of `imm` name. -/
def permute4x64Epi64 (a : M256) (imm : Nat) : M256 :=
  fun j => a ⟨imm / 4 ^ j.val % 4, Nat.mod_lt _ (by decide)⟩

theorem testzSi256_self (a : M256) : testzSi256 a a = true ↔ ∀ i, a i = 0 := by
  simp only [testzSi256, decide_eq_true_eq]
  refine forall_congr' fun i => ?_
  rw [show a i &&& a i = a i from UInt64.toNat.inj (by rw [toNat_land, Nat.and_self])]

/-- `_mm256_mask_i64gather_epi64(src, base, index, mask, scale)` on one lane: where the
top bit of `mask` is set, the eight bytes at `base + index * scale`, the index signed;
elsewhere `src`. `mem` is the memory from `base` on; the model reads zeros before and
after it, where the program would read memory it does not own. -/
def maskI64GatherEpi64 (mem : List UInt8) (src index mask : UInt64) (scale : Nat) : UInt64 :=
  if mask >>> 63 = 1 then
    let addr := index.toBitVec.toInt * scale
    if addr < 0 then 0 else ofBytes ((mem.drop addr.toNat).take 8)
  else src

theorem toNat_andnot_pred_marks (p : UInt8 → Bool) {l : List UInt8} (hl : l.length = 8) :
    (andnotSi256 (ofBytes (marks p 1 l)) (ofBytes (marks p 1 l) - 1)).toNat =
      256 ^ l.findIdx p - 1 := by
  have h := complement_land_pred_marks p l
  rw [hl] at h
  rw [andnotSi256, toNat_land, toNat_complement, toNat_sub, toNat_ofBytes (by simp [hl])]
  exact h

theorem toNat_xor_pred_marks (p : UInt8 → Bool) {l : List UInt8} (hl : l.length = 8)
    (h : l.findIdx p < 8) :
    (ofBytes (marks p 0x80 l) ^^^ (ofBytes (marks p 0x80 l) - 1)).toNat =
      256 ^ (l.findIdx p + 1) - 1 := by
  have h' := xor_pred_marks p l (by omega)
  rw [hl] at h'
  rw [toNat_xor, toNat_sub, toNat_ofBytes (by simp [hl])]
  exact h'

end Domain.Parser
