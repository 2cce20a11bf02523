import Domain.Parser.Avx2

/-! The lane-wise methods of `Frame` in the parser example: the masks of the current
line and word in an eight-byte view, `count_bytes` and `next_offset`. Each reads and
writes every 64-bit lane alone, so each is modelled on one lane. `line_mask` and
`mid_line_word_mask` share their body, `maskBeforeMark`, and differ in the marks they
give it. `end_of_line` and `end_of_word`, which `lex` does not call, read the masks'
top bits. `mid_line_space` compares the view's bytes with `b'='` and `b'\t'`; its
comments name the space, `0x20`, where the code has `b'='`. -/

namespace Domain.Parser

def midLineSpace (view : UInt64) : UInt64 :=
  let sp := cmpeqEpi8 view (set1Epi8 '='.toUInt8)
  let ht := cmpeqEpi8 view (set1Epi8 '\t'.toUInt8)
  sp ||| ht

/-- The body that `line_mask` and `mid_line_word_mask` share: mark the marked bytes by
their LSB, subtract one to toggle the bytes up to and including the first mark, and keep
the toggled bytes that are not marks. -/
def maskBeforeMark (marks : UInt64) : UInt64 :=
  let lsb := marks &&& set1Epi8 1
  let mask := lsb - 1
  andnotSi256 lsb mask

def lineMask (view : UInt64) : UInt64 :=
  maskBeforeMark (cmpeqEpi8 view (set1Epi8 '\n'.toUInt8))

def midLineWordMask (view : UInt64) : UInt64 :=
  maskBeforeMark (midLineSpace view)

def wordMask (view : UInt64) : UInt64 :=
  midLineWordMask view &&& lineMask view

def endOfLine (view : UInt64) : UInt64 :=
  let mlw := midLineWordMask view
  let l := lineMask view
  let nl := andnotSi256 l mlw
  cmpgtEpi64 0 nl

/-- `Frame::end_of_word`, with `_mm256_set1_epi64x(-1)` as all-ones. -/
def endOfWord (view : UInt64) : UInt64 :=
  cmpgtEpi64 (wordMask view) (~~~0)

def countBytes (bytes : UInt64) : UInt64 :=
  let bytes := subEpi8 0 bytes
  let bytes := addEpi8 bytes (bytes >>> 32)
  let bytes := addEpi8 bytes (bytes >>> 16)
  let bytes := addEpi8 bytes (bytes >>> 8)
  bytes &&& 0xFF

def nextOffset (view offset working : UInt64) : UInt64 :=
  let w := wordMask view
  let w := w ||| (0xFF : UInt64) <<< 56
  let c := countBytes w
  let c := c &&& working
  offset + c

theorem eq_eight_of_length {l : List UInt8} (h : l.length = 8) :
    ∃ b0 b1 b2 b3 b4 b5 b6 b7, l = [b0, b1, b2, b3, b4, b5, b6, b7] := by
  match l, h with
  | [b0, b1, b2, b3, b4, b5, b6, b7], _ => exact ⟨b0, b1, b2, b3, b4, b5, b6, b7, rfl⟩

theorem toNat_add_u8 (a b : UInt8) : (a + b).toNat = (a.toNat + b.toNat) % 256 :=
  BitVec.toNat_add ..

theorem bytesVal_cons_mod (b : UInt8) (l : List UInt8) : bytesVal (b :: l) % 256 = b.toNat := by
  have : b.toNat < 256 := b.toNat_lt_size
  rw [bytesVal_cons]
  omega

theorem toNat_land_0xFF (x : UInt64) : (x &&& 0xFF).toNat = x.toNat % 256 := by
  rw [toNat_land, show (0xFF : UInt64).toNat = 2 ^ 8 - 1 from rfl, Nat.and_pow_two_sub_one_eq_mod]

/-- `count_bytes` adds the negated bytes of a lane: on bytes that are all-ones or
zero, the number of all-ones bytes. -/
theorem toNat_countBytes (v : UInt64) :
    (countBytes v).toNat = ((laneBytes v).map fun b => (0 - b).toNat).foldr (· + ·) 0 % 256 := by
  obtain ⟨b0, b1, b2, b3, b4, b5, b6, b7, hv⟩ := eq_eight_of_length (length_laneBytes v)
  have s32 : ∀ x : UInt64, laneBytes (x >>> 32) = (laneBytes x).drop 4 ++ List.replicate 4 0 :=
    fun x => laneBytes_shiftRight rfl (by decide)
  have s16 : ∀ x : UInt64, laneBytes (x >>> 16) = (laneBytes x).drop 2 ++ List.replicate 2 0 :=
    fun x => laneBytes_shiftRight rfl (by decide)
  have s8 : ∀ x : UInt64, laneBytes (x >>> 8) = (laneBytes x).drop 1 ++ List.replicate 1 0 :=
    fun x => laneBytes_shiftRight rfl (by decide)
  have h0 : laneBytes (0 : UInt64) = List.replicate 8 0 := rfl
  rw [hv]
  simp only [countBytes, subEpi8, addEpi8]
  rw [toNat_land_0xFF, ← bytesVal_laneBytes]
  simp only [laneBytes_bytewise, s32, s16, s8, h0, hv, List.replicate_succ, List.replicate_zero,
    List.drop_succ_cons, List.drop_zero, List.zipWith_cons_cons, List.cons_append, List.nil_append,
    bytesVal_cons_mod, List.map_cons, List.map_nil, List.foldr_cons, List.foldr_nil, toNat_add_u8]
  omega

theorem toNat_countBytes_prefix {v : UInt64} {a b : Nat}
    (h : laneBytes v = List.replicate a 0xFF ++ List.replicate b 0) : (countBytes v).toNat = a % 256 := by
  have hs : ∀ n k m : Nat, (List.replicate n k).foldr (· + ·) m = n * k + m := fun n k m => by
    induction n with
    | zero => rw [List.replicate_zero, List.foldr_nil, Nat.zero_mul, Nat.zero_add]
    | succ n ih => rw [List.replicate_succ, List.foldr_cons, ih, Nat.succ_mul]; omega
  rw [toNat_countBytes, h, List.map_append, List.map_replicate, List.map_replicate, List.foldr_append,
    hs, hs, show (0 - 0xFF : UInt8).toNat = 1 from rfl, show (0 - 0 : UInt8).toNat = 0 from rfl,
    Nat.mul_one, Nat.mul_zero, Nat.add_zero]

/-- A byte that ends the word in `word_mask`: a byte `mid_line_space` marks, or a
newline, which `line_mask` marks. -/
def isWordEnd (b : UInt8) : Bool :=
  b == '='.toUInt8 || b == '\t'.toUInt8 || b == '\n'.toUInt8

theorem zipWith_replicate_right {f : UInt8 → UInt8 → UInt8} {c : UInt8} :
    ∀ {l : List UInt8}, List.zipWith f l (List.replicate l.length c) = l.map (f · c)
  | [] => rfl
  | b :: l => by rw [List.length_cons, List.replicate_succ, List.zipWith_cons_cons,
      zipWith_replicate_right, List.map_cons]

theorem laneBytes_cmpeqEpi8_set1 (view : UInt64) (c : UInt8) :
    laneBytes (cmpeqEpi8 view (set1Epi8 c)) = marks (· == c) 0xFF (laneBytes view) := by
  rw [cmpeqEpi8, laneBytes_bytewise, laneBytes_set1Epi8, ← length_laneBytes view,
    zipWith_replicate_right]
  simp [marks]

theorem laneBytes_midLineSpace (view : UInt64) :
    laneBytes (midLineSpace view) =
      marks (fun b => b == '='.toUInt8 || b == '\t'.toUInt8) 0xFF (laneBytes view) := by
  rw [midLineSpace, lor_eq_bytewise, laneBytes_bytewise, laneBytes_cmpeqEpi8_set1,
    laneBytes_cmpeqEpi8_set1, marks, marks, marks, List.zipWith_map, List.zipWith_same]
  congr 1
  funext b
  cases b == '='.toUInt8 <;> cases b == '\t'.toUInt8 <;> rfl

theorem length_of_laneBytes {m : UInt64} {p : UInt8 → Bool} {c : UInt8} {l : List UInt8}
    (h : laneBytes m = marks p c l) : l.length = 8 := by
  rw [← length_marks p c l, ← h, length_laneBytes]

theorem land_set1Epi8_marks {m : UInt64} {p : UInt8 → Bool} {l : List UInt8}
    (h : laneBytes m = marks p 0xFF l) (c : UInt8) : m &&& set1Epi8 c = ofBytes (marks p c l) := by
  have hl := length_of_laneBytes h
  rw [land_eq_bytewise, bytewise, laneBytes_set1Epi8, h, ← hl, ← length_marks p 0xFF l,
    zipWith_replicate_right, marks, marks, List.map_map]
  congr 2
  funext b
  simp only [Function.comp_apply]
  cases p b <;> simp only [Bool.false_eq_true, if_false, if_true]
  · exact UInt8.toNat.inj (Nat.zero_and _)
  · refine UInt8.toNat.inj ((BitVec.toNat_and ..).trans ?_)
    rw [show (0xFF : UInt8).toBitVec.toNat = 2 ^ 8 - 1 from rfl, Nat.and_comm,
      Nat.and_pow_two_sub_one_eq_mod]
    exact Nat.mod_eq_of_lt c.toNat_lt_size

theorem toNat_maskBeforeMark {m : UInt64} {p : UInt8 → Bool} {l : List UInt8}
    (h : laneBytes m = marks p 0xFF l) : (maskBeforeMark m).toNat = 256 ^ l.findIdx p - 1 := by
  rw [maskBeforeMark, land_set1Epi8_marks h, toNat_andnot_pred_marks p (length_of_laneBytes h)]

theorem findIdx_or (p q : UInt8 → Bool) :
    ∀ l : List UInt8, l.findIdx (fun b => p b || q b) = min (l.findIdx p) (l.findIdx q)
  | [] => rfl
  | b :: l => by
    rw [List.findIdx_cons, List.findIdx_cons, List.findIdx_cons, findIdx_or p q l]
    cases p b <;> cases q b <;> simp [Nat.succ_min_succ]

theorem pow_sub_one_land (a b : Nat) : (256 ^ a - 1) &&& (256 ^ b - 1) = 256 ^ min a b - 1 := by
  simp only [show (256 : Nat) = 2 ^ 8 from rfl, ← pow_mul]
  apply Nat.eq_of_testBit_eq
  intro i
  simp only [Nat.testBit_and, Nat.testBit_two_pow_sub_one, Nat.mul_min_mul_left]
  by_cases ha : i < 8 * a <;> by_cases hb : i < 8 * b <;> simp [ha, hb] <;> omega

theorem toNat_lineMask (view : UInt64) :
    (lineMask view).toNat = 256 ^ (laneBytes view).findIdx (· == '\n'.toUInt8) - 1 :=
  toNat_maskBeforeMark (laneBytes_cmpeqEpi8_set1 view _)

theorem toNat_midLineWordMask (view : UInt64) :
    (midLineWordMask view).toNat =
      256 ^ (laneBytes view).findIdx (fun b => b == '='.toUInt8 || b == '\t'.toUInt8) - 1 :=
  toNat_maskBeforeMark (laneBytes_midLineSpace view)

theorem toNat_wordMask (view : UInt64) :
    (wordMask view).toNat = 256 ^ (laneBytes view).findIdx isWordEnd - 1 := by
  rw [wordMask, toNat_land, toNat_midLineWordMask, toNat_lineMask, pow_sub_one_land, ← findIdx_or]
  rfl

theorem laneBytes_wordMask (view : UInt64) :
    laneBytes (wordMask view) =
      List.replicate ((laneBytes view).findIdx isWordEnd) 0xFF ++
        List.replicate (8 - (laneBytes view).findIdx isWordEnd) 0 :=
  laneBytes_of_toNat ((List.findIdx_le_length _).trans_eq (length_laneBytes view))
    (toNat_wordMask view)

/-- The bytes `next_offset` moves over: the word's bytes and the byte that ends it,
at most the eight bytes of the view. -/
def wordAdvance (view : UInt64) : Nat :=
  min ((laneBytes view).findIdx isWordEnd + 1) 8

theorem countBytes_saturated (p : Nat) (hp : p ≤ 8) :
    countBytes (ofBytes (List.replicate p 0xFF ++ List.replicate (8 - p) 0) ||| (0xFF : UInt64) <<< 56) =
      (min (p + 1) 8).toUInt64 := by
  have h : ∀ q : Fin 9, countBytes (ofBytes (List.replicate q 0xFF ++ List.replicate (8 - q) 0) |||
      (0xFF : UInt64) <<< 56) = (min (q.val + 1) 8).toUInt64 := by decide
  exact h ⟨p, Nat.lt_succ_of_le hp⟩

theorem nextOffset_working (view offset : UInt64) :
    nextOffset view offset (~~~0) = offset + (wordAdvance view).toUInt64 := by
  have hw := ofBytes_laneBytes (wordMask view)
  rw [laneBytes_wordMask] at hw
  rw [nextOffset, land_complement_zero, ← hw,
    countBytes_saturated _ ((List.findIdx_le_length _).trans_eq (length_laneBytes view))]
  rfl

theorem nextOffset_idle (view offset : UInt64) : nextOffset view offset 0 = offset := by
  rw [nextOffset, land_zero]
  exact UInt64.toNat.inj (by rw [toNat_add, UInt64.toNat_zero, Nat.add_zero,
    Nat.mod_eq_of_lt (toNat_lt_two_pow offset)])

theorem pow_sub_one_lt_iff {p : Nat} (hp : p ≤ 8) : 256 ^ p - 1 < 2 ^ 63 ↔ p < 8 := by
  rcases Nat.lt_or_ge p 8 with h | h
  · have : 256 ^ p ≤ 256 ^ 7 := Nat.pow_le_pow_right (by decide) (by omega)
    exact iff_of_true (by omega) h
  · obtain rfl : p = 8 := by omega
    exact iff_of_false (by decide) (by decide)

theorem endOfWord_eq (view : UInt64) :
    endOfWord view = if (laneBytes view).findIdx isWordEnd < 8 then ~~~0 else 0 := by
  simp only [endOfWord, cmpgtEpi64_neg_one, toNat_wordMask,
    pow_sub_one_lt_iff ((List.findIdx_le_length _).trans_eq (length_laneBytes view))]

/-- The top bit of the bytes at or past the first newline (`b`) and before the first
mid-line space (`a`) is set exactly when the view has a newline and no mid-line
space. -/
theorem msb_andnot_masks {a b : Nat} (ha : a ≤ 8) (hb : b ≤ 8) :
    2 ^ 63 ≤ (2 ^ 64 - 1 - (256 ^ b - 1)) &&& (256 ^ a - 1) ↔ b < 8 ∧ a = 8 := by
  simp only [show (256 : Nat) = 2 ^ 8 from rfl, ← pow_mul]
  have hb' : 2 ^ (8 * b) - 1 < 2 ^ 64 := by
    have := Nat.pow_le_pow_right (show 0 < 2 by decide) (show 8 * b ≤ 64 by omega)
    omega
  rw [show 2 ^ 64 - 1 - (2 ^ (8 * b) - 1) = 2 ^ 64 - (2 ^ (8 * b) - 1 + 1) by omega]
  have hbit := Nat.testBit_to_div_mod (x := (2 ^ 64 - (2 ^ (8 * b) - 1 + 1)) &&& (2 ^ (8 * a) - 1))
    (i := 63)
  have hlt : (2 ^ 64 - (2 ^ (8 * b) - 1 + 1)) &&& (2 ^ (8 * a) - 1) < 2 ^ 64 :=
    lt_of_le_of_lt Nat.and_le_left (by omega)
  rw [Nat.testBit_and, Nat.testBit_two_pow_sub_succ hb', Nat.testBit_two_pow_sub_one,
    Nat.testBit_two_pow_sub_one] at hbit
  generalize (2 ^ 64 - (2 ^ (8 * b) - 1 + 1)) &&& (2 ^ (8 * a) - 1) = X at hlt hbit ⊢
  rw [show 2 ^ 63 ≤ X ↔ decide (X / 2 ^ 63 % 2 = 1) = true by rw [decide_eq_true_iff]; omega, ← hbit]
  simp only [Bool.and_eq_true, Bool.not_eq_true', decide_eq_true_eq, decide_eq_false_iff_not]
  omega

theorem endOfLine_eq (view : UInt64) :
    endOfLine view = if (laneBytes view).findIdx (· == '\n'.toUInt8) < 8 ∧
      (laneBytes view).findIdx (fun b => b == '='.toUInt8 || b == '\t'.toUInt8) = 8
      then ~~~0 else 0 := by
  have h8 : ∀ p : UInt8 → Bool, (laneBytes view).findIdx p ≤ 8 := fun p =>
    (List.findIdx_le_length _).trans_eq (length_laneBytes view)
  simp only [endOfLine, cmpgtEpi64_zero_left, andnotSi256, toNat_land, toNat_complement,
    toNat_lineMask, toNat_midLineWordMask, msb_andnot_masks (h8 _) (h8 _)]

/-- `end_of_word` is all-ones exactly when the word ends in the view, as its
documentation says. `end_of_line` is all-ones only when the view has no mid-line
space at all: a word that ends at a newline with a mid-line space later in the view,
as in `x`, newline, `y`, `=`, is not the last on its line for it, though the
whitespace that ends it is a newline. -/
theorem endOfLine_needs_no_space :
    (∀ view, endOfWord view = if (laneBytes view).findIdx isWordEnd < 8 then ~~~0 else 0) ∧
    (∀ view, endOfLine view = if (laneBytes view).findIdx (· == '\n'.toUInt8) < 8 ∧
      (laneBytes view).findIdx (fun b => b == '='.toUInt8 || b == '\t'.toUInt8) = 8
      then ~~~0 else 0) ∧
    (laneBytes (ofBytes [0x78, 0x0A, 0x79, 0x3D, 0, 0, 0, 0])).findIdx isWordEnd = 1 ∧
    (laneBytes (ofBytes [0x78, 0x0A, 0x79, 0x3D, 0, 0, 0, 0])).getD 1 0 = '\n'.toUInt8 ∧
    endOfLine (ofBytes [0x78, 0x0A, 0x79, 0x3D, 0, 0, 0, 0]) = 0 :=
  ⟨endOfWord_eq, endOfLine_eq, by decide, by decide, by decide⟩

end Domain.Parser
