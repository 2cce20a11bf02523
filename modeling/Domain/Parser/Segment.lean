import Domain.Parser.Masks

/-! `Frame::segment` of the parser example: it splits the 64 KiB frame into four
segments that begin after a newline. Lane `i` searches quarter `i` of the frame down
from its top word for a word with a newline, a gather a pass, for at most 2048 passes;
the limit of the lane is the byte after that word's first newline, and the start of
each lane is the limit of the lane below, 0 for lane 0.

The search keeps four registers of four lanes; the model keeps them lane by lane
(`SegmentLane`), since every pass works on each lane alone and only the `break` looks
at all four. `Searching` and `Found` say what a lane holds after `k` passes, and
`searchPasses_inv` that one of them holds through the whole search;
`searchLoop_searchPasses` shows that the `break` changes nothing. The gather reads the
memory past the input too, which `Frame` keeps for `lex`; `searchPasses_gather` shows
that the search reads only words of its own quarter. -/

namespace Domain.Parser

/-- `Frame`: the 64 KiB of input, and the eight bytes past it that the documentation
of `input` says are safe to read. The entries are not modelled: `lex` does not write
them. -/
structure Frame where
  input : List UInt8
  beyond : List UInt8
  input_length : input.length = 65536
  beyond_length : beyond.length = 8

structure Error where
  deriving DecidableEq, Repr

def Frame.memory (f : Frame) : List UInt8 := f.input ++ f.beyond

def Frame.word (f : Frame) (w : Nat) : UInt64 := ofBytes ((f.input.drop (8 * w)).take 8)

def hasNewline (v : UInt64) : Bool := (laneBytes v).any (· == '\n'.toUInt8)

/-- A lane of the registers of `segment`'s search: `offset` (in words), `input`,
`lines` and `search`. -/
structure SegmentLane where
  offset : UInt64
  input : UInt64
  lines : UInt64
  search : UInt64
  deriving DecidableEq, Repr

def SegmentLane.step (f : Frame) (s : SegmentLane) : SegmentLane :=
  let input := maskI64GatherEpi64 f.memory s.input s.offset s.search 8
  let lines := cmpeqEpi8 input (set1Epi8 '\n'.toUInt8)
  let search := cmpeqEpi64 lines 0
  let offset := s.offset + search
  ⟨offset, input, lines, search⟩

def searchInit : Fin 4 → SegmentLane :=
  let offset := setEpi64x 4 3 2 1
  let offset : M256 := fun i => offset i <<< (16 - 2 - 3)
  let offset : M256 := fun i => offset i - 1
  fun i => ⟨offset i, 0, 0, ~~~0⟩

/-- The search loop of `segment`: at most `n` passes, with its `break` once no lane
searches. -/
def searchLoop (f : Frame) : Nat → (Fin 4 → SegmentLane) → Fin 4 → SegmentLane
  | 0, s => s
  | n + 1, s =>
    let s := fun i => (s i).step f
    let search : M256 := fun i => (s i).search
    if testzSi256 search search then s else searchLoop f n s

def segment (f : Frame) : Except Error (M256 × M256) :=
  let s := searchLoop f 2048 searchInit
  let search : M256 := fun i => (s i).search
  if testzSi256 search search = false then .error ⟨⟩ else
  let lines : M256 := fun i => (s i).lines &&& set1Epi8 (~~~0x7F)
  let offset : M256 := fun i => (s i).offset <<< 3
  let toSkip : M256 := fun i => lines i - 1
  let toSkip : M256 := fun i => lines i ^^^ toSkip i
  let offset : M256 := fun i => offset i + countBytes (toSkip i)
  let start := permute4x64Epi64 offset 0b10010011
  let start : M256 := fun i => start i &&& setEpi64x (~~~0) (~~~0) (~~~0) 0 i
  .ok (start, offset)

/-! The search, lane by lane. -/

/-- The top word of quarter `i` of the frame, where lane `i` of the search starts. -/
def quarterTop (i : Nat) : Nat := 2048 * i + 2047

/-- Lane `i` is still searching after `k` passes: `k` words down from the top of its
quarter, none of which has a newline. -/
def Searching (f : Frame) (i k : Nat) (s : SegmentLane) : Prop :=
  s.search = ~~~0 ∧ s.offset + k.toUInt64 = (quarterTop i).toUInt64 ∧
    ∀ j < k, hasNewline (f.word (quarterTop i - j)) = false

/-- Lane `i` has stopped at word `w`, the highest word of its quarter with a newline,
among the top `k` words. -/
def Found (f : Frame) (i k : Nat) (s : SegmentLane) : Prop :=
  s.search = 0 ∧ ∃ w, quarterTop i < w + k ∧ w ≤ quarterTop i ∧ s.offset = w.toUInt64 ∧
    s.input = f.word w ∧ s.lines = cmpeqEpi8 (f.word w) (set1Epi8 '\n'.toUInt8) ∧
    hasNewline (f.word w) = true ∧
    ∀ w', w < w' → w' ≤ quarterTop i → hasNewline (f.word w') = false

theorem marks_eq_replicate_zero {p : UInt8 → Bool} {c : UInt8} (hc : c ≠ 0) :
    ∀ {l : List UInt8}, marks p c l = List.replicate l.length 0 ↔ ∀ b ∈ l, p b = false
  | [] => by simp [marks]
  | b :: l => by
    have ih := marks_eq_replicate_zero hc (p := p) (l := l)
    simp only [marks, List.map_cons, List.length_cons, List.replicate_succ, List.cons.injEq,
      List.forall_mem_cons] at ih ⊢
    rw [ih]
    cases p b <;> simp [hc]

theorem cmpeqEpi8_newline_eq_zero (v : UInt64) :
    cmpeqEpi8 v (set1Epi8 '\n'.toUInt8) = 0 ↔ hasNewline v = false := by
  have h0 : laneBytes 0 = List.replicate (laneBytes v).length 0 := rfl
  rw [hasNewline, List.any_eq_false]
  simp only [Bool.not_eq_true]
  rw [← marks_eq_replicate_zero (p := (· == '\n'.toUInt8))
    (c := 0xFF) (by decide), ← laneBytes_cmpeqEpi8_set1, ← h0]
  exact ⟨congrArg laneBytes, fun h => by rw [← ofBytes_laneBytes (cmpeqEpi8 _ _), h]; rfl⟩

theorem Found.mono {f : Frame} {i k : Nat} {s : SegmentLane} (h : Found f i k s) :
    Found f i (k + 1) s := by
  obtain ⟨hs, w, hw, hw', rest⟩ := h
  exact ⟨hs, w, by omega, hw', rest⟩

theorem step_of_found {f : Frame} {i k : Nat} {s : SegmentLane} (h : Found f i k s) :
    s.step f = s := by
  obtain ⟨hs, w, -, -, -, hin, hlines, hnl, -⟩ := h
  have hz : cmpeqEpi8 s.input (set1Epi8 '\n'.toUInt8) ≠ 0 := by
    rw [hin, Ne, cmpeqEpi8_newline_eq_zero, hnl]
    decide
  simp only [SegmentLane.step, maskI64GatherEpi64, hs, show (0 : UInt64) >>> 63 ≠ 1 by decide,
    if_false, cmpeqEpi64, hz, add_zero]
  rw [hin, ← hlines, ← hin, ← hs]

theorem gather_word (f : Frame) (src : UInt64) {offset : UInt64} {w : Nat} (ho : offset.toNat = w)
    (hw : w < 8192) : maskI64GatherEpi64 f.memory src offset (~~~0) 8 = f.word w := by
  have hint : offset.toBitVec.toInt = w := by
    rw [BitVec.toInt_eq_toNat_cond, if_pos (by change 2 * offset.toNat < _; omega)]
    exact congrArg _ ho
  have hlen : 8 * w ≤ f.input.length := by rw [f.input_length]; omega
  simp only [maskI64GatherEpi64, show (~~~0 : UInt64) >>> 63 = 1 by decide, if_true, hint]
  rw [if_neg (by omega), show ((w : Int) * ((8 : Nat) : Int)).toNat = 8 * w by omega, Frame.memory,
    List.drop_append_of_le_length hlen,
    List.take_append_of_le_length (by rw [List.length_drop, f.input_length]; omega)]
  rfl

theorem Searching.offset_toNat {f : Frame} {i k : Nat} {s : SegmentLane} (h : Searching f i k s)
    (hi : i < 4) (hk : k ≤ quarterTop i) : s.offset.toNat = quarterTop i - k := by
  have h2 := congrArg UInt64.toNat h.2.1
  have := toNat_lt_two_pow s.offset
  rw [toNat_add, toNat_toUInt64, toNat_toUInt64] at h2
  unfold quarterTop at *
  omega

theorem step_of_searching {f : Frame} {i k : Nat} {s : SegmentLane} (hi : i < 4) (hk : k < 2048)
    (h : Searching f i k s) : Searching f i (k + 1) (s.step f) ∨ Found f i (k + 1) (s.step f) := by
  have ho := h.offset_toNat hi (by unfold quarterTop; omega)
  obtain ⟨hs, hoff, hnone⟩ := h
  have hread := gather_word f s.input ho (by unfold quarterTop; omega)
  simp only [SegmentLane.step, hs, hread]
  cases hn : hasNewline (f.word (quarterTop i - k))
  · left
    have hz := (cmpeqEpi8_newline_eq_zero _).mpr hn
    simp only [hz, cmpeqEpi64, if_true]
    refine ⟨rfl, ?_, fun j hj => ?_⟩
    · have h2 := congrArg UInt64.toNat hoff
      have := toNat_lt_two_pow s.offset
      apply UInt64.toNat.inj
      rw [toNat_add, toNat_toUInt64, toNat_toUInt64] at h2
      rw [toNat_add, toNat_add, toNat_complement, UInt64.toNat_zero, toNat_toUInt64, toNat_toUInt64]
      omega
    · rcases Nat.lt_succ_iff_lt_or_eq.mp hj with hj | rfl
      · exact hnone j hj
      · exact hn
  · right
    have hz : cmpeqEpi8 (f.word (quarterTop i - k)) (set1Epi8 '\n'.toUInt8) ≠ 0 := by
      rw [Ne, cmpeqEpi8_newline_eq_zero, hn]
      decide
    simp only [hz, cmpeqEpi64, if_false, add_zero]
    refine ⟨rfl, quarterTop i - k, by omega, by omega, ?_, rfl, rfl, hn, fun w' hw' hw'' => ?_⟩
    · apply UInt64.toNat.inj
      rw [toNat_toUInt64, ho, Nat.mod_eq_of_lt (by unfold quarterTop; omega)]
    · have := hnone (quarterTop i - w') (by omega)
      rwa [show quarterTop i - (quarterTop i - w') = w' by omega] at this

def searchPasses (f : Frame) : Nat → Fin 4 → SegmentLane
  | 0 => searchInit
  | k + 1 => fun i => (searchPasses f k i).step f

theorem searchInit_searching (f : Frame) (i : Fin 4) : Searching f i 0 (searchInit i) :=
  ⟨rfl, by revert i; decide, fun _ hj => absurd hj (Nat.not_lt_zero _)⟩

theorem searchPasses_inv (f : Frame) (i : Fin 4) :
    ∀ k ≤ 2048, Searching f i k (searchPasses f k i) ∨ Found f i k (searchPasses f k i)
  | 0, _ => .inl (searchInit_searching f i)
  | k + 1, hk =>
    match searchPasses_inv f i k (by omega) with
    | .inl h => step_of_searching i.isLt (by omega) h
    | .inr h => .inr (by
        show Found f i (k + 1) ((searchPasses f k i).step f)
        rw [step_of_found h]
        exact h.mono)

theorem searchPasses_of_found (f : Frame) (k : Nat)
    (h : ∀ i : Fin 4, Found f i k (searchPasses f k i)) :
    ∀ m, searchPasses f (k + m) = searchPasses f k
  | 0 => rfl
  | m + 1 => funext fun i => by
    show (searchPasses f (k + m) i).step f = _
    rw [searchPasses_of_found f k h m]
    exact step_of_found (h i)

/-- The `break` of the search changes nothing: it comes once every lane has found its
newline, and such lanes keep their registers. -/
theorem searchLoop_searchPasses (f : Frame) :
    ∀ n k, k + n ≤ 2048 → searchLoop f n (searchPasses f k) = searchPasses f (k + n)
  | 0, _, _ => rfl
  | n + 1, k, hkn => by
    show (if testzSi256 (fun i => (searchPasses f (k + 1) i).search)
        (fun i => (searchPasses f (k + 1) i).search) then searchPasses f (k + 1)
      else searchLoop f n (searchPasses f (k + 1))) = _
    split
    · rename_i ht
      have hall : ∀ i : Fin 4, Found f i (k + 1) (searchPasses f (k + 1) i) := fun i =>
        (searchPasses_inv f i (k + 1) (by omega)).resolve_left fun hs =>
          absurd ((testzSi256_self _).mp ht i) (by rw [hs.1]; decide)
      rw [show k + (n + 1) = k + 1 + n by omega, searchPasses_of_found f (k + 1) hall n]
    · rw [searchLoop_searchPasses f n (k + 1) (by omega), show k + 1 + n = k + (n + 1) by omega]

/-! What `segment` returns. -/

def newlineIdx (v : UInt64) : Nat := (laneBytes v).findIdx (· == '\n'.toUInt8)

def NoNewline (f : Frame) (i : Nat) : Prop :=
  ∀ w, 2048 * i ≤ w → w < 2048 * (i + 1) → hasNewline (f.word w) = false

theorem laneBytes_word (f : Frame) {w : Nat} (hw : w < 8192) :
    laneBytes (f.word w) = (f.input.drop (8 * w)).take 8 :=
  laneBytes_ofBytes (by rw [List.length_take, List.length_drop, f.input_length]; omega)

theorem word_newlineIdx (f : Frame) {w : Nat} (hw : w < 8192) (hn : hasNewline (f.word w) = true) :
    newlineIdx (f.word w) < 8 ∧ f.input.getD (8 * w + newlineIdx (f.word w)) 0 = '\n'.toUInt8 := by
  have hq : newlineIdx (f.word w) < (laneBytes (f.word w)).length :=
    List.findIdx_lt_length.mpr (List.any_eq_true.mp hn)
  have hget := List.findIdx_getElem (w := hq)
  rw [length_laneBytes] at hq
  refine ⟨hq, ?_⟩
  rw [List.getD_eq_getElem?_getD, ← List.getElem?_drop, ← List.getElem?_take_of_lt hq,
    ← laneBytes_word f hw, newlineIdx, List.getElem?_eq_getElem (by rw [length_laneBytes]; exact hq)]
  exact beq_iff_eq.mp hget

theorem searching_iff_noNewline (f : Frame) (i : Fin 4) :
    Searching f i 2048 (searchPasses f 2048 i) ↔ NoNewline f i := by
  constructor
  · rintro ⟨-, -, hnone⟩ w hw hw'
    have := hnone (quarterTop i - w) (by unfold quarterTop; omega)
    rwa [show quarterTop i - (quarterTop i - w) = w by unfold quarterTop; omega] at this
  · intro hno
    refine (searchPasses_inv f i 2048 le_rfl).resolve_right fun hf => ?_
    obtain ⟨-, w, hw, hw', -, -, -, hn, -⟩ := hf
    rw [hno w (by unfold quarterTop at hw; omega) (by unfold quarterTop at hw'; omega)] at hn
    exact Bool.false_ne_true hn

theorem limit_of_found {f : Frame} {i : Nat} {s : SegmentLane} (hi : i < 4) (h : Found f i 2048 s) :
    ∃ w, 2048 * i ≤ w ∧ w < 2048 * (i + 1) ∧ hasNewline (f.word w) = true ∧
      (((s.offset <<< 3) + countBytes ((s.lines &&& set1Epi8 (~~~0x7F)) ^^^
        ((s.lines &&& set1Epi8 (~~~0x7F)) - 1))).toNat = 8 * w + newlineIdx (f.word w) + 1) := by
  obtain ⟨-, w, hw, hw', hoff, -, hlines, hn, -⟩ := h
  unfold quarterTop at hw hw'
  refine ⟨w, by omega, by omega, hn, ?_⟩
  have hq := (word_newlineIdx f (by omega) hn).1
  unfold newlineIdx at hq ⊢
  have hmarks := laneBytes_cmpeqEpi8_set1 (f.word w) '\n'.toUInt8
  rw [← hlines] at hmarks
  have hl := length_of_laneBytes hmarks
  have hF := land_set1Epi8_marks hmarks 0x80
  rw [show (~~~0x7F : UInt8) = 0x80 by decide]
  have hskip := toNat_xor_pred_marks (· == '\n'.toUInt8) hl hq
  rw [← hF] at hskip
  have hcount := toNat_countBytes_prefix (laneBytes_of_toNat (by omega) hskip)
  have hshift : (w.toUInt64 <<< 3).toNat = 8 * w := by
    rw [toNat_shiftLeft _ (by decide), toNat_toUInt64]
    show w % 2 ^ 64 * 8 % 2 ^ 64 = 8 * w
    omega
  rw [toNat_add, hoff, hshift, hcount]
  omega

theorem searchLoop_eq (f : Frame) : searchLoop f 2048 searchInit = searchPasses f 2048 :=
  searchLoop_searchPasses f 2048 0 le_rfl

theorem search_ne_zero_iff (f : Frame) (i : Fin 4) :
    (searchPasses f 2048 i).search ≠ 0 ↔ Searching f i 2048 (searchPasses f 2048 i) := by
  rcases searchPasses_inv f i 2048 le_rfl with h | h
  · exact iff_of_true (by rw [h.1]; decide) h
  · exact iff_of_false (not_not.mpr h.1) fun hs => absurd h.1 (by rw [hs.1]; decide)

theorem segment_error_iff (f : Frame) : segment f = .error ⟨⟩ ↔ ∃ i : Fin 4, NoNewline f i := by
  simp only [segment, searchLoop_eq]
  have ht : testzSi256 (fun i => (searchPasses f 2048 i).search)
      (fun i => (searchPasses f 2048 i).search) = false ↔ ∃ i : Fin 4, NoNewline f i := by
    rw [Bool.eq_false_iff, Ne, testzSi256_self, not_forall]
    exact exists_congr fun i => (search_ne_zero_iff f i).trans (searching_iff_noNewline f i)
  split
  · exact iff_of_true rfl (ht.mp ‹_›)
  · exact iff_of_false (fun h => nomatch h) (fun h => ‹¬_› (ht.mpr h))

theorem segment_ok {f : Frame} {start limit : M256} (h : segment f = .ok (start, limit)) :
    (∀ i : Fin 4, Found f i 2048 (searchPasses f 2048 i)) ∧
      (∀ i, limit i = ((searchPasses f 2048 i).offset <<< 3) +
        countBytes (((searchPasses f 2048 i).lines &&& set1Epi8 (~~~0x7F)) ^^^
          (((searchPasses f 2048 i).lines &&& set1Epi8 (~~~0x7F)) - 1))) ∧
      start = ![0, limit 0, limit 1, limit 2] := by
  simp only [segment, searchLoop_eq] at h
  split at h
  · cases h
  · rename_i ht
    obtain ⟨rfl, rfl⟩ := Prod.mk.inj (Except.ok.inj h)
    refine ⟨fun i => (searchPasses_inv f i 2048 le_rfl).resolve_left fun hs =>
      ((search_ne_zero_iff f i).mpr hs) ((testzSi256_self _).mp ((Bool.eq_false_or_eq_true _).resolve_right ht) i),
      fun _ => rfl, funext fun j => ?_⟩
    match j with
    | 0 => exact land_zero _
    | 1 => exact land_complement_zero _
    | 2 => exact land_complement_zero _
    | 3 => exact land_complement_zero _

theorem searchPasses_gather (f : Frame) {k : Nat} (hk : k < 2048) (i : Fin 4)
    (h : (searchPasses f k i).search >>> 63 = 1) :
    2048 * (i : Nat) ≤ (searchPasses f k i).offset.toNat ∧
      (searchPasses f k i).offset.toNat < 2048 * ((i : Nat) + 1) := by
  rcases searchPasses_inv f i k hk.le with hs | hf
  · rw [hs.offset_toNat i.isLt (by unfold quarterTop; omega)]
    unfold quarterTop
    omega
  · rw [hf.1] at h
    exact absurd h (by decide)

theorem segment_limit_bounds {f : Frame} {start limit : M256} (h : segment f = .ok (start, limit))
    (i : Fin 4) : 16384 * (i : Nat) < (limit i).toNat ∧ (limit i).toNat ≤ 16384 * ((i : Nat) + 1) ∧
      f.input.getD ((limit i).toNat - 1) 0 = '\n'.toUInt8 := by
  obtain ⟨hfound, hlim, -⟩ := segment_ok h
  obtain ⟨w, hw, hw', hn, hval⟩ := limit_of_found i.isLt (hfound i)
  obtain ⟨hq, hnl⟩ := word_newlineIdx f (by omega) hn
  rw [hlim i, hval]
  refine ⟨by omega, by omega, ?_⟩
  rwa [show 8 * w + newlineIdx (f.word w) + 1 - 1 = 8 * w + newlineIdx (f.word w) by omega]

theorem segment_limits_lt {f : Frame} {start limit : M256} (h : segment f = .ok (start, limit)) :
    0 < (limit 0).toNat ∧ (limit 0).toNat < (limit 1).toNat ∧ (limit 1).toNat < (limit 2).toNat ∧
      (limit 2).toNat < (limit 3).toNat ∧ (limit 3).toNat ≤ 65536 := by
  have b := segment_limit_bounds h
  have b0 := b 0
  have b1 := b 1
  have b2 := b 2
  have b3 := b 3
  have v : ((0 : Fin 4) : Nat) = 0 ∧ ((1 : Fin 4) : Nat) = 1 ∧ ((2 : Fin 4) : Nat) = 2 ∧
    ((3 : Fin 4) : Nat) = 3 := ⟨rfl, rfl, rfl, rfl⟩
  omega

/-- `segment` fails exactly when a quarter of the frame has no newline in its 2048
words. Otherwise its limits increase, each lies in its own quarter right after a
newline byte, and the starts are 0 and the limits of the lanes below. The search is
its 2048 passes, and a lane gathers only words of its own quarter. -/
theorem segment_quarters (f : Frame) :
    (segment f = .error ⟨⟩ ↔ ∃ i : Fin 4, NoNewline f i) ∧
    (∀ start limit, segment f = .ok (start, limit) →
      start = ![0, limit 0, limit 1, limit 2] ∧
      (limit 0).toNat < (limit 1).toNat ∧ (limit 1).toNat < (limit 2).toNat ∧
      (limit 2).toNat < (limit 3).toNat ∧
      ∀ i : Fin 4, 16384 * (i : Nat) < (limit i).toNat ∧ (limit i).toNat ≤ 16384 * ((i : Nat) + 1) ∧
        f.input.getD ((limit i).toNat - 1) 0 = '\n'.toUInt8) ∧
    searchLoop f 2048 searchInit = searchPasses f 2048 ∧
    ∀ k < 2048, ∀ i : Fin 4, (searchPasses f k i).search >>> 63 = 1 →
      2048 * (i : Nat) ≤ (searchPasses f k i).offset.toNat ∧
        (searchPasses f k i).offset.toNat < 2048 * ((i : Nat) + 1) := by
  refine ⟨segment_error_iff f, fun start limit h => ?_, searchLoop_eq f,
    fun k hk i => searchPasses_gather f hk i⟩
  obtain ⟨-, h01, h12, h23, -⟩ := segment_limits_lt h
  exact ⟨(segment_ok h).2.2, h01, h12, h23, segment_limit_bounds h⟩

def uniformFrame (b : UInt8) : Frame :=
  ⟨List.replicate 65536 b, List.replicate 8 0, List.length_replicate _ _, List.length_replicate _ _⟩

theorem uniformFrame_word (b : UInt8) {w : Nat} (hw : w < 8192) :
    (uniformFrame b).word w = ofBytes (List.replicate 8 b) := by
  simp only [Frame.word, uniformFrame, List.drop_replicate, List.take_replicate]
  rw [min_eq_left (by omega)]

theorem segment_quarters_uniform :
    segment (uniformFrame 0) = .error ⟨⟩ ∧
      ∃ start limit, segment (uniformFrame 10) = .ok (start, limit) ∧
        start = ![0, limit 0, limit 1, limit 2] ∧ (limit 0).toNat < (limit 1).toNat ∧
        (limit 1).toNat < (limit 2).toNat ∧ (limit 2).toNat < (limit 3).toNat := by
  refine ⟨(segment_quarters _).1.mpr ⟨0, fun w _ hw => ?_⟩, ?_⟩
  · rw [uniformFrame_word 0 (by omega)]
    decide
  · cases h : segment (uniformFrame 10) with
    | error e =>
      obtain ⟨i, hi⟩ := (segment_quarters _).1.mp h
      have := hi (2048 * i) le_rfl (by omega)
      rw [uniformFrame_word 10 (by omega)] at this
      exact absurd this (by decide)
    | ok p =>
      obtain ⟨h1, h2, h3, h4, -⟩ := (segment_quarters _).2.1 p.1 p.2 h
      exact ⟨p.1, p.2, rfl, h1, h2, h3, h4⟩

end Domain.Parser
