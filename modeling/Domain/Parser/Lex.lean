import Domain.Parser.Segment

/-! `Frame::lex` of the parser example: from the segments of `segment`, each lane
moves through its segment a word at a time, with `next_offset`, until its offset
reaches its limit. The model gives the loop `fuel`, a bound on its passes, and
`lex_finishes` shows that 65537 passes are enough for every frame: each pass moves
every working lane at least a byte on, and the bytes left in the four segments are
at most the frame's 65536. -/

namespace Domain.Parser

/-- `Frame::view` on a lane: the eight bytes at the lane's offset if it is working,
zero otherwise. -/
def view (f : Frame) (offset working : UInt64) : UInt64 :=
  maskI64GatherEpi64 f.memory 0 offset working 1

/-- The loop of `Frame::lex`, for `fuel` passes at most: the `count` it prints when
it breaks, or `none` if the fuel runs out first. -/
def lexLoop (f : Frame) (limit : M256) : Nat → M256 → M256 → Nat → Option Nat
  | 0, _, _, _ => none
  | fuel + 1, offset, working, count =>
    let v : M256 := fun i => view f (offset i) (working i)
    let offset : M256 := fun i => nextOffset (v i) (offset i) (working i)
    let working : M256 := fun i => cmpgtEpi64 (limit i) (offset i)
    let count := count + 1
    if testzSi256 working working then some count
    else lexLoop f limit fuel offset working count

/-- `Frame::lex`, its loop given `fuel` passes: the number of passes it prints, or
`none` if the fuel runs out. -/
def lex (f : Frame) (fuel : Nat) : Except Error (Option Nat) := do
  let (start, limit) ← segment f
  let offset := start
  let working : M256 := fun _ => ~~~0
  pure (lexLoop f limit fuel offset working 0)

/-- A lane of the loop: its limit within the frame, its offset at most seven bytes
past it, and working exactly while its offset is below its limit. -/
def LexLane (limit offset working : UInt64) : Prop :=
  limit.toNat ≤ 65536 ∧ offset.toNat ≤ 65543 ∧
    working = if offset.toNat < limit.toNat then ~~~0 else 0

theorem one_le_wordAdvance (view : UInt64) : 1 ≤ wordAdvance view ∧ wordAdvance view ≤ 8 := by
  unfold wordAdvance
  omega

theorem lexLane_step (f : Frame) {limit offset working : UInt64}
    (h : LexLane limit offset working) :
    let offset' := nextOffset (view f offset working) offset working
    let working' := cmpgtEpi64 limit offset'
    LexLane limit offset' working' ∧
      limit.toNat - offset'.toNat ≤ limit.toNat - offset.toNat ∧
      (working' ≠ 0 → limit.toNat - offset'.toNat < limit.toNat - offset.toNat) := by
  obtain ⟨hl, ho, hw⟩ := h
  intro offset' working'
  have hcmp : ∀ o : UInt64, o.toNat ≤ 65543 →
      cmpgtEpi64 limit o = if o.toNat < limit.toNat then ~~~0 else 0 := fun o h =>
    cmpgtEpi64_of_lt (by omega) (by omega)
  by_cases hlt : offset.toNat < limit.toNat
  · rw [if_pos hlt] at hw
    have ha := one_le_wordAdvance (view f offset working)
    have hadv : offset'.toNat = offset.toNat + wordAdvance (view f offset working) := by
      show (nextOffset _ offset working).toNat = _
      rw [hw, nextOffset_working, toNat_add, toNat_toUInt64, ← hw]
      omega
    have ho' : offset'.toNat ≤ 65543 := by omega
    refine ⟨⟨hl, ho', hcmp _ ho'⟩, by omega, fun _ => by omega⟩
  · rw [if_neg hlt] at hw
    have hidle : offset' = offset := by
      show nextOffset _ offset working = offset
      rw [hw, nextOffset_idle]
    have hw' : working' = 0 := by
      show cmpgtEpi64 limit offset' = 0
      rw [hidle, hcmp _ ho, if_neg hlt]
    rw [hw', hidle]
    exact ⟨⟨hl, ho, by rw [if_neg hlt]⟩, le_rfl, fun h => absurd rfl h⟩

def remaining (limit offset : M256) : Nat :=
  ((limit 0).toNat - (offset 0).toNat) + ((limit 1).toNat - (offset 1).toNat) +
    ((limit 2).toNat - (offset 2).toNat) + ((limit 3).toNat - (offset 3).toNat)

theorem remaining_lt {limit o o' : M256}
    (hle : ∀ i, (limit i).toNat - (o' i).toNat ≤ (limit i).toNat - (o i).toNat) (i : Fin 4)
    (hlt : (limit i).toNat - (o' i).toNat < (limit i).toNat - (o i).toNat) :
    remaining limit o' < remaining limit o := by
  have h0 := hle 0
  have h1 := hle 1
  have h2 := hle 2
  have h3 := hle 3
  unfold remaining
  match i with
  | 0 => omega
  | 1 => omega
  | 2 => omega
  | 3 => omega

theorem lexLoop_finishes (f : Frame) (limit : M256) :
    ∀ fuel offset working count, (∀ i, LexLane (limit i) (offset i) (working i)) →
      remaining limit offset < fuel →
      ∃ n ≤ count + fuel, lexLoop f limit fuel offset working count = some n
  | 0, _, _, _, _, hr => absurd hr (Nat.not_lt_zero _)
  | fuel + 1, offset, working, count, hinv, hr => by
    have hs := fun i => lexLane_step f (hinv i)
    simp only [lexLoop]
    split
    · exact ⟨count + 1, by omega, rfl⟩
    · rename_i ht
      rw [testzSi256_self, not_forall] at ht
      obtain ⟨i, hi⟩ := ht
      have hdec := remaining_lt (fun i => (hs i).2.1) i ((hs i).2.2 hi)
      obtain ⟨n, hn, h⟩ := lexLoop_finishes f limit fuel _ _ (count + 1) (fun i => (hs i).1)
        (by omega)
      exact ⟨n, by omega, h⟩

theorem lex_start {f : Frame} {start limit : M256} (h : segment f = .ok (start, limit)) :
    (∀ i, LexLane (limit i) (start i) (~~~0)) ∧ remaining limit start < 65537 := by
  have hl := segment_limits_lt h
  have b := segment_limit_bounds h
  obtain ⟨-, -, rfl⟩ := segment_ok h
  have hlt : ∀ i, (![0, limit 0, limit 1, limit 2] i).toNat < (limit i).toNat := fun i =>
    match i with
    | 0 => by show (0 : UInt64).toNat < _; rw [UInt64.toNat_zero]; omega
    | 1 => by show (limit 0).toNat < _; omega
    | 2 => by show (limit 1).toNat < _; omega
    | 3 => by show (limit 2).toNat < _; omega
  refine ⟨fun i => ?_, ?_⟩
  · have := (b i).2.1
    have := hlt i
    have := i.isLt
    exact ⟨by omega, by omega, (if_pos (hlt i)).symm⟩
  · show (limit 0).toNat - (0 : UInt64).toNat + ((limit 1).toNat - (limit 0).toNat) +
      ((limit 2).toNat - (limit 1).toNat) + ((limit 3).toNat - (limit 2).toNat) < 65537
    rw [UInt64.toNat_zero]
    omega

theorem lex_finishes (f : Frame) :
    lex f 65537 = .error ⟨⟩ ∨ ∃ n ≤ 65537, lex f 65537 = .ok (some n) := by
  cases h : segment f with
  | error e => exact .inl (by simp only [lex, h]; rfl)
  | ok p =>
    obtain ⟨start, limit⟩ := p
    obtain ⟨hinit, hrem⟩ := lex_start h
    obtain ⟨n, hn, hloop⟩ := lexLoop_finishes f limit 65537 _ _ 0 hinit hrem
    exact .inr ⟨n, by omega, by simp only [lex, h]; rw [← hloop]; rfl⟩

/-- The word of `word_mask` ends at the first `'='`, tab or newline of the view, not
at a space: `mid_line_space` compares with `b'='` where its comments say `0x20`. The
advance of `next_offset` is still between one and eight bytes, so `lex` still
finishes. On a view whose first byte is a space, which ends the word at once by the
comments, the mask is all-ones and the lane moves eight bytes. -/
theorem wordMask_skips_space :
    (∀ view : UInt64, laneBytes (wordMask view) =
      List.replicate ((laneBytes view).findIdx isWordEnd) 0xFF ++
        List.replicate (8 - (laneBytes view).findIdx isWordEnd) 0) ∧
    (∀ view offset : UInt64, nextOffset view offset (~~~0) = offset + (wordAdvance view).toUInt64 ∧
      nextOffset view offset 0 = offset) ∧
    (∀ view, 1 ≤ wordAdvance view ∧ wordAdvance view ≤ 8) ∧
    (∀ f : Frame, lex f 65537 = .error ⟨⟩ ∨ ∃ n ≤ 65537, lex f 65537 = .ok (some n)) ∧
    (laneBytes 0x20).findIdx (fun b => b == 0x20 || b == 0x09 || b == 0x0A) = 0 ∧
    laneBytes (wordMask 0x20) = List.replicate 8 0xFF ∧ wordAdvance 0x20 = 8 :=
  ⟨laneBytes_wordMask, fun view offset => ⟨nextOffset_working view offset, nextOffset_idle view offset⟩,
    one_le_wordAdvance, lex_finishes, by decide, by decide, by decide⟩

end Domain.Parser
