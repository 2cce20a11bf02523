import Domain.NewName.Label

/-! `UncertainName` of `base::new_name`: an absolute or relative domain name in
the wire format, as its bytes. `from_bytes` checks the label lengths in one loop
over the length octets; its safety comment (`from_bytes_unchecked`) asks for the
wire format, at most 255 bytes, and a closing root label at 255 bytes.
`cmp` finds the shared byte suffix of two names, then walks both names label by
label to the boundary of that suffix. -/

namespace Domain.NewName

/-- Modelled from the spec: `Name::MAX_SIZE` (the absolute-name module is not in
src/), 255, the size limit of RFC 1035 that `UncertainName::MAX_SIZE` repeats. -/
def nameMaxSize : Nat := 255

structure UncertainNameError where
  deriving DecidableEq, Repr

def encodeLabels : List (List UInt8) → List UInt8
  | [] => []
  | l :: ls => l.length.toUInt8 :: l ++ encodeLabels ls

def NonRootLabels (ls : List (List UInt8)) : Prop :=
  ∀ l ∈ ls, 0 < l.length ∧ l.length ≤ 63

/-- The wire format of a name: non-root labels, optionally closed by the root
label, a single zero octet. -/
def WireName (b : List UInt8) : Prop :=
  ∃ ls, NonRootLabels ls ∧ (b = encodeLabels ls ∨ b = encodeLabels ls ++ [0])

/-- The safety condition of `UncertainName::from_bytes_unchecked`: the wire
format, within 255 bytes, and closed by the root label when 255 bytes long. -/
def SafeName (b : List UInt8) : Prop :=
  WireName b ∧ b.length ≤ nameMaxSize ∧ (b.length = nameMaxSize → b.getLast? = some 0)

@[simp] theorem encodeLabels_nil : encodeLabels [] = [] := rfl

@[simp] theorem encodeLabels_cons (l : List UInt8) (ls : List (List UInt8)) :
    encodeLabels (l :: ls) = l.length.toUInt8 :: (l ++ encodeLabels ls) := rfl

theorem wireName_nil : WireName [] := ⟨[], fun _ h => absurd h (List.not_mem_nil _), .inl rfl⟩

theorem wireName_zero_cons {b : UInt8} {rest : List UInt8} (hb : b.toNat = 0) :
    WireName (b :: rest) ↔ rest = [] := by
  constructor
  · rintro ⟨ls, hls, h⟩
    cases ls with
    | nil =>
      rcases h with h | h
      · cases h
      · simp at h
        exact h.2
    | cons l ls =>
      have hl := hls l (List.mem_cons_self _ _)
      have hfirst : b = l.length.toUInt8 := by rcases h with h | h <;> simp at h <;> exact h.1
      rw [hfirst, toNat_toUInt8 (by omega)] at hb
      omega
  · rintro rfl
    have h0 : b = 0 := UInt8.toNat.inj hb
    exact ⟨[], fun _ h => absurd h (List.not_mem_nil _), .inr (by rw [h0]; rfl)⟩

theorem not_wireName_of_le {b : UInt8} {rest : List UInt8} (hb : 64 ≤ b.toNat) :
    ¬WireName (b :: rest) := by
  rintro ⟨ls, hls, h⟩
  cases ls with
  | nil =>
    rcases h with h | h
    · cases h
    · simp only [encodeLabels, List.nil_append, List.cons.injEq] at h
      rw [h.1] at hb
      simp at hb
  | cons l ls =>
    have hl := hls l (List.mem_cons_self _ _)
    have hfirst : b = l.length.toUInt8 := by rcases h with h | h <;> simp at h <;> exact h.1
    rw [hfirst, toNat_toUInt8 (by omega)] at hb
    omega

theorem wireName_cons {b : UInt8} {rest : List UInt8} (h0 : 0 < b.toNat) (h64 : b.toNat < 64) :
    WireName (b :: rest) ↔ b.toNat ≤ rest.length ∧ WireName (rest.drop b.toNat) := by
  constructor
  · rintro ⟨ls, hls, h⟩
    cases ls with
    | nil =>
      rcases h with h | h
      · cases h
      · simp only [encodeLabels, List.nil_append, List.cons.injEq] at h
        rw [h.1] at h0
        simp at h0
    | cons l ls =>
      have hl := hls l (List.mem_cons_self _ _)
      have htail : NonRootLabels ls := fun l' h' => hls l' (List.mem_cons_of_mem _ h')
      have hfirst : b = l.length.toUInt8 ∧ (rest = l ++ encodeLabels ls ∨
          rest = l ++ encodeLabels ls ++ [0]) := by
        rcases h with h | h <;> simp at h
        · exact ⟨h.1, .inl h.2⟩
        · exact ⟨h.1, .inr (by simpa using h.2)⟩
      obtain ⟨rfl, hrest⟩ := hfirst
      rw [toNat_toUInt8 (by omega)]
      rcases hrest with rfl | rfl
      · exact ⟨by simp, ls, htail, .inl (by simp)⟩
      · exact ⟨by simp, ls, htail, .inr (by simp)⟩
  · rintro ⟨hlen, ls, hls, h⟩
    obtain ⟨l, hl, hrest⟩ : ∃ l : List UInt8, l.length = b.toNat ∧ rest = l ++ rest.drop b.toNat :=
      ⟨rest.take b.toNat, by simp [hlen], (List.take_append_drop _ _).symm⟩
    have hb : l.length.toUInt8 = b := UInt8.toNat.inj (by rw [hl, toNat_toUInt8 (by omega)])
    refine ⟨l :: ls, ?_, ?_⟩
    · intro l' hmem
      rcases List.mem_cons.mp hmem with rfl | hmem
      · omega
      · exact hls l' hmem
    · rw [hrest]
      rcases h with h | h
      · exact .inl (by rw [h, encodeLabels_cons, hb])
      · exact .inr (by rw [h, encodeLabels_cons, hb, List.cons_append, List.append_assoc])

namespace UncertainName

/-- The loop of `UncertainName::from_bytes` over the length octets, from
`index`: the index it stops at, or the error of a length of 64 or more. -/
def fromBytesLoop (bytes : List UInt8) (index : Nat) : Except UncertainNameError Nat :=
  if h : index < bytes.length then
    let length := bytes[index]
    if length.toNat = 0 then .ok (index + 1)
    else if 64 ≤ length.toNat then .error ⟨⟩
    else fromBytesLoop bytes (index + 1 + length.toNat)
  else .ok index
termination_by bytes.length - index

/-- `UncertainName::from_bytes`; the name it returns is the byte string itself. -/
def fromBytes (bytes : List UInt8) : Except UncertainNameError (List UInt8) :=
  if bytes.length > nameMaxSize then .error ⟨⟩
  else
    match fromBytesLoop bytes 0 with
    | .error e => .error e
    | .ok index => if index ≠ bytes.length then .error ⟨⟩ else .ok bytes

theorem fromBytesLoop_of_le {bytes : List UInt8} {index : Nat} (h : bytes.length ≤ index) :
    fromBytesLoop bytes index = .ok index := by
  rw [fromBytesLoop, dif_neg (by omega)]

theorem fromBytesLoop_eq_length (bytes : List UInt8) (index : Nat) (hi : index ≤ bytes.length) :
    fromBytesLoop bytes index = .ok bytes.length ↔ WireName (bytes.drop index) := by
  induction index using fromBytesLoop.induct bytes with
  | case1 index h length hz =>
    rw [fromBytesLoop, dif_pos h]
    simp only [hz, if_true, List.drop_eq_getElem_cons h, wireName_zero_cons hz, Except.ok.injEq,
      List.drop_eq_nil_iff]
    omega
  | case2 index h length hz h64 =>
    rw [fromBytesLoop, dif_pos h]
    simp only [hz, if_false, h64, if_true, List.drop_eq_getElem_cons h]
    exact ⟨nofun, fun hw => absurd hw (not_wireName_of_le h64)⟩
  | case3 index h length hz h64 ih =>
    simp only [length] at hz h64 ih
    rw [fromBytesLoop, dif_pos h]
    simp only [hz, if_false, h64, List.drop_eq_getElem_cons h,
      wireName_cons (Nat.pos_of_ne_zero hz) (by omega), List.length_drop, List.drop_drop]
    by_cases hle : index + 1 + bytes[index].toNat ≤ bytes.length
    · rw [ih hle, iff_and_self]
      intro
      omega
    · rw [fromBytesLoop_of_le (by omega), Except.ok.injEq]
      omega
  | case4 index h =>
    rw [fromBytesLoop_of_le (by omega)]
    simp only [Except.ok.injEq, List.drop_eq_nil_of_le (by omega : bytes.length ≤ index)]
    exact ⟨fun _ => wireName_nil, fun _ => by omega⟩

theorem fromBytes_eq_ok (bytes : List UInt8) :
    fromBytes bytes = .ok bytes ↔ WireName bytes ∧ bytes.length ≤ nameMaxSize := by
  have hloop := fromBytesLoop_eq_length bytes 0 (Nat.zero_le _)
  rw [List.drop_zero] at hloop
  unfold fromBytes
  by_cases hsize : bytes.length > nameMaxSize
  · simp only [hsize, if_true]
    exact ⟨nofun, fun h => by omega⟩
  · simp only [hsize, if_false]
    rcases hl : fromBytesLoop bytes 0 with e | index
    · rw [hl] at hloop
      simp only [reduceCtorEq, false_iff] at hloop
      simp [hloop]
    · rw [hl, Except.ok.injEq] at hloop
      by_cases hidx : index = bytes.length
      · simp [hidx, ← hloop]
        omega
      · simp [hidx, ← hloop]

/-- `UncertainName::split_first`: the first label and the rest, `none` for the
empty and the root name. On a name `from_bytes` accepted, the `split_at` at the
length octet is in bounds, so it is `take` and `drop`. -/
def splitFirst : List UInt8 → Option (List UInt8 × List UInt8)
  | [] => none
  | [_] => none
  | length :: bytes => some (bytes.take length.toNat, bytes.drop length.toNat)

/-- The state of the `loop` of `cmp`: the head label and the tail of each side. -/
structure CmpWalk where
  thisHead : List UInt8
  thisTail : List UInt8
  thatHead : List UInt8
  thatTail : List UInt8

inductive WalkStep
  | next (s : CmpWalk)
  | done (o : Ordering)
  /-- `unwrap_unchecked` of `None`: undefined behaviour. -/
  | unwrapNone

/-- How a run of `cmp` ends: with an ordering, or in undefined behaviour. -/
inductive CmpEnd
  | ordered (o : Ordering)
  | undefined
  deriving DecidableEq, Repr

/-- One pass of the `loop` of `UncertainName::cmp` with the shared suffix
`suffix`: compare the heads once both tails have the same length within the
suffix; otherwise split the longer tail, and any tail longer than the suffix. -/
def cmpStep (suffix : Nat) (s : CmpWalk) : WalkStep :=
  let thisLen := s.thisTail.length
  let thatLen := s.thatTail.length
  if thisLen = thatLen ∧ thisLen < suffix then .done (labelCmp s.thisHead s.thatHead)
  else
    let this := if thisLen > thatLen ∨ thisLen > suffix then splitFirst s.thisTail
      else some (s.thisHead, s.thisTail)
    let that := if thatLen > thisLen ∨ thatLen > suffix then splitFirst s.thatTail
      else some (s.thatHead, s.thatTail)
    match this, that with
    | some (thisHead, thisTail), some (thatHead, thatTail) =>
      .next ⟨thisHead, thisTail, thatHead, thatTail⟩
    | _, _ => .unwrapNone

/-- The `loop` of `cmp`, for at most `fuel` passes; `none` when it has not
stopped by then. -/
def cmpLoop (suffix : Nat) : Nat → CmpWalk → Option CmpEnd
  | 0, _ => none
  | fuel + 1, s =>
    match cmpStep suffix s with
    | .next s => cmpLoop suffix fuel s
    | .done o => some (.ordered o)
    | .unwrapNone => some .undefined

/-- `UncertainName::cmp`, its loop run for at most `fuel` passes. The shared
suffix is the number of trailing bytes equal ignoring ASCII case. Both sides of
the walk start from `self.split_first()`, as in the source. -/
def cmp (fuel : Nat) (this that : List UInt8) : Option CmpEnd :=
  match (this.reverse.zip that.reverse).findIdx? (fun p => !eqIgnoreAsciiCase p.1 p.2) with
  | some suffix =>
    match splitFirst this, splitFirst this with
    | some (thisHead, thisTail), some (thatHead, thatTail) =>
      cmpLoop suffix fuel ⟨thisHead, thisTail, thatHead, thatTail⟩
    | _, _ => some .undefined
  | none => some (.ordered (natCmp this.length that.length))

def CmpWalk.Twin (s : CmpWalk) : Prop := s.thisHead = s.thatHead ∧ s.thisTail = s.thatTail

theorem cmpStep_twin {suffix : Nat} {s : CmpWalk} (hs : s.Twin) :
    (∃ s', cmpStep suffix s = .next s' ∧ s'.Twin) ∨ cmpStep suffix s = .done .eq ∨
      cmpStep suffix s = .unwrapNone := by
  obtain ⟨h, t, h', t'⟩ := s
  obtain ⟨rfl, rfl⟩ : h = h' ∧ t = t' := hs
  unfold cmpStep
  dsimp only
  split_ifs with hstop hsplit
  · exact .inr (.inl (by rw [labelCmp_self]))
  · rcases splitFirst t with _ | ⟨h', t'⟩
    · exact .inr (.inr rfl)
    · exact .inl ⟨_, rfl, rfl, rfl⟩
  · exact .inl ⟨_, rfl, rfl, rfl⟩

theorem cmpLoop_twin {suffix : Nat} {o : Ordering} :
    ∀ {fuel : Nat} {s : CmpWalk}, s.Twin → cmpLoop suffix fuel s = some (.ordered o) → o = .eq
  | 0, _, _, h => by cases h
  | fuel + 1, s, hs, h => by
    unfold cmpLoop at h
    rcases @cmpStep_twin suffix _ hs with ⟨s', hstep, hs'⟩ | hstep | hstep <;>
      rw [hstep] at h
    · exact cmpLoop_twin hs' h
    · cases h
      rfl
    · cases h

theorem cmpLoop_of_fixed {suffix : Nat} {s : CmpWalk} (h : cmpStep suffix s = .next s) :
    ∀ fuel, cmpLoop suffix fuel s = none
  | 0 => rfl
  | fuel + 1 => by rw [cmpLoop, h]; exact cmpLoop_of_fixed h fuel

/-- A relative name of four labels of 63, 63, 63 and 62 bytes: 255 bytes and no
root label. -/
def relative255 : List UInt8 :=
  encodeLabels [List.replicate 63 97, List.replicate 63 97, List.replicate 63 97,
    List.replicate 62 97]

/-- `from_bytes` accepts every wire-format name of at most 255 bytes, so also a
255-byte relative name, which breaks the safety condition it then hands to
`from_bytes_unchecked`. -/
theorem fromBytes_accepts_unrooted_255 :
    (∀ bytes, fromBytes bytes = .ok bytes ↔ WireName bytes ∧ bytes.length ≤ nameMaxSize) ∧
      fromBytes relative255 = .ok relative255 ∧ relative255.length = nameMaxSize ∧
      ¬SafeName relative255 := by
  have hlen : relative255.length = nameMaxSize := by
    simp only [relative255, encodeLabels_cons, encodeLabels_nil, List.length_cons, List.length_append,
      List.length_replicate, List.length_nil]
    rfl
  have hwire : WireName relative255 := ⟨_, by simp [NonRootLabels], .inl rfl⟩
  refine ⟨fromBytes_eq_ok, (fromBytes_eq_ok _).mpr ⟨hwire, hlen.le⟩, hlen, fun h => ?_⟩
  have hlast : relative255.getLast? = some 97 := by
    simp [relative255, List.getLast?_append, List.getLast?_replicate]
  simpa [hlast] using h.2.2 hlen

/-- `cmp` never orders two names with a byte that differs within their common
length from the end: both sides of its walk are `self`, so it returns `Equal`,
runs forever, or unwraps `None`. For `a.` and `b.` it runs forever: the tail
after `a` is the root, one byte, exactly the shared suffix, and no pass splits. -/
theorem cmp_never_orders :
    (∀ fuel (this that : List UInt8) o,
        (this.reverse.zip that.reverse).any (fun p => !eqIgnoreAsciiCase p.1 p.2) →
        cmp fuel this that = some (.ordered o) → o = .eq) ∧
      fromBytes [1, 97, 0] = .ok [1, 97, 0] ∧ fromBytes [1, 98, 0] = .ok [1, 98, 0] ∧
      ∀ fuel, cmp fuel [1, 97, 0] [1, 98, 0] = none := by
  refine ⟨fun fuel this that o hany h => ?_, (fromBytes_eq_ok _).mpr ⟨⟨[[97]], by
      unfold NonRootLabels; decide, .inr rfl⟩, by decide⟩,
    (fromBytes_eq_ok _).mpr ⟨⟨[[98]], by unfold NonRootLabels; decide, .inr rfl⟩, by decide⟩,
    fun fuel => show cmpLoop 1 fuel ⟨[97], [0], [97], [0]⟩ = none from cmpLoop_of_fixed (by rfl) fuel⟩
  rw [← List.findIdx?_isSome, Option.isSome_iff_exists] at hany
  obtain ⟨suffix, hs⟩ := hany
  unfold cmp at h
  rw [hs] at h
  dsimp only at h
  rcases hsp : splitFirst this with _ | ⟨head, tail⟩ <;> simp only [hsp] at h
  · cases h
  · exact cmpLoop_twin (show CmpWalk.Twin ⟨head, tail, head, tail⟩ from ⟨rfl, rfl⟩) h

end UncertainName

end Domain.NewName
