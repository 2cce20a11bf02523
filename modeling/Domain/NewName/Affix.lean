import Mathlib.Data.List.GetD
import Domain.NewName.Uncertain

/-! The affix operations of `UncertainName`: `starts_with`, `ends_with`,
`strip_prefix`, `strip_suffix`, `parent` and `split_first`. They compare and
slice bytes, comparing ignoring ASCII case; on names in the wire format they
compare and cut label sequences, as a length octet (below 64) is never an ASCII
letter and the first byte of a name is a length octet. -/

namespace Domain.NewName

def ValidLabels (L : List (List UInt8)) : Prop :=
  (∀ l ∈ L, l.length ≤ 63) ∧ ∀ l ∈ L.dropLast, 0 < l.length

/-- Modelled from the spec: the labels `UncertainName::labels` yields (its
`Labels` iterator is not in src/), each read after its length octet, the root
label as the empty one. -/
def labels : List UInt8 → List (List UInt8)
  | [] => []
  | length :: bytes => bytes.take length.toNat :: labels (bytes.drop length.toNat)
termination_by bytes => bytes.length

/-- The wire form of label sequences over byte values: what the comparisons
ignoring case see of a name once its bytes are lowercased. -/
def encodeNats : List (List Nat) → List Nat
  | [] => []
  | l :: ls => l.length :: l ++ encodeNats ls

theorem encodeLabels_append (A B : List (List UInt8)) :
    encodeLabels (A ++ B) = encodeLabels A ++ encodeLabels B := by
  induction A with
  | nil => rfl
  | cons a A ih => simp [ih]

theorem labels_encodeLabels : ∀ {L : List (List UInt8)}, (∀ l ∈ L, l.length < 256) →
    labels (encodeLabels L) = L
  | [], _ => by simp [labels]
  | l :: L, h => by
    have hl := h l (List.mem_cons_self _ _)
    rw [encodeLabels_cons, labels, toNat_toUInt8 hl, List.take_left, List.drop_left,
      labels_encodeLabels fun l' hl' => h l' (List.mem_cons_of_mem _ hl')]

theorem length_lowerNats (a : List UInt8) : (lowerNats a).length = a.length := List.length_map _ _

theorem toAsciiLowercase_of_lt {b : UInt8} (h : b.toNat < 65) : toAsciiLowercase b = b := by
  simp [toAsciiLowercase]; omega

theorem lowerNats_encodeLabels : ∀ {L : List (List UInt8)}, (∀ l ∈ L, l.length ≤ 63) →
    lowerNats (encodeLabels L) = encodeNats (L.map lowerNats)
  | [], _ => rfl
  | l :: L, h => by
    have hl := h l (List.mem_cons_self _ _)
    rw [encodeLabels_cons, lowerNats_cons, toAsciiLowercase_of_lt (by rw [toNat_toUInt8 (by omega)]; omega),
      toNat_toUInt8 (by omega), lowerNats, List.map_append, ← lowerNats, ← lowerNats,
      lowerNats_encodeLabels fun l' hl' => h l' (List.mem_cons_of_mem _ hl')]
    simp [encodeNats, length_lowerNats]

theorem append_prefix_append {α : Type} {a b x y : List α} (h : a.length = b.length) :
    a ++ x <+: b ++ y ↔ a = b ∧ x <+: y := by
  constructor
  · rintro ⟨t, ht⟩
    rw [List.append_assoc] at ht
    obtain ⟨rfl, rfl⟩ := List.append_inj ht h
    exact ⟨rfl, t, rfl⟩
  · rintro ⟨rfl, hxy⟩
    exact (List.prefix_append_right_inj a).mpr hxy

theorem encodeNats_prefix_iff : ∀ {Q M : List (List Nat)}, encodeNats Q <+: encodeNats M ↔ Q <+: M
  | [], M => by simp [encodeNats]
  | q :: Q, [] => by simp [encodeNats]
  | q :: Q, m :: M => by
    simp only [encodeNats, List.cons_prefix_cons, List.cons_append]
    constructor
    · rintro ⟨hlen, h⟩
      obtain ⟨rfl, hrest⟩ := (append_prefix_append hlen).mp h
      exact ⟨rfl, encodeNats_prefix_iff.mp hrest⟩
    · rintro ⟨rfl, h⟩
      exact ⟨rfl, (append_prefix_append rfl).mpr ⟨rfl, encodeNats_prefix_iff.mpr h⟩⟩

theorem ValidLabels.right {A B : List (List UInt8)} (h : ValidLabels (A ++ B)) : ValidLabels B := by
  refine ⟨fun l hl => h.1 l (List.mem_append_right _ hl), fun l hl => h.2 l ?_⟩
  rcases B.eq_nil_or_concat with rfl | ⟨B', b, rfl⟩
  · simp at hl
  · rw [List.concat_eq_append, List.dropLast_concat] at hl
    rw [List.concat_eq_append, ← List.append_assoc, List.dropLast_concat]
    exact List.mem_append_right _ hl

theorem ValidLabels.left {A B : List (List UInt8)} (h : ValidLabels (A ++ B)) : ValidLabels A := by
  refine ⟨fun l hl => h.1 l (List.mem_append_left _ hl), fun l hl => h.2 l ?_⟩
  rcases B.eq_nil_or_concat with rfl | ⟨B', b, rfl⟩
  · simpa using hl
  · rw [List.concat_eq_append, ← List.append_assoc, List.dropLast_concat]
    exact List.mem_append_left _ (List.dropLast_subset _ hl)

theorem ValidLabels.lt {L : List (List UInt8)} (h : ValidLabels L) : ∀ l ∈ L, l.length < 256 :=
  fun l hl => by have := h.1 l hl; omega

theorem encodeLabels_root : encodeLabels [[]] = [0] := rfl

theorem wireName_iff {b : List UInt8} : WireName b ↔ ∃ L, ValidLabels L ∧ b = encodeLabels L := by
  constructor
  · rintro ⟨ls, hls, rfl | rfl⟩
    · exact ⟨ls, ⟨fun l hl => (hls l hl).2, fun l hl => (hls l (List.dropLast_subset _ hl)).1⟩, rfl⟩
    · refine ⟨ls ++ [[]], ⟨fun l hl => ?_, fun l hl => ?_⟩, by rw [encodeLabels_append, encodeLabels_root]⟩
      · rcases List.mem_append.mp hl with hl | hl
        · exact (hls l hl).2
        · simp at hl; simp [hl]
      · rw [List.dropLast_concat] at hl
        exact (hls l hl).1
  · rintro ⟨L, ⟨h63, hne⟩, rfl⟩
    rcases L.eq_nil_or_concat with rfl | ⟨L', l, rfl⟩
    · exact wireName_nil
    · rw [List.concat_eq_append, List.dropLast_concat] at hne
      rw [List.concat_eq_append] at h63 ⊢
      have hL' : NonRootLabels L' := fun l' hl' => ⟨hne l' hl', h63 l' (List.mem_append_left _ hl')⟩
      rcases l.eq_nil_or_concat with rfl | ⟨l₀, x, rfl⟩
      · exact ⟨L', hL', .inr (by rw [encodeLabels_append, encodeLabels_root])⟩
      · refine ⟨L' ++ [l₀.concat x], fun l' hl' => ?_, .inl rfl⟩
        rcases List.mem_append.mp hl' with hl' | hl'
        · exact hL' l' hl'
        · simp at hl'; subst hl'
          exact ⟨by simp, h63 _ (by simp)⟩

theorem SafeName.drop {n : List UInt8} (h : SafeName n) {k : Nat} (hw : WireName (n.drop k)) :
    SafeName (n.drop k) := by
  obtain ⟨-, hle, hlast⟩ := h
  refine ⟨hw, by simp; omega, fun h255 => ?_⟩
  simp only [List.length_drop, nameMaxSize] at h255 hle
  rw [show k = 0 by omega, List.drop_zero]
  exact hlast (by simp [nameMaxSize]; omega)

theorem SafeName.take {n : List UInt8} (h : SafeName n) {k : Nat} (hw : WireName (n.take k)) :
    SafeName (n.take k) := by
  obtain ⟨-, hle, hlast⟩ := h
  refine ⟨hw, by simp; omega, fun h255 => ?_⟩
  simp only [List.length_take, nameMaxSize] at h255 hle
  rw [List.take_of_length_le (by omega)]
  exact hlast (by simp [nameMaxSize]; omega)

theorem ValidLabels.split {L : List (List UInt8)} (h : ValidLabels L) (k : Nat) :
    ValidLabels (L.take k) ∧ ValidLabels (L.drop k) := by
  rw [← List.take_append_drop k L] at h
  exact ⟨h.left, h.right⟩

theorem encodeLabels_take_drop (L : List (List UInt8)) (k : Nat) :
    encodeLabels L = encodeLabels (L.take k) ++ encodeLabels (L.drop k) := by
  rw [← encodeLabels_append, List.take_append_drop]

theorem length_encodeLabels_eq {A B : List (List UInt8)} (hA : ∀ l ∈ A, l.length ≤ 63)
    (hB : ∀ l ∈ B, l.length ≤ 63) (h : A.map lowerNats = B.map lowerNats) :
    (encodeLabels A).length = (encodeLabels B).length := by
  rw [← length_lowerNats, lowerNats_encodeLabels hA, h, ← lowerNats_encodeLabels hB, length_lowerNats]

theorem encodeNats_inj {Q M : List (List Nat)} : encodeNats Q = encodeNats M ↔ Q = M :=
  ⟨fun h => (encodeNats_prefix_iff.mp (h ▸ List.prefix_refl _)).eq_of_length
      (Nat.le_antisymm (encodeNats_prefix_iff.mp (h ▸ List.prefix_refl _)).length_le
        (encodeNats_prefix_iff.mp (h.symm ▸ List.prefix_refl _)).length_le), congrArg _⟩

theorem labelEq_encodeLabels {A B : List (List UInt8)} (hA : ∀ l ∈ A, l.length ≤ 63)
    (hB : ∀ l ∈ B, l.length ≤ 63) :
    labelEq (encodeLabels A) (encodeLabels B) = true ↔ A.map lowerNats = B.map lowerNats := by
  rw [labelEq_iff, lowerNats_encodeLabels hA, lowerNats_encodeLabels hB, encodeNats_inj]

theorem length_encodeLabels_cons (l : List UInt8) (L : List (List UInt8)) :
    (encodeLabels (l :: L)).length = 1 + l.length + (encodeLabels L).length := by
  simp only [encodeLabels_cons, List.length_cons, List.length_append]
  omega

theorem encodeLabels_eq_cons {L : List (List UInt8)} (hL : ValidLabels L) {b : UInt8}
    {bytes : List UInt8} (h : encodeLabels L = b :: bytes) (hne : bytes ≠ []) :
    ∃ l L', L = l :: L' ∧ 0 < l.length ∧ b.toNat = l.length ∧ bytes = l ++ encodeLabels L' := by
  obtain _ | ⟨l, L'⟩ := L
  · cases h
  · rw [encodeLabels_cons, List.cons.injEq] at h
    obtain ⟨rfl, rfl⟩ := h
    have hl := hL.1 l (List.mem_cons_self _ _)
    refine ⟨l, L', rfl, Nat.pos_of_ne_zero fun h0 => ?_, toNat_toUInt8 (by omega), rfl⟩
    obtain rfl := List.length_eq_zero.mp h0
    have hL'ne : L' ≠ [] := by rintro rfl; exact hne rfl
    obtain ⟨l', L'', rfl⟩ := List.exists_cons_of_ne_nil hL'ne
    exact absurd (hL.2 [] (by simp)) (by simp)

namespace UncertainName

/-- Modelled from the spec: a `RelName` (the relative-name module is not in
src/), labels of 1 to 63 bytes in the wire format, without the root label. -/
def RelWireName (b : List UInt8) : Prop := ∃ ls, NonRootLabels ls ∧ b = encodeLabels ls

theorem RelWireName.validLabels {b : List UInt8} (h : RelWireName b) :
    ∃ L, ValidLabels L ∧ b = encodeLabels L := by
  obtain ⟨ls, hls, rfl⟩ := h
  exact ⟨ls, ⟨fun l hl => (hls l hl).2, fun l hl => (hls l (List.dropLast_subset _ hl)).1⟩, rfl⟩

def startsWith (n p : List UInt8) : Bool :=
  if n.length < p.length then false else labelEq (n.take p.length) p

theorem startsWith_iff (n p : List UInt8) : startsWith n p = true ↔ lowerNats p <+: lowerNats n := by
  unfold startsWith
  split_ifs with h
  · simp only [Bool.false_eq_true, false_iff]
    intro hp
    have := hp.length_le
    rw [length_lowerNats, length_lowerNats] at this
    omega
  · rw [labelEq_iff, List.prefix_iff_eq_take, length_lowerNats, lowerNats, lowerNats, lowerNats,
      List.map_take, eq_comm]

theorem startsWith_labels {n p : List UInt8} (hn : WireName n) (hp : RelWireName p) :
    startsWith n p = true ↔ (labels p).map lowerNats <+: (labels n).map lowerNats := by
  obtain ⟨L, hL, rfl⟩ := wireName_iff.mp hn
  obtain ⟨P, hP, rfl⟩ := hp.validLabels
  rw [startsWith_iff, labels_encodeLabels hL.lt, labels_encodeLabels hP.lt,
    lowerNats_encodeLabels hL.1, lowerNats_encodeLabels hP.1, encodeNats_prefix_iff]

def stripPrefix (n p : List UInt8) : Option (List UInt8) :=
  if startsWith n p then some (n.drop p.length) else none

theorem stripPrefix_labels {n p r : List UInt8} (hn : SafeName n) (hp : RelWireName p)
    (h : stripPrefix n p = some r) : SafeName r ∧ labels r = (labels n).drop (labels p).length := by
  unfold stripPrefix at h
  split_ifs at h with hs
  cases h
  have hpre := (startsWith_labels hn.1 hp).mp hs
  obtain ⟨L, hL, rfl⟩ := wireName_iff.mp hn.1
  obtain ⟨P, hP, rfl⟩ := hp.validLabels
  rw [labels_encodeLabels hL.lt, labels_encodeLabels hP.lt] at hpre ⊢
  obtain ⟨T, hT⟩ := hpre
  have hk : (L.take P.length).map lowerNats = P.map lowerNats := by
    rw [List.map_take, ← hT, List.take_left' (List.length_map _ _)]
  obtain ⟨hL₁, hL₂⟩ := hL.split P.length
  have hdrop : (encodeLabels L).drop (encodeLabels P).length = encodeLabels (L.drop P.length) := by
    rw [encodeLabels_take_drop L P.length, length_encodeLabels_eq hP.1 hL₁.1 hk.symm, List.drop_left]
  rw [hdrop, labels_encodeLabels hL₂.lt]
  exact ⟨hdrop ▸ hn.drop (hdrop ▸ wireName_iff.mpr ⟨_, hL₂, rfl⟩), rfl⟩

/-- The `while` loop of `UncertainName::ends_with`: from `index`, step over a
label at a time by its length octet until `offset` is reached or passed. The
octet is in bounds, as `index < offset ≤ self.len()`. -/
def skipLabels (bytes : List UInt8) (offset index : Nat) : Nat :=
  if index < offset then skipLabels bytes offset (index + 1 + (bytes.getD index 0).toNat)
  else index
termination_by offset - index

theorem skipLabels_of_le {bytes : List UInt8} {offset index : Nat} (h : offset ≤ index) :
    skipLabels bytes offset index = index := by
  rw [skipLabels, if_neg (by omega)]

theorem skipLabels_append (a b : List UInt8) (offset index : Nat) :
    skipLabels (a ++ b) (a.length + offset) (a.length + index) =
      a.length + skipLabels b offset index := by
  induction index using skipLabels.induct b offset with
  | case1 index h ih =>
    have hb : skipLabels b offset index = skipLabels b offset (index + 1 + (b.getD index 0).toNat) := by
      rw [skipLabels, if_pos h]
    rw [skipLabels, if_pos (by omega), hb, ← ih, List.getD_append_right _ _ _ _ (by omega),
      Nat.add_sub_cancel_left]
    congr 1
    omega
  | case2 index h => rw [skipLabels_of_le (by omega), skipLabels_of_le (by omega)]

theorem skipLabels_encodeLabels : ∀ {L : List (List UInt8)} {offset : Nat},
    (∀ l ∈ L, l.length < 256) → offset ≤ (encodeLabels L).length →
    (skipLabels (encodeLabels L) offset 0 = offset ↔ ∃ k, (encodeLabels (L.take k)).length = offset)
  | [], offset, _, h => by
    obtain rfl : offset = 0 := by simpa using h
    exact ⟨fun _ => ⟨0, rfl⟩, fun _ => skipLabels_of_le le_rfl⟩
  | l :: L, offset, hL, h => by
    have hl := hL l (List.mem_cons_self _ _)
    have hk : ∀ k, (encodeLabels ((l :: L).take (k + 1))).length =
        1 + l.length + (encodeLabels (L.take k)).length := fun k => by
      rw [List.take_succ_cons, length_encodeLabels_cons]
    rcases Nat.eq_zero_or_pos offset with rfl | hpos
    · exact ⟨fun _ => ⟨0, rfl⟩, fun _ => skipLabels_of_le le_rfl⟩
    have hstep : skipLabels (encodeLabels (l :: L)) offset 0 =
        skipLabels (encodeLabels (l :: L)) offset (1 + l.length) := by
      rw [skipLabels, if_pos hpos, encodeLabels_cons, List.getD_cons_zero, toNat_toUInt8 hl]
    rw [hstep]
    by_cases hle : offset ≤ 1 + l.length
    · rw [skipLabels_of_le hle]
      refine ⟨fun heq => ⟨1, by rw [hk 0]; simp; omega⟩, fun ⟨k, hk'⟩ => ?_⟩
      cases k with
      | zero => simp at hk'; omega
      | succ k => rw [hk k] at hk'; omega
    · obtain ⟨off, rfl⟩ : ∃ off, offset = (1 + l.length) + off := ⟨offset - (1 + l.length), by omega⟩
      have ha : (l.length.toUInt8 :: l).length = 1 + l.length := by simp; omega
      have hshift := skipLabels_append (l.length.toUInt8 :: l) (encodeLabels L) off 0
      rw [ha, Nat.add_zero] at hshift
      rw [length_encodeLabels_cons] at h
      rw [show encodeLabels (l :: L) = (l.length.toUInt8 :: l) ++ encodeLabels L from rfl, hshift,
        Nat.add_left_cancel_iff,
        skipLabels_encodeLabels (fun l' hl' => hL l' (List.mem_cons_of_mem _ hl')) (by omega)]
      refine ⟨fun ⟨k, hk'⟩ => ⟨k + 1, by rw [hk k, hk']⟩, fun ⟨k, hk'⟩ => ?_⟩
      cases k with
      | zero => simp at hk'; omega
      | succ k => exact ⟨k, by rw [hk k] at hk'; omega⟩

def endsWith (n s : List UInt8) : Bool :=
  if n.length < s.length then false
  else if skipLabels n (n.length - s.length) 0 ≠ n.length - s.length then false
  else labelEq (n.drop (n.length - s.length)) s

theorem endsWith_labels {n s : List UInt8} (hn : WireName n) (hs : WireName s) :
    endsWith n s = true ↔ (labels s).map lowerNats <:+ (labels n).map lowerNats := by
  obtain ⟨L, hL, rfl⟩ := wireName_iff.mp hn
  obtain ⟨S, hS, rfl⟩ := wireName_iff.mp hs
  rw [labels_encodeLabels hL.lt, labels_encodeLabels hS.lt]
  unfold endsWith
  constructor
  · intro h
    split_ifs at h with hlen hskip
    obtain ⟨k, hk⟩ := (skipLabels_encodeLabels hL.lt (by omega)).mp (not_not.mp hskip)
    rw [← hk, encodeLabels_take_drop L k, List.drop_left,
      labelEq_encodeLabels (hL.split k).2.1 hS.1, List.map_drop] at h
    rw [← h]
    exact List.drop_suffix _ _
  · rintro ⟨T, hT⟩
    have hk : (L.drop T.length).map lowerNats = S.map lowerNats := by
      rw [List.map_drop, ← hT, List.drop_left]
    have hlen := length_encodeLabels_eq (hL.split T.length).2.1 hS.1 hk
    have hoff : (encodeLabels L).length - (encodeLabels S).length =
        (encodeLabels (L.take T.length)).length := by
      rw [encodeLabels_take_drop L T.length, List.length_append, hlen]
      omega
    rw [if_neg (by rw [encodeLabels_take_drop L T.length, List.length_append]; omega), hoff,
      if_neg (not_not.mpr ((skipLabels_encodeLabels hL.lt (by rw [← hoff]; omega)).mpr ⟨_, rfl⟩)),
      encodeLabels_take_drop L T.length, List.drop_left,
      labelEq_encodeLabels (hL.split T.length).2.1 hS.1, hk]

def stripSuffix (n s : List UInt8) : Option (List UInt8) :=
  if endsWith n s then some (n.take (n.length - s.length)) else none

theorem stripSuffix_labels {n s r : List UInt8} (hn : SafeName n) (hs : WireName s)
    (h : stripSuffix n s = some r) :
    SafeName r ∧ labels r = (labels n).take ((labels n).length - (labels s).length) := by
  unfold stripSuffix at h
  split_ifs at h with he
  cases h
  have hsuf := (endsWith_labels hn.1 hs).mp he
  obtain ⟨L, hL, rfl⟩ := wireName_iff.mp hn.1
  obtain ⟨S, hS, rfl⟩ := wireName_iff.mp hs
  rw [labels_encodeLabels hL.lt, labels_encodeLabels hS.lt] at hsuf ⊢
  obtain ⟨T, hT⟩ := hsuf
  have hk : (L.drop T.length).map lowerNats = S.map lowerNats := by
    rw [List.map_drop, ← hT, List.drop_left]
  have hT' : T.length = L.length - S.length := by
    have := congrArg List.length hT
    simp only [List.length_append, List.length_map] at this
    omega
  obtain ⟨hL₁, hL₂⟩ := hL.split T.length
  have htake : (encodeLabels L).take ((encodeLabels L).length - (encodeLabels S).length) =
      encodeLabels (L.take T.length) := by
    rw [encodeLabels_take_drop L T.length, List.length_append,
      ← length_encodeLabels_eq hL₂.1 hS.1 hk, Nat.add_sub_cancel, List.take_left]
  refine ⟨hn.take (htake ▸ wireName_iff.mpr ⟨_, hL₁, rfl⟩), ?_⟩
  rw [htake, labels_encodeLabels hL₁.lt, hT']

def parent : List UInt8 → Option (List UInt8)
  | [] => none
  | [_] => none
  | length :: bytes => some (bytes.drop length.toNat)

theorem parent_labels {n r : List UInt8} (hn : SafeName n) (h : parent n = some r) :
    SafeName r ∧ labels r = (labels n).tail := by
  match n, hn, h with
  | b :: x :: xs, hn, h =>
    obtain ⟨L, hL, hb⟩ := wireName_iff.mp hn.1
    obtain ⟨l, L', rfl, -, hb', hbytes⟩ := encodeLabels_eq_cons hL hb.symm (List.cons_ne_nil _ _)
    simp only [parent, Option.some.injEq] at h
    subst h
    have hL' := (hL.split 1).2
    simp only [List.drop_succ_cons, List.drop_zero] at hL'
    have hdrop : (b :: x :: xs).drop (1 + l.length) = encodeLabels L' := by
      rw [← List.drop_drop, List.drop_one, List.tail_cons, hbytes, List.drop_left]
    rw [hb', hb, hbytes, List.drop_left, labels_encodeLabels hL.lt, labels_encodeLabels hL'.lt]
    exact ⟨hdrop ▸ hn.drop (hdrop ▸ wireName_iff.mpr ⟨_, hL', rfl⟩), rfl⟩

theorem parent_of_splitFirst {n l r : List UInt8} (h : splitFirst n = some (l, r)) :
    parent n = some r := by
  match n, h with
  | b :: x :: xs, h =>
    simp only [splitFirst, Option.some.injEq, Prod.mk.injEq] at h
    exact congrArg some h.2

theorem splitFirst_labels {n l r : List UInt8} (hn : SafeName n)
    (h : splitFirst n = some (l, r)) :
    SafeName r ∧ labels n = l :: labels r ∧ 0 < l.length ∧ l.length ≤ 63 := by
  obtain ⟨hr, hlabels⟩ := parent_labels hn (parent_of_splitFirst h)
  match n, hn, h with
  | b :: x :: xs, hn, h =>
    obtain ⟨L, hL, hb⟩ := wireName_iff.mp hn.1
    obtain ⟨l₀, L', rfl, hpos, hb', hbytes⟩ := encodeLabels_eq_cons hL hb.symm (List.cons_ne_nil _ _)
    simp only [splitFirst, Option.some.injEq, Prod.mk.injEq] at h
    rw [hb', hbytes, List.take_left] at h
    rw [hb, labels_encodeLabels hL.lt] at hlabels ⊢
    rw [← h.1, hlabels]
    exact ⟨hr, rfl, hpos, hL.1 l₀ (List.mem_cons_self _ _)⟩

theorem isSome_stripPrefix (n p : List UInt8) : (stripPrefix n p).isSome = startsWith n p := by
  unfold stripPrefix
  cases startsWith n p <;> rfl

theorem isSome_stripSuffix (n s : List UInt8) : (stripSuffix n s).isSome = endsWith n s := by
  unfold stripSuffix
  cases endsWith n s <;> rfl

theorem isSome_parent (n : List UInt8) :
    (parent n).isSome = (splitFirst n).isSome ∧
      ((parent n).isSome ↔ labels n ≠ [] ∧ labels n ≠ [[]]) := by
  match n with
  | [] => simp [parent, splitFirst, labels]
  | [_] => simp [parent, splitFirst, labels]
  | b :: x :: xs =>
    refine ⟨rfl, iff_of_true rfl ⟨by simp [labels], fun h => ?_⟩⟩
    rw [labels, List.cons.injEq] at h
    rcases Nat.eq_zero_or_pos b.toNat with h0 | h0
    · rw [h0, List.drop_zero, labels] at h
      exact List.cons_ne_nil _ _ h.2
    · exact List.ne_nil_of_length_pos (by simp; omega) h.1

/-- On valid names, `starts_with` and `ends_with` compare label sequences
ignoring ASCII case, the root label included, and `strip_prefix`,
`strip_suffix`, `parent` and `split_first` return names that meet the safety
condition of `from_bytes_unchecked`, with the labels left after the removed
ones; the label `split_first` splits off has 1 to 63 bytes. `strip_prefix` and
`strip_suffix` return `Some` exactly when `starts_with` and `ends_with` hold, and
`parent` and `split_first` exactly on names that are neither empty nor the root. -/
theorem uncertainName_affixes :
    (∀ n p, SafeName n → RelWireName p →
      (startsWith n p = true ↔ (labels p).map lowerNats <+: (labels n).map lowerNats)) ∧
    (∀ n s, SafeName n → SafeName s →
      (endsWith n s = true ↔ (labels s).map lowerNats <:+ (labels n).map lowerNats)) ∧
    (∀ n p r, SafeName n → RelWireName p → stripPrefix n p = some r →
      SafeName r ∧ labels r = (labels n).drop (labels p).length) ∧
    (∀ n s r, SafeName n → SafeName s → stripSuffix n s = some r →
      SafeName r ∧ labels r = (labels n).take ((labels n).length - (labels s).length)) ∧
    (∀ n r, SafeName n → parent n = some r → SafeName r ∧ labels r = (labels n).tail) ∧
    (∀ n l r, SafeName n → splitFirst n = some (l, r) →
      SafeName r ∧ labels n = l :: labels r ∧ 0 < l.length ∧ l.length ≤ 63) ∧
    (∀ n p, (stripPrefix n p).isSome = startsWith n p) ∧
    (∀ n s, (stripSuffix n s).isSome = endsWith n s) ∧
    (∀ n, (parent n).isSome = (splitFirst n).isSome ∧
      ((parent n).isSome ↔ labels n ≠ [] ∧ labels n ≠ [[]])) :=
  ⟨fun _ _ hn hp => startsWith_labels hn.1 hp, fun _ _ hn hs => endsWith_labels hn.1 hs.1,
    fun _ _ _ hn hp => stripPrefix_labels hn hp, fun _ _ _ hn hs => stripSuffix_labels hn hs.1,
    fun _ _ => parent_labels, fun _ _ _ => splitFirst_labels, isSome_stripPrefix,
    isSome_stripSuffix, isSome_parent⟩

/-- `www.ex.`, and the relative name `WWW`. -/
def wwwEx : List UInt8 := encodeLabels [[119, 119, 119], [101, 120], []]

def upperWww : List UInt8 := encodeLabels [[87, 87, 87]]

theorem uncertainName_affixes_wwwEx :
    SafeName wwwEx ∧ RelWireName upperWww ∧
      (labels upperWww).map lowerNats <+: (labels wwwEx).map lowerNats ∧
      stripPrefix wwwEx upperWww = some (encodeLabels [[101, 120], []]) ∧
      SafeName (encodeLabels [[101, 120], []]) ∧
      labels (encodeLabels [[101, 120], []]) = (labels wwwEx).drop (labels upperWww).length :=
  have hn : SafeName wwwEx :=
    ⟨⟨[[119, 119, 119], [101, 120]], by simp [NonRootLabels], .inr rfl⟩, by decide, by decide⟩
  have hp : RelWireName upperWww := ⟨[[87, 87, 87]], by simp [NonRootLabels], rfl⟩
  have hs : stripPrefix wwwEx upperWww = some (encodeLabels [[101, 120], []]) := by decide
  ⟨hn, hp, (uncertainName_affixes.1 _ _ hn hp).mp (by decide), hs,
    uncertainName_affixes.2.2.1 _ _ _ hn hp hs⟩

end UncertainName

end Domain.NewName
