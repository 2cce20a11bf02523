import Domain.NewName.Affix

/-! The wire and canonical forms of labels and names in `base::new_name`.
`Label::split_off` reads one label after its length octet. `canonicalize`
lowercases the ASCII letters of a label or of a whole name, `PartialEq` compares
ignoring ASCII case, and `Hash` feeds the hasher the lowercased bytes. A length
octet is below 64 and so never an ASCII capital: lowercasing a whole name keeps
its label structure, and a name hashes as the sequence of its labels does. -/

namespace Domain.NewName

/-! ### Lowercasing a byte -/

theorem toNat_toAsciiLowercase (b : UInt8) :
    (toAsciiLowercase b).toNat = if 65 ≤ b.toNat ∧ b.toNat ≤ 90 then b.toNat + 32 else b.toNat := by
  unfold toAsciiLowercase
  split_ifs with h
  · have h32 : (32 : UInt8).toBitVec.toNat = 32 := rfl
    simp only [UInt8.add_def, UInt8.toNat, BitVec.toNat_add, h32] at h ⊢
    omega
  · rfl

@[simp] theorem toAsciiLowercase_idem (b : UInt8) :
    toAsciiLowercase (toAsciiLowercase b) = toAsciiLowercase b := by
  apply UInt8.toNat.inj
  rw [toNat_toAsciiLowercase, toNat_toAsciiLowercase]
  split_ifs <;> omega

theorem toAsciiLowercase_eq_hyphen {b : UInt8} :
    toAsciiLowercase b = '-'.toUInt8 ↔ b = '-'.toUInt8 := by
  have hh : ('-'.toUInt8).toNat = 45 := rfl
  constructor
  · intro h
    have := congrArg UInt8.toNat h
    rw [toNat_toAsciiLowercase, hh] at this
    exact UInt8.toNat.inj (by rw [hh]; split_ifs at this <;> omega)
  · rintro rfl
    rfl

theorem beq_toAsciiLowercase_hyphen (b : UInt8) :
    (toAsciiLowercase b == '-'.toUInt8) = (b == '-'.toUInt8) := by
  rw [Bool.eq_iff_iff, beq_iff_eq, beq_iff_eq, toAsciiLowercase_eq_hyphen]

theorem lowerNats_eq_map (a : List UInt8) :
    lowerNats a = (a.map toAsciiLowercase).map UInt8.toNat := by
  simp [lowerNats]

theorem map_toAsciiLowercase_eq_iff {a b : List UInt8} :
    a.map toAsciiLowercase = b.map toAsciiLowercase ↔ lowerNats a = lowerNats b := by
  rw [lowerNats_eq_map, lowerNats_eq_map]
  exact (List.map_injective_iff.mpr fun _ _ => UInt8.toNat.inj).eq_iff.symm

/-! ### Labels -/

structure LabelError where
  deriving DecidableEq, Repr

namespace Label

theorem ext_bytes {a b : Label} (h : a.bytes = b.bytes) : a = b := by
  cases a; cases b; cases h; rfl

def fromBytes (bytes : List UInt8) : Except LabelError Label :=
  if h : bytes.length > 63 then .error ⟨⟩ else .ok ⟨bytes, by omega⟩

/-- `Label::split_off`: the label after the first length octet, and the bytes
after it. No bytes, a length of 64 or more (or a compression pointer), and a
label longer than the bytes are errors. -/
def splitOff : List UInt8 → Except LabelError (Label × List UInt8)
  | [] => .error ⟨⟩
  | length :: bytes =>
    if h : length.toNat < 64 ∧ bytes.length ≥ length.toNat then
      .ok (⟨bytes.take length.toNat, by simp only [List.length_take]; omega⟩,
        bytes.drop length.toNat)
    else .error ⟨⟩

def isRoot (l : Label) : Bool := l.bytes.isEmpty

def isWildcard (l : Label) : Bool :=
  match l.bytes with
  | [b] => b == '*'.toUInt8
  | _ => false

def isAsciiAlphanumeric (b : UInt8) : Bool :=
  decide ((48 ≤ b.toNat ∧ b.toNat ≤ 57) ∨ (65 ≤ b.toNat ∧ b.toNat ≤ 90) ∨
    (97 ≤ b.toNat ∧ b.toNat ≤ 122))

def isLdh (l : Label) : Bool :=
  l.bytes.all (fun b => isAsciiAlphanumeric b || b == '-'.toUInt8) &&
    l.bytes.head? != some '-'.toUInt8 && l.bytes.getLast? != some '-'.toUInt8

/-- `Label::is_nr_ldh`: LDH, and not two hyphens as third and fourth bytes
(`get(2..4)` is `None` for a label under four bytes). -/
def isNrLdh (l : Label) : Bool :=
  l.isLdh &&
    (if 4 ≤ l.bytes.length then some ((l.bytes.drop 2).take 2) else none) !=
      some ['-'.toUInt8, '-'.toUInt8]

def canonicalize (l : Label) : Label :=
  ⟨l.bytes.map toAsciiLowercase, by simpa using l.size_le⟩

/-- `Label::split_off` reads exactly the wire form of a label: it gives a label
and the bytes after it precisely when the bytes are that label's length octet,
the label, and then those bytes. -/
theorem splitOff_eq_ok {bytes rest : List UInt8} {l : Label} :
    splitOff bytes = .ok (l, rest) ↔ bytes = l.bytes.length.toUInt8 :: (l.bytes ++ rest) := by
  have hl := l.size_le
  have hn := toNat_toUInt8 (show l.bytes.length < 256 by omega)
  cases bytes with
  | nil => simp [splitOff]
  | cons length bytes =>
    simp only [splitOff, List.cons.injEq]
    split_ifs with h
    · simp only [Except.ok.injEq, Prod.mk.injEq]
      constructor
      · rintro ⟨rfl, rfl⟩
        refine ⟨UInt8.toNat.inj ?_, (List.take_append_drop _ _).symm⟩
        rw [List.length_take_of_le h.2, toNat_toUInt8 (by omega)]
      · rintro ⟨rfl, rfl⟩
        exact ⟨ext_bytes (by simp [hn]), by rw [hn, List.drop_left]⟩
    · simp only [reduceCtorEq, false_iff, not_and]
      rintro rfl rfl
      exact h ⟨by omega, by simp [hn]⟩

theorem isAsciiAlphanumeric_toAsciiLowercase (b : UInt8) :
    isAsciiAlphanumeric (toAsciiLowercase b) = isAsciiAlphanumeric b := by
  simp only [isAsciiAlphanumeric, toNat_toAsciiLowercase]
  split_ifs <;> simp only [decide_eq_decide]; all_goals omega

theorem beq_map_toAsciiLowercase_hyphens (xs : List UInt8) :
    (xs.map toAsciiLowercase == ['-'.toUInt8, '-'.toUInt8]) = (xs == ['-'.toUInt8, '-'.toUInt8]) := by
  rw [Bool.eq_iff_iff, beq_iff_eq, beq_iff_eq]
  match xs with
  | [] | [_] | _ :: _ :: _ :: _ => simp
  | [x, y] => simp [toAsciiLowercase_eq_hyphen]

theorem option_map_ne_hyphen (o : Option UInt8) :
    (o.map toAsciiLowercase != some '-'.toUInt8) = (o != some '-'.toUInt8) := by
  cases o <;> simp [bne, beq_toAsciiLowercase_hyphen]

theorem isLdh_canonicalize (l : Label) : l.canonicalize.isLdh = l.isLdh := by
  simp only [isLdh, canonicalize, List.all_map, List.head?_map, List.getLast?_map,
    option_map_ne_hyphen, Function.comp_def, isAsciiAlphanumeric_toAsciiLowercase,
    beq_toAsciiLowercase_hyphen]

theorem isNrLdh_canonicalize (l : Label) : l.canonicalize.isNrLdh = l.isNrLdh := by
  simp only [isNrLdh, isLdh_canonicalize]
  simp only [canonicalize, List.length_map]
  rw [← List.map_drop, ← List.map_take]
  split_ifs
  · simp only [bne, Option.some_beq_some, beq_map_toAsciiLowercase_hyphens]
  · rfl

/-- Lowercasing keeps a label's LDH and NR-LDH status: it maps no byte to or
from a hyphen, and letters to letters. -/
theorem canonicalize_keeps_ldh (l : Label) :
    l.canonicalize.isLdh = l.isLdh ∧ l.canonicalize.isNrLdh = l.isNrLdh :=
  ⟨isLdh_canonicalize l, isNrLdh_canonicalize l⟩

end Label

/-- `Hash for Label`, on the label's bytes: what it writes to the hasher, the
length as a `u8`, then each byte lowercased. -/
def labelHash (bytes : List UInt8) : List UInt8 :=
  bytes.length.toUInt8 :: bytes.map toAsciiLowercase

/-! ### Names -/

namespace UncertainName

/-- `UncertainName::canonicalize`: `make_ascii_lowercase` on the whole byte
string, length octets included. -/
def canonicalize (name : List UInt8) : List UInt8 := name.map toAsciiLowercase

/-- `PartialEq for UncertainName`: `[u8]::eq_ignore_ascii_case` on the whole byte
strings, the test `Label::eq` makes. -/
def eq (this that : List UInt8) : Bool := labelEq this that

/-- `Hash for UncertainName`: what it writes to the hasher, each byte lowercased,
length octets included. -/
def hash (name : List UInt8) : List UInt8 := name.map toAsciiLowercase

theorem hash_encodeLabels : ∀ {L : List (List UInt8)}, (∀ l ∈ L, l.length ≤ 63) →
    hash (encodeLabels L) = (L.map labelHash).flatten
  | [], _ => rfl
  | l :: L, h => by
    have hl := h l (List.mem_cons_self _ _)
    have hrest := hash_encodeLabels fun l' hl' => h l' (List.mem_cons_of_mem _ hl')
    simp only [hash] at hrest
    simp only [hash, encodeLabels_cons, List.map_cons, List.map_append, hrest, labelHash,
      List.flatten_cons, List.cons_append,
      toAsciiLowercase_of_lt (b := l.length.toUInt8) (by rw [toNat_toUInt8 (by omega)]; omega)]

theorem canonicalize_encodeLabels : ∀ {L : List (List UInt8)}, (∀ l ∈ L, l.length ≤ 63) →
    canonicalize (encodeLabels L) = encodeLabels (L.map (List.map toAsciiLowercase))
  | [], _ => rfl
  | l :: L, h => by
    have hl := h l (List.mem_cons_self _ _)
    have hrest := canonicalize_encodeLabels fun l' hl' => h l' (List.mem_cons_of_mem _ hl')
    simp only [canonicalize] at hrest
    simp only [canonicalize, encodeLabels_cons, List.map_cons, List.map_append, hrest,
      List.length_map,
      toAsciiLowercase_of_lt (b := l.length.toUInt8) (by rw [toNat_toUInt8 (by omega)]; omega)]

theorem validLabels_map_lower {L : List (List UInt8)} (h : ValidLabels L) :
    ValidLabels (L.map (List.map toAsciiLowercase)) := by
  refine ⟨fun l hl => ?_, fun l hl => ?_⟩
  · obtain ⟨l', hl', rfl⟩ := List.mem_map.mp hl
    simpa using h.1 l' hl'
  · rw [← List.map_dropLast] at hl
    obtain ⟨l', hl', rfl⟩ := List.mem_map.mp hl
    simpa using h.2 l' hl'

/-- Equal names, ignoring ASCII case, are exactly those the hasher is fed the
same bytes for, for labels and for names; and a name in the wire format is fed
to the hasher as the sequence of its labels, each as `Hash for Label` writes
it, as the documentation of both impls promises. -/
theorem hash_consistent :
    (∀ a b : List UInt8, labelHash a = labelHash b ↔ labelEq a b = true) ∧
      (∀ a b : List UInt8, hash a = hash b ↔ eq a b = true) ∧
      ∀ n : List UInt8, WireName n → hash n = ((labels n).map labelHash).flatten := by
  refine ⟨fun a b => ?_, fun a b => ?_, fun n hn => ?_⟩
  · rw [labelHash, labelHash, List.cons.injEq, labelEq_iff, ← map_toAsciiLowercase_eq_iff]
    exact ⟨And.right, fun h => ⟨by rw [← List.length_map a toAsciiLowercase, h,
      List.length_map], h⟩⟩
  · rw [hash, hash, eq, labelEq_iff, map_toAsciiLowercase_eq_iff]
  · obtain ⟨L, hL, rfl⟩ := wireName_iff.mp hn
    rw [labels_encodeLabels hL.lt, hash_encodeLabels hL.1]

/-- `WwW.CoM.`, in mixed case. -/
def mixedCase : List UInt8 := encodeLabels [[87, 119, 87], [67, 111, 77], []]

theorem wireName_mixedCase : WireName mixedCase :=
  ⟨[[87, 119, 87], [67, 111, 77]], by simp [NonRootLabels], .inr rfl⟩

theorem hash_consistent_mixedCase :
    labelHash [87, 119, 87] = labelHash [119, 119, 119] ∧
      hash mixedCase = hash (canonicalize mixedCase) ∧
      hash mixedCase = ((labels mixedCase).map labelHash).flatten :=
  ⟨(hash_consistent.1 _ _).mpr (by decide), (hash_consistent.2.1 _ _).mpr (by decide),
    hash_consistent.2.2 _ wireName_mixedCase⟩

/-- `canonicalize` keeps every name `from_bytes` accepts accepted, lowercases each
of its labels as `Label::canonicalize` does, and changes neither `eq` nor `hash`;
a second `canonicalize` changes nothing. -/
theorem canonicalize_spec {n : List UInt8} (h : fromBytes n = .ok n) :
    fromBytes (canonicalize n) = .ok (canonicalize n) ∧
      labels (canonicalize n) = (labels n).map (List.map toAsciiLowercase) ∧
      eq n (canonicalize n) = true ∧ hash (canonicalize n) = hash n ∧
      canonicalize (canonicalize n) = canonicalize n := by
  obtain ⟨hw, hlen⟩ := (fromBytes_eq_ok n).mp h
  obtain ⟨L, hL, rfl⟩ := wireName_iff.mp hw
  have hL' := validLabels_map_lower hL
  have hc := canonicalize_encodeLabels hL.1
  refine ⟨(fromBytes_eq_ok _).mpr ⟨wireName_iff.mpr ⟨_, hL', hc⟩, ?_⟩, ?_, ?_, ?_, ?_⟩
  · simpa [canonicalize] using hlen
  · rw [hc, labels_encodeLabels hL'.lt, labels_encodeLabels hL.lt]
  · rw [eq, labelEq_iff, ← map_toAsciiLowercase_eq_iff, canonicalize, List.map_map]
    simp [Function.comp_def]
  · simp [hash, canonicalize, Function.comp_def]
  · simp [canonicalize, Function.comp_def]

theorem canonicalize_spec_mixedCase :
    fromBytes mixedCase = .ok mixedCase ∧
      (fromBytes (canonicalize mixedCase) = .ok (canonicalize mixedCase) ∧
        labels (canonicalize mixedCase) = (labels mixedCase).map (List.map toAsciiLowercase) ∧
        eq mixedCase (canonicalize mixedCase) = true ∧
        hash (canonicalize mixedCase) = hash mixedCase ∧
        canonicalize (canonicalize mixedCase) = canonicalize mixedCase) :=
  have h : fromBytes mixedCase = .ok mixedCase :=
    (fromBytes_eq_ok _).mpr ⟨wireName_mixedCase, by decide⟩
  ⟨h, canonicalize_spec h⟩

end UncertainName

end Domain.NewName
