import Domain.NewName.Uncertain

/-! `LabelBuf`: a label in a 64-byte buffer, after its length octet. `copy` and
`replace_with` write the length octet and the label's bytes; `Deref` reads them
back, while `as_name` hands the whole buffer to
`UncertainName::from_bytes_unchecked`. -/

namespace Domain.NewName

structure LabelBuf where
  buf : List UInt8
  size_eq : buf.length = 64

namespace LabelBuf

/-- `LabelBuf::copy`: a zeroed buffer with the length octet and the label. -/
def copy (label : Label) : LabelBuf :=
  ⟨label.bytes.length.toUInt8 :: (label.bytes ++ List.replicate (63 - label.bytes.length) 0), by
    have := label.size_le
    simp only [List.length_cons, List.length_append, List.length_replicate]
    omega⟩

/-- `LabelBuf::replace_with`: the length octet and the label are written over the
first bytes; the rest of the buffer stays as it was. -/
def replaceWith (b : LabelBuf) (label : Label) : LabelBuf :=
  ⟨label.bytes.length.toUInt8 :: (label.bytes ++ b.buf.drop (1 + label.bytes.length)), by
    have := label.size_le
    simp only [List.length_cons, List.length_append, List.length_drop, b.size_eq]
    omega⟩

def len (b : LabelBuf) : Nat := (b.buf.headD 0).toNat

def deref (b : LabelBuf) : Label :=
  ⟨(b.buf.drop 1).take b.len, by
    simp only [List.length_take, List.length_drop, b.size_eq]
    omega⟩

/-- `LabelBuf::as_name`: the whole buffer. -/
def asName (b : LabelBuf) : List UInt8 := b.buf

theorem len_of_cons {label : Label} {rest : List UInt8} {b : LabelBuf}
    (h : b.buf = label.bytes.length.toUInt8 :: (label.bytes ++ rest)) : b.len = label.bytes.length := by
  rw [len, h, List.headD_cons, toNat_toUInt8 (by have := label.size_le; omega)]

theorem deref_of_cons {label : Label} {rest : List UInt8} {b : LabelBuf}
    (h : b.buf = label.bytes.length.toUInt8 :: (label.bytes ++ rest)) : b.deref.bytes = label.bytes := by
  simp [deref, len_of_cons h, h]

theorem wireName_cons_label {label : Label} {rest : List UInt8}
    (hrest : label.bytes.length = 0 → rest ≠ []) :
    WireName (label.bytes.length.toUInt8 :: (label.bytes ++ rest)) ↔
      0 < label.bytes.length ∧ WireName rest := by
  have h63 := label.size_le
  have hn := toNat_toUInt8 (show label.bytes.length < 256 by omega)
  by_cases h0 : label.bytes.length = 0
  · rw [wireName_zero_cons (by rw [hn, h0]), List.length_eq_zero.mp h0, List.nil_append]
    simp only [List.length_nil, lt_irrefl, false_and, iff_false]
    exact hrest h0
  · rw [wireName_cons (by rw [hn]; omega) (by rw [hn]; omega), hn, List.drop_left]
    exact ⟨fun h => ⟨Nat.pos_of_ne_zero h0, h.2⟩, fun h => ⟨by simp, h.2⟩⟩

theorem wireName_replicate_zero (k : Nat) : WireName (List.replicate k 0) ↔ k ≤ 1 := by
  cases k with
  | zero => simpa using wireName_nil
  | succ k =>
    rw [List.replicate_succ, wireName_zero_cons (by decide), List.replicate_eq_nil_iff]
    omega

/-- `Deref` gives back the label written by `copy` or `replace_with`, but
`as_name` gives the whole buffer: after `copy` it is the one-label name only for
a label of 63 bytes, and `from_bytes` rejects it below 62 bytes. After
`replace_with` it is a name only if the old bytes after the new label are one. -/
theorem asName_not_label (l : Label) (b : LabelBuf) :
    (copy l).deref.bytes = l.bytes ∧ (b.replaceWith l).deref.bytes = l.bytes ∧
      (UncertainName.fromBytes (b.replaceWith l).asName = .ok (b.replaceWith l).asName ↔
        0 < l.bytes.length ∧ WireName (b.buf.drop (1 + l.bytes.length))) ∧
      (UncertainName.fromBytes (copy l).asName = .ok (copy l).asName ↔ 62 ≤ l.bytes.length) ∧
      ((copy l).asName = l.bytes.length.toUInt8 :: l.bytes ↔ l.bytes.length = 63) := by
  have h63 := l.size_le
  have hsize : ∀ c : LabelBuf, c.asName.length ≤ nameMaxSize := fun c => by
    simp [asName, c.size_eq, nameMaxSize]
  refine ⟨deref_of_cons rfl, deref_of_cons rfl, ?_, ?_, ?_⟩
  · rw [UncertainName.fromBytes_eq_ok, and_iff_left (hsize _)]
    refine wireName_cons_label fun h0 => ?_
    rw [← List.length_pos, List.length_drop, b.size_eq]
    omega
  · rw [UncertainName.fromBytes_eq_ok, and_iff_left (hsize _)]
    simp only [asName, copy]
    rw [wireName_cons_label fun h0 => by simp [h0], wireName_replicate_zero]
    omega
  · simp only [asName, copy, List.cons.injEq, true_and, List.append_right_eq_self,
      List.replicate_eq_nil_iff]
    omega

end LabelBuf

end Domain.NewName
