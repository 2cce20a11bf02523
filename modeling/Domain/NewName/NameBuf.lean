import Domain.NewName.Uncertain

/-! `UncertainNameBuf`: a name in a 256-byte buffer, after a length octet.
`copy` and `replace_with` write the length octet and the name's bytes; `len`,
`as_bytes` and `Deref` read them back, `Deref` through
`UncertainName::from_bytes_unchecked`. -/

namespace Domain.NewName

structure UncertainNameBuf where
  buf : List UInt8
  size_eq : buf.length = 256

namespace UncertainNameBuf

/-- `UncertainNameBuf::copy`: a zeroed buffer with the length octet and the
name; `none` is the panic of the slice `buf[1..1 + name.len()]` for a byte string
over 255 bytes. -/
def copy (name : List UInt8) : Option UncertainNameBuf :=
  if h : name.length ≤ 255 then
    some ⟨name.length.toUInt8 :: (name ++ List.replicate (255 - name.length) 0), by simp; omega⟩
  else none

/-- `UncertainNameBuf::replace_with`: the length octet and the name are written
over the first bytes, the rest of the buffer stays as it was; `none` is the
panic of the slice, as for `copy`. -/
def replaceWith (b : UncertainNameBuf) (name : List UInt8) : Option UncertainNameBuf :=
  if h : name.length ≤ 255 then
    some ⟨name.length.toUInt8 :: (name ++ b.buf.drop (1 + name.length)), by
      simp only [List.length_cons, List.length_append, List.length_drop, b.size_eq]
      omega⟩
  else none

def len (b : UncertainNameBuf) : Nat := (b.buf.headD 0).toNat

def asBytes (b : UncertainNameBuf) : List UInt8 := (b.buf.drop 1).take b.len

/-- `Deref for UncertainNameBuf`: the bytes `as_bytes` reads, handed to
`UncertainName::from_bytes_unchecked`. -/
def deref (b : UncertainNameBuf) : List UInt8 := (b.buf.drop 1).take b.len

theorem deref_of_cons {name rest : List UInt8} {b : UncertainNameBuf} (hn : name.length ≤ 255)
    (h : b.buf = name.length.toUInt8 :: (name ++ rest)) : b.deref = name := by
  simp [deref, len, h, toNat_toUInt8 (show name.length < 256 by omega)]

/-- Every byte string of at most 255 bytes, so every name `from_bytes` accepts,
comes back unchanged through `Deref` (and `as_bytes`, which reads the same
bytes) after `copy`, and after `replace_with` on any buffer, whatever it held
before; a longer one makes both panic. So `Deref` hands `from_bytes_unchecked`
exactly the name last written, which meets its safety condition whenever that
name does. -/
theorem written_name_readBack (name : List UInt8) (b : UncertainNameBuf) :
    (copy name).map deref = (if name.length ≤ nameMaxSize then some name else none) ∧
      (b.replaceWith name).map deref =
        (if name.length ≤ nameMaxSize then some name else none) := by
  constructor <;> simp only [copy, replaceWith, nameMaxSize] <;> split_ifs with h
  · exact congrArg some (deref_of_cons h rfl)
  · rfl
  · exact congrArg some (deref_of_cons h rfl)
  · rfl

end UncertainNameBuf

end Domain.NewName
