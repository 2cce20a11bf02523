import Mathlib.Data.List.Basic
import Mathlib.Data.List.Lex

/-! `Label` of `base::new_name`: the bytes of one label of a domain name, after
its length octet. Labels compare ASCII-case-insensitively, byte by byte, a
proper prefix first: the lexicographic order of the library on the lowercased
bytes. Bytes are `UInt8`; every comparison of the source is made on their
`toNat` values. -/

namespace Domain.NewName

theorem toNat_toUInt8 {n : Nat} (h : n < 256) : n.toUInt8.toNat = n :=
  UInt8.toNat_ofNat_of_lt h

def toAsciiLowercase (b : UInt8) : UInt8 :=
  if 65 ≤ b.toNat ∧ b.toNat ≤ 90 then b + 32 else b

def eqIgnoreAsciiCase (a b : UInt8) : Bool :=
  decide ((toAsciiLowercase a).toNat = (toAsciiLowercase b).toNat)

def natCmp (x y : Nat) : Ordering :=
  if x < y then .lt else if y < x then .gt else .eq

/-- A label: at most `Label::MAX_SIZE`, 63, bytes. -/
structure Label where
  bytes : List UInt8
  size_le : bytes.length ≤ 63

/-- `Label::cmp` on the bytes of two labels: the first pair of bytes that differ
ignoring ASCII case decides, by their lowercase values; without one, the shorter
label sorts first. -/
def labelCmp (a b : List UInt8) : Ordering :=
  match (a.zip b).find? (fun p => !eqIgnoreAsciiCase p.1 p.2) with
  | some (l, r) => natCmp (toAsciiLowercase l).toNat (toAsciiLowercase r).toNat
  | none => natCmp a.length b.length

@[simp] theorem eqIgnoreAsciiCase_self (b : UInt8) : eqIgnoreAsciiCase b b = true := by
  simp [eqIgnoreAsciiCase]

@[simp] theorem natCmp_self (x : Nat) : natCmp x x = .eq := by
  simp [natCmp]

theorem labelCmp_self (a : List UInt8) : labelCmp a a = .eq := by
  have hpairs : ∀ p ∈ a.zip a, p.1 = p.2 := by
    induction a with
    | nil => simp
    | cons x xs ih =>
      intro p hp
      rcases List.mem_cons.mp hp with rfl | hp
      · rfl
      · exact ih p hp
  have hnone : (a.zip a).find? (fun p => !eqIgnoreAsciiCase p.1 p.2) = none :=
    List.find?_eq_none.mpr fun p hp => by simp [hpairs p hp]
  simp [labelCmp, hnone]

def labelEq (a b : List UInt8) : Bool :=
  a.length == b.length && (a.zip b).all fun p => eqIgnoreAsciiCase p.1 p.2

def lowerNats (a : List UInt8) : List Nat := a.map fun b => (toAsciiLowercase b).toNat

@[simp] theorem lowerNats_nil : lowerNats [] = [] := rfl

@[simp] theorem lowerNats_cons (x : UInt8) (xs : List UInt8) :
    lowerNats (x :: xs) = (toAsciiLowercase x).toNat :: lowerNats xs := rfl

theorem eqIgnoreAsciiCase_iff {a b : UInt8} :
    eqIgnoreAsciiCase a b = true ↔ (toAsciiLowercase a).toNat = (toAsciiLowercase b).toNat :=
  decide_eq_true_iff

theorem natCmp_eq_compare (x y : Nat) : natCmp x y = compare x y := by
  unfold natCmp
  split_ifs with h h'
  · exact (compare_lt_iff_lt.mpr h).symm
  · exact (compare_gt_iff_gt.mpr h').symm
  · exact (compare_eq_iff_eq.mpr (by omega)).symm

theorem compare_cons_cons {α : Type} [LinearOrder α] (x y : α) (xs ys : List α) :
    compare (x :: xs) (y :: ys) = (compare x y).then (compare xs ys) := by
  rcases lt_trichotomy x y with h | rfl | h
  · rw [compare_lt_iff_lt.mpr h, compare_lt_iff_lt.mpr (List.Lex.rel h)]
    rfl
  · rw [compare_eq_iff_eq.mpr rfl]
    rcases lt_trichotomy xs ys with h | rfl | h
    · rw [compare_lt_iff_lt.mpr h, compare_lt_iff_lt.mpr (List.Lex.cons h)]
      rfl
    · rw [compare_eq_iff_eq.mpr rfl, compare_eq_iff_eq.mpr rfl]
      rfl
    · rw [compare_gt_iff_gt.mpr h, compare_gt_iff_gt.mpr (List.Lex.cons h)]
      rfl
  · rw [compare_gt_iff_gt.mpr h, compare_gt_iff_gt.mpr (List.Lex.rel h)]
    rfl

theorem labelCmp_cons_cons (x y : UInt8) (xs ys : List UInt8) :
    labelCmp (x :: xs) (y :: ys) = if eqIgnoreAsciiCase x y then labelCmp xs ys
      else natCmp (toAsciiLowercase x).toNat (toAsciiLowercase y).toNat := by
  cases h : eqIgnoreAsciiCase x y <;> simp [labelCmp, h, natCmp]

theorem labelCmp_eq_compare : ∀ a b : List UInt8, labelCmp a b = compare (lowerNats a) (lowerNats b)
  | [], [] => rfl
  | [], _ :: _ => by
    rw [lowerNats_cons, compare_lt_iff_lt.mpr (List.nil_lt_cons _ _)]
    simp [labelCmp, natCmp]
  | _ :: _, [] => by
    rw [lowerNats_cons, lowerNats_nil, compare_gt_iff_gt.mpr (List.nil_lt_cons _ _)]
    simp [labelCmp, natCmp]
  | x :: xs, y :: ys => by
    rw [labelCmp_cons_cons, lowerNats_cons, lowerNats_cons, compare_cons_cons]
    split_ifs with h
    · rw [eqIgnoreAsciiCase_iff.mp h, compare_eq_iff_eq.mpr rfl, labelCmp_eq_compare xs ys]
      rfl
    · rw [natCmp_eq_compare]
      cases hc : compare (toAsciiLowercase x).toNat (toAsciiLowercase y).toNat
      · rfl
      · exact absurd (eqIgnoreAsciiCase_iff.mpr (compare_eq_iff_eq.mp hc)) h
      · rfl

theorem labelEq_iff : ∀ a b : List UInt8, labelEq a b = true ↔ lowerNats a = lowerNats b
  | [], [] => by simp [labelEq, lowerNats]
  | [], _ :: _ => by simp [labelEq, lowerNats]
  | _ :: _, [] => by simp [labelEq, lowerNats]
  | x :: xs, y :: ys => by
    have hcons : labelEq (x :: xs) (y :: ys) = (eqIgnoreAsciiCase x y && labelEq xs ys) := by
      cases h : eqIgnoreAsciiCase x y <;> simp [labelEq, h]
    rw [hcons, Bool.and_eq_true, labelEq_iff xs ys, eqIgnoreAsciiCase_iff, lowerNats_cons,
      lowerNats_cons, List.cons.injEq]

instance labelCmp_transCmp : Batteries.TransCmp labelCmp := by
  rw [show labelCmp = compareOn lowerNats from funext₂ labelCmp_eq_compare]
  infer_instance

/-- `Label::cmp` is the lexicographic order of the lowercased bytes, a proper
prefix first; so it is a total order, and it says `Equal` exactly when
`Label::eq` holds. -/
theorem labelCmp_lexicographic :
    (∀ a b : Label, labelCmp a.bytes b.bytes = compare (lowerNats a.bytes) (lowerNats b.bytes)) ∧
      Batteries.TransCmp labelCmp ∧
      ∀ a b : Label, labelCmp a.bytes b.bytes = .eq ↔ labelEq a.bytes b.bytes = true :=
  ⟨fun a b => labelCmp_eq_compare a.bytes b.bytes, labelCmp_transCmp, fun a b => by
    rw [labelCmp_eq_compare, compare_eq_iff_eq, labelEq_iff]⟩

end Domain.NewName
