import Mathlib.Data.List.DropRight
import Domain.NewName.Uncertain

/-! `RrsigExt::signed_data` and `wildcard_closest_encloser` of `validate`: the
data an RRSIG signs (RFC 4035, Section 5.3.2). The RRSIG RDATA without the
signature comes first, then every record of the RRset in canonical order, its
owner replaced by the wildcard it was expanded from when the owner has more
labels than the RRSIG says. Names are the absolute names of `base::name`, their
labels leftmost first and the root label left implicit. Record data is generic:
its canonical order and its canonical wire form are parameters. -/

namespace Domain.Validate

open NewName (encodeLabels toAsciiLowercase NonRootLabels)

/-- Big-endian bytes of `x` in `w` bytes: `compose` of an integer field. -/
def beBytes : Nat → Nat → List UInt8
  | 0, _ => []
  | w + 1, x => beBytes w (x / 256) ++ [(x % 256).toUInt8]

/-- `Name`: an absolute domain name as its labels, leftmost first, without the
root label. -/
structure Name where
  labels : List (List UInt8)
  valid : NonRootLabels labels

namespace Name

/-- Modelled from the spec: `iter_labels().count()` (the name module is not in
src/), the labels and the root label. -/
def labelCount (n : Name) : Nat := n.labels.length + 1

def dropLabels (n : Name) (k : Nat) : Name :=
  ⟨n.labels.drop k, fun l hl => n.valid l (List.mem_of_mem_drop hl)⟩

/-- Modelled from the spec: `iter_suffixes` (the name module is not in src/), the
name, then each parent, down to the root. -/
def iterSuffixes (n : Name) : List Name :=
  (List.range (n.labels.length + 1)).map n.dropLabels

def canonical (n : Name) : List (List UInt8) := n.labels.map (List.map toAsciiLowercase)

/-- Modelled from the spec: `compose_canonical` (the name module is not in src/),
the labels in ASCII lowercase, each after its length octet, then the root label. -/
def composeCanonical (n : Name) : List UInt8 := encodeLabels n.canonical ++ [0]

def rightmost (n : Name) (k : Nat) : Name :=
  ⟨n.labels.rtake k, fun l hl => n.valid l (List.mem_of_mem_drop hl)⟩

theorem iterSuffixes_getElem? {n : Name} {k : Nat} (h : k ≤ n.labels.length) :
    n.iterSuffixes[k]? = some (n.dropLabels k) := by
  simp [iterSuffixes, List.getElem?_range (Nat.lt_succ_of_le h)]

theorem length_canonical (n : Name) : n.canonical.length = n.labels.length :=
  List.length_map _ _

theorem canonical_rightmost (n : Name) (k : Nat) :
    (n.rightmost k).canonical = n.canonical.rtake k := by
  simp only [canonical, rightmost, List.rtake, List.map_drop, List.length_map]

end Name

structure Rrsig where
  typeCovered : UInt16
  algorithm : UInt8
  labels : UInt8
  originalTtl : UInt32
  expiration : UInt32
  inception : UInt32
  keyTag : UInt16
  signerName : Name

structure Record (D : Type) where
  owner : Name
  rtype : UInt16
  rclass : UInt16
  data : D

/-! Two sorted orders of the same elements agree under any map that cannot tell
ties apart: the reason a stable sort makes the signed data independent of the
order it was given the records in. -/

theorem map_cons_erase_of_min {α β : Type} [DecidableEq α] {R : α → α → Prop} {f : α → β}
    {a : α} : ∀ {l : List α}, a ∈ l → (∀ x ∈ l, R a x) → l.Pairwise R →
      (∀ x ∈ l, ∀ y ∈ l, R x y → R y x → f x = f y) → (a :: l.erase a).map f = l.map f
  | c :: t, ha, hmin, hl, htie => by
    by_cases hca : c = a
    · subst hca
      simp
    · have hat : a ∈ t := (List.mem_cons.mp ha).resolve_left (Ne.symm hca)
      have hfa : f a = f c := htie a ha c (List.mem_cons_self _ _)
        (hmin c (List.mem_cons_self _ _)) ((List.pairwise_cons.mp hl).1 a hat)
      have ih := map_cons_erase_of_min hat (fun x hx => hmin x (List.mem_cons_of_mem _ hx))
        (List.pairwise_cons.mp hl).2
        (fun x hx y hy => htie x (List.mem_cons_of_mem _ hx) y (List.mem_cons_of_mem _ hy))
      rw [List.erase_cons_tail (by simpa using hca), List.map_cons, List.map_cons, List.map_cons,
        ← ih, List.map_cons, hfa]

theorem map_eq_of_perm_of_pairwise {α β : Type} {R : α → α → Prop} {f : α → β}
    (hrefl : ∀ a, R a a) : ∀ {l₁ l₂ : List α}, l₁.Perm l₂ → l₁.Pairwise R → l₂.Pairwise R →
      (∀ x ∈ l₁, ∀ y ∈ l₁, R x y → R y x → f x = f y) → l₁.map f = l₂.map f
  | [], _, hp, _, _, _ => by rw [List.Perm.nil_eq hp]
  | a :: t, l₂, hp, h₁, h₂, htie => by
    classical
    have hmin : ∀ x ∈ l₂, R a x := fun x hx => by
      rcases List.mem_cons.mp (hp.symm.subset hx) with rfl | hx
      · exact hrefl x
      · exact (List.pairwise_cons.mp h₁).1 x hx
    have ih := map_eq_of_perm_of_pairwise hrefl (by simpa using hp.erase a)
      (List.pairwise_cons.mp h₁).2 (h₂.sublist (List.erase_sublist _ _))
      (fun x hx y hy => htie x (List.mem_cons_of_mem _ hx) y (List.mem_cons_of_mem _ hy))
    rw [List.map_cons, ih]
    exact map_cons_erase_of_min (hp.subset (List.mem_cons_self _ _)) hmin h₂
      (fun x hx y hy => htie x (hp.symm.subset hx) y (hp.symm.subset hy))

section SignedData

variable {D : Type} (canonicalCmp : D → D → Ordering) (canonicalRdata : D → List UInt8)

/-- Modelled from the spec: `compose_canonical_len_rdata` (the record-data
module is not in src/), the canonical RDATA after its length. -/
def composeCanonicalLenRdata (d : D) : List UInt8 :=
  beBytes 2 (canonicalRdata d).length ++ canonicalRdata d

/-- The owner as `signed_data` writes it: `*.` and the suffix of the owner that
keeps the RRSIG's label count when the owner has more labels, else the owner;
canonical either way. -/
def composeOwner (r : Rrsig) (fqdn : Name) : List UInt8 :=
  let rrsigLabels := r.labels.toNat
  let fqdnLabels := fqdn.labelCount - 1
  if rrsigLabels < fqdnLabels then
    [1, 42] ++
      match fqdn.iterSuffixes[fqdnLabels - rrsigLabels]? with
      | some name => name.composeCanonical
      | none => fqdn.composeCanonical
  else fqdn.composeCanonical

def composeRr (r : Rrsig) (rr : Record D) : List UInt8 :=
  composeOwner r rr.owner ++ beBytes 2 rr.rtype.toNat ++ beBytes 2 rr.rclass.toNat ++
    beBytes 4 r.originalTtl.toNat ++ composeCanonicalLenRdata canonicalRdata rr.data

/-- `records.sort_by` on `canonical_cmp` of the data: a stable sort, each record
before the next unless it compares greater. -/
def sortRecords (records : List (Record D)) : List (Record D) :=
  records.mergeSort fun a b => decide (canonicalCmp a.data b.data ≠ .gt)

/-- `RrsigExt::signed_data`: the bytes it appends to `buf`, and `records` as it
leaves them. -/
def signedData (r : Rrsig) (records : List (Record D)) : List UInt8 × List (Record D) :=
  let sorted := sortRecords canonicalCmp records
  (beBytes 2 r.typeCovered.toNat ++ [r.algorithm] ++ [r.labels] ++ beBytes 4 r.originalTtl.toNat ++
      beBytes 4 r.expiration.toNat ++ beBytes 4 r.inception.toNat ++ beBytes 2 r.keyTag.toNat ++
      r.signerName.composeCanonical ++ sorted.flatMap (composeRr canonicalRdata r),
    sorted)

def wildcardClosestEncloser (r : Rrsig) (rr : Record D) : Option Name :=
  let rrsigLabels := r.labels.toNat
  let fqdn := rr.owner
  let fqdnLabels := fqdn.labelCount - 1
  if rrsigLabels < fqdnLabels then
    some (match fqdn.iterSuffixes[fqdnLabels - rrsigLabels]? with
      | some name => name
      | none => fqdn)
  else none

/-! The signed data in the words of RFC 4035, Section 5.3.2. -/

/-- The RRSIG RDATA without the signature field, the signer's name canonical. -/
def rfcRrsigRdata (r : Rrsig) : List UInt8 :=
  beBytes 2 r.typeCovered.toNat ++ [r.algorithm, r.labels] ++ beBytes 4 r.originalTtl.toNat ++
    beBytes 4 r.expiration.toNat ++ beBytes 4 r.inception.toNat ++ beBytes 2 r.keyTag.toNat ++
    r.signerName.composeCanonical

/-- The name of an RR(i): `*.` and the rightmost `labels` labels of the owner
when it has more labels than the RRSIG, else the owner; canonical. -/
def rfcOwner (r : Rrsig) (owner : Name) : List UInt8 :=
  if r.labels.toNat < owner.labels.length then
    [1, 42] ++ (owner.rightmost r.labels.toNat).composeCanonical
  else owner.composeCanonical

/-- RR(i) = name | type | class | OrigTTL | RDATA length | RDATA. -/
def rfcRr (r : Rrsig) (rr : Record D) : List UInt8 :=
  rfcOwner r rr.owner ++ beBytes 2 rr.rtype.toNat ++ beBytes 2 rr.rclass.toNat ++
    beBytes 4 r.originalTtl.toNat ++ beBytes 2 (canonicalRdata rr.data).length ++
    canonicalRdata rr.data

def SameRRset (records : List (Record D)) : Prop :=
  ∀ x ∈ records, ∀ y ∈ records,
    x.owner.canonical = y.owner.canonical ∧ x.rtype = y.rtype ∧ x.rclass = y.rclass

theorem wildcardClosestEncloser_eq (r : Rrsig) (rr : Record D) :
    wildcardClosestEncloser r rr =
      if r.labels.toNat < rr.owner.labels.length then some (rr.owner.rightmost r.labels.toNat)
      else none := by
  simp only [wildcardClosestEncloser, Name.labelCount, Nat.add_sub_cancel]
  split_ifs with h
  · rw [Name.iterSuffixes_getElem? (Nat.sub_le _ _)]
    rfl
  · rfl

theorem composeOwner_eq_rfcOwner (r : Rrsig) (n : Name) : composeOwner r n = rfcOwner r n := by
  simp only [composeOwner, rfcOwner, Name.labelCount, Nat.add_sub_cancel]
  split_ifs
  · rw [Name.iterSuffixes_getElem? (Nat.sub_le _ _)]
    rfl
  · rfl

theorem composeOwner_eq (r : Rrsig) (rr : Record D) :
    composeOwner r rr.owner = match wildcardClosestEncloser r rr with
      | some s => [1, 42] ++ s.composeCanonical
      | none => rr.owner.composeCanonical := by
  rw [composeOwner_eq_rfcOwner, wildcardClosestEncloser_eq, rfcOwner]
  split_ifs <;> rfl

theorem composeRr_eq_rfcRr (r : Rrsig) : composeRr canonicalRdata r = rfcRr canonicalRdata r := by
  funext rr
  simp only [composeRr, rfcRr, composeOwner_eq_rfcOwner, composeCanonicalLenRdata, List.append_assoc]

theorem signedData_fst (r : Rrsig) (records : List (Record D)) :
    (signedData canonicalCmp canonicalRdata r records).1 =
      rfcRrsigRdata r ++ (sortRecords canonicalCmp records).flatMap (rfcRr canonicalRdata r) := by
  simp only [signedData, rfcRrsigRdata, composeRr_eq_rfcRr, List.append_assoc, List.singleton_append,
    List.cons_append, List.nil_append]

theorem sortRecords_perm (records : List (Record D)) :
    (sortRecords canonicalCmp records).Perm records :=
  List.mergeSort_perm _ _

theorem sortRecords_pairwise [Batteries.TransCmp canonicalCmp] (records : List (Record D)) :
    (sortRecords canonicalCmp records).Pairwise fun a b => canonicalCmp a.data b.data ≠ .gt := by
  refine (List.sorted_mergeSort (fun a b c hab hbc => ?_) (fun a b => ?_) records).imp
    (of_decide_eq_true ·)
  · simp only [decide_eq_true_eq] at hab hbc ⊢
    exact Batteries.TransCmp.le_trans hab hbc
  · by_cases h : canonicalCmp a.data b.data = .gt
    · simp [Batteries.TransCmp.gt_asymm h]
    · simp [h]

theorem rfcOwner_congr (r : Rrsig) {n m : Name} (h : n.canonical = m.canonical) :
    rfcOwner r n = rfcOwner r m := by
  have hlen : n.labels.length = m.labels.length := by
    rw [← n.length_canonical, h, m.length_canonical]
  simp only [rfcOwner, Name.composeCanonical, Name.canonical_rightmost, h, hlen]

theorem rfcRr_eq_of_cmp_eq [Batteries.TransCmp canonicalCmp]
    (hEq : ∀ a b, canonicalCmp a b = .eq → canonicalRdata a = canonicalRdata b) (r : Rrsig)
    {x y : Record D} (hown : x.owner.canonical = y.owner.canonical) (htype : x.rtype = y.rtype)
    (hclass : x.rclass = y.rclass) (hxy : canonicalCmp x.data y.data ≠ .gt)
    (hyx : canonicalCmp y.data x.data ≠ .gt) : rfcRr canonicalRdata r x = rfcRr canonicalRdata r y := by
  have hcmp : canonicalCmp x.data y.data = .eq := by
    have := Batteries.OrientedCmp.cmp_ne_gt.mp hyx
    cases h : canonicalCmp x.data y.data <;> simp_all
  simp only [rfcRr, rfcOwner_congr r hown, htype, hclass, hEq _ _ hcmp]

theorem signedData_perm [Batteries.TransCmp canonicalCmp]
    (hEq : ∀ a b, canonicalCmp a b = .eq → canonicalRdata a = canonicalRdata b) (r : Rrsig)
    {records records' : List (Record D)} (hp : records.Perm records') (hset : SameRRset records) :
    (signedData canonicalCmp canonicalRdata r records).1 =
      (signedData canonicalCmp canonicalRdata r records').1 := by
  have hsorted := (sortRecords_perm canonicalCmp records).trans
    (hp.trans (sortRecords_perm canonicalCmp records').symm)
  have hmap := map_eq_of_perm_of_pairwise (fun a => by simp [Batteries.OrientedCmp.cmp_refl])
    hsorted (sortRecords_pairwise canonicalCmp records) (sortRecords_pairwise canonicalCmp records')
    fun x hx y hy hxy hyx =>
      have hs := hset x ((sortRecords_perm canonicalCmp records).subset hx) y
        ((sortRecords_perm canonicalCmp records).subset hy)
      rfcRr_eq_of_cmp_eq canonicalCmp canonicalRdata hEq r hs.1 hs.2.1 hs.2.2 hxy hyx
  rw [signedData_fst, signedData_fst, List.flatMap, List.flatMap, hmap]

/-- `signed_data` appends the RRSIG RDATA without the signature, then every
record in ascending canonical order of its data, written as RFC 4035, Section
5.3.2 writes an RR(i); the owner becomes `*.` and its rightmost `labels` labels
when it has more, and that suffix is the name `wildcard_closest_encloser` gives.
When records that `canonical_cmp` ranks `Equal` have equal canonical RDATA, the
bytes do not depend on the order the records of an RRset come in. The condition
is taken in that direction, `Equal` implies equal RDATA: the converse alone holds
of a comparator that ranks every pair `Equal`, and the stable sort then keeps the
input order. -/
theorem signedData_rfc4035 [Batteries.TransCmp canonicalCmp] :
    (∀ r records,
      (signedData canonicalCmp canonicalRdata r records).2.Perm records ∧
      (signedData canonicalCmp canonicalRdata r records).2.Pairwise
        (fun a b => canonicalCmp a.data b.data ≠ .gt) ∧
      (signedData canonicalCmp canonicalRdata r records).1 = rfcRrsigRdata r ++
        (signedData canonicalCmp canonicalRdata r records).2.flatMap (rfcRr canonicalRdata r)) ∧
    (∀ r (rr : Record D),
      (composeOwner r rr.owner = match wildcardClosestEncloser r rr with
        | some s => [1, 42] ++ s.composeCanonical
        | none => rr.owner.composeCanonical) ∧
      wildcardClosestEncloser r rr =
        if r.labels.toNat < rr.owner.labels.length then some (rr.owner.rightmost r.labels.toNat)
        else none) ∧
    ((∀ a b, canonicalCmp a b = .eq → canonicalRdata a = canonicalRdata b) →
      ∀ r records records', records.Perm records' → SameRRset records →
        (signedData canonicalCmp canonicalRdata r records).1 =
          (signedData canonicalCmp canonicalRdata r records').1) :=
  ⟨fun r records => ⟨sortRecords_perm canonicalCmp records,
      sortRecords_pairwise canonicalCmp records, signedData_fst canonicalCmp canonicalRdata r records⟩,
    fun r rr => ⟨composeOwner_eq r rr, wildcardClosestEncloser_eq r rr⟩,
    fun hEq r _ _ hp hset => signedData_perm canonicalCmp canonicalRdata hEq r hp hset⟩

end SignedData

def exRecord (n : Nat) : Record Nat := ⟨⟨[[97]], by simp [NonRootLabels]⟩, 1, 1, n⟩

def exRrsig : Rrsig := ⟨1, 8, 1, 3600, 0, 0, 0, ⟨[], by simp [NonRootLabels]⟩⟩

theorem signedData_rfc4035_swap :
    (signedData compare (fun n : Nat => [n.toUInt8]) exRrsig [exRecord 1, exRecord 2]).1 =
      (signedData compare (fun n : Nat => [n.toUInt8]) exRrsig [exRecord 2, exRecord 1]).1 :=
  (signedData_rfc4035 compare (fun n : Nat => [n.toUInt8])).2.2
    (fun a b h => by rw [Nat.compare_eq_eq.mp h]) exRrsig _ _ (List.Perm.swap _ _ _)
    (fun x hx y hy => by
      simp only [List.mem_cons, List.mem_singleton, List.not_mem_nil, or_false] at hx hy
      rcases hx with rfl | rfl <;> rcases hy with rfl | rfl <;> exact ⟨rfl, rfl, rfl⟩)

end Domain.Validate
