import Domain.Validator.Delegation
import Domain.NewName.Label

/-! The NSEC3 tests of `nsec3_for_ds`. A group's first label holds the text of its
owner hash; the target's hash is tested for an exact match with it, as labels,
and for lying between it and the next-owner hash, by comparing the texts of the
owner and target hashes and the target hash with the next-owner bytes. When the
hash text keeps the order of the hashes, as base32hex does, these are tests on
the hashes themselves; the interval test then misses the wrap-around of the last
record of a chain, which RFC 5155 counts as covering. -/

namespace Domain.Validator

open NewName (compare_cons_cons)

theorem octetCmp_eq_compare (x y : Nat) : octetCmp x y = compare x y := by
  unfold octetCmp
  split_ifs with h h'
  · exact (compare_lt_iff_lt.mpr h).symm
  · exact (compare_gt_iff_gt.mpr h').symm
  · exact (compare_eq_iff_eq.mpr (by omega)).symm

theorem Label.cmp_eq_compare : ∀ a b : Label, Label.cmp a b = compare a b
  | [], [] => (compare_eq_iff_eq.mpr rfl).symm
  | [], _ :: _ => (compare_lt_iff_lt.mpr (List.nil_lt_cons _ _)).symm
  | _ :: _, [] => (compare_gt_iff_gt.mpr (List.nil_lt_cons _ _)).symm
  | x :: xs, y :: ys => by
    rw [compare_cons_cons, ← octetCmp_eq_compare, ← Label.cmp_eq_compare xs ys]
    rfl

/-- The hash text orders texts as the hashes they encode: base32hex without
padding, in lower case as names are kept here, has this property. -/
def Env.HashTextOrdered (E : Env) : Prop :=
  ∀ a b, Label.cmp (E.hashText a) (E.hashText b) = Label.cmp a b

def Env.targetHash (E : Env) (target : Name) (nsec3 : Nsec3) : List Nat :=
  E.nsec3Hash target nsec3.hashAlgorithm nsec3.iterations nsec3.salt

/-- RFC 5155, Section 1.3, "covers": the hash lies strictly between the owner
hash `o` and the next-owner hash `x` in the circular order of the chain; the last
record, whose next owner is not after its owner, wraps round. -/
def Covers (o x h : List Nat) : Prop :=
  Label.cmp o x = .lt ∧ Label.cmp o h = .lt ∧ Label.cmp h x = .lt ∨
    Label.cmp o x ≠ .lt ∧ (Label.cmp o h = .lt ∨ Label.cmp h x = .lt)

instance (o x h : List Nat) : Decidable (Covers o x h) :=
  inferInstanceAs (Decidable (_ ∨ _))

/-- The loop of `nsec3_for_ds` reaches the hash tests on `g`: an NSEC3 group of
a supported iteration count, from the target's zone, whose hash text fits a
label. -/
def Nsec3Reached (E : Env) (target : Name) (g : Group) (nsec3 : Nsec3) : Prop :=
  g.rtype = Rtype.nsec3 ∧ g.firstNsec3 = .ok nsec3 ∧
    ¬(nsec3.iterations > E.nsec3IterInsecure ∨ nsec3.iterations > E.nsec3IterBogus) ∧
    Name.endsWith target ((Name.parent g.owner).getD []) = true ∧
    (E.hashText (E.targetHash target nsec3)).length ≤ 63

theorem Env.HashTextOrdered.eq_iff {E : Env} (hE : E.HashTextOrdered) {a b : List Nat} :
    E.hashText a = E.hashText b ↔ a = b := by
  rw [← compare_eq_iff_eq, ← Label.cmp_eq_compare, hE, Label.cmp_eq_compare, compare_eq_iff_eq]

theorem nsec3ForDs_cons_reached {E : Env} {now : Nat} {target : Name} {node : Node} {g : Group}
    {gs : GroupSet} {nsec3 : Nsec3} (h : Nsec3Reached E target g nsec3) :
    nsec3ForDs E now target node (g :: gs) =
      if g.owner.headD [] = E.hashText (E.targetHash target nsec3) then nsec3Exact E now g node nsec3
      else if Label.cmp (g.owner.headD []) (E.hashText (E.targetHash target nsec3)) = .lt ∧
          Label.cmp (E.targetHash target nsec3) nsec3.nextOwner = .lt then
        nsec3Covering E now g node nsec3
      else nsec3ForDs E now target node gs := by
  obtain ⟨hg, hfirst, hiter, hzone, hlen⟩ := h
  simp only [Env.targetHash] at hlen
  simp only [nsec3ForDs, hg, ne_eq, not_true_eq_false, if_false, hfirst, Outcome.ok_bind, hiter,
    hzone, Bool.not_true, Bool.false_eq_true, Env.hashLabel, labelFromSlice, if_pos hlen]
  rfl

theorem nsec3ForDs_branch {E : Env} (hE : E.HashTextOrdered) {now : Nat} {target : Name}
    {node : Node} {g : Group} {gs : GroupSet} {nsec3 : Nsec3} {o : List Nat}
    (h : Nsec3Reached E target g nsec3) (howner : g.owner.headD [] = E.hashText o) :
    nsec3ForDs E now target node (g :: gs) =
      if E.targetHash target nsec3 = o then nsec3Exact E now g node nsec3
      else if Label.cmp o (E.targetHash target nsec3) = .lt ∧
          Label.cmp (E.targetHash target nsec3) nsec3.nextOwner = .lt then
        nsec3Covering E now g node nsec3
      else nsec3ForDs E now target node gs := by
  rw [nsec3ForDs_cons_reached h, howner, hE]
  simp only [hE.eq_iff, @eq_comm _ o]

theorem not_between_of_not_lt {o x h : List Nat} (hox : Label.cmp o x ≠ .lt) :
    ¬(Label.cmp o h = .lt ∧ Label.cmp h x = .lt) := by
  rw [Label.cmp_eq_compare, Ne, compare_lt_iff_lt] at hox
  rw [Label.cmp_eq_compare, Label.cmp_eq_compare, compare_lt_iff_lt, compare_lt_iff_lt]
  exact fun ⟨h1, h2⟩ => hox (h1.trans h2)

/-- The last NSEC3 record of a chain, from `ex`: owner hash `[2]`, next-owner
hash `[1]`, opt-out, with NS. -/
def TestZone.lastNsec3 : Group :=
  ⟨[[2], [1]], Rtype.nsec3, [⟨[[2], [1]], 1, 300, .nsec3 ⟨1, true, 0, [], [1], [Rtype.ns]⟩⟩], [],
    300⟩

/-- `nsec3_for_ds` tests the open interval from the owner hash to the next-owner
hash in byte order, so it never takes the covering branch at the last record of
a chain: it goes on past a hash that record covers, and with `TestZone`'s empty
hash, covered by the wrap-around, it finds nothing. -/
theorem nsec3ForDs_misses_wraparound :
    (∀ (E : Env) now target node g gs nsec3 o, E.HashTextOrdered → Nsec3Reached E target g nsec3 →
      g.owner.headD [] = E.hashText o →
      nsec3ForDs E now target node (g :: gs) =
        if E.targetHash target nsec3 = o then nsec3Exact E now g node nsec3
        else if Label.cmp o (E.targetHash target nsec3) = .lt ∧
            Label.cmp (E.targetHash target nsec3) nsec3.nextOwner = .lt then
          nsec3Covering E now g node nsec3
        else nsec3ForDs E now target node gs) ∧
    (∀ (E : Env) now target node g gs nsec3 o, E.HashTextOrdered → Nsec3Reached E target g nsec3 →
      g.owner.headD [] = E.hashText o → Label.cmp o nsec3.nextOwner ≠ .lt →
      E.targetHash target nsec3 ≠ o →
      nsec3ForDs E now target node (g :: gs) = nsec3ForDs E now target node gs) ∧
    Covers [2] [1] [] ∧
    nsec3ForDs TestZone.env 0 TestZone.aEx TestZone.exNode [TestZone.lastNsec3] =
      .ok (.nothing, none, maxNodeValid) :=
  ⟨fun _ _ _ _ _ _ _ _ hE h howner => nsec3ForDs_branch hE h howner,
    fun _ _ _ _ _ _ _ _ hE h howner hox hne => by
      rw [nsec3ForDs_branch hE h howner, if_neg hne, if_neg (not_between_of_not_lt hox)],
    by decide, rfl⟩

end Domain.Validator
