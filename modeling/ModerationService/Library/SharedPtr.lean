import Mathlib.Algebra.BigOperators.Group.Finset.Basic
import Mathlib.Algebra.Order.BigOperators.Group.Finset
import Mathlib.Data.Fintype.BigOperators
import Mathlib.Logic.Relation

/-!
# SharedPtr — objects that are owned by counted references

An object exists while its use count is positive.  References are held outside the objects, by
`holders`, and by the fields of objects that exist.  Three operations change the counts:

* `copy`, a new holder of a reference;
* `make`, a new object, whose fields copy references;
* `drop`, one holder less.  The last one destroys the object, and the references of its fields are
  what its destructor goes on to drop.

`Counted` says that the counts are what is held, and each operation keeps it.  Where the fields have
no cycle, an object exists exactly while it can be reached from a holder (`Counted.live_iff`), so
nothing is left once nothing is held.
-/

namespace Library
namespace SharedPtr

variable {ι : Type} [DecidableEq ι]

/-! ## Operations -/

def copy (o : ι) (counts : ι → Nat) : ι → Nat :=
  Function.update counts o (counts o + 1)

def make (fields : ι → List ι) (o : ι) (counts : ι → Nat) : ι → Nat :=
  fun x => if x = o then 1 else counts x + (fields o).count x

/-- The counts after one reference to `o` has been dropped, and the references its destructor has
still to drop. -/
def drop (fields : ι → List ι) (o : ι) (counts : ι → Nat) : List ι × (ι → Nat) :=
  (if counts o = 1 then fields o else [], Function.update counts o (counts o - 1))

section

variable {fields : ι → List ι} {counts : ι → Nat} {o p : ι}

theorem copy_pos (h : 0 < counts p) : 0 < copy o counts p := by
  by_cases hp : p = o
  · subst hp
    simp [copy]
  · simpa [copy, hp] using h

theorem make_pos (h : 0 < counts p) : 0 < make fields o counts p := by
  by_cases hp : p = o
  · simp [make, hp]
  · simp only [make, if_neg hp]
    omega

/-- Only the new object is one more, when what its fields refer to exists already. -/
theorem make_live_iff (hfields : ∀ x ∈ fields o, 0 < counts x) (h : p ≠ o) :
    0 < make fields o counts p ↔ 0 < counts p := by
  simp only [make, if_neg h]
  by_cases hmem : p ∈ fields o
  · have hpos := hfields p hmem
    omega
  · rw [List.count_eq_zero.2 hmem]
    omega

theorem drop_of_ne (h : p ≠ o) : (drop fields o counts).2 p = counts p :=
  Function.update_of_ne h ..

theorem drop_self : (drop fields o counts).2 o = counts o - 1 :=
  Function.update_self ..

theorem mem_of_mem_drop (h : p ∈ (drop fields o counts).1) : p ∈ fields o := by
  unfold drop at h
  split at h
  · exact h
  · simp at h

end

/-! ## Sums over what exists -/

variable [Fintype ι]

def sumLive (g counts : ι → Nat) : Nat :=
  ∑ p, if 0 < counts p then g p else 0

section Sums

variable {fields : ι → List ι} {g counts counts' : ι → Nat} {o p : ι}

omit [DecidableEq ι] in
theorem sumLive_congr (h : ∀ p, 0 < counts' p ↔ 0 < counts p) :
    sumLive g counts' = sumLive g counts := by
  simp only [sumLive, h]

/-- One object more or less. -/
theorem sumLive_add (hlive : 0 < counts p) (hdead : counts' p = 0)
    (hothers : ∀ q, q ≠ p → (0 < counts' q ↔ 0 < counts q)) :
    sumLive g counts = g p + sumLive g counts' := by
  have hrest : ∑ q ∈ Finset.univ.erase p, (if 0 < counts q then g q else 0) =
      ∑ q ∈ Finset.univ.erase p, (if 0 < counts' q then g q else 0) := by
    refine Finset.sum_congr rfl (fun q hq => ?_)
    simp only [hothers q (Finset.ne_of_mem_erase hq)]
  rw [sumLive, sumLive, ← Finset.add_sum_erase _ _ (Finset.mem_univ p),
    ← Finset.add_sum_erase (a := p) Finset.univ _ (Finset.mem_univ p), hrest]
  simp [hlive, hdead]

omit [DecidableEq ι] in
theorem le_sumLive (hp : 0 < counts p) : g p ≤ sumLive g counts := by
  have hsingle := Finset.single_le_sum (f := fun q => if 0 < counts q then g q else 0)
    (fun q _ => Nat.zero_le _) (Finset.mem_univ p)
  simpa [hp, sumLive] using hsingle

omit [DecidableEq ι] in
theorem sumLive_le : sumLive g counts ≤ ∑ p, g p := by
  refine Finset.sum_le_sum (fun p _ => ?_)
  split
  · exact Nat.le_refl _
  · exact Nat.zero_le _

theorem sumLive_copy (ho : 0 < counts o) : sumLive g (copy o counts) = sumLive g counts := by
  refine sumLive_congr ?_
  intro q
  by_cases hq : q = o
  · subst hq
    simp [copy, ho]
  · simp [copy, hq]

theorem sumLive_make (fields : ι → List ι) (hnew : counts o = 0)
    (hfields : ∀ x ∈ fields o, 0 < counts x) :
    sumLive g (make fields o counts) = g o + sumLive g counts := by
  refine sumLive_add ?_ hnew ?_
  · simp [make]
  · intro q hq
    exact (make_live_iff hfields hq).symm

/-- Only the last reference takes the object away. -/
theorem sumLive_drop (fields : ι → List ι) (ho : 0 < counts o) :
    sumLive g counts = (if counts o = 1 then g o else 0) + sumLive g (drop fields o counts).2 := by
  by_cases hone : counts o = 1
  · rw [if_pos hone]
    refine sumLive_add ho ?_ ?_
    · rw [drop_self, hone]
    · intro q hq
      rw [drop_of_ne hq]
  · rw [if_neg hone, Nat.zero_add]
    refine (sumLive_congr ?_).symm
    intro q
    by_cases hq : q = o
    · subst hq
      rw [drop_self]
      omega
    · rw [drop_of_ne hq]

end Sums

/-! ## Counts that are right -/

/-- The references to `o` in the fields of objects that exist. -/
def heldInside (fields : ι → List ι) (counts : ι → Nat) (o : ι) : Nat :=
  sumLive (fun p => (fields p).count o) counts

def Counted (fields : ι → List ι) (counts : ι → Nat) (holders : List ι) : Prop :=
  ∀ o, counts o = holders.count o + heldInside fields counts o

section Operations

variable {fields : ι → List ι} {counts : ι → Nat} {holders : List ι} {o p : ι}

theorem counted_empty (fields : ι → List ι) : Counted fields (fun _ => 0) [] := by
  intro o
  simp [heldInside, sumLive]

theorem Counted.perm {holders' : List ι} (h : Counted fields counts holders)
    (hperm : holders.Perm holders') : Counted fields counts holders' := by
  intro o
  rw [h o, hperm.count_eq]

theorem Counted.live_of_holder (h : Counted fields counts holders) (ho : o ∈ holders) :
    0 < counts o := by
  have hcount : 0 < holders.count o := List.count_pos_iff.2 ho
  rw [h o]
  omega

theorem Counted.live_of_field (h : Counted fields counts holders) (hp : 0 < counts p)
    (ho : o ∈ fields p) : 0 < counts o := by
  have hcount : 0 < (fields p).count o := List.count_pos_iff.2 ho
  have hterm : (fields p).count o ≤ heldInside fields counts o :=
    le_sumLive (g := fun q => (fields q).count o) hp
  rw [h o]
  omega

/-- A holder of the only reference shares it with nobody. -/
theorem Counted.sole (h : Counted fields counts (o :: holders)) (hone : counts o = 1) :
    o ∉ holders ∧ heldInside fields counts o = 0 := by
  have hcount := h o
  rw [hone, List.count_cons_self] at hcount
  have hzero : holders.count o = 0 := by
    omega
  exact ⟨List.count_eq_zero.1 hzero, by omega⟩

theorem Counted.copy (h : Counted fields counts holders) (ho : 0 < counts o) :
    Counted fields (copy o counts) (o :: holders) := by
  intro x
  have hcount := h x
  rw [heldInside, sumLive_copy ho]
  by_cases hx : x = o
  · subst hx
    simp only [SharedPtr.copy, Function.update_self, List.count_cons_self]
    rw [heldInside] at hcount
    omega
  · simpa [SharedPtr.copy, heldInside, hx, List.count_cons_of_ne (Ne.symm hx)] using hcount

theorem Counted.make (h : Counted fields counts holders) (hnew : counts o = 0)
    (hfields : ∀ x ∈ fields o, 0 < counts x) :
    Counted fields (make fields o counts) (o :: holders) := by
  have ho : o ∉ fields o := by
    intro hmem
    have hpos := hfields o hmem
    omega
  have hself : SharedPtr.make fields o counts o = 1 := by
    simp [SharedPtr.make]
  intro x
  have hcount := h x
  rw [heldInside, sumLive_make fields hnew hfields]
  rw [heldInside] at hcount
  by_cases hx : x = o
  · subst hx
    rw [hself, List.count_cons_self, List.count_eq_zero.2 ho]
    omega
  · simp only [SharedPtr.make, if_neg hx, List.count_cons_of_ne (Ne.symm hx)]
    omega

/-- Dropping a reference hands the references of a destroyed object to its destructor. -/
theorem Counted.drop (h : Counted fields counts (o :: holders)) :
    Counted fields (drop fields o counts).2 ((drop fields o counts).1 ++ holders) := by
  have ho : 0 < counts o := h.live_of_holder (by simp)
  intro x
  have hcount := h x
  rw [heldInside, sumLive_drop fields ho] at hcount
  have hdropped : (SharedPtr.drop fields o counts).1.count x =
      if counts o = 1 then (fields o).count x else 0 := by
    unfold SharedPtr.drop
    split <;> simp
  rw [List.count_append, hdropped, heldInside]
  by_cases hx : x = o
  · subst hx
    rw [List.count_cons_self] at hcount
    rw [drop_self]
    omega
  · rw [List.count_cons_of_ne (Ne.symm hx)] at hcount
    rw [drop_of_ne hx]
    omega

end Operations

/-! ## What is left to drop -/

/-- The references in the fields of objects that exist, which destructors may have to drop. -/
def weight (fields : ι → List ι) (counts : ι → Nat) : Nat :=
  sumLive (fun p => (fields p).length) counts

theorem weight_make {fields : ι → List ι} {counts : ι → Nat} {o : ι} (hnew : counts o = 0)
    (hfields : ∀ x ∈ fields o, 0 < counts x) :
    weight fields (make fields o counts) = (fields o).length + weight fields counts :=
  sumLive_make fields hnew hfields

theorem weight_copy {fields : ι → List ι} {counts : ι → Nat} {o : ι} (ho : 0 < counts o) :
    weight fields (copy o counts) = weight fields counts :=
  sumLive_copy ho

/-- Dropping a reference leaves one less to drop, in fields and by destructors. -/
theorem weight_drop {fields : ι → List ι} {counts : ι → Nat} {o : ι} (ho : 0 < counts o) :
    (drop fields o counts).1.length + weight fields (drop fields o counts).2 =
      weight fields counts := by
  have hdropped : (drop fields o counts).1.length =
      if counts o = 1 then (fields o).length else 0 := by
    unfold drop
    split <;> rfl
  rw [hdropped]
  exact (sumLive_drop (g := fun p => (fields p).length) fields ho).symm

/-! ## What exists -/

section Acyclic

variable {fields : ι → List ι} {counts : ι → Nat} {holders : List ι}

/-- `o` is `p`, or a field of `p` leads to it. -/
def Reaches (fields : ι → List ι) : ι → ι → Prop :=
  Relation.ReflTransGen (fun p o => o ∈ fields p)

theorem Counted.live_of_reaches (h : Counted fields counts holders) {p o : ι}
    (hp : 0 < counts p) (hreach : Reaches fields p o) : 0 < counts o := by
  induction hreach with
  | refl =>
      exact hp
  | tail _ hfield ih =>
      exact h.live_of_field ih hfield

/-- A reference is held outside, or in a field of an object that exists. -/
theorem Counted.holder_or_field (h : Counted fields counts holders) {o : ι} (ho : 0 < counts o) :
    o ∈ holders ∨ ∃ p, 0 < counts p ∧ o ∈ fields p := by
  by_cases hmem : o ∈ holders
  · exact Or.inl hmem
  · right
    have hinside : sumLive (fun p => (fields p).count o) counts ≠ 0 := by
      have hcount := h o
      rw [List.count_eq_zero.2 hmem, heldInside] at hcount
      omega
    rcases Finset.exists_ne_zero_of_sum_ne_zero hinside with ⟨p, _, hp⟩
    by_cases hlive : 0 < counts p
    · refine ⟨p, hlive, ?_⟩
      by_contra hfield
      simp [hlive, List.count_eq_zero.2 hfield] at hp
    · simp [hlive] at hp

/-- Without a cycle, an object exists exactly while it can be reached from a holder. -/
theorem Counted.live_iff (h : Counted fields counts holders) (rank : ι → Nat)
    (hrank : ∀ p, ∀ o ∈ fields p, rank o < rank p) {o : ι} :
    0 < counts o ↔ ∃ r ∈ holders, Reaches fields r o := by
  constructor
  · intro ho
    -- from owner to owner the rank grows, and it is bounded
    induction hn : (∑ p, rank p) - rank o using Nat.strongRecOn generalizing o with
    | _ n ih =>
        rcases h.holder_or_field ho with hmem | ⟨p, hp, hfield⟩
        · exact ⟨o, hmem, .refl⟩
        · have hgrows := hrank p o hfield
          have hbound : rank p ≤ ∑ q, rank q :=
            Finset.single_le_sum (fun q _ => Nat.zero_le _) (Finset.mem_univ p)
          rcases ih _ (by omega) hp rfl with ⟨r, hr, hreach⟩
          exact ⟨r, hr, hreach.tail hfield⟩
  · rintro ⟨r, hr, hreach⟩
    exact h.live_of_reaches (h.live_of_holder hr) hreach

omit [DecidableEq ι] [Fintype ι] in
theorem Reaches.rank_le {rank : ι → Nat} (hrank : ∀ p, ∀ o ∈ fields p, rank o < rank p) {p o : ι}
    (h : Reaches fields p o) : rank o ≤ rank p := by
  induction h with
  | refl =>
      exact Nat.le_refl _
  | tail _ hfield ih =>
      have hlt := hrank _ _ hfield
      omega

/-- An object above everything that is held does not exist. -/
theorem Counted.dead_of_rank_lt (h : Counted fields counts holders) (rank : ι → Nat)
    (hrank : ∀ p, ∀ o ∈ fields p, rank o < rank p) {o : ι}
    (hbelow : ∀ r ∈ holders, rank r < rank o) : counts o = 0 := by
  by_contra hne
  rcases (h.live_iff rank hrank).1 (Nat.pos_of_ne_zero hne) with ⟨r, hr, hreach⟩
  have hle := hreach.rank_le hrank
  have hlt := hbelow r hr
  omega

end Acyclic

end SharedPtr
end Library
