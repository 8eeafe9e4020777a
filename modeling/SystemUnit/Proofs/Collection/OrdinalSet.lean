import Mathlib.Data.Finset.Card
import SystemUnit.Collection.OrdinalSet

namespace SystemUnit

/-!
# Sets of ordinals as finite sets

A set of ordinals stands for a finite set of numbers, and whatever it is asked it answers for that set.  Some
questions look at all of its bits and others only at those within its bounds; they agree because no other bit is
ever set.

* `OrdinalSet.domain` — the numbers that may be members;
* `OrdinalSet.StandsFor` — a set of ordinals and the finite set that its answers are about;
* `OrdinalSet.contains_insert`, `OrdinalSet.contains_union` and their kin — what each operation makes a member;
* `OrdinalSet.Construction` — all ways to make a set, and the numbers that each is meant to hold;
* `OrdinalSet.constructed_standsFor` — every set that is made stands for the numbers it is meant to hold.
-/

namespace OrdinalSet

variable {low high : Int} {s t : OrdinalSet low high} {x y : Finset Int}

/-- The numbers that may be members. -/
def domain (low high : Int) : Finset Int :=
  ((List.range 256).map Int.ofNat).toFinset.filter fun e => low ≤ e ∧ e ≤ high

/-- The numbers that may be members lie within the bounds of the set, and are ordinals of a byte. -/
theorem mem_domain_iff {e : Int} : e ∈ domain low high ↔ low ≤ e ∧ e ≤ high ∧ 0 ≤ e ∧ e ≤ 255 := by
  rw [domain, Finset.mem_filter, List.mem_toFinset, List.mem_map]
  constructor
  · rintro ⟨⟨i, mem, rfl⟩, above, below⟩
    exact ⟨above, below, Int.natCast_nonneg i, Int.ofNat_le.mpr (Nat.le_of_lt_succ (List.mem_range.mp mem))⟩
  · rintro ⟨above, below, nonneg, le⟩
    exact ⟨⟨e.toNat, List.mem_range.mpr (by omega), Int.toNat_of_nonneg nonneg⟩, above, below⟩

/-- Each of them has a bit, that of its own number. -/
theorem slot?_eq_some_of_mem {e : Int} (mem : e ∈ domain low high) : slot? low high e = some e.toNat := by
  rw [mem_domain_iff] at mem
  rw [slot?, if_pos mem]

/-- No other number has one. -/
theorem slot?_eq_none_iff {e : Int} : slot? low high e = none ↔ e ∉ domain low high := by
  rw [mem_domain_iff, slot?]
  split <;> simp_all

/-- A bit that is set is that of a number that may be a member. -/
theorem mem_domain_of_getLsbD {e : Nat} (h : s.bits.getLsbD e = true) : (e : Int) ∈ domain low high := by
  have bounds := s.bounds_of_getLsbD e h
  have lt := BitVec.lt_of_getLsbD h
  rw [mem_domain_iff]
  omega

/-! ### Members -/

/-- A number that may be a member is one if its bit is set. -/
theorem contains_of_mem_domain {e : Int} (mem : e ∈ domain low high) :
    s.contains e = s.bits.getLsbD e.toNat := by
  rw [contains, slot?_eq_some_of_mem mem]

/-- No other number is a member. -/
theorem contains_of_not_mem_domain {e : Int} (outside : e ∉ domain low high) : s.contains e = false := by
  rw [contains, slot?_eq_none_iff.mpr outside]

/-- A number is a member if its bit is set; no bit of another number is set. -/
theorem contains_natCast (e : Nat) : s.contains e = s.bits.getLsbD e := by
  by_cases mem : (e : Int) ∈ domain low high
  · rw [contains_of_mem_domain mem, Int.toNat_natCast]
  · rw [contains_of_not_mem_domain mem]
    apply Eq.symm
    rw [Bool.eq_false_iff]
    exact fun bit => mem (mem_domain_of_getLsbD bit)

/-- Every member is a number that may be one. -/
theorem mem_domain_of_contains {e : Int} (h : s.contains e = true) : e ∈ domain low high := by
  by_contra outside
  rw [contains_of_not_mem_domain outside] at h
  cases h

/-- Nothing is a member of the empty set. -/
theorem contains_empty (e : Int) : (empty : OrdinalSet low high).contains e = false := by
  by_cases mem : e ∈ domain low high
  · rw [contains_of_mem_domain mem]
    exact BitVec.getLsbD_zero
  · exact contains_of_not_mem_domain mem

/-- Membership in a set is told by the bits of two others, if its own bits are. -/
theorem contains_of_getLsbD {u : OrdinalSet low high} {g : Bool → Bool → Bool} (none : g false false = false)
    (bit : ∀ e : Nat, e < 256 → u.bits.getLsbD e = g (s.bits.getLsbD e) (t.bits.getLsbD e)) (e : Int) :
    u.contains e = g (s.contains e) (t.contains e) := by
  by_cases mem : e ∈ domain low high
  · have lt : e.toNat < 256 := by
      rw [mem_domain_iff] at mem
      omega
    rw [contains_of_mem_domain mem, contains_of_mem_domain mem, contains_of_mem_domain mem, bit _ lt]
  · rw [contains_of_not_mem_domain mem, contains_of_not_mem_domain mem, contains_of_not_mem_domain mem, none]

/-- A member of a union is one of either set. -/
theorem contains_union (s t : OrdinalSet low high) (e : Int) :
    (s.union t).contains e = (s.contains e || t.contains e) := by
  apply contains_of_getLsbD rfl
  intro i _
  exact BitVec.getLsbD_or

/-- A member of an intersection is one of both sets. -/
theorem contains_inter (s t : OrdinalSet low high) (e : Int) :
    (s.inter t).contains e = (s.contains e && t.contains e) := by
  apply contains_of_getLsbD rfl
  intro i _
  exact BitVec.getLsbD_and

/-- A member of a difference is one of the first set and not of the second one. -/
theorem contains_diff (s t : OrdinalSet low high) (e : Int) :
    (s.diff t).contains e = (s.contains e && !t.contains e) := by
  apply contains_of_getLsbD (g := fun a b => a && !b) rfl
  intro i lt
  show (s.bits &&& ~~~t.bits).getLsbD i = _
  rw [BitVec.getLsbD_and, BitVec.getLsbD_not, decide_eq_true lt, Bool.true_and]

/-- To insert a number that may be a member sets its bit. -/
theorem bits_insert {d : Int} (mem : d ∈ domain low high) :
    (s.insert d).bits = s.bits ||| BitVec.twoPow 256 d.toNat := by
  unfold insert
  split
  · rename_i e slot
    rw [slot?_eq_some_of_mem mem, Option.some.injEq] at slot
    rw [slot]
  · rename_i none
    exact absurd mem (slot?_eq_none_iff.mp none)

/-- To insert any other number does nothing. -/
theorem insert_of_not_mem_domain {d : Int} (outside : d ∉ domain low high) : s.insert d = s := by
  unfold insert
  split
  · rename_i e slot
    rw [slot?_eq_none_iff.mpr outside] at slot
    cases slot
  · rfl

/-- Two numbers that may be members have the same bit only if they are equal. -/
theorem getLsbD_twoPow_of_mem_domain {d e : Int} (may : d ∈ domain low high) (mem : e ∈ domain low high) :
    (BitVec.twoPow 256 d.toNat).getLsbD e.toNat = decide (e = d) := by
  rw [mem_domain_iff] at may mem
  have lt : d.toNat < 256 := by omega
  have same : d.toNat = e.toNat ↔ e = d := by omega
  rw [BitVec.getLsbD_twoPow, decide_eq_true lt, Bool.true_and, decide_eq_decide]
  exact same

/-- An insertion makes one number a member, if it may be one. -/
theorem contains_insert (s : OrdinalSet low high) (d e : Int) :
    (s.insert d).contains e = (s.contains e || decide (e = d ∧ d ∈ domain low high)) := by
  -- outside of the domain nothing is inserted, and nothing is a member
  by_cases may : d ∈ domain low high
  · by_cases mem : e ∈ domain low high
    · rw [contains_of_mem_domain mem, contains_of_mem_domain mem, bits_insert may, BitVec.getLsbD_or,
        getLsbD_twoPow_of_mem_domain may mem]
      simp only [may, and_true]
    · have ne : e ≠ d := by
        rintro rfl
        exact mem may
      rw [contains_of_not_mem_domain mem, contains_of_not_mem_domain mem]
      simp [ne]
  · rw [insert_of_not_mem_domain may]
    simp [may]

/-- To erase a number that may be a member clears its bit. -/
theorem bits_erase {d : Int} (mem : d ∈ domain low high) :
    (s.erase d).bits = s.bits &&& ~~~BitVec.twoPow 256 d.toNat := by
  rw [erase, slot?_eq_some_of_mem mem]

/-- To erase any other number does nothing. -/
theorem erase_of_not_mem_domain {d : Int} (outside : d ∉ domain low high) : s.erase d = s := by
  rw [erase, slot?_eq_none_iff.mpr outside]

/-- An erasure takes one member away. -/
theorem contains_erase (s : OrdinalSet low high) (d e : Int) :
    (s.erase d).contains e = (s.contains e && decide (e ≠ d)) := by
  by_cases mem : e ∈ domain low high
  · by_cases may : d ∈ domain low high
    · have lt : e.toNat < 256 := by
        rw [mem_domain_iff] at mem
        omega
      rw [contains_of_mem_domain mem, contains_of_mem_domain mem, bits_erase may, BitVec.getLsbD_and,
        BitVec.getLsbD_not, getLsbD_twoPow_of_mem_domain may mem, decide_eq_true lt, Bool.true_and, decide_not]
    · -- a number that cannot be erased is not the one that is asked for
      have ne : e ≠ d := by
        rintro rfl
        exact may mem
      rw [erase_of_not_mem_domain may]
      simp [ne]
  · rw [contains_of_not_mem_domain mem, contains_of_not_mem_domain mem, Bool.false_and]

/-- Numbers that are inserted one after another are members, if they may be. -/
theorem contains_foldl_insert (elements : List Int) (s : OrdinalSet low high) (e : Int) :
    (elements.foldl insert s).contains e =
      (s.contains e || decide (e ∈ elements ∧ e ∈ domain low high)) := by
  induction elements generalizing s with
  | nil => simp
  | cons d elements ih =>
    rw [List.foldl_cons, ih, contains_insert, Bool.or_assoc, ← Bool.decide_or]
    congr 2
    rw [List.mem_cons]
    grind

/-- The members of a list of numbers are those that may be members. -/
theorem contains_ofList (elements : List Int) (e : Int) :
    (ofList elements : OrdinalSet low high).contains e = decide (e ∈ elements ∧ e ∈ domain low high) := by
  rw [ofList, contains_foldl_insert, contains_empty, Bool.false_or]

/-- So are those of a range of numbers. -/
theorem contains_ofRange (first last e : Int) :
    (ofRange first last : OrdinalSet low high).contains e =
      decide (first ≤ e ∧ e ≤ last ∧ e ∈ domain low high) := by
  rw [ofRange, contains_ofList]
  congr 1
  apply propext
  simp only [List.mem_filter, List.mem_map, List.mem_range, Bool.and_eq_true, decide_eq_true_eq,
    mem_domain_iff]
  constructor
  · rintro ⟨⟨-, from_, upTo⟩, inside⟩
    exact ⟨from_, upTo, inside⟩
  · rintro ⟨from_, upTo, inside⟩
    -- a member is an ordinal of a byte, and so one of the numbers that are tried
    refine ⟨⟨⟨e.toNat, by omega, ?_⟩, from_, upTo⟩, inside⟩
    show (e.toNat : Int) = e
    omega

/-! ### The finite set that a set stands for -/

/-- A set stands for a finite set of numbers, whatever it is asked. -/
structure StandsFor (s : OrdinalSet low high) (x : Finset Int) : Prop where
  within : x ⊆ domain low high
  bit_iff : ∀ e : Nat, s.bits.getLsbD e = true ↔ (e : Int) ∈ x
  contains_iff : ∀ e : Int, s.contains e = true ↔ e ∈ x
  size_eq : s.size = x.card
  isEmpty_iff : s.isEmpty = true ↔ s.size = 0
  ascending : s.members.Pairwise (· < ·)
  mem_iff : ∀ e : Nat, e ∈ s.members ↔ (e : Int) ∈ x

/-- The members that are listed are the numbers that the set contains. -/
theorem mem_members_iff {e : Nat} : e ∈ s.members ↔ s.contains e = true := by
  rw [members, List.mem_filter, List.mem_range, and_iff_right_iff_imp]
  intro mem
  have bounds := mem_domain_iff.mp (mem_domain_of_contains mem)
  omega

/-- They are listed in order, each once. -/
theorem pairwise_members (s : OrdinalSet low high) : s.members.Pairwise (· < ·) :=
  List.Pairwise.filter _ List.pairwise_lt_range

/-- The bits that are set are counted by the members. -/
theorem size_eq_length_members (s : OrdinalSet low high) : s.size = s.members.length := by
  rw [size, members, List.countP_eq_length_filter]
  congr 2
  funext e
  exact (contains_natCast e).symm

/-- A set is empty if it has no members to list. -/
theorem isEmpty_iff_members : s.isEmpty = true ↔ s.members = [] := by
  rw [isEmpty, beq_iff_eq, List.eq_nil_iff_forall_not_mem]
  constructor
  · intro zero e mem
    rw [mem_members_iff, contains_natCast, zero] at mem
    cases BitVec.getLsbD_zero.symm.trans mem
  · -- no bit is set, since a bit that is set is that of a member
    intro none
    apply BitVec.eq_of_getLsbD_eq
    intro e _
    have not := none e
    rw [mem_members_iff, contains_natCast, Bool.not_eq_true] at not
    rw [not]
    exact BitVec.getLsbD_zero.symm

/-- It is enough that the members are the numbers. -/
theorem standsFor_of_contains (h : ∀ e : Int, s.contains e = true ↔ e ∈ x) : s.StandsFor x where
  within e mem := mem_domain_of_contains ((h e).mpr mem)
  bit_iff e := by rw [← contains_natCast, h]
  contains_iff := h
  size_eq := by
    -- the bits are counted by the members, each of which is one number
    have distinct : (s.members.map Int.ofNat).Nodup :=
      List.Nodup.map (fun _ _ same => Int.ofNat.inj same) (s.pairwise_members.imp Nat.ne_of_lt)
    have same : (s.members.map Int.ofNat).toFinset = x := by
      ext e
      rw [List.mem_toFinset, List.mem_map, ← h]
      constructor
      · rintro ⟨i, mem, rfl⟩
        exact mem_members_iff.mp mem
      · intro mem
        have bounds := mem_domain_iff.mp (mem_domain_of_contains mem)
        obtain ⟨i, rfl⟩ := Int.eq_ofNat_of_zero_le bounds.2.2.1
        exact ⟨i, mem_members_iff.mpr mem, rfl⟩
    rw [size_eq_length_members, ← same, List.toFinset_card_of_nodup distinct, List.length_map]
  isEmpty_iff := by rw [isEmpty_iff_members, size_eq_length_members, List.length_eq_zero_iff]
  ascending := s.pairwise_members
  mem_iff e := by rw [mem_members_iff, h]

/-! ### Two sets -/

/-- Two sets are equal if the finite sets that they stand for are. -/
theorem StandsFor.eq_iff (hs : s.StandsFor x) (ht : t.StandsFor y) : s = t ↔ x = y := by
  constructor
  · rintro rfl
    ext e
    rw [← hs.contains_iff, ht.contains_iff]
  · rintro rfl
    apply OrdinalSet.ext
    apply BitVec.eq_of_getLsbD_eq
    intro e _
    rw [Bool.eq_iff_iff, hs.bit_iff, ht.bit_iff]

/-- One set is part of another if the finite sets that they stand for are. -/
theorem StandsFor.isSubset_iff (hs : s.StandsFor x) (ht : t.StandsFor y) : s.isSubset t = true ↔ x ⊆ y := by
  rw [isSubset, beq_iff_eq]
  constructor
  · intro none e mem
    obtain ⟨i, rfl⟩ := Int.eq_ofNat_of_zero_le (mem_domain_iff.mp (hs.within mem)).2.2.1
    have bit := (hs.bit_iff i).mpr mem
    -- the bit is set in the first set, and so in the second, as none is set in the first alone
    have off : (s.bits &&& ~~~t.bits).getLsbD i = false := by
      rw [none]
      exact BitVec.getLsbD_zero
    rw [BitVec.getLsbD_and, BitVec.getLsbD_not, bit, decide_eq_true (BitVec.lt_of_getLsbD bit), Bool.true_and,
      Bool.true_and, Bool.not_eq_false'] at off
    exact (ht.bit_iff i).mp off
  · intro subset
    apply BitVec.eq_of_getLsbD_eq
    intro i lt
    show (s.bits &&& ~~~t.bits).getLsbD i = (0 : BitVec 256).getLsbD i
    rw [BitVec.getLsbD_and, BitVec.getLsbD_not, decide_eq_true lt, Bool.true_and]
    cases bit : s.bits.getLsbD i with
    | false => exact BitVec.getLsbD_zero.symm
    | true =>
      rw [(ht.bit_iff i).mpr (subset ((hs.bit_iff i).mp bit))]
      exact BitVec.getLsbD_zero.symm

/-- Sets are ordered as the finite sets that they stand for are by inclusion. -/
theorem StandsFor.compare?_iff (hs : s.StandsFor x) (ht : t.StandsFor y) :
    (s.compare? t = some .lt ↔ x ⊂ y) ∧ (s.compare? t = some .eq ↔ x = y) ∧
      (s.compare? t = some .gt ↔ y ⊂ x) ∧ (s.compare? t = none ↔ ¬ x ⊆ y ∧ ¬ y ⊆ x) := by
  have below := hs.isSubset_iff ht
  have above := ht.isSubset_iff hs
  rw [ssubset_iff_subset_not_subset, ssubset_iff_subset_not_subset, Finset.Subset.antisymm_iff, ← below, ← above,
    compare?]
  cases s.isSubset t <;> cases t.isSubset s <;> simp

/-! ### Sets as they are made -/

/-- The ways to make a set. -/
inductive Construction where
  | empty
  | ofList (elements : List Int)
  | ofRange (first last : Int)
  | insert (c : Construction) (element : Int)
  | erase (c : Construction) (element : Int)
  | union (c d : Construction)
  | inter (c d : Construction)
  | diff (c d : Construction)

namespace Construction

/-- The set that is made. -/
def build : Construction → OrdinalSet low high
  | empty => .empty
  | ofList elements => .ofList elements
  | ofRange first last => .ofRange first last
  | insert c element => c.build.insert element
  | erase c element => c.build.erase element
  | union c d => c.build.union d.build
  | inter c d => c.build.inter d.build
  | diff c d => c.build.diff d.build

/-- The numbers that it is meant to hold. -/
def numbers (low high : Int) : Construction → Finset Int
  | empty => ∅
  | ofList elements => (domain low high).filter (· ∈ elements)
  | ofRange first last => (domain low high).filter fun e => first ≤ e ∧ e ≤ last
  | insert c element => Insert.insert element (c.numbers low high) ∩ domain low high
  | erase c element => (c.numbers low high).erase element
  | union c d => c.numbers low high ∪ d.numbers low high
  | inter c d => c.numbers low high ∩ d.numbers low high
  | diff c d => c.numbers low high \ d.numbers low high

/-- The members of a set are the numbers that it is meant to hold. -/
theorem contains_build (c : Construction) (e : Int) :
    (c.build : OrdinalSet low high).contains e = true ↔ e ∈ c.numbers low high := by
  -- one case for each way to make a set
  induction c with
  | empty => simp [build, numbers, contains_empty]
  | ofList elements => simp [build, numbers, contains_ofList, and_comm]
  | ofRange first last =>
    rw [build, contains_ofRange, decide_eq_true_eq, numbers, Finset.mem_filter, ← and_assoc, and_comm]
  | insert c element ih =>
    -- no member of the set lies outside of the domain, so that it may be left out of account
    have inside : e ∈ c.numbers low high → e ∈ domain low high := fun mem => mem_domain_of_contains (ih.mpr mem)
    rw [build, contains_insert, Bool.or_eq_true, ih, decide_eq_true_eq, numbers, Finset.mem_inter,
      Finset.mem_insert]
    grind
  | erase c element ih =>
    rw [build, contains_erase, Bool.and_eq_true, ih, decide_eq_true_eq, numbers, Finset.mem_erase, and_comm]
  | union c d ihc ihd => rw [build, contains_union, Bool.or_eq_true, ihc, ihd, numbers, Finset.mem_union]
  | inter c d ihc ihd => rw [build, contains_inter, Bool.and_eq_true, ihc, ihd, numbers, Finset.mem_inter]
  | diff c d ihc ihd =>
    rw [build, contains_diff, Bool.and_eq_true, Bool.not_eq_true', ihc, numbers, Finset.mem_sdiff, ← ihd,
      Bool.not_eq_true]

end Construction

/-- **A set of ordinals is the finite set that it stands for.**  Whatever its bounds are and however it was made, it
    stands for the numbers that it is meant to hold, none of which lies outside of its bounds; two sets are equal if
    these numbers are, and are ordered as these are by inclusion. -/
theorem constructed_standsFor (low high : Int) :
    (∀ c : Construction, (c.build : OrdinalSet low high).StandsFor (c.numbers low high)) ∧
      ∀ c d : Construction,
        let s : OrdinalSet low high := c.build
        let t : OrdinalSet low high := d.build
        let x := c.numbers low high
        let y := d.numbers low high
        ((s == t) = true ↔ x = y) ∧ (s.compare? t = some .lt ↔ x ⊂ y) ∧ (s.compare? t = some .eq ↔ x = y) ∧
          (s.compare? t = some .gt ↔ y ⊂ x) ∧ (s.compare? t = none ↔ ¬ x ⊆ y ∧ ¬ y ⊆ x) := by
  have stands (c : Construction) : (c.build : OrdinalSet low high).StandsFor (c.numbers low high) :=
    standsFor_of_contains c.contains_build
  refine ⟨stands, fun c d => ?_⟩
  -- what is equal is equal bit by bit, and the comparison is made of two questions about parts
  dsimp only
  rw [beq_iff_eq]
  exact ⟨(stands c).eq_iff (stands d), (stands c).compare?_iff (stands d)⟩

end OrdinalSet

end SystemUnit
