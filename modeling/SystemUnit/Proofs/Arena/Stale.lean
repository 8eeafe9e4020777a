import SystemUnit.Proofs.Arena.Access

namespace SystemUnit

namespace Arena

/-!
# Stale pointers

A pointer into a block that is gone is refused for ever.  The check looks only at the nearest block below the
address, so what keeps a stale pointer out is where later blocks lie: past every address handed out before,
and with a gap between any two.

* `Change.origin`, `Change.next_le` — a block of the arena after a change was there before, or lies past it;
* `Stale` — addresses below the next free one that no block covers or ends at, the invariant of a run;
* `Stale.refuses` — every access through such an address fails;
* `Layout.stale_of_gone`, `Layout.gone_of_releases` — a block that is gone leaves stale addresses, and a release
  makes it gone;
* `released_never_accepted` — hence a released block is never valid again.
-/

variable {a a' : Arena} {b c : Block} {p q : Pointer}

/-! ### What changes leave -/

/-- A block after a change stands where one of the same size stood before, or past all of them. -/
theorem Change.origin (h : Change a a') (hc : c ∈ a'.blocks) :
    (∃ d ∈ a.blocks, d.base = c.base ∧ d.bytes.length = c.bytes.length) ∨ a.next ≤ c.base := by
  cases h with
  | keep => exact .inl ⟨c, hc, rfl, rfl⟩
  | place nonempty room =>
    rcases mem_blocks_place.mp hc with hc | rfl
    · exact .inl ⟨c, hc, rfl, rfl⟩
    · exact .inr (Nat.le_refl _)
  | erase address => exact .inl ⟨c, (mem_blocks_erase.mp hc).1, rfl, rfl⟩
  | replace address nonempty room =>
    rcases mem_blocks_place.mp hc with hc | rfl
    · exact .inl ⟨c, (mem_blocks_erase.mp hc).1, rfl, rfl⟩
    · exact .inr (Nat.le_refl _)
  | @update b hb bytes length_eq =>
    obtain ⟨d, hd, rfl⟩ := List.mem_map.mp hc
    -- the block with other bytes starts where it did, and is as long as it was
    by_cases same : d.base = b.base
    · refine .inl ⟨b, hb, ?_⟩
      rw [if_pos (beq_iff_eq.mpr same)]
      exact ⟨same.symm, length_eq.symm⟩
    · refine .inl ⟨d, hd, ?_⟩
      rw [if_neg (by rw [beq_iff_eq]; exact same)]
      exact ⟨rfl, rfl⟩

/-- Free addresses are used up and never given back. -/
theorem Change.next_le (h : Change a a') : a.next ≤ a'.next := by
  cases h with
  | keep | erase | update => exact Nat.le_refl _
  | place | replace => exact Nat.le_add_right _ _

/-- The next free address never goes back. -/
theorem Layout.next_le_after (layout : a.Layout) (calls : List Call) : a.next ≤ (a.after calls).next := by
  induction calls generalizing a with
  | nil => exact Nat.le_refl _
  | cons call calls ih =>
    have step := (layout.perform_change call).next_le
    exact Nat.le_trans step (ih (layout.perform call))

/-! ### Addresses handed out -/

/-- A pointer that an allocation gives lies before the next free address. -/
theorem Layout.getMem_lt_next (layout : a.Layout) {grants : Nat → Bool} {size : Int}
    (h : a.getMem grants size = .ok (p, a')) : p.address.toNat < a'.next := by
  rcases getMem_eq_ok h with ⟨-, rfl, rfl⟩ | ⟨-, -, rfl, rfl⟩
  · exact layout.next_pos
  · have reach_pos := lt_reach (List.replicate size.toNat (0 : UInt8)).length
    rw [layout.toNat_next, next_place]
    omega

/-- A release gives nil, which does so too. -/
theorem Layout.freeMem_lt_next (layout : a.Layout) (h : a.freeMem p = .ok (q, a')) :
    q.address.toNat < a'.next := by
  rw [(freeMem_eq_ok h).1]
  exact (layout.change (freeMem_change h)).next_pos

/-- So does a pointer that a reallocation gives. -/
theorem Layout.reallocation_lt_next (layout : a.Layout) {grants : Nat → Bool} {size : Int}
    (h : a.Reallocation grants p size (.ok q, a')) : q.address.toNat < a'.next := by
  cases h with
  | get nil got => exact layout.getMem_lt_next got
  | free live none freed => exact layout.freeMem_lt_next freed
  | @move old pos found room =>
    have reach_pos := lt_reach (resized old.bytes size.toNat).length
    rw [layout.toNat_next, next_place, next_erase]
    omega

/-- A call that gives a pointer has given it. -/
theorem pointing_settle_eq_ok {result : Except Fault (Pointer × Arena)}
    (h : (pointing (a.settle result)).1 = .ok (some p)) : ∃ a', result = .ok (p, a') := by
  cases result with
  | error fault => cases h
  | ok place =>
    cases h
    exact ⟨place.2, rfl⟩

/-- A call that only writes gives none. -/
theorem writing_ne_pointer {result : Except Fault Arena} : (a.writing result).1 ≠ .ok (some p) := by
  cases result with
  | error fault => exact fun h => nomatch h
  | ok a' => exact fun h => nomatch h

/-- A pointer that a call gives lies below the next free address. -/
theorem Layout.answer_lt_next (layout : a.Layout) {call : Call} (h : (a.perform call).1 = .ok (some p)) :
    p.address.toNat < (a.perform call).2.next := by
  cases call with
  | getMem grants size | allocMem grants size =>
    have answered : (pointing (a.settle (a.getMem grants size))).1 = .ok (some p) := h
    obtain ⟨a', got⟩ := pointing_settle_eq_ok answered
    have given := layout.getMem_lt_next got
    show _ < (pointing (a.settle (a.getMem grants size))).2.next
    rw [got]
    exact given
  | reallocMem grants p' size =>
    have outcome := reallocation a grants p' size
    simp only [Arena.perform, pointing] at h ⊢
    generalize a.reallocMem grants p' size = result at outcome h ⊢
    obtain ⟨answer, a'⟩ := result
    cases answer with
    | error fault => cases h
    | ok q =>
      cases h
      exact layout.reallocation_lt_next outcome
  | freeMem p' =>
    have answered : (pointing (a.settle (a.freeMem p'))).1 = .ok (some p) := h
    obtain ⟨a', freed⟩ := pointing_settle_eq_ok answered
    have given := layout.freeMem_lt_next freed
    show _ < (pointing (a.settle (a.freeMem p'))).2.next
    rw [freed]
    exact given
  -- calls that write give no pointer
  | store | writeByte | fillChar | fillZero | fillByte | fillWord | fillDWord | moveMem =>
    exact absurd h writing_ne_pointer

/-- So does every pointer that a run has given. -/
theorem Layout.trace_lt_next (layout : a.Layout) {calls : List Call} {call : Call}
    (h : (call, .ok (some p)) ∈ a.trace calls) : p.address.toNat < (a.after calls).next := by
  induction calls generalizing a with
  | nil => cases h
  | cons first calls ih =>
    have layout' := layout.perform first
    -- a pointer that is given now is passed by all that comes later
    rcases List.mem_cons.mp h with now | later
    · obtain ⟨rfl, answer_eq⟩ := Prod.mk.inj now
      have given := layout.answer_lt_next answer_eq.symm
      exact Nat.lt_of_lt_of_le given (layout'.next_le_after calls)
    · exact ih layout' later

/-! ### Stale addresses -/

/-- The addresses from `start` to `start + size` lie below the next free one, and no block covers one of them
    or ends there. -/
structure Stale (a : Arena) (start size : Nat) : Prop where
  base_le : baseAddress ≤ start
  lt_next : start + size < a.next
  outside : ∀ b ∈ a.blocks, b.base + b.bytes.length < start ∨ start + size < b.base

variable {start size : Nat}

/-- **Stale addresses stay so**, since every block of later is one of now or lies past them. -/
theorem Stale.change (stale : a.Stale start size) (h : Change a a') : a'.Stale start size where
  base_le := stale.base_le
  lt_next := Nat.lt_of_lt_of_le stale.lt_next h.next_le
  outside := by
    intro c hc
    have below := stale.lt_next
    rcases h.origin hc with ⟨d, hd, base_eq, length_eq⟩ | beyond
    · rw [← base_eq, ← length_eq]
      exact stale.outside d hd
    · exact .inr (by omega)

/-- So they do after any calls. -/
theorem Stale.after (stale : a.Stale start size) (layout : a.Layout) (calls : List Call) :
    (a.after calls).Stale start size := by
  -- the layout is carried along, since what a call changes is known only where it holds
  induction calls generalizing a with
  | nil => exact stale
  | cons call calls ih => exact ih (stale.change (layout.perform_change call)) (layout.perform call)

/-- A block that is gone leaves stale addresses, its end included: there is a gap to the next block, and new
    blocks lie past it. -/
theorem Layout.stale_of_gone (layout : a.Layout) (hb : b ∈ a.blocks) (h : Change a a')
    (gone : a'.block? b.base = none) : a'.Stale b.base b.bytes.length where
  base_le := layout.base_le b hb
  lt_next := by
    have reach_b := lt_reach b.bytes.length
    have reach_le := layout.reach_le b hb
    have next_le := h.next_le
    omega
  outside := by
    intro c hc
    have other : c.base ≠ b.base := block?_eq_none_iff.mp gone c hc
    have reach_b := lt_reach b.bytes.length
    -- a block from before is apart from `b`, and a new one lies past all that were handed out
    rcases h.origin hc with ⟨d, hd, base_eq, length_eq⟩ | beyond
    · have reach_d := lt_reach d.bytes.length
      rcases layout.eq_or_apart hb hd with rfl | before | behind
      · exact absurd base_eq.symm other
      · exact .inr (by omega)
      · exact .inl (by omega)
    · have reach_le := layout.reach_le b hb
      exact .inr (by omega)

/-- What an arena refuses through a pointer, with the fault of a pointer at no block: to read, to write and to
    copy bytes, one or more, and to release or to resize a block. -/
structure Refuses (a : Arena) (p : Pointer) : Prop where
  bytes : ∀ count : Int, 0 < count → a.bytes p count = .error .noBlock
  store : ∀ data, data ≠ [] → a.store p data = .error .noBlock
  fillChar : ∀ count value : Int, 0 < count → a.fillChar p count value = .error .noBlock
  readByte : a.readByte p = .error .noBlock
  writeByte : ∀ value, a.writeByte p value = .error .noBlock
  moveMem : ∀ (dest : Pointer) (count : Int), 0 < count → a.moveMem p dest count = .error .noBlock
  freeMem : a.freeMem p = .error .noBlock
  reallocMem : ∀ grants size, a.reallocMem grants p size = (.error .noBlock, a)

/-- **A stale pointer is refused.** -/
theorem Stale.refuses (stale : a.Stale start size) (layout : a.Layout) (start_le : start ≤ p.address.toNat)
    (le_end : p.address.toNat ≤ start + size) : a.Refuses p := by
  have live : p.isNil = false := isNil_of_le (Nat.le_trans stale.base_le start_le)
  -- neither lookup finds a block: none covers the address or ends there, and so none starts there
  have lost : ∀ count, a.locate p count = .error .noBlock := by
    intro count
    refine layout.locate_eq_noBlock_iff.mpr ⟨live, fun b hb => ?_⟩
    have := stale.outside b hb
    omega
  have absent : a.block? p.address.toNat = none := by
    refine block?_eq_none_iff.mpr fun b hb => ?_
    have := stale.outside b hb
    omega
  have freed : a.freeMem p = .error .noBlock := by
    rw [Arena.freeMem, live, absent]
    rfl
  have bytes : ∀ count, 0 < count → a.bytes p count = .error .noBlock :=
    fun count pos => bytes_eq_error_iff.mpr ⟨pos, lost _⟩
  have stored : ∀ data, data ≠ [] → a.store p data = .error .noBlock := by
    intro data some
    have pos := List.length_pos_iff.mpr some
    exact store_eq_error_iff.mpr (bytes data.length (by omega))
  refine ⟨bytes, stored, ?_, ?_, fun value => stored [value] (List.cons_ne_nil _ _), ?_, freed, ?_⟩
  · intro count value pos
    exact fillBytes_eq_error_iff.mpr (bytes count pos)
  · exact readByte_eq_error_iff.mpr (bytes 1 Int.one_pos)
  · intro dest count pos
    exact moveMem_eq_error_iff.mpr (.inl (bytes count pos))
  · intro grants size
    simp only [Arena.reallocMem, live, Bool.false_eq_true, if_false]
    by_cases none : size ≤ 0
    · rw [if_pos none, freed]
    · rw [if_neg none, absent]

/-! ### Releases -/

/-- The calls that release the block at an address: to free it, and to give it another size. -/
inductive Call.Releases (address : Nat) : Call → Prop where
  | free {p : Pointer} (at_address : p.address.toNat = address) : Releases address (.freeMem p)
  | realloc {grants : Nat → Bool} {p : Pointer} {size : Int} (at_address : p.address.toNat = address) :
      Releases address (.reallocMem grants p size)

/-- A release leaves no block where its own started. -/
theorem Layout.gone_of_free (layout : a.Layout) (hb : b ∈ a.blocks) (at_base : p.address.toNat = b.base)
    (h : a.freeMem p = .ok (q, a')) : a'.block? b.base = none := by
  have live := layout.not_isNil hb (Nat.le_of_eq at_base.symm)
  obtain ⟨-, ⟨nil, -⟩ | ⟨-, -, rfl⟩⟩ := freeMem_eq_ok h
  · rw [Pointer.isNil_iff.mpr nil] at live
    cases live
  · rw [at_base]
    exact block?_eq_none_iff.mpr fun c hc => (mem_blocks_erase.mp hc).2

/-- A release that succeeds takes the block away. -/
theorem Layout.gone_of_releases (layout : a.Layout) (hb : b ∈ a.blocks) {call : Call}
    (releases : call.Releases b.base) {answer : Option Pointer} (h : (a.perform call).1 = .ok answer) :
    (a.perform call).2.block? b.base = none := by
  cases releases with
  | @free p at_base =>
    cases freed : a.freeMem p with
    | error fault =>
      simp only [Arena.perform, freed] at h
      cases h
    | ok place =>
      have gone := layout.gone_of_free hb at_base freed
      simp only [Arena.perform, freed]
      exact gone
  | @realloc grants p size at_base =>
    have outcome := reallocation a grants p size
    have live := layout.not_isNil hb (Nat.le_of_eq at_base.symm)
    simp only [Arena.perform, pointing] at h ⊢
    generalize a.reallocMem grants p size = result at outcome h ⊢
    cases outcome with
    | get nil got =>
      rw [Pointer.isNil_iff.mpr nil] at live
      cases live
    | free live none freed => exact layout.gone_of_free hb at_base freed
    | move pos found room =>
      obtain ⟨-, base_eq⟩ := layout.block?_eq_some_iff.mp found
      refine block?_eq_none_iff.mpr fun c hc => ?_
      rcases mem_blocks_place.mp hc with hc | rfl
      · have other := (mem_blocks_erase.mp hc).2
        omega
      · -- the new block starts past the reach of the old one
        have reach_b := lt_reach b.bytes.length
        have reach_le := layout.reach_le b hb
        show a.next ≠ b.base
        omega
    | keep fault | lose fault => cases h

/-- Where the blocks of an arena lie: at distinct aligned addresses, each with a gap behind it.  Addresses that
    were given out lie below the next free one. -/
structure Spaced (a : Arena) (given : List (Call × Answer)) : Prop where
  base_le : ∀ b ∈ a.blocks, 0x10000 ≤ b.base
  aligned : ∀ b ∈ a.blocks, 16 ∣ b.base
  distinct : (a.blocks.map (·.base)).Nodup
  gap : a.blocks.Pairwise fun b c => b.base + b.bytes.length + 16 ≤ c.base
  lt_next : ∀ call p, (call, .ok (some p)) ∈ given → p.address.toNat < a.next

/-- Between two blocks there is room for an alignment. -/
theorem Layout.gap (layout : a.Layout) :
    a.blocks.Pairwise fun b c => b.base + b.bytes.length + 16 ≤ c.base :=
  layout.spaced.imp fun {b c} spaced => by
    have reach_b := add_alignment_le_reach b.bytes.length
    unfold alignment at reach_b
    omega

/-- **Blocks are spaced after any calls**, and every pointer that was given lies before the next free address. -/
theorem Layout.spaced_after (layout : a.Layout) (calls : List Call) :
    (a.after calls).Spaced (a.trace calls) where
  base_le := (layout.after calls).base_le
  aligned := (layout.after calls).aligned
  distinct := by
    refine List.pairwise_map.mpr ((layout.after calls).gap.imp fun gap => ?_)
    omega
  gap := (layout.after calls).gap
  lt_next _ _ given := layout.trace_lt_next given

/-- **A released block is never valid again.**  After any calls blocks lie apart; a release of a block that
    succeeds takes it away; and once it is gone, no calls whatever make a pointer into it, or to its end, valid
    again. -/
theorem released_never_accepted (before : List Call) :
    (Arena.empty.after before).Spaced (Arena.empty.trace before) ∧
      ∀ b ∈ (Arena.empty.after before).blocks, ∀ call : Call,
        (∀ answer, call.Releases b.base → ((Arena.empty.after before).perform call).1 = .ok answer →
          ((Arena.empty.after before).perform call).2.block? b.base = none) ∧
        (((Arena.empty.after before).perform call).2.block? b.base = none →
          ∀ (later : List Call) (q : Pointer), b.base ≤ q.address.toNat →
            q.address.toNat ≤ b.base + b.bytes.length →
            (((Arena.empty.after before).perform call).2.after later).Refuses q) := by
  have layout := layout_after before
  refine ⟨Layout.empty.spaced_after before, fun b hb call => ⟨?_, ?_⟩⟩
  · intro answer releases answered
    exact layout.gone_of_releases hb releases answered
  · -- once the block is gone its addresses are stale, and stay so
    intro gone later q base_le le_end
    have layout' := layout.perform call
    have stale := layout.stale_of_gone hb (layout.perform_change call) gone
    exact (stale.after layout' later).refuses (layout'.after later) base_le le_end

/-- A block is placed and released, and another is placed: the first one's end is refused. -/
theorem freed_block_refused :
    (Arena.empty.after [.getMem (fun _ => true) 8]).blocks = [⟨0x10000, [0, 0, 0, 0, 0, 0, 0, 0]⟩] ∧
      (Arena.empty.after
        [.getMem (fun _ => true) 8, .freeMem ⟨0x10000⟩, .getMem (fun _ => true) 8]).Refuses ⟨0x10008⟩ := by
  have placed : (Arena.empty.after [.getMem (fun _ => true) 8]).blocks =
      [⟨0x10000, [0, 0, 0, 0, 0, 0, 0, 0]⟩] := by decide
  have block : (⟨0x10000, [0, 0, 0, 0, 0, 0, 0, 0]⟩ : Block) ∈
      (Arena.empty.after [.getMem (fun _ => true) 8]).blocks := by
    rw [placed]
    exact List.mem_singleton.mpr rfl
  obtain ⟨accepted, never⟩ :=
    (released_never_accepted [.getMem (fun _ => true) 8]).2 _ block (.freeMem ⟨0x10000⟩)
  have gone := accepted (some .nil) (.free rfl) rfl
  exact ⟨placed, never gone [.getMem (fun _ => true) 8] ⟨0x10008⟩ (by decide) (by decide)⟩

end Arena

end SystemUnit
