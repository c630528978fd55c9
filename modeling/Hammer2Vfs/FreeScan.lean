import Hammer2Vfs.MountInv

namespace Hammer2Vfs

theorem topSlotFrom_eq_zero (slots : List Slot) (k : Nat) :
    topSlotFrom slots k = 0 ↔ ∀ i < k, (slots.getD i {}).pfsHmp = none := by
  refine ⟨fun h i hi => topSlotFrom_above slots k i (h ▸ Nat.zero_le i) hi, fun h => ?_⟩
  induction k with
  | zero => rfl
  | succ k ih =>
    unfold topSlotFrom
    rw [if_neg (by rw [h k (Nat.lt_succ_self k)]; decide)]
    exact ih fun i hi => h i (Nat.lt_succ_of_lt hi)

theorem topSlotFrom_isSome {slots : List Slot} {k n : Nat} (h : topSlotFrom slots k = n + 1) :
    (slots.getD n {}).pfsHmp.isSome := by
  induction k with
  | zero => cases h
  | succ k ih =>
    unfold topSlotFrom at h
    split at h
    · rename_i hk
      rw [← Nat.succ.inj h]; exact hk
    · exact ih h

theorem clearSlots_getD (hmp : DevId) (slots : List Slot) (i : Nat) :
    (clearSlots hmp slots).getD i {} =
      if (slots.getD i {}).pfsHmp = some hmp then {} else slots.getD i {} := by
  simp only [clearSlots, List.getD_eq_getElem?_getD, List.getElem?_map]
  cases slots[i]? <;> simp

theorem forall_getD_iff (P : Slot → Prop) {slots : List Slot} {k : Nat} (hl : slots.length = k) :
    (∀ i < k, P (slots.getD i {})) ↔ ∀ s ∈ slots, P s := by
  subst hl
  rw [List.forall_mem_iff_getElem]
  exact forall_congr' fun i => forall_congr' fun hi => by
    rw [List.getD_eq_getElem?_getD, List.getElem?_eq_getElem hi]; rfl

theorem Pfs.detach_nchains_eq_zero {hmp : DevId} {p : Pfs} :
    (p.detach hmp).nchains = 0 ↔ ∀ s ∈ p.slots, s.pfsHmp.isSome → s.pfsHmp = some hmp := by
  have hslot : ∀ s : Slot, (if s.pfsHmp = some hmp then {} else s).pfsHmp = none ↔
      (s.pfsHmp.isSome → s.pfsHmp = some hmp) := by
    intro s
    cases hs : s.pfsHmp with
    | none => simp [hs]
    | some h => by_cases e : h = hmp <;> simp [hs, e]
  change topSlotFrom (clearSlots hmp p.slots) HAMMER2_MAXCLUSTER = 0 ↔ _
  rw [topSlotFrom_eq_zero]
  simp only [clearSlots_getD]
  exact (forall_getD_iff (fun s => (if s.pfsHmp = some hmp then {} else s).pfsHmp = none)
    p.slots_length).trans (forall₂_congr fun s _ => hslot s)

theorem scanOne_eq_none_iff {hmp : DevId} {p : Pfs} :
    scanOne hmp p = none ↔ p.uses hmp ∧ ∀ s ∈ p.slots, s.pfsHmp.isSome → s.pfsHmp = some hmp := by
  rw [← Pfs.detach_nchains_eq_zero]
  unfold scanOne
  split_ifs <;> simp_all

theorem scanOne_detached {hmp : DevId} {p q : Pfs} (hu : p.uses hmp)
    (h : scanOne hmp p = some q) :
    (∀ i, q.slots.getD i {} =
      if (p.slots.getD i {}).pfsHmp = some hmp then {} else p.slots.getD i {}) ∧
    0 < q.nchains ∧ (q.slots.getD (q.nchains - 1) {}).pfsHmp.isSome ∧
    ∀ i, q.nchains ≤ i → (q.slots.getD i {}).pfsHmp = none := by
  unfold scanOne at h
  rw [if_pos hu] at h
  split_ifs at h with h0
  cases h
  obtain ⟨n, hn⟩ := Nat.exists_eq_succ_of_ne_zero h0
  refine ⟨clearSlots_getD hmp p.slots, Nat.pos_of_ne_zero h0, ?_, fun i hi => ?_⟩
  · rw [hn]; exact topSlotFrom_isSome hn
  · by_cases hl : i < HAMMER2_MAXCLUSTER
    · exact topSlotFrom_above _ _ _ hi hl
    · rw [List.getD_eq_getElem?_getD, List.getElem?_eq_none (by
        simp only [Pfs.detach_slots, clearSlots, List.length_map, p.slots_length]; omega)]
      rfl

section
variable {hmp : DevId} {l : List Pfs}

theorem scanOne_of_mem (hn : (l.map Pfs.id).Nodup) {p q : Pfs} (hp : p ∈ l)
    (hq : q ∈ l.filterMap (scanOne hmp)) (he : q.id = p.id) : scanOne hmp p = some q := by
  obtain ⟨p', hp', hq'⟩ := List.mem_filterMap.1 hq
  rwa [List.inj_on_of_nodup_map hn hp' hp ((scanOne_id hq').symm.trans he)] at hq'

theorem id_mem_filterMap_scanOne (hn : (l.map Pfs.id).Nodup) {p : Pfs} (hp : p ∈ l) :
    p.id ∈ (l.filterMap (scanOne hmp)).map Pfs.id ↔ scanOne hmp p ≠ none := by
  constructor
  · rintro hm h0
    obtain ⟨q, hq, he⟩ := List.mem_map.1 hm
    rw [scanOne_of_mem hn hp hq he] at h0
    cases h0
  · intro h0
    obtain ⟨q, hq⟩ := Option.ne_none_iff_exists'.1 h0
    exact List.mem_map.2 ⟨q, List.mem_filterMap.2 ⟨p, hp, hq⟩, scanOne_id hq⟩

end

/-- The `hmp->spmp` hammer2_pfsfree_scan returns: cleared when the scan frees the PFS it
names. -/
def spmpAfter (hmp : Dev) (l : List Pfs) : Option PfsId :=
  if l.any fun p => (scanOne hmp.id p).isNone && hmp.spmp == some p.id then none else hmp.spmp

theorem spmpAfter_eq_none {hmp : Dev} {l : List Pfs} :
    spmpAfter hmp l = none ↔
      hmp.spmp = none ∨ ∃ p ∈ l, scanOne hmp.id p = none ∧ hmp.spmp = some p.id := by
  unfold spmpAfter
  split
  · rename_i h
    obtain ⟨p, hp, h⟩ := List.any_eq_true.1 h
    simp only [Bool.and_eq_true, Option.isNone_iff_eq_none, beq_iff_eq] at h
    simp only [true_iff]
    exact .inr ⟨p, hp, h⟩
  · rename_i h
    simp only [List.any_eq_true, Bool.and_eq_true, Option.isNone_iff_eq_none, beq_iff_eq,
      not_exists, not_and] at h
    constructor
    · exact .inl
    · rintro (h' | ⟨p, hp, h0, hs⟩)
      · exact h'
      · exact absurd hs (h p hp h0)

theorem spmpAfter_append_kept {hmp : Dev} {l₁ l₂ : List Pfs}
    (h : ∀ x ∈ l₁, scanOne hmp.id x ≠ none) : spmpAfter hmp (l₁ ++ l₂) = spmpAfter hmp l₂ := by
  have : (l₁.any fun x => (scanOne hmp.id x).isNone && hmp.spmp == some x.id) = false := by
    simp only [List.any_eq_false, Bool.and_eq_true, Option.isNone_iff_eq_none, not_and]
    exact fun x hx h0 => absurd h0 (h x hx)
  simp only [spmpAfter, List.any_append, this, Bool.false_or]

theorem spmpAfter_restart {hmp : Dev} {pre post : List Pfs} {p : Pfs}
    (hpre : ∀ x ∈ pre, scanOne hmp.id x ≠ none) (hp : scanOne hmp.id p = none) :
    spmpAfter { hmp with spmp := if hmp.spmp = some p.id then none else hmp.spmp }
        (pre.filterMap (scanOne hmp.id) ++ post) = spmpAfter hmp (pre ++ p :: post) := by
  by_cases hs : hmp.spmp = some p.id
  · rw [spmpAfter_eq_none.2 (.inr ⟨p, by simp, hp, hs⟩)]
    simp only [spmpAfter, hs, ↓reduceIte, ite_self]
  · have h1 : ∀ x ∈ pre.filterMap (scanOne hmp.id), scanOne hmp.id x ≠ none := by
      intro x hx
      obtain ⟨y, -, hy⟩ := List.mem_filterMap.1 hx
      simp [scanOne_idem hy]
    rw [if_neg hs, spmpAfter_append_kept h1, spmpAfter_append_kept hpre]
    simp [spmpAfter, hs, hp]

theorem hammer2PfsfreeScan_eq {hmp : Dev} {which fuel : Nat} {st : State}
    (hn : ((st.wlist which).map Pfs.id).Nodup)
    (hf : ∀ p ∈ st.wlist which, p.spmp = (which != 0))
    (hl : (st.wlist which).length < fuel) :
    hammer2PfsfreeScan hmp which st fuel =
      .ok ({ hmp with spmp := spmpAfter hmp (st.wlist which) },
        st.setWlist which ((st.wlist which).filterMap (scanOne hmp.id))) := by
  induction fuel generalizing hmp st with
  | zero => omega
  | succ fuel ih =>
    rcases hs : scanPass hmp.id (st.wlist which) with ⟨l, _ | q⟩
    · have hk : spmpAfter hmp (st.wlist which ++ []) = spmpAfter hmp [] :=
        spmpAfter_append_kept (scanPass_none_kept hs)
      rw [List.append_nil] at hk
      unfold hammer2PfsfreeScan
      rw [hs, hk, scanPass_none hs]
      rfl
    · obtain ⟨pre, p, post, hw, hpre, hp, he⟩ := hammer2PfsfreeScan_restart hn hf hs
      rw [hw] at hn hf hl
      obtain ⟨hn', hf'⟩ := restart_wlist hn hf
      have hl' : (pre.filterMap (scanOne hmp.id) ++ post).length < fuel := by
        have := List.length_filterMap_le (scanOne hmp.id) pre
        simp only [List.length_append, List.length_cons] at hl ⊢
        omega
      rw [he, ih (by simpa using hn') (by simpa using hf') (by simpa using hl'),
        State.wlist_setWlist, spmpAfter_restart hpre hp, hw]
      simp [List.filterMap_append, filterMap_scanOne_idem, hp]

/-- What hammer2_pfsfree_scan of `hmp` over the list `which` is for, from the device and
state it is called with to those it returns. -/
structure ScanSpec (hmp : Dev) (which : Nat) (st : State) (hmp' : Dev) (st' : State) : Prop where
  /-- Only the scanned list and `hmp->spmp` change. -/
  frame : hmp' = { hmp with spmp := hmp'.spmp } ∧ st' = st.setWlist which (st'.wlist which)
  /-- No PFS left has a slot or a member chain on `hmp`. -/
  cleared : ∀ q ∈ st'.wlist which, ∀ s ∈ q.slots,
    s.pfsHmp ≠ some hmp.id ∧ ∀ c ∈ s.chain, c.hmp ≠ hmp.id
  /-- A PFS is freed exactly when it has a slot on `hmp` and all its populated slots are. -/
  freed_iff : ∀ p ∈ st.wlist which, p.id ∉ (st'.wlist which).map Pfs.id ↔
    p.uses hmp.id ∧ ∀ s ∈ p.slots, s.pfsHmp.isSome → s.pfsHmp = some hmp.id
  /-- A PFS with a slot on `hmp` that is kept has those slots emptied and the others as
  they were, and `nchains` one past its highest populated slot. -/
  detached : ∀ p ∈ st.wlist which, p.uses hmp.id → ∀ q ∈ st'.wlist which, q.id = p.id →
    (∀ i, q.slots.getD i {} =
      if (p.slots.getD i {}).pfsHmp = some hmp.id then {} else p.slots.getD i {}) ∧
    0 < q.nchains ∧ (q.slots.getD (q.nchains - 1) {}).pfsHmp.isSome ∧
    ∀ i, q.nchains ≤ i → (q.slots.getD i {}).pfsHmp = none
  /-- A PFS with no slot on `hmp` is left as it was. -/
  untouched : ∀ p ∈ st.wlist which, p.uses hmp.id = false → p ∈ st'.wlist which
  /-- `hmp->spmp` ends NULL exactly when it was NULL or the PFS it named was freed. -/
  spmp_iff : hmp'.spmp = none ↔ hmp.spmp = none ∨
    ∃ p ∈ st.wlist which, p.id ∉ (st'.wlist which).map Pfs.id ∧ hmp.spmp = some p.id

/-- hammer2_pfsfree_scan returns on every list of distinct PFSs whose flags name it and
whose member chains sit on the devices their slots name, once the loop bound exceeds the
length of the list, and it does what `ScanSpec` says. -/
theorem hammer2PfsfreeScan_spec (hmp : Dev) (which fuel : Nat) (st : State)
    (hn : ((st.wlist which).map Pfs.id).Nodup)
    (hf : ∀ p ∈ st.wlist which, p.spmp = (which != 0))
    (hc : ∀ p ∈ st.wlist which, ∀ s ∈ p.slots, ∀ c ∈ s.chain, s.pfsHmp = some c.hmp)
    (hl : (st.wlist which).length < fuel) :
    ∃ hmp' st', hammer2PfsfreeScan hmp which st fuel = .ok (hmp', st') ∧
      ScanSpec hmp which st hmp' st' := by
  refine ⟨_, _, hammer2PfsfreeScan_eq hn hf hl, ?_⟩
  have hfree : ∀ p ∈ st.wlist which,
      p.id ∉ ((st.wlist which).filterMap (scanOne hmp.id)).map Pfs.id ↔ scanOne hmp.id p = none :=
    fun p hp => by rw [id_mem_filterMap_scanOne hn hp, not_not]
  constructor <;> simp only [State.wlist_setWlist]
  case frame => simp
  case cleared =>
    intro q hq s hs
    obtain ⟨p, hp, hpq⟩ := List.mem_filterMap.1 hq
    have hne := Pfs.uses_eq_false.1 (scanOne_uses hpq) s hs
    refine ⟨hne, fun c hcs he => ?_⟩
    rcases scanOne_slots hpq hs with rfl | hs'
    · cases hcs
    · exact hne (he ▸ hc p hp s hs' c hcs)
  case freed_iff => exact fun p hp => (hfree p hp).trans scanOne_eq_none_iff
  case detached => exact fun p hp hu q hq he => scanOne_detached hu (scanOne_of_mem hn hp hq he)
  case untouched => exact fun p hp hu => List.mem_filterMap.2 ⟨p, hp, by simp [scanOne, hu]⟩
  case spmp_iff =>
    rw [spmpAfter_eq_none]
    exact or_congr_right (exists_congr fun p =>
      and_congr_right fun hp => and_congr_left' (hfree p hp).symm)

theorem hammer2PfsfreeScan_spec_gap :
    let st : State :=
      { State.init with
        pfslist :=
          [((newPfs 0 none (some ⟨"A", 7⟩)).attach ⟨1, none⟩ "A").attach ⟨2, none⟩ "A",
           (newPfs 1 none (some ⟨"B", 7⟩)).attach ⟨1, none⟩ "B",
           (newPfs 2 none (some ⟨"C", 7⟩)).attach ⟨2, none⟩ "C"]
        nextId := 3 }
    ∃ hmp' st', hammer2PfsfreeScan ⟨1, 0, [], none, HMNT2_LOCAL⟩ 0 st 4 = .ok (hmp', st') ∧
      ScanSpec ⟨1, 0, [], none, HMNT2_LOCAL⟩ 0 st hmp' st' :=
  hammer2PfsfreeScan_spec _ _ _ _ (by decide) (by decide) (by decide) (by decide)

/-- A PFS with no populated slot has all its populated slots on any device, yet the scan
keeps it; and a device whose `spmp` is NULL on entry returns it NULL with no super-PFS
freed. -/
theorem pfsfreeScan_keeps_unpopulated :
    let p := newPfs 0 (some 1) (some ⟨"A", 7⟩)
    (∀ s ∈ p.slots, s.pfsHmp.isSome → s.pfsHmp = some 1) ∧
      (hammer2PfsfreeScan ⟨1, 0, [], none, HMNT2_LOCAL⟩ 0 { State.init with pfslist := [p] } 2).map
        (fun r => (r.1.spmp, r.2.pfslist.map Pfs.id)) = .ok (none, [0]) :=
  ⟨by decide, rfl⟩

end Hammer2Vfs
