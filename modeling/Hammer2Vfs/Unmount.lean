import Hammer2Vfs.Shape

namespace Hammer2Vfs

section
variable {st : State} (hi : Inv st) (hs : Shape st)
include hi hs

theorem Shape.spmpAfter_pfslist {d : Dev} (hd : d ∈ st.mntlist) :
    spmpAfter d st.pfslist = d.spmp := by
  obtain ⟨p, hp, hsp, -⟩ := hs.spmp_of_mem hd
  have hdis := List.disjoint_of_nodup_append (List.map_append Pfs.id _ _ ▸ hi.pfs_nodup)
  unfold spmpAfter
  rw [if_neg]
  simp only [List.any_eq_true, Bool.and_eq_true, Option.isNone_iff_eq_none, beq_iff_eq,
    not_exists, not_and]
  intro q hq _ hq'
  rw [hsp, Option.some.injEq] at hq'
  exact hdis (List.mem_map_of_mem _ hq) (hq' ▸ List.mem_map_of_mem _ hp)

theorem unmountHelperDev_ok {d : Dev} (hd : d ∈ st.mntlist) (h0 : d.mountCount = 0) :
    unmountHelperDev d st = .ok (st.teardown d.id) := by
  obtain ⟨p, hp, hsp, hsup⟩ := hs.spmp_of_mem hd
  set st1 : State := { st with pfslist := st.pfslist.filterMap (scanOne d.id) }
  have e0 : hammer2PfsfreeScan d 0 st (st.pfslist.length + 1) = .ok (d, st1) := by
    have hn : ((st.wlist 0).map Pfs.id).Nodup := hi.pfslist_nodup
    have hl : (st.wlist 0).length < st.pfslist.length + 1 := Nat.lt_succ_self _
    rw [hammer2PfsfreeScan_eq hn hi.pfs_flag hl]
    simp only [State.wlist, if_pos, hs.spmpAfter_pfslist hi hd]
    rfl
  have e1 : hammer2PfsfreeScan d 1 st1 (st1.spmplist.length + 1) =
      .ok ({ d with spmp := none }, { st1 with spmplist := st.spmplist.filterMap (scanOne d.id) }) := by
    have hn : ((st1.wlist 1).map Pfs.id).Nodup := hi.spmplist_nodup
    have hl : (st1.wlist 1).length < st1.spmplist.length + 1 := Nat.lt_succ_self _
    have hsa : spmpAfter d (st1.wlist 1) = none :=
      spmpAfter_eq_none.2 (.inr ⟨p, hp, by rw [hsup.scanOne_eq, if_pos rfl], hsp⟩)
    rw [hammer2PfsfreeScan_eq hn hi.spmp_flag hl, hsa]
    rfl
  simp only [unmountHelperDev, h0, ne_eq, not_true_eq_false, ↓reduceIte, e0, e1, bind, Except.bind,
    Option.isSome_none, Bool.false_eq_true]
  rw [tailqRemove_of_nodup hi.dev_nodup hd]
  rfl
theorem Shape.chain_mem {q : Pfs} (hq : q ∈ st.pfslist) {s : Slot} (hs' : s ∈ q.slots) {c : Chain}
    (hc : c ∈ s.chain) : c.hmp ∈ st.mntlist.map Dev.id := by
  have e : s.pfsHmp = some c.hmp := by rw [(hi.wf q hq).hmp_chain s hs', Option.mem_def.1 hc]; rfl
  exact (hs.local_dev q hq s hs' c.hmp e).2

end

theorem adjustMountCounts_exists (δ : Int) : ∀ {ss : List Slot} {st : State},
    (∀ s ∈ ss, ∀ c ∈ s.chain, c.hmp ∈ st.mntlist.map Dev.id) →
      ∃ st', adjustMountCounts δ ss st = .ok st'
  | [], st, _ => ⟨st, rfl⟩
  | s :: ss, st, h => by
    have hss : ∀ s ∈ ss, ∀ c ∈ s.chain, c.hmp ∈ st.mntlist.map Dev.id :=
      fun s' hs' => h s' (List.mem_cons_of_mem _ hs')
    unfold adjustMountCounts
    cases hc : s.chain with
    | none => exact adjustMountCounts_exists δ hss
    | some c =>
      obtain ⟨x, hx, e⟩ := List.mem_map.1 (h s (List.mem_cons_self _ _) c hc)
      have hb : st.bumpMountCount c.hmp δ =
          .ok (st.modifyDev c.hmp fun d => { d with mountCount := d.mountCount + δ }) :=
        if_pos (List.any_eq_true.2 ⟨x, hx, by simp [e]⟩)
      simp only [hb, bind, Except.bind]
      exact adjustMountCounts_exists δ fun s' hs' c' hc' => by
        simp only [State.modifyDev]
        rw [map_update Dev.id c.hmp (fun d => { d with mountCount := d.mountCount + δ }) _
          fun _ => rfl]
        exact hss s' hs' c' hc'

theorem unmountSweep_ok_or_fuel : ∀ (fuel : Nat) {st : State}, Inv st → Shape st →
    (∃ st', unmountSweep fuel st = .ok st') ∨ unmountSweep fuel st = .error .fuel
  | 0, _, _, _ => .inr rfl
  | fuel + 1, st, hi, hs => by
    unfold unmountSweep
    split
    · exact .inl ⟨st, rfl⟩
    · rename_i d hd
      have hdm := List.mem_of_find?_eq_some hd
      have h0 : d.mountCount = 0 := by simpa using List.find?_some hd
      rw [unmountHelperDev_ok hi hs hdm h0]
      exact unmountSweep_ok_or_fuel fuel (hi.teardown hdm h0) (hs.teardown d.id)

theorem Inv.unmountSweep_filter {st : State} (hi : Inv st) :
    unmountSweep (st.mntlist.length + 1) st ≠ .error .fuel ∧
      ∀ st', unmountSweep (st.mntlist.length + 1) st = .ok st' →
        st'.mntlist = st.mntlist.filter (·.mountCount ≠ 0) :=
  unmountSweep_spec _ st hi.dev_nodup (Nat.lt_succ_of_le (List.length_filter_le _ _))

theorem find?_addr {α : Type} {addr : α → Nat} {l : List α} (hn : (l.map addr).Nodup) {x : α}
    (hx : x ∈ l) : l.find? (fun y => addr y == addr x) = some x := by
  cases hf : l.find? (fun y => addr y == addr x) with
  | none => exact absurd (List.find?_eq_none.1 hf x hx) (by simp)
  | some y =>
    have e : addr y = addr x := by simpa using List.find?_some hf
    rw [List.inj_on_of_nodup_map hn (List.mem_of_find?_eq_some hf) hx e]

/-- The fixpoint loop of hammer2_unmount_helper, on every registry state with the invariant
and the shape (among them each state the loop starts from), returns within its bound and
leaves exactly the devices whose mount_count was positive, in their order and unchanged. -/
theorem unmountSweep_terminates {st : State} (hi : Inv st) (hs : Shape st) :
    ∃ st', unmountSweep (st.mntlist.length + 1) st = .ok st' ∧
      st'.mntlist = st.mntlist.filter (0 < ·.mountCount) := by
  obtain ⟨st', h⟩ := (unmountSweep_ok_or_fuel _ hi hs).resolve_right hi.unmountSweep_filter.1
  refine ⟨st', h, (hi.unmountSweep_filter.2 st' h).trans (List.filter_congr fun d hd => ?_)⟩
  have : 0 ≤ d.mountCount := hi.count d hd ▸ Int.natCast_nonneg _
  exact decide_eq_decide.2 ⟨fun h => lt_of_le_of_ne this (Ne.symm h), ne_of_gt⟩

theorem unmountSweep_terminates_mountA :
    ∃ st', unmountSweep (mountAState.mntlist.length + 1) mountAState = .ok st' ∧
      st'.mntlist = mountAState.mntlist.filter (0 < ·.mountCount) :=
  unmountSweep_terminates (reachable_inv mountA_reachable) (reachable_shape mountA_reachable)

theorem hammer2Unmount_mounted {st : State} (hi : Inv st) {mp : MpId} {pid : PfsId}
    (hm : st.mntData mp = some pid) (e : Nat) :
    ∃ q ∈ st.pfslist, q.id = pid ∧ hammer2Unmount mp e st =
      (if e ≠ 0 then .ok st else unmountHelperPfs mp q st).bind (unmountFinish e) := by
  obtain ⟨m, hmf, rfl⟩ := Option.map_eq_some'.1 hm
  obtain ⟨q, hq, hqd, hqm⟩ := hi.bound m (List.mem_of_find?_eq_some hmf)
  have hf : st.findPfs m.data = some q := hqd ▸ find?_addr hi.pfs_nodup (List.mem_append_left _ hq)
  exact ⟨q, hq, hqd, by simp only [hammer2Unmount, hm, hf, hqm, Option.isNone_some,
    Bool.false_eq_true, if_false]⟩

theorem unmountHelperPfs_ok {st : State} (hi : Inv st) (hs : Shape st) {mp : MpId} {q : Pfs}
    (hq : q ∈ st.pfslist) (hm : st.mntData mp = some q.id) :
    ∃ st1 st', adjustMountCounts (-1) q.members
        { st with mounts := st.mounts.filter (·.mp ≠ mp) } = .ok st1 ∧
      unmountSweep (st1.mntlist.length + 1) st1 = .ok st' ∧ unmountHelperPfs mp q st = .ok st' := by
  obtain ⟨st1, h1⟩ : ∃ st1, adjustMountCounts (-1) q.members
      { st with mounts := st.mounts.filter (·.mp ≠ mp) } = .ok st1 :=
    adjustMountCounts_exists (-1) fun s hs' c hc => hs.chain_mem hi hq (List.mem_of_mem_take hs') hc
  have hi1 := hi.unbind hm (List.mem_append_left _ hq) h1
  obtain ⟨st', h2⟩ := (unmountSweep_ok_or_fuel _ hi1
    (adjustMountCounts_shape h1 (hs.congr rfl rfl rfl))).resolve_right hi1.unmountSweep_filter.1
  refine ⟨st1, st', h1, h2, ?_⟩
  simp only [unmountHelperPfs, hm, ne_eq, not_true_eq_false, if_false, h1, Except.bind, h2]

theorem scanOne_memberless_eq {hmp : DevId} {p x : Pfs} (h : scanOne hmp p = some x)
    (hx : ∀ s ∈ x.slots, s.pfsHmp = none) : x = p := by
  unfold scanOne at h
  split_ifs at h with hu h0
  · cases h
    refine absurd (Pfs.detach_nchains_eq_zero.2 fun s hs hsome => ?_) h0
    have := hx _ (List.mem_map_of_mem (fun s => if s.pfsHmp = some hmp then {} else s) hs)
    split_ifs at this with he
    · exact he
    · simp [this] at hsome
  · cases h; rfl

theorem unmountSweep_memberless_mem {fuel : Nat} {st st' : State} (hi : Inv st)
    (h : unmountSweep fuel st = .ok st') :
    ∀ x ∈ st'.pfslist, (∀ s ∈ x.slots, s.pfsHmp = none) → x ∈ st.pfslist :=
  unmountSweep_rel (R := fun a b => ∀ x ∈ b.pfslist, (∀ s ∈ x.slots, s.pfsHmp = none) → x ∈ a.pfslist)
    (fun _ _ hx _ => hx) (fun hab hbc x hx hm => hab x (hbc x hx hm) hm)
    (fun _ _ _ _ hx hm =>
      let ⟨_, hy, hyx⟩ := List.mem_filterMap.1 hx
      scanOne_memberless_eq hyx hm ▸ hy)
    hi h

theorem Shape.memberless_of_nil {st : State} (hs : Shape st) (hn : st.mntlist = []) :
    st.spmplist = [] ∧ ∀ x ∈ st.pfslist, ∀ s ∈ x.slots, s.pfsHmp = none := by
  have := hs.spmp
  rw [hn] at this
  refine ⟨List.forall₂_nil_left_iff.1 this, fun x hx s hs' => ?_⟩
  refine Option.eq_none_iff_forall_not_mem.2 fun h hh => ?_
  simpa [hn] using (hs.local_dev x hx s hs' h hh).2

theorem unmountSweep_mountRefs {fuel : Nat} {st st' : State} (hi : Inv st)
    (h : unmountSweep fuel st = .ok st') :
    st'.mounts = st.mounts ∧ ∀ hmp, st'.mountRefs hmp = st.mountRefs hmp :=
  unmountSweep_rel (R := fun a b => b.mounts = a.mounts ∧ ∀ hmp, b.mountRefs hmp = a.mountRefs hmp)
    (fun _ => ⟨rfl, fun _ => rfl⟩)
    (fun hab hbc => ⟨hbc.1.trans hab.1, fun x => (hbc.2 x).trans (hab.2 x)⟩)
    (fun hi hd h0 => ⟨rfl, mountRefs_teardown hi hd h0⟩) hi h

theorem unmountSweep_registered {st st' : State} (hi : Inv st)
    (h : unmountSweep (st.mntlist.length + 1) st = .ok st') (hmp : DevId) :
    hmp ∈ st'.mntlist.map Dev.id ↔ hmp ∈ st.mntlist.map Dev.id ∧ 0 < st'.mountRefs hmp := by
  have key : ∀ d ∈ st.mntlist, d.mountCount ≠ 0 ↔ 0 < st'.mountRefs d.id := fun d hd => by
    have := (unmountSweep_mountRefs hi h).2 d.id ▸ hi.count d hd
    omega
  simp only [hi.unmountSweep_filter.2 st' h, List.mem_map, List.mem_filter, decide_eq_true_iff]
  constructor
  · rintro ⟨d, ⟨hd, h0⟩, rfl⟩
    exact ⟨⟨d, hd, rfl⟩, (key d hd).1 h0⟩
  · rintro ⟨⟨d, hd, rfl⟩, hpos⟩
    exact ⟨d, ⟨hd, (key d hd).2 hpos⟩, rfl⟩

/-- In every reachable state the only fault of hammer2_unmount is the KKASSERT of
hammer2_assert_clean that no inode is left (line 101), and it fails only when a PFS with
no member is on `hammer2_pfslist` already. -/
theorem hammer2Unmount_only_fault {st : State} (h : Reachable st) {mp : MpId} {e : Nat}
    {f : Fault} (hf : hammer2Unmount mp e st = .error f) :
    f = .kassert "hammer2_inode_allocs == 0" ∧ ∃ p ∈ st.pfslist, ∀ s ∈ p.slots, s.pfsHmp = none := by
  have hi := reachable_inv h
  have hs := reachable_shape h
  cases hm : st.mntData mp with
  | none => rw [hammer2Unmount_of_mntData hm] at hf; cases hf
  | some pid =>
    obtain ⟨q, hq, rfl, hu⟩ := hammer2Unmount_mounted hi hm e
    obtain ⟨st2, e2, hs2, hback⟩ : ∃ st2, hammer2Unmount mp e st = unmountFinish e st2 ∧
        Shape st2 ∧ ∀ x ∈ st2.pfslist, (∀ s ∈ x.slots, s.pfsHmp = none) → x ∈ st.pfslist := by
      by_cases he : e = 0
      · obtain ⟨st1, st', h1, h2, hp⟩ := unmountHelperPfs_ok hi hs hq hm
        have hi1 := hi.unbind hm (List.mem_append_left _ hq) h1
        refine ⟨st', by rw [hu, if_neg (not_not.2 he), hp]; rfl,
          unmountSweep_shape hi1 (adjustMountCounts_shape h1 (hs.congr rfl rfl rfl)) h2,
          fun x hx hm' => ?_⟩
        have := unmountSweep_memberless_mem hi1 h2 x hx hm'
        rwa [adjustMountCounts_ok h1] at this
      · exact ⟨st, by rw [hu, if_pos he]; rfl, hs, fun x hx _ => hx⟩
    rw [e2, unmountFinish_eq] at hf
    split_ifs at hf with hc
    cases hf
    obtain ⟨hsp, hx⟩ := hs2.memberless_of_nil hc.1
    obtain ⟨x, hx'⟩ := List.exists_mem_of_ne_nil _ fun hp => hc.2 ⟨hp, hsp⟩
    exact ⟨rfl, x, hback x hx' (hx x hx'), hx x hx'⟩

theorem hammer2Unmount_only_fault_mountA :
    hammer2Unmount 0 0 mountAState = .error (.kassert "hammer2_inode_allocs == 0") ∧
      ∃ p ∈ mountAState.pfslist, ∀ s ∈ p.slots, s.pfsHmp = none :=
  have hf : hammer2Unmount 0 0 mountAState = .error (.kassert "hammer2_inode_allocs == 0") := rfl
  ⟨hf, (hammer2Unmount_only_fault mountA_reachable hf).2⟩

/-- hammer2_unmount of a mounted `mp` whose vflush succeeds, in a reachable state: it takes
`mp` off the mounts and leaves registered exactly the devices on which a member of a
remaining mount still sits; it then returns 0, unless no device is left while a PFS is, when
hammer2_assert_clean panics. -/
theorem hammer2Unmount_releases {st : State} (h : Reachable st) {mp : MpId} {pid : PfsId}
    (hm : st.mntData mp = some pid) :
    ∃ st', hammer2Unmount mp 0 st = (if st'.mntlist = [] ∧ st'.pfslist ≠ []
        then .error (.kassert "hammer2_inode_allocs == 0") else .ok (0, st')) ∧
      st'.mounts = st.mounts.filter (·.mp ≠ mp) ∧
      ∀ hmp, hmp ∈ st'.mntlist.map Dev.id ↔ hmp ∈ st.mntlist.map Dev.id ∧ 0 < st'.mountRefs hmp := by
  have hi := reachable_inv h
  have hs := reachable_shape h
  obtain ⟨q, hq, rfl, hu⟩ := hammer2Unmount_mounted hi hm 0
  obtain ⟨st1, st', h1, h2, hp⟩ := unmountHelperPfs_ok hi hs hq hm
  have e1 := adjustMountCounts_ok h1
  have hi1 := hi.unbind hm (List.mem_append_left _ hq) h1
  have hs' := unmountSweep_shape hi1 (adjustMountCounts_shape h1 (hs.congr rfl rfl rfl)) h2
  have hids : st1.mntlist.map Dev.id = st.mntlist.map Dev.id := by
    rw [e1, List.map_map]; rfl
  refine ⟨st', ?_, by rw [(unmountSweep_mountRefs hi1 h2).1, e1], fun hmp => ?_⟩
  · rw [hu, if_neg (fun h0 => h0 rfl), hp]
    show unmountFinish 0 st' = _
    rw [unmountFinish_eq]
    by_cases hn : st'.mntlist = []
    · simp [hn, (hs'.memberless_of_nil hn).1]
    · simp [hn]
  · rw [unmountSweep_registered hi1 h2, hids]

theorem hammer2Unmount_releases_twoLabels :
    twoLabelsState.mntData 0 = some 3 ∧
      ∃ st', hammer2Unmount 0 0 twoLabelsState = (if st'.mntlist = [] ∧ st'.pfslist ≠ []
          then .error (.kassert "hammer2_inode_allocs == 0") else .ok (0, st')) ∧
        st'.mounts = twoLabelsState.mounts.filter (·.mp ≠ 0) ∧
        ∀ hmp, hmp ∈ st'.mntlist.map Dev.id ↔
          hmp ∈ twoLabelsState.mntlist.map Dev.id ∧ 0 < st'.mountRefs hmp :=
  ⟨rfl, hammer2Unmount_releases twoLabels_reachable rfl⟩

end Hammer2Vfs
