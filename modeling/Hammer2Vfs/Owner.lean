import Hammer2Vfs.Table

namespace Hammer2Vfs

/-- Some live mount has as `mnt_data` a PFS of `hammer2_pfslist` whose force_local is the
device `hmp`. -/
def State.HasOwner (st : State) (hmp : DevId) : Prop :=
  ∃ m ∈ st.mounts, ∃ p ∈ st.pfslist, p.id = m.data ∧ p.forceLocal = some hmp

theorem State.HasOwner.grows {st st' : State} {hmp : DevId} (ho : st.HasOwner hmp)
    (hg : Grows st st') (hm : st.mounts ⊆ st'.mounts) : st'.HasOwner hmp :=
  let ⟨m, hm', _, hp, hid, hl⟩ := ho
  let ⟨q, hq, hqid, hql, _⟩ := hg.pfs_mem hp
  ⟨m, hm hm', q, hq, hqid.trans hid, hql.trans hl⟩

theorem State.HasOwner.teardown {st : State} (hi : Inv st) {d : Dev} (hd : d ∈ st.mntlist)
    (h0 : d.mountCount = 0) {hmp : DevId} (ho : st.HasOwner hmp) :
    (st.teardown d.id).HasOwner hmp := by
  obtain ⟨m, hm, p, hp, hid, hl⟩ := ho
  have hb : st.bound p := List.any_eq_true.2 ⟨m, hm, by simp [hid]⟩
  exact ⟨m, hm, p, List.mem_filterMap.2
    ⟨p, hp, hi.scanOne_bound hd h0 (List.mem_append_left _ hp) hb⟩, hid, hl⟩

theorem Inv.hasOwner_of_mountRefs {st : State} (hi : Inv st) (hs : Shape st) {hmp : DevId}
    (h : 0 < st.mountRefs hmp) : st.HasOwner hmp := by
  obtain ⟨p, hp, hpos⟩ : ∃ p ∈ (st.pfslist ++ st.spmplist).filter st.bound, 0 < p.chainsOn hmp := by
    by_contra hn
    push_neg at hn
    refine Nat.lt_irrefl 0 (h.trans_eq (List.sum_eq_zero_iff.2 fun x hx => ?_))
    obtain ⟨p, hp, rfl⟩ := List.mem_map.1 hx
    exact Nat.le_zero.1 (hn p hp)
  obtain ⟨hp, hb⟩ := List.mem_filter.1 hp
  obtain ⟨hp', m, hm, hmd, -⟩ := hi.mem_pfslist_of_bound hp hb
  obtain ⟨s, hsm, hsc⟩ : ∃ s ∈ p.members, s.chain.any (·.hmp == hmp) := by
    simpa [Pfs.chainsOn, chainCount, List.length_pos, List.filter_eq_nil_iff] using hpos
  have hsl := List.mem_of_mem_take hsm
  have hh : hmp ∈ s.pfsHmp := by
    rw [(hi.wf p hp').hmp_chain s hsl]
    cases hc : s.chain with
    | none => simp [hc] at hsc
    | some c => simpa [hc] using hsc
  exact ⟨m, hm, p, hp', hmd.symm, (hs.local_dev p hp' s hsl hmp hh).1⟩

theorem Pfs.WF.populated_of_name {p : Pfs} (hw : p.WF) (hn : p.name0.isSome) :
    ∃ s ∈ p.slots, s.pfsHmp.isSome := by
  obtain ⟨s, l, hs⟩ := List.exists_cons_of_ne_nil
    (List.ne_nil_of_length_pos (by rw [p.slots_length]; decide))
  exact ⟨s, by simp [hs], hw.name_hmp s (by simp [hs]) (by simpa [Pfs.name0, hs] using hn)⟩

theorem attachDevice_found_local {st : State} (hs : Shape st) {env : MountEnv}
    {devvpl : List Devvp} {label : String} {hmp : DevId} {pmp : Option PfsId}
    (h : attachDevice st env devvpl label = .found hmp pmp) :
    ∀ x ∈ pmp, ∃ q ∈ st.pfslist, q.id = x ∧ q.forceLocal = some hmp ∧
      ∃ s ∈ q.slots, s.pfsHmp.isSome := fun x hx => by
  obtain ⟨p, hf, rfl⟩ := attachDevice_found_label h x hx
  obtain ⟨hp, s, hs', hsh⟩ := findLabel_mem hf
  exact ⟨p, hp, rfl, (hs.local_dev p hp s hs' hmp hsh).1, s, hs', by simp [hsh]⟩

theorem acquirePmp_local {st st' : State} (hi : Inv st) {d : Dev} (hd : d ∈ st.mntlist)
    {c : SrootChain} {pmp pmp' : Option PfsId}
    (hp : ∀ x ∈ pmp, ∃ q ∈ st.pfslist, q.id = x ∧ q.forceLocal = some d.id ∧
      ∃ s ∈ q.slots, s.pfsHmp.isSome)
    (h : acquirePmp d c pmp st = .ok (pmp', st')) :
    st'.mntlist = st.mntlist ∧ st'.mounts = st.mounts ∧ ∀ x ∈ pmp',
      (∃ q ∈ st'.pfslist, q.id = x ∧ q.forceLocal = some d.id) ∧
      ∀ q ∈ st.pfslist, q.id = x → ∃ s ∈ q.slots, s.pfsHmp.isSome := by
  have hl : d.forceLocal = some d.id := by
    unfold Dev.forceLocal; rw [if_pos (hi.local_flag d hd)]
  have huniq : ∀ q ∈ st.pfslist, ∀ q' ∈ st.pfslist, q.id = q'.id → q = q' := fun q hq q' hq' =>
    List.inj_on_of_nodup_map hi.pfslist_nodup hq hq'
  rcases acquirePmp_cases h with ⟨rfl, rfl | ⟨q, hq, rfl, hql, hqn⟩⟩ | ⟨_, rfl, rfl⟩ <;>
    refine ⟨rfl, rfl, fun x hx => ?_⟩
  · obtain ⟨q, hq, hqid, hql, hpop⟩ := hp x hx
    exact ⟨⟨q, hq, hqid, hql⟩, fun q' hq' e => huniq q hq q' hq' (hqid.trans e.symm) ▸ hpop⟩
  · obtain rfl := Option.mem_some_iff.1 hx
    exact ⟨⟨q, hq, rfl, hql.trans hl⟩, fun q' hq' e =>
      huniq q hq q' hq' e.symm ▸ (hi.wf q hq).populated_of_name hqn⟩
  · obtain rfl := Option.mem_some_iff.1 hx
    refine ⟨⟨_, List.mem_append_right _ (List.mem_singleton_self _), rfl, hl⟩, fun q hq e => ?_⟩
    have hf := hi.pfs_fresh q (List.mem_append_left _ hq)
    rw [e] at hf
    exact absurd hf (Nat.lt_irrefl _)

theorem mountLabel_owner {mp : MpId} {devstr label : String} {hmp : DevId} {pmp : Option PfsId}
    {devvpl : List Devvp} {env : MountEnv} {st : State} {r : MountResult} (hi : Inv st)
    (hp : ∀ x ∈ pmp, ∃ q ∈ st.pfslist, q.id = x ∧ q.forceLocal = some hmp ∧
      ∃ s ∈ q.slots, s.pfsHmp.isSome)
    (h : mountLabel mp devstr label hmp pmp devvpl env st = .ok r) (h0 : r.error = 0) :
    r.st.mntlist.map Dev.id = st.mntlist.map Dev.id ∧ ∃ x, r.st.mounts = st.mounts ++ [⟨mp, x⟩] ∧
      (∃ q ∈ r.st.pfslist, q.id = x ∧ q.forceLocal = some hmp) ∧
      ∀ q ∈ st.pfslist, q.id = x → ∃ s ∈ q.slots, s.pfsHmp.isSome := by
  obtain ⟨d, hd, rfl, ⟨he, -⟩ | ⟨c, pmp', st1, h1, h2⟩⟩ := mountLabel_cases h
  · exact absurd h0 he
  have hg := bindPmp_grows h2 h0
  rcases bindPmp_cases h2 with ⟨he, -⟩ | ⟨p, rfl, -, -, -, st2, h3, hr⟩
  · exact absurd h0 he
  obtain ⟨e1, e2, hx⟩ := acquirePmp_local hi hd hp h1
  obtain ⟨⟨q, hq, hqid, hql⟩, hpop⟩ := hx p.id rfl
  obtain ⟨q', hq', hqid', hql', -⟩ := hg.pfs_mem hq
  unfold hammer2MountHelper at h3
  refine ⟨?_, p.id, ?_, ⟨q', hq', hqid'.trans hqid, hql'.trans hql⟩, hpop⟩ <;>
    rw [hr, adjustMountCounts_ok h3]
  · simp [State.modifyPfs, List.map_map, Function.comp_def, e1]
  · simp [State.modifyPfs, e2]

theorem hammer2Mount_binds {mp : MpId} {req : MountReq} {env : MountEnv} {st : State}
    {r : MountResult} {x : PfsId} (hi : Inv st) (hs : Shape st) (hm : st.mntData mp = none)
    (h : hammer2Mount mp req env st = .ok r) (hb : r.st.mounts = st.mounts ++ [⟨mp, x⟩]) :
    r.error = 0 ∧ Grows st r.st ∧ ∃ hmp, (∃ q ∈ r.st.pfslist, q.id = x ∧ q.forceLocal = some hmp) ∧
      (∀ d ∈ r.st.mntlist.map Dev.id, d ∈ st.mntlist.map Dev.id ∨ d = hmp) ∧
      ∀ q ∈ st.pfslist, q.id = x → ∃ s ∈ q.slots, s.pfsHmp.isSome := by
  have hne : r.st.mounts ≠ st.mounts := by rw [hb]; simp
  rcases hammer2Mount_cases h with ⟨e, -⟩ | ⟨_, _, _, hmp, _, ha, h'⟩ |
    ⟨_, _, _, _, ha, _, ho, ⟨_, _, _, rfl, rfl⟩ | ⟨_, _, rfl, h'⟩⟩
  · exact absurd (by rw [e]) hne
  · have h0 : r.error = 0 := by_contra fun he =>
      hne ((MountOutcome.unbound (mountLabel_outcome hm h') (.inl he)).2)
    obtain ⟨hids, x', hb', hq, hpop⟩ := mountLabel_owner hi (attachDevice_found_local hs ha) h' h0
    obtain rfl : x' = x := by rw [hb] at hb'; simpa using hb'.symm
    exact ⟨h0, mountLabel_grows h' h0, hmp, hq, fun d hd => .inl (hids ▸ hd), hpop⟩
  all_goals have hv := attachDevice_fresh ha
  · exact absurd (openDevice_mounts hi hv hm ho) hne
  · rcases openDevice_registry hi hs hv hm ho with ⟨_, _, _, e, -⟩ | ⟨st', e, hx⟩ <;> cases e
    have hm' := (State.mntData_congr hx.mounts mp).trans hm
    have h0 : r.error = 0 := by_contra fun he =>
      hne (((MountOutcome.unbound (mountLabel_outcome hm' h') (.inl he)).2).trans hx.mounts)
    obtain ⟨hids, x', hb', hq, hpop⟩ :=
      mountLabel_owner (openDevice_keeps hi hv ho).inv (fun _ hx => by cases hx) h' h0
    dsimp only [OpenResult.state] at hids hb' hpop
    obtain rfl : x' = x := by rw [hb, hx.mounts] at hb'; simpa using hb'.symm
    obtain ⟨d, hd, -, e1⟩ := hx.dev
    obtain ⟨news, e3, -⟩ := hx.pfs
    refine ⟨h0, hx.grows.trans (mountLabel_grows h' h0), st.nextId, hq, fun d' hd' => ?_,
      fun q hq' => hpop q (e3 ▸ List.mem_append_left _ hq')⟩
    rw [hids, e1, List.map_append, List.mem_append, List.map_singleton, List.mem_singleton,
      hd] at hd'
    exact hd'

theorem hammer2Mount_owned {mp : MpId} {req : MountReq} {env : MountEnv} {st : State}
    {r : MountResult} (hi : Inv st) (hs : Shape st) (hm : st.mntData mp = none)
    (ho : ∀ hmp ∈ st.mntlist.map Dev.id, st.HasOwner hmp)
    (h : hammer2Mount mp req env st = .ok r) :
    ∀ hmp ∈ r.st.mntlist.map Dev.id, r.st.HasOwner hmp := by
  intro d hd
  rcases hammer2Mount_mounts hi hm h with ⟨x, hb⟩ | hb
  · obtain ⟨-, hg, hmp, ⟨q, hq, hqx, hql⟩, hnew, -⟩ := hammer2Mount_binds hi hs hm h hb
    rcases hnew d hd with hd | rfl
    · exact (ho d hd).grows hg (hb ▸ List.subset_append_left _ _)
    · exact ⟨⟨mp, x⟩, by rw [hb]; simp, q, hq, hqx, hql⟩
  · rcases hammer2Mount_unbound_eq hi hs hm h (.inr hb) with e | ⟨d', hd', h0, e⟩ <;>
      rw [e] at hd ⊢
    · exact ho d hd
    · exact (ho d (((List.filter_sublist _).map Dev.id).subset hd)).teardown hi hd' h0

theorem step_owned {st st' : State} (hi : Inv st) (hs : Shape st)
    (ho : ∀ hmp ∈ st.mntlist.map Dev.id, st.HasOwner hmp) {op : Op} (h : step op st = .ok st') :
    ∀ hmp ∈ st'.mntlist.map Dev.id, st'.HasOwner hmp := by
  cases op with
  | mount req env =>
    obtain ⟨r, hr, rfl⟩ := Except.map_eq_ok.1 h
    exact hammer2Mount_owned hi.bumpNextId (hs.congr rfl rfl rfl) hi.mntData_nextId ho hr
  | unmount mp e =>
    obtain ⟨⟨n, st''⟩, hr, rfl⟩ := Except.map_eq_ok.1 h
    rcases hammer2Unmount_eq hr with ⟨rfl, -⟩ | ⟨pmp, hp, hpid, st1, h1, h2⟩
    · exact ho
    · intro hmp hx
      have hi1 := hi.unbind hpid hp h1
      exact (unmountSweep_keeps hi1 h2).inv.hasOwner_of_mountRefs (hammer2Unmount_shape hs hi hr)
        ((unmountSweep_registered hi1 h2 hmp).1 hx).2

theorem reachable_owned {st : State} (h : Reachable st) :
    ∀ hmp ∈ st.mntlist.map Dev.id, st.HasOwner hmp := by
  induction h with
  | init => intro _ hx; simp [State.init] at hx
  | step op hr hs ih => exact step_owned (reachable_inv hr) (reachable_shape hr) ih hs

/-- In every reachable state every registered device is held by a live mount: the
`mnt_data` of some mount is a PFS of hammer2_pfslist whose force_local is the device. No
device outlives the mounts that use it, whether they have a member on it or not. -/
theorem reachable_device_owned {st : State} (h : Reachable st) :
    ∀ d ∈ st.mntlist, ∃ m ∈ st.mounts, ∃ p ∈ st.pfslist,
      p.id = m.data ∧ p.forceLocal = some d.id :=
  fun d hd => reachable_owned h d.id (List.mem_map_of_mem _ hd)

/-- After A the device has mount_count 0 and is held by the mount of A, whose PFS has no
member. -/
theorem reachable_device_owned_mountA :
    ∃ d ∈ mountAState.mntlist, d.mountCount = 0 ∧ ∃ m ∈ mountAState.mounts,
      ∃ p ∈ mountAState.pfslist, p.id = m.data ∧ p.forceLocal = some d.id := by
  obtain ⟨d, hd, h0⟩ : ∃ d ∈ mountAState.mntlist, d.mountCount = 0 := by decide
  exact ⟨d, hd, h0, reachable_device_owned mountA_reachable d hd⟩

/-- In every reachable state with no live mount nothing stays registered:
hammer2_mntlist and hammer2_spmplist are empty, and no PFS left on hammer2_pfslist has a
slot on a device or a member chain. So the unmount that takes the last mount off reaches
hammer2_assert_clean (lines 967-968). -/
theorem reachable_unmounted_clean {st : State} (h : Reachable st) (hm : st.mounts = []) :
    st.mntlist = [] ∧ st.spmplist = [] ∧
      ∀ p ∈ st.pfslist, ∀ s ∈ p.slots, s.pfsHmp = none ∧ s.chain = none := by
  have hl : st.mntlist = [] := List.eq_nil_iff_forall_not_mem.2 fun d hd => by
    simpa [State.HasOwner, hm] using reachable_owned h d.id (List.mem_map_of_mem _ hd)
  obtain ⟨hsp, hn⟩ := (reachable_shape h).memberless_of_nil hl
  refine ⟨hl, hsp, fun p hp s hsl => ⟨hn p hp s hsl, ?_⟩⟩
  simpa [hn p hp s hsl] using (((reachable_inv h).wf p hp).hmp_chain s hsl).symm

theorem reachable_unmounted_clean_data :
    ∃ st, run (twoDevices.take 1 ++ [.unmount 0 0]) State.init = .ok st ∧ st.mounts = [] ∧
      (st.mntlist = [] ∧ st.spmplist = [] ∧
        ∀ p ∈ st.pfslist, ∀ s ∈ p.slots, s.pfsHmp = none ∧ s.chain = none) :=
  ⟨_, rfl, rfl, reachable_unmounted_clean
    (@run_reachable (twoDevices.take 1 ++ [Op.unmount 0 0]) State.init _ .init rfl) rfl⟩

end Hammer2Vfs
