import Hammer2Vfs.MountInv

namespace Hammer2Vfs

/-- In every reachable state each device's mount_count is the number of pairs `(pmp, i)`
with `pmp` the `mnt_data` of a live mount and member `i < nchains` of `pmp` a chain on
the device; in particular it is never negative. -/
theorem mountCount_eq_mountRefs {st : State} (h : Reachable st) :
    ∀ d ∈ st.mntlist, d.mountCount = st.mountRefs d.id ∧ 0 ≤ d.mountCount := fun d hd => by
  have := (reachable_inv h).count d hd
  exact ⟨this, this ▸ Int.natCast_nonneg _⟩

theorem mountCount_eq_mountRefs_twoLabels :
    match run twoLabels State.init with
    | .ok st => ∀ d ∈ st.mntlist, d.mountCount = st.mountRefs d.id ∧ 0 ≤ d.mountCount
    | .error _ => False := by
  cases h : run twoLabels State.init with
  | ok st => exact mountCount_eq_mountRefs (run_reachable .init h)
  | error e =>
    have : (run twoLabels State.init).toBool = true := rfl
    rw [h] at this; cases this

example : (run twoLabels State.init).map (fun st => st.mntlist.map (·.mountCount)) = .ok [2] := rfl

theorem Devvp.aliases_self (e : Devvp) : e.aliases e = true := by simp [Devvp.aliases]

theorem Inv.devvp_unique {st : State} (hi : Inv st) {d₁ d₂ : Dev} (h₁ : d₁ ∈ st.mntlist)
    (h₂ : d₂ ∈ st.mntlist) {e₁ e₂ : Devvp} (he₁ : e₁ ∈ d₁.devvpList) (he₂ : e₂ ∈ d₂.devvpList)
    (ha : e₁.aliases e₂) : d₁ = d₂ := by
  by_contra hne
  have hid : d₁.id ≠ d₂.id := fun e => hne (List.inj_on_of_nodup_map hi.dev_nodup h₁ h₂ e)
  simp [hi.no_alias d₁ h₁ d₂ h₂ hid e₁ he₁ e₂ he₂] at ha

theorem Inv.matchDevice_self {st : State} (hi : Inv st) {d : Dev} (hd : d ∈ st.mntlist) :
    matchDevice d.devvpList st.mntlist = some d := by
  cases hf : matchDevice d.devvpList st.mntlist with
  | none =>
    refine absurd (List.all_eq_true.2 fun e he => ?_) (List.find?_eq_none.1 hf d hd)
    exact List.any_eq_true.2 ⟨e, he, e.aliases_self⟩
  | some x =>
    have hx := List.mem_of_find?_eq_some hf
    have hp : ∀ e' ∈ x.devvpList, ∃ e ∈ d.devvpList, e'.aliases e := by
      simpa using List.find?_some hf
    obtain ⟨e', he'⟩ := List.exists_mem_of_ne_nil _ (hi.devvp_ne x hx)
    obtain ⟨e, he, ha⟩ := hp e' he'
    rw [hi.devvp_unique hx hd he' he ha]

/-- In every reachable state a physical device, a vnode or the non-zero `v_rdev` it
aliases, is held by at most one registered device; so a mount whose vnodes are those of a
registered device attaches to that device (lines 511-537) and opens no other. -/
theorem devvp_single_device {st : State} (h : Reachable st) :
    (∀ d₁ ∈ st.mntlist, ∀ d₂ ∈ st.mntlist, ∀ e₁ ∈ d₁.devvpList, ∀ e₂ ∈ d₂.devvpList,
      e₁.aliases e₂ → d₁ = d₂) ∧
    ∀ d ∈ st.mntlist, ∀ (env : MountEnv) (label : String),
      attachDevice st env d.devvpList label = .found d.id none :=
  have hi := reachable_inv h
  ⟨fun _ h₁ _ h₂ _ he₁ _ he₂ => hi.devvp_unique h₁ h₂ he₁ he₂,
    fun d hd _ _ => by simp [attachDevice, hi.matchDevice_self hd, hi.devvp_ne d hd]⟩

theorem devvp_single_device_twoDevices :
    ∃ st, run twoDevices State.init = .ok st ∧ st.mntlist.length = 2 ∧
      (∀ d₁ ∈ st.mntlist, ∀ d₂ ∈ st.mntlist, ∀ e₁ ∈ d₁.devvpList, ∀ e₂ ∈ d₂.devvpList,
        e₁.aliases e₂ → d₁ = d₂) ∧
      ∀ d ∈ st.mntlist, ∀ (env : MountEnv) (label : String),
        attachDevice st env d.devvpList label = .found d.id none :=
  ⟨_, rfl, rfl, devvp_single_device (@run_reachable twoDevices State.init _ .init rfl)⟩

theorem unmountSweep_pfs {fuel : Nat} {st st' : State} (hi : Inv st)
    (h : unmountSweep fuel st = .ok st') :
    ∀ x ∈ st'.pfslist, ∃ y ∈ st.pfslist, x.id = y.id ∧ x.mp = y.mp :=
  unmountSweep_rel (R := fun a b => ∀ x ∈ b.pfslist, ∃ y ∈ a.pfslist, x.id = y.id ∧ x.mp = y.mp)
    (fun _ x hx => ⟨x, hx, rfl, rfl⟩)
    (fun hab hbc x hx =>
      let ⟨y, hy, e1, e2⟩ := hbc x hx
      let ⟨z, hz, e3, e4⟩ := hab y hy
      ⟨z, hz, e1.trans e3, e2.trans e4⟩)
    (fun _ _ _ _ hx =>
      let ⟨z, hz, hzx⟩ := List.mem_filterMap.1 hx
      ⟨z, hz, scanOne_id hzx, scanOne_mp hzx⟩)
    hi h

/-- hammer2_unmount takes `mp` off the mounts but leaves `pmp->mp` pointing at it, since
line 1028 is commented out: a PFS at the unmounted address that survives still names `mp`,
which no mount is any more. -/
theorem hammer2Unmount_stale_mp {mp : MpId} {st st' : State} {pid : PfsId} (hi : Inv st)
    (hm : st.mntData mp = some pid) (h : hammer2Unmount mp 0 st = .ok (0, st')) :
    st'.mntData mp = none ∧ ∀ q ∈ st'.pfslist, q.id = pid → q.mp = some mp := by
  rcases hammer2Unmount_eq h with ⟨-, hn | hr⟩ | ⟨pmp, hp, hpid, st1, h1, h2⟩
  · rw [hm] at hn; cases hn
  · exact absurd rfl hr
  have e1 := adjustMountCounts_ok h1
  have hi1 := hi.unbind hpid hp h1
  obtain ⟨m0, hm0, hd0⟩ := Option.map_eq_some'.1 hm
  obtain ⟨q0, hq0, hq0d, hq0m⟩ := hi.bound m0 (List.mem_of_find?_eq_some hm0)
  have hm0mp : m0.mp = mp := by simpa using List.find?_some hm0
  refine ⟨?_, fun q hq hqid => ?_⟩
  · simp only [State.mntData, Option.map_eq_none', List.find?_eq_none, beq_iff_eq]
    intro m hm'
    have := (unmountSweep_keeps hi1 h2).mounts hm'
    rw [e1] at this
    simpa using (List.mem_filter.1 this).2
  · obtain ⟨y, hy, e2, e3⟩ := unmountSweep_pfs hi1 h2 q hq
    rw [e1] at hy
    obtain rfl : y = q0 :=
      List.inj_on_of_nodup_map hi.pfslist_nodup hy hq0 (by rw [← e2, hqid, hq0d, hd0])
    rw [e3, hq0m, hm0mp]

/-- Mounting DATA and ROOT of `/dev/da0` and unmounting DATA leaves the PFS of DATA
naming the mount that is gone, and mounting DATA again fails with EBUSY. -/
theorem remount_after_unmount_busy :
    (run (twoLabels ++ [.unmount 0 0]) State.init).map
        (fun st => (st.pfslist.map fun p => (p.id, p.mp), st.mounts.map fun m => (m.mp, m.data))) =
      .ok ([(3, some 0), (4, some 5)], [(5, 4)]) ∧
    ((run (twoLabels ++ [.unmount 0 0]) State.init).bind fun st =>
      (hammer2Mount st.nextId (localMount "/dev/da0@DATA")
        (da0Env "DATA" [inode "DATA" 0, inode "ROOT" 0]) { st with nextId := st.nextId + 1 }).map
        (·.error)) = .ok EBUSY :=
  ⟨rfl, rfl⟩

/-- A PFS with no member on any device is kept as it is by the scan of every teardown. -/
theorem scanOne_memberless {hmp : DevId} {p : Pfs} (h : ∀ s ∈ p.slots, s.pfsHmp = none) :
    scanOne hmp p = some p := by
  have : p.uses hmp = false := Pfs.uses_eq_false.2 fun s hs => by simp [h s hs]
  simp [scanOne, this]

theorem unmountSweep_memberless {fuel : Nat} {st st' : State} (hi : Inv st)
    (h : unmountSweep fuel st = .ok st') {p : Pfs} (hp : p ∈ st.pfslist)
    (hm : ∀ s ∈ p.slots, s.pfsHmp = none) : p ∈ st'.pfslist :=
  unmountSweep_rel (R := fun a b => ∀ p ∈ a.pfslist, (∀ s ∈ p.slots, s.pfsHmp = none) → p ∈ b.pfslist)
    (fun _ _ hp _ => hp) (fun hab hbc p hp hm => hbc p (hab p hp hm) hm)
    (fun _ _ _ p hp hm => List.mem_filterMap.2 ⟨p, hp, scanOne_memberless hm⟩) hi h p hp hm

theorem hammer2Unmount_memberless {mp : MpId} {e r : Nat} {st st' : State} (hi : Inv st)
    (h : hammer2Unmount mp e st = .ok (r, st')) {p : Pfs} (hp : p ∈ st.pfslist)
    (hm : ∀ s ∈ p.slots, s.pfsHmp = none) : p ∈ st'.pfslist := by
  rcases hammer2Unmount_eq h with ⟨rfl, -⟩ | ⟨pmp, hpm, hpid, st1, h1, h2⟩
  · exact hp
  refine unmountSweep_memberless (hi.unbind hpid hpm h1) h2 ?_ hm
  rw [adjustMountCounts_ok h1]; exact hp

/-- In forced-local mode hammer2_pfsalloc only matches a PFS with a name. -/
theorem pfsMatches_unnamed {h : DevId} {r : Ripdata} {p : Pfs} (hn : p.name0 = none) :
    pfsMatches (some h) r p = false := by
  simp [pfsMatches, hn]

/-- Lines 805-812 on a label no PFS of `hammer2_pfslist` carries, as after its entry
read with an error in hammer2_update_pmps: hammer2_pfsalloc, given no chain, appends a
PFS with no member and no name, and that PFS is what lines 816-890 bind. -/
theorem acquirePmp_memberless {d : Dev} {c : SrootChain} {r : Ripdata} {pmp pmp' : Option PfsId}
    {st st' : State} (h0 : c.error = 0) (hr : c.ripdata = some r)
    (hn : st.pfslist.find? (pfsMatches d.forceLocal r) = none)
    (h : acquirePmp d c pmp st = .ok (pmp', st')) :
    pmp' = some st.nextId ∧
      st' = { st with pfslist := st.pfslist ++ [newPfs st.nextId d.forceLocal (some r)],
                      nextId := st.nextId + 1 } := by
  unfold acquirePmp at h
  rw [dif_pos h0, Option.get_of_mem _ hr] at h
  obtain ⟨⟨pid, st1⟩, h1, he⟩ := Except.map_eq_ok.1 h
  cases he
  unfold hammer2Pfsalloc at h1
  split_ifs at h1
  simp only [pfsFindOrCreate_new hn, Except.ok.injEq, Prod.mk.injEq] at h1
  exact ⟨congrArg some h1.1.symm, h1.2.symm⟩

/-- Mounting A: the mount succeeds, its PFS has no member, and the new device is
registered with mount_count 0. -/
theorem mountA_memberless :
    (run [mountA] State.init).map (fun st =>
      (st.mntlist.map fun d => (d.id, d.mountCount), st.pfslist.map fun p => (p.id, p.nchains),
        st.mounts.map fun m => (m.mp, m.data))) =
      .ok ([(1, 0)], [(3, 0)], [(0, 3)]) :=
  rfl

/-- Mounting B after A: the error exit of the second mount tears down the device, which
the mount of A does not count, and keeps the PFS of A, still mounted, whose `force_local`
names the freed device. -/
theorem mountA_unwind_dangling :
    (run [mountA, mountB] State.init).map (fun st =>
      (st.mntlist.map (·.id), st.pfslist.map (fun p => (p.id, p.forceLocal)),
        st.mounts.map fun m => (m.mp, m.data))) =
      .ok ([], [(3, some 1)], [(0, 3)]) :=
  rfl

/-- Mounting A twice binds two PFSs of one on-disk entry, neither with a name. -/
theorem mountA_twice :
    (run [mountA, mountA] State.init).map (fun st =>
      (st.pfslist.map fun p => (p.id, p.forceLocal, p.name0, p.fspec),
        st.mounts.map fun m => (m.mp, m.data))) =
      .ok ([(3, some 1, none, some "/dev/da0@A"), (5, some 1, none, some "/dev/da0@A")],
        [(0, 3), (4, 5)]) :=
  rfl

/-- Every return of lines 761-890 hands back the local device list it was given: on a
secondary mount nothing moves the entries of `devvpl` to a device or releases them. -/
theorem mountLabel_devvpl {mp : MpId} {devstr label : String} {hmp : DevId}
    {pmp : Option PfsId} {devvpl : List Devvp} {env : MountEnv} {st : State} {r : MountResult}
    (h : mountLabel mp devstr label hmp pmp devvpl env st = .ok r) : r.devvpl = devvpl := by
  unfold mountLabel at h
  split at h
  · cases h
  split at h
  · cases h
  obtain ⟨c, -, h⟩ := Except.bind_eq_ok.1 h
  split at h
  · obtain ⟨_, -, rfl⟩ := Except.map_eq_ok.1 h; rfl
  obtain ⟨⟨pmp', st1⟩, -, h⟩ := Except.bind_eq_ok.1 h
  dsimp only at h
  unfold bindPmp at h
  split at h
  · obtain ⟨_, -, rfl⟩ := Except.map_eq_ok.1 h; rfl
  split at h
  · cases h
  split_ifs at h
  all_goals obtain ⟨_, -, rfl⟩ := Except.map_eq_ok.1 h; rfl

/-- The secondary mount of ROOT after DATA returns 0 with the entry of `/dev/da0` that
hammer2_init_devvp put on `devvpl` still on it. -/
theorem secondary_mount_devvpl :
    ((run (twoLabels.take 1) State.init).bind fun st =>
      (hammer2Mount st.nextId (localMount "/dev/da0@ROOT")
        (da0Env "ROOT" [inode "DATA" 0, inode "ROOT" 0]) { st with nextId := st.nextId + 1 }).map
        fun r => (r.error, r.devvpl)) = .ok (0, [da0]) :=
  rfl

/-- Lines 604-610: volumes with no root make hammer2_mount tear the new device down
before line 615 has put it on `hammer2_mntlist`, and the TAILQ_REMOVE of that teardown
removes an element that is not in the list. -/
theorem openDevice_noRoot {mp : MpId} {args : MountInfo} {env : MountEnv} {devvpl : List Devvp}
    {st : State} (hi : Inv st) (hl : devvpl ≠ []) (ho : env.openDevvp = 0)
    (hv : env.initVolumes = .noRoot) : openDevice mp args env devvpl st = .error .tailqRemove := by
  have hu : unmountHelperDev ⟨st.nextId, 0, [], none, 0⟩ { st with nextId := st.nextId + 1 } =
      .error .tailqRemove := unmountHelperDev_unlinked rfl rfl hi.nextId_not_dev
  simp [openDevice, hl, ho, hv, hu, bind, Except.bind]

/-- A first mount of `/dev/da0` whose volumes have no root faults. -/
theorem mount_noRoot_faults :
    step (.mount (localMount "/dev/da0@A") { da0Env "A" [] with initVolumes := .noRoot })
      State.init = .error .tailqRemove :=
  rfl

end Hammer2Vfs
