import Hammer2Vfs.Unmount

namespace Hammer2Vfs

theorem Inv.data_nodup {st : State} (hi : Inv st) : (st.mounts.map Mount.data).Nodup := by
  refine (List.Nodup.of_map Mount.mp hi.mp_nodup).map_on fun m₁ h₁ m₂ h₂ e => ?_
  obtain ⟨q₁, hq₁, hd₁, hm₁⟩ := hi.bound m₁ h₁
  obtain ⟨q₂, hq₂, hd₂, hm₂⟩ := hi.bound m₂ h₂
  obtain rfl : q₁ = q₂ := List.inj_on_of_nodup_map hi.pfslist_nodup hq₁ hq₂ (by rw [hd₁, hd₂, e])
  exact List.inj_on_of_nodup_map hi.mp_nodup h₁ h₂ (Option.some.inj (hm₁.symm.trans hm₂))

/-- In every reachable state the `mnt_data` of every live mount is a PFS on
`hammer2_pfslist` whose `pmp->mp` is that mount: no mount's `mnt_data` dangles. -/
theorem reachable_mnt_data {st : State} (h : Reachable st) :
    ∀ m ∈ st.mounts, ∃ p ∈ st.pfslist, p.id = m.data ∧ p.mp = some m.mp :=
  (reachable_inv h).bound

theorem reachable_mnt_data_twoLabels :
    ∃ p ∈ twoLabelsState.pfslist, p.id = 3 ∧ p.mp = some 0 :=
  reachable_mnt_data twoLabels_reachable ⟨0, 3⟩ (by decide)

/-- What a hammer2_mount of an `mp` no mount uses may leave in the mount table: 0 with
`mp` bound to one PFS, or an error with the mounts as they were. -/
def MountOutcome (mp : MpId) (mounts : List Mount) (r : MountResult) : Prop :=
  (r.error = 0 ∧ ∃ pid, r.st.mounts = mounts ++ [⟨mp, pid⟩]) ∨ (r.error ≠ 0 ∧ r.st.mounts = mounts)

theorem State.mntData_congr {st st' : State} (h : st'.mounts = st.mounts) (mp : MpId) :
    st'.mntData mp = st.mntData mp := by
  unfold State.mntData; rw [h]

theorem unwindDevice_of_mntData {mp : MpId} {hmp : DevId} {st st' : State}
    (hm : st.mntData mp = none) (h : unwindDevice mp hmp st = .ok st') :
    ∃ d, st.findDev hmp = some d ∧ unmountHelperDev d st = .ok st' := by
  unfold unwindDevice at h
  split at h
  · cases h
  rename_i d hd
  obtain ⟨st1, h1, h2⟩ := Except.bind_eq_ok.1 h
  have e1 : st1.mounts = st.mounts := by
    by_cases h0 : d.mountCount = 0
    · exact (unmountHelperDev_frame h0 h1).2.1
    · simp only [unmountHelperDev, h0, ne_eq, not_false_eq_true, ↓reduceIte,
        Except.ok.injEq] at h1
      rw [h1]
  obtain ⟨⟨r, st2⟩, h3, h4⟩ := Except.bind_eq_ok.1 h2
  rw [hammer2Unmount_of_mntData ((State.mntData_congr e1 mp).trans hm)] at h3
  cases h3
  cases h4
  exact ⟨d, hd, h1⟩

theorem unwindDevice_mounts {mp : MpId} {hmp : DevId} {st st' : State}
    (h : unwindDevice mp hmp st = .ok st') (hm : st.mntData mp = none) : st'.mounts = st.mounts := by
  obtain ⟨d, -, h1⟩ := unwindDevice_of_mntData hm h
  by_cases h0 : d.mountCount = 0
  · exact (unmountHelperDev_frame h0 h1).2.1
  · simp only [unmountHelperDev, h0, ne_eq, not_false_eq_true, ↓reduceIte, Except.ok.injEq] at h1
    rw [h1]

theorem updatePmpsLoop_frame {hmp : DevId} {fl : Option DevId} {cs : List SrootChain}
    {st st' : State} (hi : Inv st) (hd : hmp < st.nextId) (hfl : ∀ h ∈ fl, h < st.nextId)
    (h : updatePmpsLoop hmp fl cs st = .ok st') :
    st'.mntlist = st.mntlist ∧ st'.spmplist = st.spmplist ∧ st'.mounts = st.mounts ∧
      ∃ news, st'.pfslist = st.pfslist ++ news ∧ ∀ p ∈ news, p.uses hmp := by
  induction cs generalizing st with
  | nil => cases h; exact ⟨rfl, rfl, rfl, [], by simp, by simp⟩
  | cons c cs ih =>
    unfold updatePmpsLoop at h
    split_ifs at h
    · obtain ⟨⟨pid, st1⟩, h1, h2⟩ := Except.bind_eq_ok.1 h
      obtain ⟨-, rfl⟩ := hammer2Pfsalloc_chain hi.wf hi.nextId_not_mem h1
      obtain ⟨e1, e2, e3, news, e4, hn⟩ := ih (hi.appendChainPfs _ hd hfl) (Nat.lt_succ_of_lt hd)
        (fun h hh => Nat.lt_succ_of_lt (hfl h hh)) h2
      refine ⟨e1, e2, e3, _ :: news, by rw [e4, List.append_assoc]; rfl, ?_⟩
      rintro p (_ | ⟨_, hp⟩)
      · simp [Pfs.uses, Pfs.attach, newPfs, HAMMER2_MAXCLUSTER]
      · exact hn p hp
    · exact ih hi hd hfl h
    · exact ih hi hd hfl h

theorem registerDevice_mounts {mp : MpId} {hmp : Dev} {env : MountEnv} {devvpl : List Devvp}
    {st : State} {r : OpenResult} (hi : Inv st) (hid : hmp.id = st.nextId) (h0 : hmp.mountCount = 0)
    (hne : devvpl ≠ [])
    (hv : ∀ e ∈ devvpl, ∀ d ∈ st.mntlist, ∀ e' ∈ d.devvpList, e'.aliases e = false)
    (hm : st.mntData mp = none)
    (h : registerDevice mp hmp env devvpl { st with nextId := st.nextId + 1 } = .ok r) :
    r.state.mounts = st.mounts := by
  obtain ⟨hl, ⟨st', rfl, h'⟩ | ⟨clid, st', rfl, h'⟩⟩ := registerDevice_cases h
  · exact (unwindDevice_mounts h' hm).trans rfl
  · have hd : hmp.id < st.nextId + 1 + 1 := by
      rw [hid]; exact Nat.lt_succ_of_lt (Nat.lt_succ_self _)
    rw [hammer2UpdatePmps] at h'
    exact (updatePmpsLoop_frame (hi.linkSuperRoot devvpl hid h0 hl hne hv clid) hd
      (fun h hh => Dev.forceLocal_mem hh ▸ hd) h').2.2.1.trans rfl

theorem openDevice_mounts {mp : MpId} {args : MountInfo} {env : MountEnv} {devvpl : List Devvp}
    {st : State} {r : OpenResult} (hi : Inv st) (hv : ∀ e ∈ devvpl, vfsMountedon st env e = 0)
    (hm : st.mntData mp = none) (h : openDevice mp args env devvpl st = .ok r) :
    r.state.mounts = st.mounts := by
  rcases openDevice_cases hi h with ⟨_, rfl, -⟩ | ⟨_, rfl, -⟩ | ⟨hne, h⟩
  · rfl
  · rfl
  · exact registerDevice_mounts hi rfl rfl hne (fun e he => vfsMountedon_eq_zero (hv e he)) hm h

theorem openDevice_fail_ne {mp : MpId} {args : MountInfo} {env : MountEnv} {devvpl : List Devvp}
    {st st' : State} {e : Nat} {l : List Devvp} (hi : Inv st)
    (he : ∀ e, env.initVolumes = .error e → e ≠ 0)
    (h : openDevice mp args env devvpl st = .ok (.fail e l st')) : e ≠ 0 := by
  rcases openDevice_cases hi h with ⟨_, h', hne⟩ | ⟨_, h', hv⟩ | ⟨-, h⟩
  · cases h'; exact hne
  · cases h'; exact he _ hv
  · obtain ⟨-, ⟨_, h', -⟩ | ⟨_, _, h', -⟩⟩ := registerDevice_cases h <;> cases h'
    decide

theorem acquirePmp_mounts {d : Dev} {c : SrootChain} {pmp pmp' : Option PfsId} {st st' : State}
    (h : acquirePmp d c pmp st = .ok (pmp', st')) : st'.mounts = st.mounts := by
  rcases acquirePmp_cases h with ⟨rfl, -⟩ | ⟨_, -, rfl⟩ <;> rfl

theorem bindPmp_outcome {mp : MpId} {devstr label : String} {hmp : Dev} {pmp : Option PfsId}
    {devvpl : List Devvp} {st : State} {r : MountResult} (hm : st.mntData mp = none)
    (h : bindPmp mp devstr label hmp pmp devvpl st = .ok r) : MountOutcome mp st.mounts r := by
  rcases bindPmp_cases h with ⟨he, h', -⟩ | ⟨p, -, -, -, h0, st', h', hr⟩
  · exact .inr ⟨he, unwindDevice_mounts h' hm⟩
  · unfold hammer2MountHelper at h'
    exact .inl ⟨h0, p.id, by rw [hr, adjustMountCounts_ok h']; rfl⟩

theorem mountLabel_outcome {mp : MpId} {devstr label : String} {hmp : DevId} {pmp : Option PfsId}
    {devvpl : List Devvp} {env : MountEnv} {st : State} {r : MountResult}
    (hm : st.mntData mp = none) (h : mountLabel mp devstr label hmp pmp devvpl env st = .ok r) :
    MountOutcome mp st.mounts r := by
  obtain ⟨_, -, -, ⟨he, h'⟩ | ⟨_, _, _, h1, h2⟩⟩ := mountLabel_cases h
  · exact .inr ⟨he, unwindDevice_mounts h' hm⟩
  · have e1 := acquirePmp_mounts h1
    rw [← e1]
    exact bindPmp_outcome ((State.mntData_congr e1 mp).trans hm) h2

theorem hammer2Mount_outcome {mp : MpId} {req : MountReq} {env : MountEnv} {st : State}
    {r : MountResult} (hi : Inv st) (hm : st.mntData mp = none)
    (he : ∀ e, env.initVolumes = .error e → e ≠ 0) (h : hammer2Mount mp req env st = .ok r) :
    MountOutcome mp st.mounts r := by
  rcases hammer2Mount_cases h with ⟨e, he' | hs⟩ | ⟨_, _, _, _, _, -, h⟩ |
    ⟨_, _, _, _, ha, _, ho, ⟨e, l, st', rfl, rfl⟩ | ⟨_, _, rfl, h⟩⟩
  · exact .inr ⟨he', by rw [e]⟩
  · simp [hm] at hs
  · exact mountLabel_outcome hm h
  · exact .inr ⟨openDevice_fail_ne hi he ho, openDevice_mounts hi (attachDevice_fresh ha) hm ho⟩
  · have hmo := openDevice_mounts hi (attachDevice_fresh ha) hm ho
    rw [← hmo]
    exact mountLabel_outcome ((State.mntData_congr hmo mp).trans hm) h

theorem Inv.nextId_not_mp {st : State} (hi : Inv st) : st.nextId ∉ st.mounts.map Mount.mp :=
  fun hm => by
    obtain ⟨m, hm, e⟩ := List.mem_map.1 hm
    exact Nat.lt_irrefl _ (e ▸ hi.mp_fresh m hm)

theorem Inv.mntData_nextId {st : State} (hi : Inv st) :
    ({ st with nextId := st.nextId + 1 } : State).mntData st.nextId = none :=
  Option.map_eq_none'.2 (List.find?_eq_none.2 fun m hm e =>
    hi.nextId_not_mp (List.mem_map.2 ⟨m, hm, by simpa using e⟩))

/-- A mount(2) call that returns, from a reachable state and with a hammer2_init_volumes
that fails only with an error: hammer2_mount returns 0 and binds its new `mp` to one PFS
of `hammer2_pfslist` that names `mp` back, or returns an error and leaves the mount table
as it was. -/
theorem mount_outcome {st : State} (h : Reachable st) (req : MountReq) (env : MountEnv)
    (he : ∀ e, env.initVolumes = .error e → e ≠ 0) {r : MountResult}
    (hr : hammer2Mount st.nextId req env { st with nextId := st.nextId + 1 } = .ok r) :
    (r.error = 0 ∧ ∃ p ∈ r.st.pfslist, p.mp = some st.nextId ∧
        r.st.mounts = st.mounts ++ [⟨st.nextId, p.id⟩]) ∨
      (r.error ≠ 0 ∧ r.st.mounts = st.mounts) := by
  have hi := reachable_inv h
  rcases hammer2Mount_outcome hi.bumpNextId hi.mntData_nextId he hr with ⟨h0, pid, hms⟩ | hf
  · obtain ⟨p, hp, hpd, hpm⟩ :=
      (hammer2Mount_inv hi.bumpNextId hi.nextId_not_mp (Nat.lt_succ_self _) hr).bound
      ⟨st.nextId, pid⟩ (by rw [hms]; simp)
    exact .inl ⟨h0, p, hp, hpm, by rw [hms, hpd]⟩
  · exact .inr hf

theorem mount_outcome_da0 :
    ∃ r, hammer2Mount State.init.nextId (localMount "/dev/da0@DATA") (da0Env "DATA" [inode "DATA" 0])
        { State.init with nextId := State.init.nextId + 1 } = .ok r ∧
      ((r.error = 0 ∧ ∃ p ∈ r.st.pfslist, p.mp = some State.init.nextId ∧
          r.st.mounts = State.init.mounts ++ [⟨State.init.nextId, p.id⟩]) ∨
        (r.error ≠ 0 ∧ r.st.mounts = State.init.mounts)) :=
  ⟨_, rfl, mount_outcome .init (localMount "/dev/da0@DATA") (da0Env "DATA" [inode "DATA" 0])
    (fun _ h => by cases h) rfl⟩

end Hammer2Vfs
