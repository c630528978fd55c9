import Hammer2Vfs.Invariant

namespace Hammer2Vfs

theorem hammer2Pfsalloc_spmp (hmp : DevId) (st : State) :
    hammer2Pfsalloc none none (some hmp) st =
      .ok (st.nextId, { st with spmplist := st.spmplist ++ [newPfs st.nextId (some hmp) none],
                                nextId := st.nextId + 1 }) := rfl

theorem pfsMatches_name0 {h : DevId} {r : Ripdata} {p : Pfs} (hm : pfsMatches (some h) r p) :
    ∃ n, p.name0 = some n ∧ strcmpEq n r.filename := by
  unfold pfsMatches at hm
  cases hn : p.name0 <;> split_ifs at hm <;> simp_all

theorem pfsMatches_forceLocal {fl : Option DevId} {r : Ripdata} {p : Pfs}
    (hm : pfsMatches fl r p) : p.forceLocal = fl := by
  unfold pfsMatches at hm
  split_ifs at hm with h1 <;> exact (by simpa using h1 : fl = p.forceLocal).symm

theorem hammer2Pfsalloc_label {r : Ripdata} {fl : Option DevId} {st st' : State} {pid : PfsId}
    (h : hammer2Pfsalloc none (some r) fl st = .ok (pid, st')) :
    (st' = st ∧ ∃ p ∈ st.pfslist, p.id = pid ∧ p.forceLocal = fl ∧ p.name0.isSome) ∨
      (pid = st.nextId ∧
        st' = { st with pfslist := st.pfslist ++ [newPfs st.nextId fl (some r)],
                        nextId := st.nextId + 1 }) := by
  unfold hammer2Pfsalloc at h
  split_ifs at h with hn
  obtain ⟨x, rfl⟩ := Option.ne_none_iff_exists'.1 (by simpa using hn)
  cases hf : st.pfslist.find? (pfsMatches (some x) r) with
  | none => simp [pfsFindOrCreate_new hf] at h; exact .inr ⟨h.1.symm, h.2.symm⟩
  | some p =>
    simp [pfsFindOrCreate_found hf] at h
    have hm := List.find?_some hf
    obtain ⟨n, hn, -⟩ := pfsMatches_name0 hm
    exact .inl ⟨h.2.symm, p, List.mem_of_find?_eq_some hf, h.1, pfsMatches_forceLocal hm,
      by rw [hn]; rfl⟩

theorem hammer2Pfsalloc_new_chain {hmp : DevId} {r : Ripdata} {fl : Option DevId} {st : State}
    (hfl : fl.isNone = false) (hfd : st.pfslist.find? (pfsMatches fl r) = none)
    (hf : st.nextId ∉ (st.pfslist ++ st.spmplist).map Pfs.id) :
    hammer2Pfsalloc (some ⟨hmp, none⟩) (some r) fl st =
      .ok (st.nextId,
        { st with
          pfslist := st.pfslist ++ [(newPfs st.nextId fl (some r)).attach ⟨hmp, none⟩ (cstr r.filename)],
          nextId := st.nextId + 1 }) := by
  simp only [List.map_append, List.mem_append, not_or] at hf
  simp [hammer2Pfsalloc, hfl, pfsFindOrCreate_new hfd, State.modifyPfs,
    update_append_fresh (a := st.nextId) (x := newPfs st.nextId fl (some r)) rfl hf.1,
    update_of_not_mem hf.2]

theorem hammer2Pfsalloc_chain {hmp : DevId} {r : Ripdata} {fl : Option DevId} {st st' : State}
    {pid : PfsId} (hw : ∀ p ∈ st.pfslist, p.WF)
    (hf : st.nextId ∉ (st.pfslist ++ st.spmplist).map Pfs.id)
    (h : hammer2Pfsalloc (some ⟨hmp, none⟩) (some r) fl st = .ok (pid, st')) :
    pid = st.nextId ∧
      st' = { st with pfslist := st.pfslist ++
                        [(newPfs st.nextId fl (some r)).attach ⟨hmp, none⟩ (cstr r.filename)],
                      nextId := st.nextId + 1 } := by
  have hfl : fl.isNone = false := by
    cases fl
    · cases h
    · rfl
  cases hfd : st.pfslist.find? (pfsMatches fl r) with
  | some p =>
    obtain ⟨h', rfl⟩ := Option.isSome_iff_exists.1 (by simpa using hfl)
    obtain ⟨n, hn, -⟩ := pfsMatches_name0 (List.find?_some hfd)
    have := (hw p (List.mem_of_find?_eq_some hfd)).nchains_pos (by rw [hn]; rfl)
    simp [hammer2Pfsalloc, pfsFindOrCreate_found hfd, Nat.pos_iff_ne_zero.1 this] at h
  | none =>
    rw [hammer2Pfsalloc_new_chain hfl hfd hf, Except.ok.injEq, Prod.mk.injEq] at h
    exact ⟨h.1.symm, h.2.symm⟩

theorem mem_attach_slots {p : Pfs} {c : Chain} {name : String} {s : Slot}
    (hs : s ∈ (p.attach c name).slots) : s ∈ p.slots ∨ s.chain = some { c with pmp := some p.id } := by
  rcases List.mem_or_eq_of_mem_set hs with hs | rfl
  · exact .inl hs
  · exact .inr rfl

theorem Inv.appendChainPfs {st : State} (hi : Inv st) {hmp : DevId} {fl : Option DevId}
    (r : Ripdata) (hd : hmp < st.nextId) (hfl : ∀ h ∈ fl, h < st.nextId) :
    Inv { st with pfslist := st.pfslist ++
                    [(newPfs st.nextId fl (some r)).attach ⟨hmp, none⟩ (cstr r.filename)],
                  nextId := st.nextId + 1 } := by
  refine hi.appendPfs rfl ((newPfs_wf _ _ _).attach _ _) rfl (fun s hs c hc => ?_) hfl
  rcases mem_attach_slots hs with hs | hs
  · simp [newPfs, List.mem_replicate] at hs; simp [hs] at hc
  · simp only [hs, Option.mem_def, Option.some.injEq] at hc
    exact hc ▸ hd

theorem updatePmpsLoop_keeps {hmp : DevId} {fl : Option DevId} {cs : List SrootChain}
    {st st' : State} (hi : Inv st) (hd : hmp < st.nextId) (hfl : ∀ h ∈ fl, h < st.nextId)
    (h : updatePmpsLoop hmp fl cs st = .ok st') : Keeps st st' ∧ st'.mntlist = st.mntlist := by
  induction cs generalizing st with
  | nil => cases h; exact ⟨Keeps.refl hi, rfl⟩
  | cons c cs ih =>
    unfold updatePmpsLoop at h
    split_ifs at h
    · obtain ⟨⟨pid, st1⟩, h1, h2⟩ := Except.bind_eq_ok.1 h
      obtain ⟨-, rfl⟩ := hammer2Pfsalloc_chain hi.wf hi.nextId_not_mem h1
      have hi1 := hi.appendChainPfs (c.ripdata.get (c.data_of_ok ‹_›)) hd hfl
      obtain ⟨k2, e2⟩ := ih hi1 (Nat.lt_succ_of_lt hd) (fun h hh => Nat.lt_succ_of_lt (hfl h hh)) h2
      exact ⟨Keeps.trans ⟨hi1, fun _ h => h, Nat.le_succ _⟩ k2, e2⟩
    · exact ih hi hd hfl h
    · exact ih hi hd hfl h

theorem unwindDevice_keeps {mp : MpId} {hmp : DevId} {st st' : State} (hi : Inv st)
    (h : unwindDevice mp hmp st = .ok st') : Keeps st st' := by
  unfold unwindDevice at h
  split at h
  · cases h
  rename_i d hd
  obtain ⟨st1, h1, h2⟩ := Except.bind_eq_ok.1 h
  have k1 := unmountHelperDev_keeps hi (List.mem_of_find?_eq_some hd) h1
  obtain ⟨⟨r, st2⟩, h3, h4⟩ := Except.bind_eq_ok.1 h2
  cases h4
  exact k1.trans (hammer2Unmount_keeps k1.inv h3)

theorem vfsMountedon_eq_zero {st : State} {env : MountEnv} {e : Devvp}
    (h : vfsMountedon st env e = 0) : ∀ d ∈ st.mntlist, ∀ e' ∈ d.devvpList, e'.aliases e = false := by
  unfold vfsMountedon at h
  split_ifs at h with hc
  · cases h
  · simp only [Bool.or_eq_true, List.any_eq_true, not_or, not_exists, not_and] at hc
    exact fun d hd e' he' => by simpa using hc.2 d hd e' he'

theorem Dev.forceLocal_mem {hmp : Dev} {h : DevId} (hh : h ∈ hmp.forceLocal) : h = hmp.id := by
  unfold Dev.forceLocal at hh
  split at hh <;> simp_all

/-- The state an opening of devices leaves. -/
def OpenResult.state : OpenResult → State
  | .fail _ _ st => st
  | .ok _ st => st

theorem Inv.insertDev {st : State} (hi : Inv st) {hmp : Dev} (devvpl : List Devvp)
    (hid : hmp.id = st.nextId) (h0 : hmp.mountCount = 0) (hl : hmp.hflags &&& HMNT2_LOCAL ≠ 0)
    (hne : devvpl ≠ [])
    (hv : ∀ e ∈ devvpl, ∀ d ∈ st.mntlist, ∀ e' ∈ d.devvpList, e'.aliases e = false) :
    Inv (State.modifyDev { { st with nextId := st.nextId + 1 } with
      mntlist := st.mntlist ++ [hmp] } hmp.id fun d => { d with devvpList := devvpl }) := by
  have hn : hmp.id ∉ st.mntlist.map Dev.id := fun h => by
    obtain ⟨x, hx, e⟩ := List.mem_map.1 h
    exact Nat.lt_irrefl _ (hid ▸ e ▸ hi.dev_fresh x hx)
  simp only [State.modifyDev, update_append_fresh rfl hn]
  exact hi.addDev (d := { hmp with devvpList := devvpl }) hid h0 hl hne hv

theorem Inv.linkSpmp {st : State} (hi : Inv st) (hmp : DevId) (spmp : PfsId)
    (hs : spmp ∈ st.spmplist.map Pfs.id) :
    Inv ((st.modifyDev hmp fun d => { d with spmp := some spmp }).modifyPfs spmp
      fun p => p.modifySlot0 fun s => { s with pfsHmp := some hmp }) :=
  have hd := hi.modifyDev (f := fun d => { d with spmp := some spmp }) fun _ => ⟨rfl, rfl, rfl, rfl⟩
  hd.modifySpmp spmp (f := fun p => p.modifySlot0 fun s => { s with pfsHmp := some hmp }) hs
    fun _ => ⟨rfl, rfl⟩

theorem registerDevice_keeps {mp : MpId} {hmp : Dev} {env : MountEnv} {devvpl : List Devvp}
    {st : State} {r : OpenResult} (hi : Inv st) (hid : hmp.id = st.nextId)
    (h0 : hmp.mountCount = 0) (hne : devvpl ≠ [])
    (hv : ∀ e ∈ devvpl, ∀ d ∈ st.mntlist, ∀ e' ∈ d.devvpList, e'.aliases e = false)
    (h : registerDevice mp hmp env devvpl { st with nextId := st.nextId + 1 } = .ok r) :
    Keeps st r.state := by
  unfold registerDevice at h
  split_ifs at h with hl
  simp only [] at h
  obtain ⟨⟨spmp, st2⟩, h1, h⟩ := Except.bind_eq_ok.1 h
  have hi2 := (hi.insertDev devvpl hid h0 hl hne hv).appendSpmp (some hmp.id)
  rw [hammer2Pfsalloc_spmp, Except.ok.injEq, Prod.mk.injEq] at h1
  obtain ⟨rfl, rfl⟩ := h1
  have hi3 := hi2.linkSpmp hmp.id (st.nextId + 1) (by simp [State.modifyDev])
  have k3 : Keeps st _ := ⟨hi3, fun _ h => h, Nat.le_add_right _ 2⟩
  cases hsc : env.schain with
  | none =>
    simp only [hsc] at h
    obtain ⟨st4, h4, rfl⟩ := Except.map_eq_ok.1 h
    exact k3.trans (unwindDevice_keeps hi3 h4)
  | some sc =>
    simp only [hsc] at h
    split_ifs at h with he
    · obtain ⟨st5, h5, rfl⟩ := Except.map_eq_ok.1 h
      have hi4 := hi3.modifySpmp (st.nextId + 1)
        (f := fun p => p.setSuperRoot hmp.id (sc.ripdata.get (sc.data_of_ok he)).pfsClid)
        (by simp [State.modifyDev, State.modifyPfs]) fun _ => ⟨rfl, rfl⟩
      have hd : hmp.id < st.nextId + 1 + 1 := by
        rw [hid]; exact Nat.lt_succ_of_lt (Nat.lt_succ_self _)
      exact (Keeps.trans ⟨hi4, fun _ h => h, Nat.le_add_right _ 2⟩
        (updatePmpsLoop_keeps hi4 hd (fun h hh => Dev.forceLocal_mem hh ▸ hd) h5).1)
    · obtain ⟨st4, h4, rfl⟩ := Except.map_eq_ok.1 h
      exact k3.trans (unwindDevice_keeps hi3 h4)

theorem openDevice_keeps {mp : MpId} {args : MountInfo} {env : MountEnv} {devvpl : List Devvp}
    {st : State} {r : OpenResult} (hi : Inv st) (hv : ∀ e ∈ devvpl, vfsMountedon st env e = 0)
    (h : openDevice mp args env devvpl st = .ok r) : Keeps st r.state := by
  unfold openDevice at h
  split_ifs at h with hne
  · cases h; exact Keeps.refl hi
  split at h
  · cases h; exact ⟨hi.bumpNextId, fun _ h => h, Nat.le_succ _⟩
  · obtain ⟨st1, h1, -⟩ := Except.bind_eq_ok.1 h
    rw [unmountHelperDev_unlinked rfl rfl hi.nextId_not_dev] at h1
    cases h1
  · exact registerDevice_keeps hi rfl rfl (by simpa using hne)
      (fun e he => vfsMountedon_eq_zero (hv e he)) h

theorem acquirePmp_keeps {d : Dev} {c : SrootChain} {pmp pmp' : Option PfsId} {st st' : State}
    (hi : Inv st) (hd : d ∈ st.mntlist) (hp : ∀ x ∈ pmp, x ∈ st.pfslist.map Pfs.id)
    (h : acquirePmp d c pmp st = .ok (pmp', st')) :
    Keeps st st' ∧ ∀ x ∈ pmp', x ∈ st'.pfslist.map Pfs.id := by
  unfold acquirePmp at h
  split at h
  · obtain ⟨⟨pid, st1⟩, h1, he⟩ := Except.map_eq_ok.1 h
    simp only [Prod.mk.injEq] at he
    obtain ⟨rfl, rfl⟩ := he
    rcases hammer2Pfsalloc_label h1 with ⟨rfl, p, hp, rfl, -⟩ | ⟨rfl, rfl⟩
    · exact ⟨Keeps.refl hi, fun x hx => by
        obtain rfl := Option.mem_some_iff.1 hx; exact List.mem_map_of_mem _ hp⟩
    · refine ⟨⟨hi.appendPfs rfl (newPfs_wf _ _ _) rfl ?_ ?_, fun _ h => h, Nat.le_succ _⟩,
        fun x hx => ?_⟩
      · intro s hs c hc
        simp [newPfs, List.mem_replicate] at hs
        simp [hs] at hc
      · exact fun h hh => Dev.forceLocal_mem hh ▸ hi.dev_fresh d hd
      · obtain rfl := Option.mem_some_iff.1 hx; simp
  · cases h; exact ⟨Keeps.refl hi, hp⟩

theorem mem_update_meta {l : List Pfs} {pid : PfsId} {f : Pfs → Pfs}
    (hf : ∀ q, f q = { q with mp := (f q).mp, fspec := (f q).fspec }) {x : Pfs}
    (hx : x ∈ update Pfs.id pid f l) :
    ∃ y ∈ l, x = { y with mp := x.mp, fspec := x.fspec } ∧ (y.id ≠ pid → x = y) := by
  obtain ⟨y, hy, rfl⟩ := mem_update.1 hx
  refine ⟨y, hy, ?_, fun h => if_neg h⟩
  split
  · exact hf y
  · rfl

theorem forall_update_meta {l : List Pfs} {pid : PfsId} {f : Pfs → Pfs}
    (hf : ∀ q, f q = { q with mp := (f q).mp, fspec := (f q).fspec }) {P : Pfs → Prop}
    (hP : ∀ q (mp : Option MpId) (fspec : Option String), P q → P { q with mp, fspec })
    (h : ∀ q ∈ l, P q) : ∀ x ∈ update Pfs.id pid f l, P x := fun x hx => by
  obtain ⟨y, hy, e, -⟩ := mem_update_meta hf hx
  rw [e]; exact hP y _ _ (h y hy)

theorem Inv.modifyMeta {st : State} (hi : Inv st) (pid : PfsId) {f : Pfs → Pfs}
    (hf : ∀ q, f q = { q with mp := (f q).mp, fspec := (f q).fspec })
    (hb : ∀ m ∈ st.mounts, ∀ q ∈ st.pfslist, q.id = m.data → q.id = pid → (f q).mp = some m.mp) :
    Inv (st.modifyPfs pid f) := by
  have hid : ∀ q, (f q).id = q.id := fun q => by rw [hf q]
  have hmem : ∀ q, (f q).members = q.members := fun q => by rw [hf q]; rfl
  exact { hi with
    pfs_nodup := by
      simpa only [State.modifyPfs, ← update_append, map_update _ _ _ _ hid] using hi.pfs_nodup
    pfs_fresh := fun x hx => by
      rw [State.modifyPfs, ← update_append] at hx
      obtain ⟨y, hy, e, -⟩ := mem_update_meta hf hx
      exact (congrArg Pfs.id e).trans_lt (hi.pfs_fresh y hy)
    chain_fresh := forall_update_meta hf (fun _ _ _ h => h) hi.chain_fresh
    pfs_flag := forall_update_meta hf (fun _ _ _ h => h) hi.pfs_flag
    spmp_flag := forall_update_meta hf (fun _ _ _ h => h) hi.spmp_flag
    wf := forall_update_meta hf (fun _ _ _ h => h.congr rfl rfl) hi.wf
    fl_fresh := forall_update_meta hf (fun _ _ _ h => h) hi.fl_fresh
    bound := fun m hm => by
      obtain ⟨q, hq, hqd, hqm⟩ := hi.bound m hm
      refine ⟨if q.id = pid then f q else q, List.mem_map_of_mem _ hq, ?_⟩
      split
      · exact ⟨(hid q).trans hqd, hb m hm q hq hqd ‹_›⟩
      · exact ⟨hqd, hqm⟩
    count := fun d hd => by rw [hi.count d hd, mountRefs_modifyPfs hid hmem] }

theorem Inv.setFspec {st : State} (hi : Inv st) (pid : PfsId) (fspec : Option String) :
    Inv (st.modifyPfs pid fun p => { p with fspec := fspec }) :=
  hi.modifyMeta _ (fun _ => rfl) fun m hm q hq hqd _ => by
    obtain ⟨q', hq', hqd', hqm'⟩ := hi.bound m hm
    obtain rfl := List.inj_on_of_nodup_map hi.pfslist_nodup hq hq' (hqd.trans hqd'.symm)
    exact hqm'

theorem Inv.addMount {st st' : State} {mp : MpId} {p : Pfs} (hi : Inv st) (hp : p ∈ st.pfslist)
    (hpm : p.mp = some mp) (hu : st.bound p = false) (hm : mp ∉ st.mounts.map Mount.mp)
    (hlt : mp < st.nextId)
    (h : adjustMountCounts 1 p.members { st with mounts := st.mounts ++ [⟨mp, p.id⟩] } = .ok st') :
    Inv st' := by
  rw [adjustMountCounts_ok h]
  set stA : State := { st with mounts := st.mounts ++ [⟨mp, p.id⟩] }
  have hb : stA.bound = fun x => st.bound x || p.id == x.id := by
    funext x; simp [State.bound, stA, List.any_append]
  have hsum : ∀ h, stA.mountRefs h = st.mountRefs h + p.chainsOn h := fun h => by
    unfold State.mountRefs
    rw [hb]
    exact sum_chainsOn_bind h hi.pfs_nodup (List.mem_append_left _ hp) hu
  refine hi.recount ?_ (fun m hm' => ?_) (fun m hm' => ?_) fun h => by
    change (stA.mountRefs h : Int) = _; have := hsum h; omega
  · rw [List.map_append]
    exact hi.mp_nodup.append (List.nodup_singleton _) (List.disjoint_singleton.2 hm)
  · rcases List.mem_append.1 hm' with hm' | hm'
    · exact hi.mp_fresh m hm'
    · obtain rfl := List.mem_singleton.1 hm'; exact hlt
  · rcases List.mem_append.1 hm' with hm' | hm'
    · exact hi.bound m hm'
    · obtain rfl := List.mem_singleton.1 hm'; exact ⟨p, hp, rfl, hpm⟩

theorem hammer2MountHelper_inv {mp : MpId} {p : Pfs} {st st' : State} (hi : Inv st)
    (hp : p ∈ st.pfslist) (hpm : p.mp = none) (hm : mp ∉ st.mounts.map Mount.mp)
    (hlt : mp < st.nextId) (h : hammer2MountHelper mp p st = .ok st') : Inv st' := by
  have hu : st.bound p = false := by
    by_contra hb
    obtain ⟨-, m, -, -, hpm'⟩ :=
      hi.mem_pfslist_of_bound (List.mem_append_left _ hp) (by simpa using hb)
    rw [hpm] at hpm'; cases hpm'
  have hi1 := hi.modifyMeta p.id (f := fun q => { q with mp := some mp }) (fun _ => rfl)
    fun m hm q _ hqd hqp => by
      have : st.bound p := List.any_eq_true.2 ⟨m, hm, by simp [← hqd, hqp]⟩
      simp [hu] at this
  exact hi1.addMount (p := { p with mp := some mp }) (List.mem_map.2 ⟨p, hp, by simp⟩) rfl hu hm
    hlt h

theorem Inv.findPfs_mem {st : State} (hi : Inv st) {pid : PfsId} {p : Pfs}
    (hpid : pid ∈ st.pfslist.map Pfs.id) (h : st.findPfs pid = some p) : p ∈ st.pfslist := by
  obtain ⟨q, hq, rfl⟩ := List.mem_map.1 hpid
  have hp := List.mem_of_find?_eq_some h
  have e : p.id = q.id := by simpa using List.find?_some h
  rwa [List.inj_on_of_nodup_map hi.pfs_nodup hp (List.mem_append_left _ hq) e]

theorem bindPmp_inv {mp : MpId} {devstr label : String} {hmp : Dev} {pmp : Option PfsId}
    {devvpl : List Devvp} {st : State} {r : MountResult} (hi : Inv st)
    (hp : ∀ x ∈ pmp, x ∈ st.pfslist.map Pfs.id) (hm : mp ∉ st.mounts.map Mount.mp)
    (hlt : mp < st.nextId) (h : bindPmp mp devstr label hmp pmp devvpl st = .ok r) : Inv r.st := by
  unfold bindPmp at h
  split at h
  · obtain ⟨st', h', rfl⟩ := Except.map_eq_ok.1 h
    exact (unwindDevice_keeps hi h').inv
  rename_i pid
  split at h
  · cases h
  rename_i p hpf
  split_ifs at h with hpm
  · obtain ⟨st', h', rfl⟩ := Except.map_eq_ok.1 h
    exact (unwindDevice_keeps hi h').inv
  · obtain ⟨st', h', rfl⟩ := Except.map_eq_ok.1 h
    exact (hammer2MountHelper_inv hi (hi.findPfs_mem (hp pid rfl) hpf) (by simpa using hpm) hm hlt
      h').setFspec _ _

theorem mountLabel_inv {mp : MpId} {devstr label : String} {hmp : DevId} {pmp : Option PfsId}
    {devvpl : List Devvp} {env : MountEnv} {st : State} {r : MountResult} (hi : Inv st)
    (hp : ∀ x ∈ pmp, x ∈ st.pfslist.map Pfs.id) (hm : mp ∉ st.mounts.map Mount.mp)
    (hlt : mp < st.nextId) (h : mountLabel mp devstr label hmp pmp devvpl env st = .ok r) :
    Inv r.st := by
  unfold mountLabel at h
  split at h
  · cases h
  rename_i d hd
  split at h
  · cases h
  obtain ⟨oc, -, h⟩ := Except.bind_eq_ok.1 h
  cases oc with
  | none =>
    obtain ⟨st', h', rfl⟩ := Except.map_eq_ok.1 h
    exact (unwindDevice_keeps hi h').inv
  | some c =>
    obtain ⟨⟨pmp', st1⟩, h1, h2⟩ := Except.bind_eq_ok.1 h
    obtain ⟨k1, hp1⟩ := acquirePmp_keeps hi (List.mem_of_find?_eq_some hd) hp h1
    exact bindPmp_inv k1.inv hp1 (fun h => hm (List.map_subset _ k1.mounts h))
      (lt_of_lt_of_le hlt k1.nextId) h2

theorem findLabel_mem {label : String} {l : List Pfs} {p : Pfs} {h : DevId}
    (hf : findLabel label l = (some p, some h)) : p ∈ l ∧ ∃ s ∈ p.slots, s.pfsHmp = some h := by
  induction l with
  | nil => cases hf
  | cons q l ih =>
    unfold findLabel at hf
    split at hf
    · rename_i he
      cases hf
      obtain ⟨s, hs, hsh⟩ := Option.bind_eq_some.1 he
      exact ⟨List.mem_cons_self _ _, s, List.mem_of_find?_eq_some hs, hsh⟩
    · exact (ih hf).imp_left (List.mem_cons_of_mem _)

theorem attachDevice_found_label {st : State} {env : MountEnv} {devvpl : List Devvp}
    {label : String} {hmp : DevId} {pmp : Option PfsId}
    (h : attachDevice st env devvpl label = .found hmp pmp) :
    ∀ x ∈ pmp, ∃ p, findLabel label st.pfslist = (some p, some hmp) ∧ p.id = x := by
  unfold attachDevice at h
  split at h
  · split at h
    · rename_i p h' hf
      cases h
      intro x hx
      obtain ⟨q, rfl, rfl⟩ := Option.mem_map.1 hx
      exact ⟨q, hf, rfl⟩
    · cases h
  · split at h
    · cases h; intro x hx; cases hx
    · split at h <;> cases h

theorem attachDevice_found {st : State} {env : MountEnv} {devvpl : List Devvp} {label : String}
    {hmp : DevId} {pmp : Option PfsId} (h : attachDevice st env devvpl label = .found hmp pmp) :
    ∀ x ∈ pmp, x ∈ st.pfslist.map Pfs.id := fun x hx => by
  obtain ⟨p, hf, rfl⟩ := attachDevice_found_label h x hx
  exact List.mem_map_of_mem _ (findLabel_mem hf).1

theorem attachDevice_fresh {st : State} {env : MountEnv} {devvpl : List Devvp} {label : String}
    (h : attachDevice st env devvpl label = .fresh) : ∀ e ∈ devvpl, vfsMountedon st env e = 0 := by
  unfold attachDevice at h
  split at h
  · split at h <;> cases h
  · split at h
    · cases h
    · split at h
      · cases h
      · rename_i hf
        intro e he
        simpa using List.find?_eq_none.1 hf e he

theorem hammer2Mount_inv {mp : MpId} {req : MountReq} {env : MountEnv} {st : State}
    {r : MountResult} (hi : Inv st) (hm : mp ∉ st.mounts.map Mount.mp) (hlt : mp < st.nextId)
    (h : hammer2Mount mp req env st = .ok r) : Inv r.st := by
  unfold hammer2Mount at h
  split at h
  · cases h; exact hi
  rename_i args
  split at h
  · cases h; exact hi
  split at h
  · split at h
    · cases h
    · cases h; exact hi
  split at h
  · cases h; exact hi
  split at h
  · cases h; exact hi
  split at h
  rename_i devstr label _
  split at h
  rename_i devvpl _ _
  split at h
  · cases h; exact hi
  cases ha : attachDevice st env devvpl label with
  | fail e => simp only [ha] at h; cases h; exact hi
  | found hmp pmp =>
    simp only [ha] at h
    exact mountLabel_inv hi (attachDevice_found ha) hm hlt h
  | fresh =>
    simp only [ha] at h
    obtain ⟨o, ho, h⟩ := Except.bind_eq_ok.1 h
    have k := openDevice_keeps hi (attachDevice_fresh ha) ho
    cases o with
    | fail e l st' => cases h; exact k.inv
    | ok hmp st' =>
      exact mountLabel_inv k.inv (fun _ hx => by cases hx)
        (fun h => hm (List.map_subset _ k.mounts h)) (lt_of_lt_of_le hlt k.nextId) h

theorem step_inv {op : Op} {st st' : State} (hi : Inv st) (h : step op st = .ok st') : Inv st' := by
  cases op with
  | mount req env =>
    obtain ⟨r, hr, rfl⟩ := Except.map_eq_ok.1 h
    refine hammer2Mount_inv hi.bumpNextId (fun hm => ?_) (Nat.lt_succ_self _) hr
    obtain ⟨m, hm, e⟩ := List.mem_map.1 hm
    exact Nat.lt_irrefl _ (e ▸ hi.mp_fresh m hm)
  | unmount mp e =>
    obtain ⟨⟨n, st''⟩, hr, rfl⟩ := Except.map_eq_ok.1 h
    exact (hammer2Unmount_keeps hi hr).inv

theorem reachable_inv {st : State} (h : Reachable st) : Inv st := by
  induction h with
  | init => exact Inv.init
  | step op _ hs ih => exact step_inv ih hs

end Hammer2Vfs
