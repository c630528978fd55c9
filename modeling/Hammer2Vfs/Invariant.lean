import Hammer2Vfs.Refs
import Hammer2Vfs.System

namespace Hammer2Vfs

/-- What holds between two VFS operations: distinct and fresh addresses, the flags of
the two PFS lists, well formed members, every mount on a PFS of `hammer2_pfslist`
that records it in `pmp->mp`, every mount_count equal to its pairs, and every device
holding vnodes, none of which aliases one of another device. -/
structure Inv (st : State) : Prop where
  dev_nodup : (st.mntlist.map Dev.id).Nodup
  pfs_nodup : ((st.pfslist ++ st.spmplist).map Pfs.id).Nodup
  mp_nodup : (st.mounts.map Mount.mp).Nodup
  dev_fresh : ∀ d ∈ st.mntlist, d.id < st.nextId
  pfs_fresh : ∀ p ∈ st.pfslist ++ st.spmplist, p.id < st.nextId
  mp_fresh : ∀ m ∈ st.mounts, m.mp < st.nextId
  chain_fresh : ∀ p ∈ st.pfslist, ∀ s ∈ p.slots, ∀ c ∈ s.chain, c.hmp < st.nextId
  pfs_flag : ∀ p ∈ st.pfslist, p.spmp = false
  spmp_flag : ∀ p ∈ st.spmplist, p.spmp = true
  wf : ∀ p ∈ st.pfslist, p.WF
  bound : ∀ m ∈ st.mounts, ∃ p ∈ st.pfslist, p.id = m.data ∧ p.mp = some m.mp
  count : ∀ d ∈ st.mntlist, d.mountCount = st.mountRefs d.id
  local_flag : ∀ d ∈ st.mntlist, d.hflags &&& HMNT2_LOCAL ≠ 0
  fl_fresh : ∀ p ∈ st.pfslist, ∀ h ∈ p.forceLocal, h < st.nextId
  no_alias : ∀ d₁ ∈ st.mntlist, ∀ d₂ ∈ st.mntlist, d₁.id ≠ d₂.id →
    ∀ e₁ ∈ d₁.devvpList, ∀ e₂ ∈ d₂.devvpList, e₁.aliases e₂ = false
  devvp_ne : ∀ d ∈ st.mntlist, d.devvpList ≠ []

theorem Inv.init : Inv State.init := by
  constructor <;> simp [State.init]

section
variable {st : State} (hi : Inv st)
include hi

theorem Inv.pfslist_nodup : (st.pfslist.map Pfs.id).Nodup :=
  (List.nodup_append.1 (List.map_append Pfs.id _ _ ▸ hi.pfs_nodup)).1

theorem Inv.spmplist_nodup : (st.spmplist.map Pfs.id).Nodup :=
  (List.nodup_append.1 (List.map_append Pfs.id _ _ ▸ hi.pfs_nodup)).2.1

theorem Inv.mem_pfslist_of_bound {p : Pfs} (hp : p ∈ st.pfslist ++ st.spmplist)
    (hb : st.bound p) : p ∈ st.pfslist ∧ ∃ m ∈ st.mounts, m.data = p.id ∧ p.mp = some m.mp := by
  obtain ⟨m, hm, hmd⟩ : ∃ m ∈ st.mounts, m.data = p.id := by simpa [State.bound] using hb
  obtain ⟨q, hq, hqd, hqm⟩ := hi.bound m hm
  have : q = p := List.inj_on_of_nodup_map hi.pfs_nodup (List.mem_append_left _ hq) hp
    (hqd.trans hmd)
  subst this
  exact ⟨hq, m, hm, hmd, hqm⟩

theorem Inv.spmp_unbound {p : Pfs} (hp : p ∈ st.spmplist) : st.bound p = false := by
  by_contra hb
  have hq := (hi.mem_pfslist_of_bound (List.mem_append_right _ hp) (by simpa using hb)).1
  exact (List.nodup_append.1 (List.map_append Pfs.id _ _ ▸ hi.pfs_nodup)).2.2
    (List.mem_map_of_mem _ hq) (List.mem_map_of_mem _ hp)

theorem Inv.scanOne_bound {d : Dev} (hd : d ∈ st.mntlist) (h0 : d.mountCount = 0) {p : Pfs}
    (hp : p ∈ st.pfslist ++ st.spmplist) (hb : st.bound p) : scanOne d.id p = some p := by
  have hw := hi.wf p (hi.mem_pfslist_of_bound hp hb).1
  have hu : p.uses d.id = false := by
    by_contra hu
    have h1 := hw.chainsOn_pos (by simpa using hu)
    have h2 := chainsOn_le_mountRefs d.id hp hb
    have h3 := hi.count d hd
    omega
  simp [scanOne, hu]

end

/-- What lines 1054-1092 leave when they tear down the device `hmp`: the device unlinked
and `hmp` scanned out of both PFS lists. -/
def State.teardown (st : State) (hmp : DevId) : State :=
  { st with
    mntlist := st.mntlist.filter (·.id ≠ hmp)
    pfslist := st.pfslist.filterMap (scanOne hmp)
    spmplist := st.spmplist.filterMap (scanOne hmp) }

@[simp] theorem State.teardown_mntlist (st : State) (hmp : DevId) :
    (st.teardown hmp).mntlist = st.mntlist.filter (·.id ≠ hmp) := rfl
@[simp] theorem State.teardown_pfslist (st : State) (hmp : DevId) :
    (st.teardown hmp).pfslist = st.pfslist.filterMap (scanOne hmp) := rfl
@[simp] theorem State.teardown_spmplist (st : State) (hmp : DevId) :
    (st.teardown hmp).spmplist = st.spmplist.filterMap (scanOne hmp) := rfl
@[simp] theorem State.teardown_mounts (st : State) (hmp : DevId) :
    (st.teardown hmp).mounts = st.mounts := rfl
@[simp] theorem State.teardown_nextId (st : State) (hmp : DevId) :
    (st.teardown hmp).nextId = st.nextId := rfl

theorem unmountHelperDev_idle {d : Dev} {st st' : State} (hi : Inv st) (hd : d ∈ st.mntlist)
    (h0 : d.mountCount = 0) (h : unmountHelperDev d st = .ok st') : st' = st.teardown d.id := by
  simp only [unmountHelperDev, h0, ne_eq, not_true_eq_false, ↓reduceIte] at h
  obtain ⟨⟨d1, st1⟩, h1, h⟩ := Except.bind_eq_ok.1 h
  obtain ⟨⟨d2, st2⟩, h2, h⟩ := Except.bind_eq_ok.1 h
  obtain ⟨rfl, e1⟩ := hammer2PfsfreeScan_ok (by simpa [State.wlist] using hi.pfslist_nodup)
    (by simpa [State.wlist] using hi.pfs_flag) h1
  obtain ⟨rfl, e2⟩ := hammer2PfsfreeScan_ok
    (by simpa [State.wlist, State.setWlist] using hi.spmplist_nodup)
    (by simpa [State.wlist, State.setWlist] using hi.spmp_flag) h2
  have hid1 : d1.id = d.id := by rw [e1]
  have hid : d2.id = d.id := by rw [e2, ← hid1]
  split at h
  · cases h
  · obtain ⟨l, hl, rfl⟩ := Except.map_eq_ok.1 h
    simp only [hid, State.setWlist_mntlist, tailqRemove_of_nodup hi.dev_nodup hd,
      Except.ok.injEq] at hl
    subst hl
    simp [State.setWlist, State.wlist, State.teardown, hid1]

theorem mountRefs_teardown {st : State} {d : Dev} (hi : Inv st) (hd : d ∈ st.mntlist)
    (h0 : d.mountCount = 0) (hmp : DevId) : (st.teardown d.id).mountRefs hmp = st.mountRefs hmp := by
  unfold State.mountRefs
  rw [State.bound_congr (State.teardown_mounts st d.id), State.teardown_pfslist,
    State.teardown_spmplist, ← List.filterMap_append,
    filter_filterMap_scanOne (fun _ _ => State.bound_eq_of_id)
      fun _ hp hb => hi.scanOne_bound hd h0 hp hb]

theorem Inv.teardown {st : State} {d : Dev} (hi : Inv st) (hd : d ∈ st.mntlist)
    (h0 : d.mountCount = 0) : Inv (st.teardown d.id) where
  dev_nodup := hi.dev_nodup.sublist ((List.filter_sublist _).map _)
  pfs_nodup := hi.pfs_nodup.sublist (by
    simpa only [State.teardown_pfslist, State.teardown_spmplist, List.map_append] using
      (map_id_filterMap_scanOne d.id _).append (map_id_filterMap_scanOne d.id _))
  mp_nodup := hi.mp_nodup
  dev_fresh x hx := hi.dev_fresh x (List.mem_of_mem_filter hx)
  pfs_fresh x hx := by
    rw [State.teardown_pfslist, State.teardown_spmplist, ← List.filterMap_append] at hx
    obtain ⟨y, hy, hxy⟩ := List.mem_filterMap.1 hx
    exact scanOne_id hxy ▸ hi.pfs_fresh y hy
  mp_fresh := hi.mp_fresh
  chain_fresh x hx s hs c hc := by
    obtain ⟨y, hy, hxy⟩ := List.mem_filterMap.1 hx
    rcases scanOne_slots hxy hs with rfl | hs
    · cases hc
    · exact hi.chain_fresh y hy s hs c hc
  pfs_flag := List.forall_mem_filterMap.2 fun y hy _ hxy =>
    (scanOne_spmp hxy).trans (hi.pfs_flag y hy)
  spmp_flag := List.forall_mem_filterMap.2 fun y hy _ hxy =>
    (scanOne_spmp hxy).trans (hi.spmp_flag y hy)
  wf := List.forall_mem_filterMap.2 fun y hy _ hxy => scanOne_wf (hi.wf y hy) hxy
  bound m hm := by
    obtain ⟨p, hp, hpd, hpm⟩ := hi.bound m hm
    have hb : st.bound p := List.any_eq_true.2 ⟨m, hm, by simp [hpd]⟩
    exact ⟨p, List.mem_filterMap.2 ⟨p, hp, hi.scanOne_bound hd h0 (List.mem_append_left _ hp) hb⟩,
      hpd, hpm⟩
  count x hx := by
    rw [mountRefs_teardown hi hd h0]
    exact hi.count x (List.mem_of_mem_filter hx)
  local_flag x hx := hi.local_flag x (List.mem_of_mem_filter hx)
  fl_fresh := List.forall_mem_filterMap.2 fun y hy _ hxy =>
    scanOne_forceLocal hxy ▸ hi.fl_fresh y hy
  no_alias x hx y hy := hi.no_alias x (List.mem_of_mem_filter hx) y (List.mem_of_mem_filter hy)
  devvp_ne x hx := hi.devvp_ne x (List.mem_of_mem_filter hx)

/-- `st'` follows `st` within one call while no mount is bound: the invariant holds of
`st'`, no mount was added and no address was handed back. -/
structure Keeps (st st' : State) : Prop where
  inv : Inv st'
  mounts : st'.mounts ⊆ st.mounts
  nextId : st.nextId ≤ st'.nextId

theorem Keeps.refl {st : State} (hi : Inv st) : Keeps st st := ⟨hi, fun _ h => h, le_rfl⟩

theorem Keeps.trans {st₁ st₂ st₃ : State} (h₁ : Keeps st₁ st₂) (h₂ : Keeps st₂ st₃) :
    Keeps st₁ st₃ :=
  ⟨h₂.inv, fun _ h => h₁.mounts (h₂.mounts h), h₁.nextId.trans h₂.nextId⟩

theorem unmountHelperDev_keeps {d : Dev} {st st' : State} (hi : Inv st) (hd : d ∈ st.mntlist)
    (h : unmountHelperDev d st = .ok st') : Keeps st st' := by
  by_cases h0 : d.mountCount = 0
  · rw [unmountHelperDev_idle hi hd h0 h]
    exact ⟨hi.teardown hd h0, fun _ h => h, le_rfl⟩
  · simp only [unmountHelperDev, h0, ne_eq, not_false_eq_true, ↓reduceIte,
      Except.ok.injEq] at h
    exact h ▸ Keeps.refl hi

theorem unmountSweep_rel {R : State → State → Prop} (hrefl : ∀ st, R st st)
    (htrans : ∀ {a b c}, R a b → R b c → R a c)
    (hstep : ∀ {st d}, Inv st → d ∈ st.mntlist → d.mountCount = 0 → R st (st.teardown d.id))
    {fuel : Nat} {st st' : State} (hi : Inv st) (h : unmountSweep fuel st = .ok st') : R st st' := by
  induction fuel generalizing st with
  | zero => cases h
  | succ fuel ih =>
    unfold unmountSweep at h
    split at h
    · cases h; exact hrefl _
    · rename_i d hd
      obtain ⟨st1, h1, h2⟩ := Except.bind_eq_ok.1 h
      have hdm := List.mem_of_find?_eq_some hd
      have h0 : d.mountCount = 0 := by simpa using List.find?_some hd
      rw [unmountHelperDev_idle hi hdm h0 h1] at h2
      exact htrans (hstep hi hdm h0) (ih (hi.teardown hdm h0) h2)

theorem unmountSweep_keeps {fuel : Nat} {st st' : State} (hi : Inv st)
    (h : unmountSweep fuel st = .ok st') : Keeps st st' :=
  unmountSweep_rel (R := fun a b => Inv a → Keeps a b) (fun _ => Keeps.refl)
    (fun hab hbc ha => (hab ha).trans (hbc (hab ha).inv))
    (fun hi hd h0 _ => ⟨hi.teardown hd h0, fun _ h => h, le_rfl⟩) hi h hi

theorem Inv.data_iff_mp {st : State} (hi : Inv st) {mp : MpId} {pid : PfsId}
    (hm : st.mntData mp = some pid) {m : Mount} (hmm : m ∈ st.mounts) : m.data = pid ↔ m.mp = mp := by
  obtain ⟨m0, hm0, rfl⟩ := Option.map_eq_some'.1 hm
  have hm0mem := List.mem_of_find?_eq_some hm0
  have hm0mp : m0.mp = mp := by simpa using List.find?_some hm0
  constructor
  · intro hd
    obtain ⟨q, hq, hqd, hqm⟩ := hi.bound m hmm
    obtain ⟨q0, hq0, hq0d, hq0m⟩ := hi.bound m0 hm0mem
    obtain rfl : q = q0 :=
      List.inj_on_of_nodup_map hi.pfslist_nodup hq hq0 (by rw [hqd, hq0d, hd])
    simpa [hqm, hm0mp] using hq0m
  · intro hmp
    rw [List.inj_on_of_nodup_map hi.mp_nodup hmm hm0mem (hmp.trans hm0mp.symm)]

theorem Inv.recount {st : State} (hi : Inv st) {ms : List Mount} {δ : Int} {p : Pfs}
    (hnd : (ms.map Mount.mp).Nodup) (hfr : ∀ m ∈ ms, m.mp < st.nextId)
    (hb : ∀ m ∈ ms, ∃ q ∈ st.pfslist, q.id = m.data ∧ q.mp = some m.mp)
    (hsum : ∀ h, (({ st with mounts := ms } : State).mountRefs h : Int) =
      st.mountRefs h + δ * p.chainsOn h) :
    Inv { st with mounts := ms, mntlist := st.mntlist.map fun d =>
      { d with mountCount := d.mountCount + δ * chainCount d.id p.members } } where
  dev_nodup := by rw [List.map_map]; exact hi.dev_nodup
  pfs_nodup := hi.pfs_nodup
  mp_nodup := hnd
  dev_fresh := List.forall_mem_map.2 hi.dev_fresh
  pfs_fresh := hi.pfs_fresh
  mp_fresh := hfr
  chain_fresh := hi.chain_fresh
  pfs_flag := hi.pfs_flag
  spmp_flag := hi.spmp_flag
  wf := hi.wf
  bound := hb
  count := List.forall_mem_map.2 fun d hd => by rw [hi.count d hd]; exact (hsum d.id).symm
  local_flag := List.forall_mem_map.2 hi.local_flag
  fl_fresh := hi.fl_fresh
  no_alias := List.forall_mem_map.2 fun d₁ h₁ => List.forall_mem_map.2 fun d₂ h₂ =>
    hi.no_alias d₁ h₁ d₂ h₂
  devvp_ne := List.forall_mem_map.2 hi.devvp_ne

theorem Inv.unbind {st st' : State} {mp : MpId} {pmp : Pfs} (hi : Inv st)
    (hm : st.mntData mp = some pmp.id) (hp : pmp ∈ st.pfslist ++ st.spmplist)
    (h : adjustMountCounts (-1) pmp.members
      { st with mounts := st.mounts.filter (·.mp ≠ mp) } = .ok st') : Inv st' := by
  rw [adjustMountCounts_ok h]
  set st1 : State := { st with mounts := st.mounts.filter (·.mp ≠ mp) }
  have hb : st.bound = fun x => st1.bound x || pmp.id == x.id := by
    funext x
    by_cases hx : pmp.id = x.id
    · obtain ⟨m0, hm0, e⟩ := Option.map_eq_some'.1 hm
      have : st.bound x := List.any_eq_true.2 ⟨m0, List.mem_of_find?_eq_some hm0, by simp [e, hx]⟩
      simp [hx, this]
    · have := fun m (hmm : m ∈ st.mounts) => hi.data_iff_mp hm hmm
      rw [show (pmp.id == x.id) = false by simpa using hx, Bool.or_false]
      refine Bool.eq_iff_iff.2 ?_
      simp only [State.bound, st1, List.any_filter, List.any_eq_true, Bool.and_eq_true,
        decide_eq_true_eq, beq_iff_eq]
      exact ⟨fun ⟨m, hmm, hd⟩ => ⟨m, hmm, fun e => hx (((this m hmm).2 e).symm.trans hd), hd⟩,
        fun ⟨m, hmm, _, hd⟩ => ⟨m, hmm, hd⟩⟩
  have hu : st1.bound pmp = false := by
    simp only [State.bound, st1, List.any_filter, List.any_eq_false, Bool.and_eq_true,
      decide_eq_true_eq, beq_iff_eq, not_and]
    exact fun m hmm hne hd => hne ((hi.data_iff_mp hm hmm).1 hd)
  have hsum : ∀ h, st.mountRefs h = st1.mountRefs h + pmp.chainsOn h := fun h => by
    unfold State.mountRefs; rw [hb]; exact sum_chainsOn_bind h hi.pfs_nodup hp hu
  exact hi.recount (hi.mp_nodup.sublist ((List.filter_sublist _).map _))
    (fun m hm => hi.mp_fresh m (List.mem_of_mem_filter hm))
    (fun m hm => hi.bound m (List.mem_of_mem_filter hm)) fun h => by
      change (st1.mountRefs h : Int) = _; have := hsum h; omega

theorem hammer2Unmount_of_mntData {mp : MpId} {e : Nat} {st : State} (h : st.mntData mp = none) :
    hammer2Unmount mp e st = .ok (0, st) := by
  simp [hammer2Unmount, h]

theorem unmountFinish_eq (e : Nat) (st : State) :
    unmountFinish e st = if st.mntlist = [] ∧ ¬(st.pfslist = [] ∧ st.spmplist = [])
      then .error (.kassert "hammer2_inode_allocs == 0") else .ok (e, st) := by
  simp only [unmountFinish, hammer2AssertClean, List.isEmpty_iff, Bool.and_eq_true]
  split_ifs <;> simp_all [Except.map]

theorem unmountFinish_ok {e r : Nat} {st st' : State} (h : unmountFinish e st = .ok (r, st')) :
    r = e ∧ st' = st := by
  rw [unmountFinish_eq] at h
  split_ifs at h
  cases h; exact ⟨rfl, rfl⟩

theorem hammer2Unmount_eq {mp : MpId} {e r : Nat} {st st' : State}
    (h : hammer2Unmount mp e st = .ok (r, st')) :
    st' = st ∧ (st.mntData mp = none ∨ r ≠ 0) ∨
      ∃ pmp ∈ st.pfslist ++ st.spmplist, st.mntData mp = some pmp.id ∧ ∃ st1,
        adjustMountCounts (-1) pmp.members
          { st with mounts := st.mounts.filter (·.mp ≠ mp) } = .ok st1 ∧
        unmountSweep (st1.mntlist.length + 1) st1 = .ok st' := by
  unfold hammer2Unmount at h
  split at h
  · cases h; exact .inl ⟨rfl, .inl ‹_›⟩
  rename_i pid hpid
  split at h
  · cases h
  rename_i pmp hpmp
  have hpid' : pmp.id = pid := by simpa using List.find?_some hpmp
  subst hpid'
  rw [if_neg (by rintro h0; rw [if_pos h0] at h; cases h)] at h
  obtain ⟨st2, h2, hf⟩ := Except.bind_eq_ok.1 h
  obtain ⟨rfl, rfl⟩ := unmountFinish_ok hf
  split_ifs at h2 with h1
  · cases h2; exact .inl ⟨rfl, .inr h1⟩
  unfold unmountHelperPfs at h2
  split_ifs at h2
  obtain ⟨st1, h1, h2⟩ := Except.bind_eq_ok.1 h2
  exact .inr ⟨pmp, List.mem_of_find?_eq_some hpmp, hpid, st1, h1, h2⟩

theorem hammer2Unmount_keeps {mp : MpId} {e r : Nat} {st st' : State} (hi : Inv st)
    (h : hammer2Unmount mp e st = .ok (r, st')) : Keeps st st' := by
  rcases hammer2Unmount_eq h with ⟨rfl, -⟩ | ⟨pmp, hp, hpid, st1, h1, h2⟩
  · exact Keeps.refl hi
  have e1 := adjustMountCounts_ok h1
  have k1 : Keeps st st1 :=
    ⟨hi.unbind hpid hp h1, e1 ▸ fun _ hm => List.mem_of_mem_filter hm, e1 ▸ le_rfl⟩
  exact k1.trans (unmountSweep_keeps k1.inv h2)

theorem mountRefs_eq_of_filter {st st' : State} (hm : st'.mounts = st.mounts)
    (h : (st'.pfslist ++ st'.spmplist).filter st.bound = (st.pfslist ++ st.spmplist).filter st.bound)
    (hmp : DevId) : st'.mountRefs hmp = st.mountRefs hmp := by
  unfold State.mountRefs; rw [State.bound_congr hm, h]

theorem Inv.bumpNextId {st : State} (hi : Inv st) : Inv { st with nextId := st.nextId + 1 } :=
  { hi with
    dev_fresh := fun d hd => Nat.lt_succ_of_lt (hi.dev_fresh d hd)
    pfs_fresh := fun p hp => Nat.lt_succ_of_lt (hi.pfs_fresh p hp)
    mp_fresh := fun m hm => Nat.lt_succ_of_lt (hi.mp_fresh m hm)
    chain_fresh := fun p hp s hs c hc => Nat.lt_succ_of_lt (hi.chain_fresh p hp s hs c hc)
    fl_fresh := fun p hp h hh => Nat.lt_succ_of_lt (hi.fl_fresh p hp h hh) }

theorem Inv.unbound_of_fresh {st : State} (hi : Inv st) {q : Pfs} (hq : st.nextId ≤ q.id) :
    st.bound q = false := by
  by_contra hb
  obtain ⟨m, hm, hmd⟩ : ∃ m ∈ st.mounts, m.data = q.id := by simpa [State.bound] using hb
  obtain ⟨p, hp, hpd, -⟩ := hi.bound m hm
  have := hi.pfs_fresh p (List.mem_append_left _ hp)
  rw [hpd, hmd] at this
  exact absurd hq (Nat.not_le.2 this)

theorem Inv.nextId_not_mem {st : State} (hi : Inv st) :
    st.nextId ∉ (st.pfslist ++ st.spmplist).map Pfs.id := fun h => by
  obtain ⟨p, hp, e⟩ := List.mem_map.1 h
  exact Nat.lt_irrefl _ (e ▸ hi.pfs_fresh p hp)

theorem Inv.nextId_not_dev {st : State} (hi : Inv st) : st.nextId ∉ st.mntlist.map Dev.id :=
  fun h => by
    obtain ⟨d, hd, e⟩ := List.mem_map.1 h
    exact Nat.lt_irrefl _ (e ▸ hi.dev_fresh d hd)

theorem Inv.appendPfs {st : State} (hi : Inv st) {q : Pfs} (hq : q.id = st.nextId) (hw : q.WF)
    (hs : q.spmp = false) (hch : ∀ s ∈ q.slots, ∀ c ∈ s.chain, c.hmp < st.nextId)
    (hl : ∀ h ∈ q.forceLocal, h < st.nextId) :
    Inv { st with pfslist := st.pfslist ++ [q], nextId := st.nextId + 1 } := by
  have hb := hi.unbound_of_fresh hq.ge
  have hq' := hq ▸ hi.nextId_not_mem
  have hi' := hi.bumpNextId
  exact { hi' with
    pfs_nodup := by
      simp only [List.map_append, List.map_cons, List.map_nil, List.append_assoc,
        List.singleton_append]
      exact List.perm_middle.nodup_iff.2 (List.nodup_cons.2 ⟨by simpa using hq',
        by simpa using hi.pfs_nodup⟩)
    pfs_fresh := fun p hp => by
      simp only [List.mem_append, List.mem_singleton] at hp
      rcases hp with (hp | rfl) | hp
      · exact hi'.pfs_fresh p (List.mem_append_left _ hp)
      · simp [hq]
      · exact hi'.pfs_fresh p (List.mem_append_right _ hp)
    chain_fresh := List.forall_mem_append.2 ⟨hi'.chain_fresh,
      List.forall_mem_singleton.2 fun s hs c hc => Nat.lt_succ_of_lt (hch s hs c hc)⟩
    pfs_flag := List.forall_mem_append.2 ⟨hi.pfs_flag, List.forall_mem_singleton.2 hs⟩
    wf := List.forall_mem_append.2 ⟨hi.wf, List.forall_mem_singleton.2 hw⟩
    bound := fun m hm => by
      obtain ⟨p, hp, h⟩ := hi.bound m hm
      exact ⟨p, List.mem_append_left _ hp, h⟩
    count := fun d hd => by
      rw [hi.count d hd]
      refine congrArg _ (mountRefs_eq_of_filter ?_ ?_ _).symm
      · rfl
      · simp [List.filter_append, hb]
    fl_fresh := List.forall_mem_append.2 ⟨hi'.fl_fresh,
      List.forall_mem_singleton.2 fun h hh => Nat.lt_succ_of_lt (hl h hh)⟩ }

theorem Inv.appendSpmp {st : State} (hi : Inv st) (fl : Option DevId) :
    Inv { st with spmplist := st.spmplist ++ [newPfs st.nextId fl none],
                  nextId := st.nextId + 1 } := by
  have hb := hi.unbound_of_fresh (q := newPfs st.nextId fl none) le_rfl
  have hi' := hi.bumpNextId
  exact { hi' with
    pfs_nodup := by
      rw [← List.append_assoc, List.map_append]
      exact hi.pfs_nodup.append (List.nodup_singleton _)
        (List.disjoint_singleton.2 hi.nextId_not_mem)
    pfs_fresh := by
      rw [← List.append_assoc]
      exact List.forall_mem_append.2 ⟨hi'.pfs_fresh, List.forall_mem_singleton.2 (Nat.lt_succ_self _)⟩
    spmp_flag := List.forall_mem_append.2 ⟨hi.spmp_flag, List.forall_mem_singleton.2 rfl⟩
    count := fun d hd => by
      rw [hi.count d hd]
      refine congrArg _ (mountRefs_eq_of_filter ?_ ?_ _).symm
      · rfl
      · simp [List.filter_append, hb] }

theorem Devvp.aliases_comm (e e' : Devvp) : e.aliases e' = e'.aliases e := by
  unfold Devvp.aliases
  rw [Bool.beq_comm (a := e.devvp)]
  by_cases h : e.rdev = e'.rdev
  · rw [h]
  · rw [beq_false_of_ne h, beq_false_of_ne (Ne.symm h), Bool.and_false, Bool.and_false]

theorem Inv.mountRefs_nextId {st : State} (hi : Inv st) : st.mountRefs st.nextId = 0 := by
  refine List.sum_eq_zero fun n hn => ?_
  obtain ⟨p, hp, rfl⟩ := List.mem_map.1 hn
  obtain ⟨hp, hb⟩ := List.mem_filter.1 hp
  have hpl := (hi.mem_pfslist_of_bound hp hb).1
  refine List.length_eq_zero.2 (List.filter_eq_nil_iff.2 fun s hs => ?_)
  cases hc : s.chain with
  | none => simp
  | some c =>
    simpa using Nat.ne_of_lt (hi.chain_fresh p hpl s (List.mem_of_mem_take hs) c hc)

theorem Inv.addDev {st : State} (hi : Inv st) {d : Dev} (hd : d.id = st.nextId)
    (h0 : d.mountCount = 0) (hl : d.hflags &&& HMNT2_LOCAL ≠ 0) (hne : d.devvpList ≠ [])
    (hv : ∀ e ∈ d.devvpList, ∀ d' ∈ st.mntlist, ∀ e' ∈ d'.devvpList, e'.aliases e = false) :
    Inv { st with mntlist := st.mntlist ++ [d], nextId := st.nextId + 1 } := by
  have hi' := hi.bumpNextId
  have hn : d.id ∉ st.mntlist.map Dev.id := fun h => by
    obtain ⟨x, hx, e⟩ := List.mem_map.1 h
    exact Nat.lt_irrefl _ (hd ▸ e ▸ hi.dev_fresh x hx)
  exact { hi' with
    dev_nodup := by
      rw [List.map_append]
      exact hi.dev_nodup.append (List.nodup_singleton _) (List.disjoint_singleton.2 hn)
    dev_fresh := List.forall_mem_append.2 ⟨hi'.dev_fresh,
      List.forall_mem_singleton.2 (hd ▸ Nat.lt_succ_self _)⟩
    count := List.forall_mem_append.2 ⟨hi.count, List.forall_mem_singleton.2 (by
      rw [h0, hd]
      exact congrArg _ hi.mountRefs_nextId.symm)⟩
    local_flag := List.forall_mem_append.2 ⟨hi.local_flag, List.forall_mem_singleton.2 hl⟩
    no_alias := fun x hx y hy hxy e₁ he₁ e₂ he₂ => by
      rcases List.mem_append.1 hx with hx1 | hx1
      · rcases List.mem_append.1 hy with hy1 | hy1
        · exact hi.no_alias x hx1 y hy1 hxy e₁ he₁ e₂ he₂
        · rw [List.mem_singleton.1 hy1] at he₂; exact hv e₂ he₂ x hx1 e₁ he₁
      · rw [List.mem_singleton.1 hx1] at he₁
        rcases List.mem_append.1 hy with hy1 | hy1
        · rw [Devvp.aliases_comm]; exact hv e₁ he₁ y hy1 e₂ he₂
        · exact absurd (by rw [List.mem_singleton.1 hx1, List.mem_singleton.1 hy1]) hxy
    devvp_ne := List.forall_mem_append.2 ⟨hi.devvp_ne, List.forall_mem_singleton.2 hne⟩ }

theorem Inv.modifyDev {st : State} (hi : Inv st) {hmp : DevId} {f : Dev → Dev}
    (hf : ∀ d, (f d).id = d.id ∧ (f d).mountCount = d.mountCount ∧ (f d).hflags = d.hflags ∧
      (f d).devvpList = d.devvpList) : Inv (st.modifyDev hmp f) := by
  have hg : ∀ x ∈ (st.modifyDev hmp f).mntlist, ∃ y ∈ st.mntlist, x.id = y.id ∧
      x.mountCount = y.mountCount ∧ x.hflags = y.hflags ∧ x.devvpList = y.devvpList := by
    intro x hx
    obtain ⟨y, hy, rfl⟩ := mem_update.1 hx
    exact ⟨y, hy, by split <;> simp [hf]⟩
  exact { hi with
    dev_nodup := by simpa [State.modifyDev, fun d => (hf d).1] using hi.dev_nodup
    dev_fresh := fun x hx => by
      obtain ⟨y, hy, e, -⟩ := hg x hx; exact e ▸ hi.dev_fresh y hy
    count := fun x hx => by
      obtain ⟨y, hy, e, e', -⟩ := hg x hx; rw [e, e']; exact hi.count y hy
    local_flag := fun x hx => by
      obtain ⟨y, hy, -, -, e, -⟩ := hg x hx; exact e ▸ hi.local_flag y hy
    no_alias := fun x hx x' hx' hne => by
      obtain ⟨y, hy, e, -, -, ev⟩ := hg x hx
      obtain ⟨y', hy', e', -, -, ev'⟩ := hg x' hx'
      rw [ev, ev']; exact hi.no_alias y hy y' hy' (e ▸ e' ▸ hne)
    devvp_ne := fun x hx => by
      obtain ⟨y, hy, -, -, -, ev⟩ := hg x hx; exact ev ▸ hi.devvp_ne y hy }

theorem mountRefs_of_spmplist {st : State} (h : ∀ p ∈ st.spmplist, st.bound p = false)
    (hmp : DevId) : st.mountRefs hmp = ((st.pfslist.filter st.bound).map (Pfs.chainsOn hmp)).sum := by
  unfold State.mountRefs
  rw [List.filter_append, show st.spmplist.filter st.bound = [] from
    List.filter_eq_nil_iff.2 fun p hp => by simp [h p hp], List.append_nil]

theorem Inv.modifySpmp {st : State} (hi : Inv st) (pid : PfsId) (hs : pid ∈ st.spmplist.map Pfs.id)
    {f : Pfs → Pfs} (hf : ∀ p, (f p).id = p.id ∧ (f p).spmp = p.spmp) :
    Inv (st.modifyPfs pid f) := by
  have hp : pid ∉ st.pfslist.map Pfs.id := fun h =>
    (List.nodup_append.1 (List.map_append Pfs.id _ _ ▸ hi.pfs_nodup)).2.2 h hs
  have hg : ∀ x ∈ update Pfs.id pid f st.spmplist, ∃ y ∈ st.spmplist, x.id = y.id ∧
      x.spmp = y.spmp := by
    intro x hx
    obtain ⟨y, hy, rfl⟩ := mem_update.1 hx
    exact ⟨y, hy, by split <;> simp [hf]⟩
  have e : st.modifyPfs pid f = { st with spmplist := update Pfs.id pid f st.spmplist } := by
    simp [State.modifyPfs, update_of_not_mem hp]
  rw [e]
  exact { hi with
    pfs_nodup := by simpa [fun p => (hf p).1] using hi.pfs_nodup
    pfs_fresh := fun x hx => by
      rcases List.mem_append.1 hx with hx | hx
      · exact hi.pfs_fresh x (List.mem_append_left _ hx)
      · obtain ⟨y, hy, e, -⟩ := hg x hx; exact e ▸ hi.pfs_fresh y (List.mem_append_right _ hy)
    spmp_flag := fun x hx => by
      obtain ⟨y, hy, -, e⟩ := hg x hx; exact e ▸ hi.spmp_flag y hy
    count := fun d hd => by
      rw [hi.count d hd, mountRefs_of_spmplist (fun p hp => hi.spmp_unbound hp),
        mountRefs_of_spmplist fun x hx => ?_]
      · rfl
      · obtain ⟨y, hy, e, -⟩ := hg x hx
        exact (State.bound_eq_of_id e).trans (hi.spmp_unbound hy) }

end Hammer2Vfs
