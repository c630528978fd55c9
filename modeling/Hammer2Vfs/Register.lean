import Hammer2Vfs.MountInv

namespace Hammer2Vfs

/-- The state after lines 612-661: `hmp` at the tail of `hammer2_mntlist` with the vnodes
`devvpl`, its new super-PFS at the tail of `hammer2_spmplist`, and the two linked. -/
def linkDev (hmp : Dev) (devvpl : List Devvp) (st : State) : State :=
  let st1 := State.modifyDev { st with mntlist := st.mntlist ++ [hmp] } hmp.id
    fun d => { d with devvpList := devvpl }
  let st2 := { st1 with spmplist := st1.spmplist ++ [newPfs st.nextId (some hmp.id) none],
                        nextId := st.nextId + 1 }
  (st2.modifyDev hmp.id fun d => { d with spmp := some st.nextId }).modifyPfs st.nextId
    fun p => p.modifySlot0 fun s => { s with pfsHmp := some hmp.id }

@[simp] theorem linkDev_mounts (hmp : Dev) (devvpl : List Devvp) (st : State) :
    (linkDev hmp devvpl st).mounts = st.mounts := rfl

@[simp] theorem linkDev_nextId (hmp : Dev) (devvpl : List Devvp) (st : State) :
    (linkDev hmp devvpl st).nextId = st.nextId + 1 := rfl

theorem linkDev_mntlist {hmp : Dev} (devvpl : List Devvp) {st : State}
    (hn : hmp.id ∉ st.mntlist.map Dev.id) :
    (linkDev hmp devvpl st).mntlist =
      st.mntlist ++ [{ hmp with devvpList := devvpl, spmp := some st.nextId }] := by
  simp [linkDev, State.modifyPfs, State.modifyDev, update_append_fresh rfl hn,
    update_append_fresh (x := { hmp with devvpList := devvpl }) rfl hn]

theorem linkDev_pfslist (hmp : Dev) (devvpl : List Devvp) {st : State}
    (hn : st.nextId ∉ st.pfslist.map Pfs.id) : (linkDev hmp devvpl st).pfslist = st.pfslist := by
  simp [linkDev, State.modifyPfs, State.modifyDev, update_of_not_mem hn]

theorem linkDev_spmplist (hmp : Dev) (devvpl : List Devvp) {st : State}
    (hn : st.nextId ∉ st.spmplist.map Pfs.id) :
    (linkDev hmp devvpl st).spmplist = st.spmplist ++
      [(newPfs st.nextId (some hmp.id) none).modifySlot0 fun s => { s with pfsHmp := some hmp.id }] := by
  simp only [linkDev, State.modifyPfs, State.modifyDev]
  exact update_append_fresh rfl hn

theorem Inv.succ_not_mem {st : State} (hi : Inv st) :
    st.nextId + 1 ∉ (st.pfslist ++ st.spmplist).map Pfs.id := fun h => by
  obtain ⟨q, hq, e⟩ := List.mem_map.1 h
  exact Nat.not_succ_lt_self (e ▸ hi.pfs_fresh q hq)

theorem Inv.linkDev {st : State} (hi : Inv st) {hmp : Dev} (devvpl : List Devvp)
    (hid : hmp.id = st.nextId) (h0 : hmp.mountCount = 0) (hl : hmp.hflags &&& HMNT2_LOCAL ≠ 0)
    (hne : devvpl ≠ [])
    (hv : ∀ e ∈ devvpl, ∀ d ∈ st.mntlist, ∀ e' ∈ d.devvpList, e'.aliases e = false) :
    Inv (linkDev hmp devvpl { st with nextId := st.nextId + 1 }) :=
  ((hi.insertDev devvpl hid h0 hl hne hv).appendSpmp (some hmp.id)).linkSpmp hmp.id (st.nextId + 1)
    (by simp [State.modifyDev])

theorem linkDev_spmp_mem (hmp : Dev) (devvpl : List Devvp) (st : State) :
    st.nextId ∈ (linkDev hmp devvpl st).spmplist.map Pfs.id := by
  simp [linkDev, State.modifyPfs, State.modifyDev]

theorem Inv.linkSuperRoot {st : State} (hi : Inv st) {hmp : Dev} (devvpl : List Devvp)
    (hid : hmp.id = st.nextId) (h0 : hmp.mountCount = 0) (hl : hmp.hflags &&& HMNT2_LOCAL ≠ 0)
    (hne : devvpl ≠ [])
    (hv : ∀ e ∈ devvpl, ∀ d ∈ st.mntlist, ∀ e' ∈ d.devvpList, e'.aliases e = false) (clid : Nat) :
    Inv ((Hammer2Vfs.linkDev hmp devvpl { st with nextId := st.nextId + 1 }).modifyPfs
      (st.nextId + 1) fun p => p.setSuperRoot hmp.id clid) :=
  (hi.linkDev devvpl hid h0 hl hne hv).modifySpmp _ (linkDev_spmp_mem _ _ _) fun _ => ⟨rfl, rfl⟩

theorem registerDevice_cases {mp : MpId} {hmp : Dev} {env : MountEnv} {devvpl : List Devvp}
    {st : State} {r : OpenResult} (h : registerDevice mp hmp env devvpl st = .ok r) :
    hmp.hflags &&& HMNT2_LOCAL ≠ 0 ∧
      ((∃ st', r = .fail EINVAL [] st' ∧ unwindDevice mp hmp.id (linkDev hmp devvpl st) = .ok st') ∨
        ∃ clid st', r = .ok hmp.id st' ∧ hammer2UpdatePmps hmp env.pmpsScan
          ((linkDev hmp devvpl st).modifyPfs st.nextId fun p => p.setSuperRoot hmp.id clid) =
            .ok st') := by
  unfold registerDevice at h
  split_ifs at h with hl
  refine ⟨hl, ?_⟩
  simp only [hammer2Pfsalloc_spmp, bind, Except.bind] at h
  cases hsc : env.schain with
  | none =>
    simp only [hsc] at h
    obtain ⟨st', h', rfl⟩ := Except.map_eq_ok.1 h
    exact .inl ⟨st', rfl, h'⟩
  | some sc =>
    simp only [hsc] at h
    split_ifs at h
    · obtain ⟨st', h', rfl⟩ := Except.map_eq_ok.1 h
      exact .inr ⟨_, st', rfl, h'⟩
    · obtain ⟨st', h', rfl⟩ := Except.map_eq_ok.1 h
      exact .inl ⟨st', rfl, h'⟩

theorem attachDevice_fail_ne {st : State} {env : MountEnv} {devvpl : List Devvp} {label : String}
    {e : Nat} (h : attachDevice st env devvpl label = .fail e) : e ≠ 0 := by
  unfold attachDevice at h
  split at h
  · split at h
    · cases h
    · cases h; decide
  · split at h
    · cases h
    · split at h
      · rename_i e' hf
        cases h
        simpa using List.find?_some hf
      · cases h

theorem openDevice_cases {mp : MpId} {args : MountInfo} {env : MountEnv} {devvpl : List Devvp}
    {st : State} {r : OpenResult} (hi : Inv st) (h : openDevice mp args env devvpl st = .ok r) :
    (∃ e, r = .fail e [] st ∧ e ≠ 0) ∨
      (∃ e, r = .fail e [] { st with nextId := st.nextId + 1 } ∧ env.initVolumes = .error e) ∨
      devvpl ≠ [] ∧ registerDevice mp ⟨st.nextId, 0, [], none, args.hflags &&& HMNT2_DEVFLAGS⟩ env
        devvpl { st with nextId := st.nextId + 1 } = .ok r := by
  unfold openDevice at h
  split_ifs at h with h1 h2
  · cases h; exact .inl ⟨_, rfl, h2⟩
  split at h
  · rename_i e he
    cases h; exact .inr (.inl ⟨e, rfl, he⟩)
  · obtain ⟨st1, h1, -⟩ := Except.bind_eq_ok.1 h
    rw [unmountHelperDev_unlinked rfl rfl hi.nextId_not_dev] at h1
    cases h1
  · exact .inr (.inr ⟨by simpa using h1, h⟩)

theorem acquirePmp_cases {d : Dev} {c : SrootChain} {pmp pmp' : Option PfsId} {st st' : State}
    (h : acquirePmp d c pmp st = .ok (pmp', st')) :
    (st' = st ∧ (pmp' = pmp ∨ ∃ q ∈ st.pfslist, pmp' = some q.id ∧ q.forceLocal = d.forceLocal ∧
        q.name0.isSome)) ∨
      ∃ r, pmp' = some st.nextId ∧
      st' = { st with pfslist := st.pfslist ++ [newPfs st.nextId d.forceLocal (some r)],
                      nextId := st.nextId + 1 } := by
  unfold acquirePmp at h
  split at h
  · obtain ⟨⟨pid, st1⟩, h1, he⟩ := Except.map_eq_ok.1 h
    simp only [Prod.mk.injEq] at he
    obtain ⟨rfl, rfl⟩ := he
    rcases hammer2Pfsalloc_label h1 with ⟨rfl, q, hq, rfl, hl, hn⟩ | ⟨rfl, rfl⟩
    · exact .inl ⟨rfl, .inr ⟨q, hq, rfl, hl, hn⟩⟩
    · exact .inr ⟨_, rfl, rfl⟩
  · cases h; exact .inl ⟨rfl, .inl rfl⟩

theorem bindPmp_cases {mp : MpId} {devstr label : String} {hmp : Dev} {pmp : Option PfsId}
    {devvpl : List Devvp} {st : State} {r : MountResult}
    (h : bindPmp mp devstr label hmp pmp devvpl st = .ok r) :
    (r.error ≠ 0 ∧ unwindDevice mp hmp.id st = .ok r.st ∧
        ∀ pid ∈ pmp, ∀ p, st.findPfs pid = some p → p.mp.isSome) ∨
      ∃ p, pmp = some p.id ∧ st.findPfs p.id = some p ∧ p.mp = none ∧ r.error = 0 ∧ ∃ st',
        hammer2MountHelper mp p st = .ok st' ∧
        r.st = st'.modifyPfs p.id fun q => { q with fspec := some (devstr ++ "@" ++ label) } := by
  unfold bindPmp at h
  split at h
  · obtain ⟨st', h', rfl⟩ := Except.map_eq_ok.1 h
    exact .inl ⟨(by decide : EINVAL ≠ 0), h', fun _ h => by cases h⟩
  split at h
  · cases h
  rename_i pid _ p hp
  split_ifs at h with hm
  · obtain ⟨st', h', rfl⟩ := Except.map_eq_ok.1 h
    refine .inl ⟨(by decide : EBUSY ≠ 0), h', fun x hx q hq => ?_⟩
    obtain rfl := Option.mem_some_iff.1 hx
    rw [hp, Option.some.injEq] at hq
    exact hq ▸ hm
  · obtain ⟨st', h', rfl⟩ := Except.map_eq_ok.1 h
    have hid : p.id = pid := by simpa using List.find?_some hp
    exact .inr ⟨p, by rw [hid], by rw [hid]; exact hp, by simpa using hm, rfl, st', h', by rw [hid]⟩

theorem mountLabel_cases {mp : MpId} {devstr label : String} {hmp : DevId}
    {pmp : Option PfsId} {devvpl : List Devvp} {env : MountEnv} {st : State} {r : MountResult}
    (h : mountLabel mp devstr label hmp pmp devvpl env st = .ok r) :
    ∃ d ∈ st.mntlist, d.id = hmp ∧
      ((r.error ≠ 0 ∧ unwindDevice mp hmp st = .ok r.st) ∨
        ∃ c pmp' st1, acquirePmp d c pmp st = .ok (pmp', st1) ∧
          bindPmp mp devstr label d pmp' devvpl st1 = .ok r) := by
  unfold mountLabel at h
  split at h
  · cases h
  rename_i d hd
  refine ⟨d, List.mem_of_find?_eq_some hd, by simpa using List.find?_some hd, ?_⟩
  split at h
  · cases h
  obtain ⟨oc, -, h⟩ := Except.bind_eq_ok.1 h
  cases oc with
  | none =>
    obtain ⟨st', h', rfl⟩ := Except.map_eq_ok.1 h
    exact .inl ⟨by dsimp only; split <;> decide, h'⟩
  | some c =>
    obtain ⟨⟨pmp', st1⟩, h1, h2⟩ := Except.bind_eq_ok.1 h
    exact .inr ⟨c, pmp', st1, h1, h2⟩

theorem hammer2Mount_cases {mp : MpId} {req : MountReq} {env : MountEnv} {st : State}
    {r : MountResult} (h : hammer2Mount mp req env st = .ok r) :
    (r.st = st ∧ (r.error ≠ 0 ∨ (st.mntData mp).isSome)) ∨
      (∃ devstr label devvpl hmp pmp, attachDevice st env devvpl label = .found hmp pmp ∧
        mountLabel mp devstr label hmp pmp devvpl env st = .ok r) ∨
      ∃ args devstr label devvpl, attachDevice st env devvpl label = .fresh ∧
        ∃ o, openDevice mp args env devvpl st = .ok o ∧
          ((∃ e l st', o = .fail e l st' ∧ r = ⟨e, st', l⟩) ∨
            ∃ hmp st', o = .ok hmp st' ∧ mountLabel mp devstr label hmp none [] env st' = .ok r) := by
  unfold hammer2Mount at h
  split at h
  · cases h; exact .inl ⟨rfl, .inl (by decide : EINVAL ≠ 0)⟩
  rename_i args _
  split at h
  · cases h; exact .inl ⟨rfl, .inl (by decide : EINVAL ≠ 0)⟩
  split at h
  · split at h
    · cases h
    · rename_i hn
      cases h; exact .inl ⟨rfl, .inr (by simpa [Option.isSome_iff_ne_none] using hn)⟩
  split at h
  · cases h; exact .inl ⟨rfl, .inl (by decide : EFAULT ≠ 0)⟩
  split at h
  · cases h; exact .inl ⟨rfl, .inl ‹_›⟩
  split at h
  rename_i devstr label _
  split at h
  rename_i devvpl _ _
  split at h
  · cases h; exact .inl ⟨rfl, .inl ‹_›⟩
  cases ha : attachDevice st env devvpl label with
  | fail e => simp only [ha] at h; cases h; exact .inl ⟨rfl, .inl (attachDevice_fail_ne ha)⟩
  | found hmp pmp => simp only [ha] at h; exact .inr (.inl ⟨devstr, label, devvpl, hmp, pmp, ha, h⟩)
  | fresh =>
    simp only [ha] at h
    obtain ⟨o, ho, h⟩ := Except.bind_eq_ok.1 h
    refine .inr (.inr ⟨args, devstr, label, devvpl, ha, o, ho, ?_⟩)
    cases o with
    | fail e l st' => cases h; exact .inl ⟨e, l, st', rfl, rfl⟩
    | ok hmp st' => exact .inr ⟨hmp, st', rfl, h⟩

end Hammer2Vfs
