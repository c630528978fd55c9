import Hammer2Vfs.MountTable

namespace Hammer2Vfs

/-- Each registry list of `st'` is a sublist of the one of `st`: devices and PFSs may be
gone, and those left are as they were. -/
structure Shrinks (st st' : State) : Prop where
  mntlist : st'.mntlist.Sublist st.mntlist
  pfslist : st'.pfslist.Sublist st.pfslist
  spmplist : st'.spmplist.Sublist st.spmplist

theorem Shrinks.refl (st : State) : Shrinks st st := ⟨.refl _, .refl _, .refl _⟩

theorem Shrinks.trans {a b c : State} (h₁ : Shrinks a b) (h₂ : Shrinks b c) : Shrinks a c :=
  ⟨h₂.mntlist.trans h₁.mntlist, h₂.pfslist.trans h₁.pfslist, h₂.spmplist.trans h₁.spmplist⟩

theorem Shrinks.of_eq {st st' : State} (h1 : st'.mntlist = st.mntlist)
    (h2 : st'.pfslist = st.pfslist) (h3 : st'.spmplist = st.spmplist) : Shrinks st st' :=
  ⟨h1 ▸ .refl _, h2 ▸ .refl _, h3 ▸ .refl _⟩

theorem filterMap_sublist_of {α : Type} {f : α → Option α} :
    ∀ {l : List α}, (∀ a ∈ l, f a = none ∨ f a = some a) → (l.filterMap f).Sublist l
  | [], _ => .slnil
  | a :: l, h => by
    have ih := filterMap_sublist_of fun b hb => h b (List.mem_cons_of_mem _ hb)
    rw [List.filterMap_cons]
    rcases h a (List.mem_cons_self _ _) with e | e <;> rw [e]
    · exact ih.cons a
    · exact ih.cons₂ a

theorem filterMap_append_drop {α : Type} {f : α → Option α} {l l' : List α}
    (h : ∀ a ∈ l, f a = some a) (h' : ∀ a ∈ l', f a = none) : (l ++ l').filterMap f = l := by
  rw [List.filterMap_append, List.filterMap_eq_nil_iff.2 h', List.append_nil,
    List.filterMap_congr h, List.filterMap_some]

theorem Shape.teardown_shrinks {st : State} (hs : Shape st) (hmp : DevId) :
    Shrinks st (st.teardown hmp) where
  mntlist := List.filter_sublist _
  pfslist := filterMap_sublist_of fun p hp => by
    rw [hs.scanOne_pfslist hp]; split <;> simp
  spmplist := filterMap_sublist_of fun p hp => by
    obtain ⟨d, -, -, hsup⟩ := forall₂_exists_of_mem_right hs.spmp p hp
    rw [hsup.scanOne_eq]; split <;> simp

theorem unmountSweep_shrinks {fuel : Nat} {st st' : State} (hi : Inv st) (hs : Shape st)
    (h : unmountSweep fuel st = .ok st') : Shrinks st st' :=
  (unmountSweep_rel (R := fun a b => Shape a → Shrinks a b ∧ Shape b)
    (fun _ hs => ⟨.refl _, hs⟩)
    (fun hab hbc hs => ⟨(hab hs).1.trans (hbc (hab hs).2).1, (hbc (hab hs).2).2⟩)
    (fun _ _ _ hs => ⟨hs.teardown_shrinks _, hs.teardown _⟩) hi h hs).1

/-- hammer2_unmount, in a reachable state, frees and never allocates: the addresses of
`hammer2_mntlist` after it are a sublist of those before, and `hammer2_pfslist` and
`hammer2_spmplist` after it are sublists of those before, so every PFS it keeps is as it
was. -/
theorem unmount_sublists {st : State} (h : Reachable st) {mp : MpId} {e n : Nat} {st' : State}
    (hu : hammer2Unmount mp e st = .ok (n, st')) :
    (st'.mntlist.map Dev.id).Sublist (st.mntlist.map Dev.id) ∧ st'.pfslist.Sublist st.pfslist ∧
      st'.spmplist.Sublist st.spmplist := by
  have hi := reachable_inv h
  rcases hammer2Unmount_eq hu with ⟨rfl, -⟩ | ⟨pmp, hp, hpid, st1, h1, h2⟩
  · exact ⟨.refl _, .refl _, .refl _⟩
  have hs1 : Shape st1 := adjustMountCounts_shape h1 ((reachable_shape h).congr rfl rfl rfl)
  obtain ⟨e1, e2, e3⟩ := unmountSweep_shrinks (hi.unbind hpid hp h1) hs1 h2
  have hids : st1.mntlist.map Dev.id = st.mntlist.map Dev.id := by
    rw [adjustMountCounts_ok h1, List.map_map]; rfl
  rw [adjustMountCounts_ok h1] at e2 e3
  exact ⟨hids ▸ e1.map Dev.id, e2, e3⟩

/-- Unmounting DATA of `/dev/da0` tears its device down and keeps `/dev/da1`. -/
theorem unmount_sublists_twoDevices :
    ∃ n st', hammer2Unmount 0 0 twoDevicesState = .ok (n, st') ∧
      (st'.mntlist.map Dev.id).Sublist (twoDevicesState.mntlist.map Dev.id) ∧
      st'.pfslist.Sublist twoDevicesState.pfslist ∧ st'.spmplist.Sublist twoDevicesState.spmplist :=
  ⟨_, _, rfl, @unmount_sublists twoDevicesState twoDevices_reachable 0 0 _ _ rfl⟩

theorem State.eq_of_lists {a b : State} (h1 : a.mntlist = b.mntlist) (h2 : a.pfslist = b.pfslist)
    (h3 : a.spmplist = b.spmplist) (h4 : a.mounts = b.mounts) : a = { b with nextId := a.nextId } := by
  cases a; cases b; dsimp only at h1 h2 h3 h4; subst h1 h2 h3 h4; rfl

theorem unwindDevice_eq {mp : MpId} {hmp : DevId} {st st' : State} (hi : Inv st)
    (hs : Shape st) (hm : st.mntData mp = none) (h : unwindDevice mp hmp st = .ok st') :
    st' = st ∨ ∃ d ∈ st.mntlist, d.mountCount = 0 ∧ st' = st.teardown d.id := by
  obtain ⟨d, hd, h1⟩ := unwindDevice_of_mntData hm h
  have hdm := List.mem_of_find?_eq_some hd
  by_cases h0 : d.mountCount = 0
  · rw [unmountHelperDev_ok hi hs hdm h0, Except.ok.injEq] at h1
    exact .inr ⟨d, hdm, h0, h1.symm⟩
  · simp only [unmountHelperDev, h0, ne_eq, not_false_eq_true, ↓reduceIte, Except.ok.injEq] at h1
    exact .inl h1.symm

/-- `st'` is `st` with the idle device `hmp`, at the fresh address, registered with its
super-PFS, and with PFSs added that have a member on it: what lines 612-749 leave for a new
device. -/
structure Extends (st : State) (hmp : DevId) (st' : State) : Prop where
  fresh : hmp = st.nextId
  dev : ∃ d, d.id = hmp ∧ d.mountCount = 0 ∧ st'.mntlist = st.mntlist ++ [d]
  spmp : ∃ p, p.SuperOf hmp ∧ st'.spmplist = st.spmplist ++ [p]
  pfs : ∃ news, st'.pfslist = st.pfslist ++ news ∧ ∀ p ∈ news, p.uses hmp
  mounts : st'.mounts = st.mounts

theorem Extends.teardown_eq {st st' : State} {hmp : DevId} (hi : Inv st) (hs : Shape st)
    (hs' : Shape st') (he : Extends st hmp st') :
    (st'.teardown hmp).mntlist = st.mntlist ∧ (st'.teardown hmp).pfslist = st.pfslist ∧
      (st'.teardown hmp).spmplist = st.spmplist := by
  obtain ⟨rfl, ⟨d, hd, -, e1⟩, ⟨p, hp, e2⟩, ⟨news, e3, hn⟩, -⟩ := he
  have hold : ∀ q ∈ st.pfslist, scanOne st.nextId q = some q := fun q hq => by
    have hu : q.uses st.nextId = false := Pfs.uses_eq_false.2 fun s hs0 e =>
      hi.nextId_not_dev (hs.local_dev q hq s hs0 _ e).2
    simp [scanOne, hu]
  have hsup : ∀ q ∈ st.spmplist, scanOne st.nextId q = some q := fun q hq => by
    obtain ⟨d', hd', -, hq'⟩ := forall₂_exists_of_mem_right hs.spmp q hq
    rw [hq'.scanOne_eq, if_neg (Nat.ne_of_lt (hi.dev_fresh d' hd'))]
  refine ⟨?_, ?_, ?_⟩
  · have hx : ∀ x ∈ st.mntlist, decide (x.id ≠ st.nextId) = true := fun x hx => by
      simpa using Nat.ne_of_lt (hi.dev_fresh x hx)
    rw [State.teardown_mntlist, e1, List.filter_append, List.filter_eq_self.2 hx]
    simp [hd]
  · rw [State.teardown_pfslist, e3]
    refine filterMap_append_drop hold fun q hq => ?_
    rw [hs'.scanOne_pfslist (e3 ▸ List.mem_append_right _ hq), if_pos (hn q hq)]
  · rw [State.teardown_spmplist, e2]
    exact filterMap_append_drop hsup (by simp [hp.scanOne_eq])

theorem Extends.unwind {st st' st'' : State} {hmp : DevId} {mp : MpId} (hi : Inv st)
    (hs : Shape st) (he : Extends st hmp st') (hi' : Inv st') (hs' : Shape st')
    (hm : st.mntData mp = none) (h : unwindDevice mp hmp st' = .ok st'') :
    st''.mntlist = st.mntlist ∧ st''.pfslist = st.pfslist ∧ st''.spmplist = st.spmplist := by
  obtain ⟨d, hd, h1⟩ := unwindDevice_of_mntData ((State.mntData_congr he.mounts mp).trans hm) h
  obtain ⟨d', hd', h0, e1⟩ := he.dev
  have hdm := List.mem_of_find?_eq_some hd
  have hdd : d = d' := List.inj_on_of_nodup_map hi'.dev_nodup hdm (by simp [e1])
    ((by simpa using List.find?_some hd : d.id = hmp).trans hd'.symm)
  subst hdd
  rw [unmountHelperDev_ok hi' hs' hdm h0, Except.ok.injEq] at h1
  subst h1
  rw [hd']
  exact he.teardown_eq hi hs hs'

theorem linkDev_extends {st : State} (hi : Inv st) {hmp : Dev} (hid : hmp.id = st.nextId)
    (h0 : hmp.mountCount = 0) (devvpl : List Devvp) :
    Extends st hmp.id (linkDev hmp devvpl { st with nextId := st.nextId + 1 }) := by
  have hf := hi.succ_not_mem
  simp only [List.map_append, List.mem_append, not_or] at hf
  exact ⟨hid, ⟨{ hmp with devvpList := devvpl, spmp := some (st.nextId + 1) }, rfl, h0,
    linkDev_mntlist devvpl (hid ▸ hi.nextId_not_dev)⟩,
    ⟨_, newPfs_superOf _ _, linkDev_spmplist _ _ hf.2⟩,
    ⟨[], by rw [linkDev_pfslist _ _ hf.1, List.append_nil], by simp⟩, rfl⟩

section
variable {mp : MpId} {hmp : Dev} {env : MountEnv} {devvpl : List Devvp} {st : State}
  (hi : Inv st) (hid : hmp.id = st.nextId) (h0 : hmp.mountCount = 0)
include hi hid h0

theorem registerDevice_extends {h' : DevId} {st' : State}
    (hne : devvpl ≠ [])
    (hv : ∀ e ∈ devvpl, ∀ d ∈ st.mntlist, ∀ e' ∈ d.devvpList, e'.aliases e = false)
    (h : registerDevice mp hmp env devvpl { st with nextId := st.nextId + 1 } = .ok (.ok h' st')) :
    h' = hmp.id ∧ Extends st hmp.id st' := by
  obtain ⟨hl, ⟨_, e, -⟩ | ⟨clid, st1, e, h1⟩⟩ := registerDevice_cases h
  · cases e
  cases e
  have hf := hi.succ_not_mem
  simp only [List.map_append, List.mem_append, not_or] at hf
  have hd : hmp.id < st.nextId + 1 + 1 := by
    rw [hid]; exact Nat.lt_succ_of_lt (Nat.lt_succ_self _)
  rw [hammer2UpdatePmps] at h1
  obtain ⟨e1, e2, e3, news, e4, hn⟩ := updatePmpsLoop_frame
    (hi.linkSuperRoot devvpl hid h0 hl hne hv clid) hd (fun h hh => Dev.forceLocal_mem hh ▸ hd) h1
  have hsp : (linkDev hmp devvpl { st with nextId := st.nextId + 1 }).spmplist = _ :=
    linkDev_spmplist _ _ hf.2
  have hpl : (linkDev hmp devvpl { st with nextId := st.nextId + 1 }).pfslist = _ :=
    linkDev_pfslist _ _ hf.1
  refine ⟨rfl, hid, ⟨{ hmp with devvpList := devvpl, spmp := some (st.nextId + 1) }, rfl, h0,
    e1.trans (linkDev_mntlist devvpl (hid ▸ hi.nextId_not_dev))⟩,
    ⟨_, (newPfs_superOf (st.nextId + 1) _).setSuperRoot clid, ?_⟩, ⟨news, ?_, hn⟩, e3⟩
  · rw [e2]
    simp only [State.modifyPfs, hsp]
    exact update_append_fresh rfl hf.2
  · rw [e4]
    simp only [State.modifyPfs, hpl, update_of_not_mem hf.1]

theorem registerDevice_fail (hs : Shape st)
    (hne : devvpl ≠ [])
    (hv : ∀ e ∈ devvpl, ∀ d ∈ st.mntlist, ∀ e' ∈ d.devvpList, e'.aliases e = false)
    (hm : st.mntData mp = none) {e : Nat} {l : List Devvp} {st' : State}
    (h : registerDevice mp hmp env devvpl { st with nextId := st.nextId + 1 } = .ok (.fail e l st')) :
    st'.mntlist = st.mntlist ∧ st'.pfslist = st.pfslist ∧ st'.spmplist = st.spmplist := by
  obtain ⟨hl, ⟨_, he, h1⟩ | ⟨_, _, he, -⟩⟩ := registerDevice_cases h <;> cases he
  exact (linkDev_extends hi hid h0 devvpl).unwind hi hs (hi.linkDev devvpl hid h0 hl hne hv)
    (hs.linkNewDev hi hid devvpl) hm h1

end

theorem openDevice_registry {mp : MpId} {args : MountInfo} {env : MountEnv}
    {devvpl : List Devvp} {st : State} {r : OpenResult} (hi : Inv st) (hs : Shape st)
    (hv : ∀ e ∈ devvpl, vfsMountedon st env e = 0) (hm : st.mntData mp = none)
    (h : openDevice mp args env devvpl st = .ok r) :
    (∃ e l st', r = .fail e l st' ∧
        st'.mntlist = st.mntlist ∧ st'.pfslist = st.pfslist ∧ st'.spmplist = st.spmplist) ∨
      ∃ st', r = .ok st.nextId st' ∧ Extends st st.nextId st' := by
  rcases openDevice_cases hi h with ⟨_, rfl, -⟩ | ⟨_, rfl, -⟩ | ⟨hne, h⟩
  · exact .inl ⟨_, _, _, rfl, rfl, rfl, rfl⟩
  · exact .inl ⟨_, _, _, rfl, rfl, rfl, rfl⟩
  · have hv' := fun e he => vfsMountedon_eq_zero (hv e he)
    cases r with
    | fail e l st' => exact .inl ⟨e, l, st', rfl, registerDevice_fail hi rfl rfl hs hne hv' hm h⟩
    | ok h' st' =>
      obtain ⟨rfl, hx⟩ := registerDevice_extends hi rfl rfl hne hv' h
      exact .inr ⟨st', rfl, hx⟩

theorem bindPmp_fail {mp : MpId} {devstr label : String} {hmp : Dev} {pmp : Option PfsId}
    {devvpl : List Devvp} {st : State} {r : MountResult}
    (h : bindPmp mp devstr label hmp pmp devvpl st = .ok r) (he : r.error ≠ 0) :
    unwindDevice mp hmp.id st = .ok r.st ∧
      ∀ pid ∈ pmp, ∀ p, st.findPfs pid = some p → p.mp.isSome :=
  (bindPmp_cases h).elim (·.2) fun ⟨_, _, _, _, h0, _⟩ => absurd h0 he

theorem mountLabel_fail {mp : MpId} {devstr label : String} {hmp : DevId} {pmp : Option PfsId}
    {devvpl : List Devvp} {env : MountEnv} {st : State} {r : MountResult} (hi : Inv st)
    (hp : ∀ x ∈ pmp, x ∈ st.pfslist.map Pfs.id)
    (h : mountLabel mp devstr label hmp pmp devvpl env st = .ok r) (he : r.error ≠ 0) :
    unwindDevice mp hmp st = .ok r.st := by
  obtain ⟨d, hd, rfl, ⟨-, h'⟩ | ⟨c, pmp', st1, h1, h2⟩⟩ := mountLabel_cases h
  · exact h'
  obtain ⟨h3, hq⟩ := bindPmp_fail h2 he
  have hk := (acquirePmp_keeps hi hd hp h1).1.inv
  rcases acquirePmp_cases h1 with ⟨rfl, -⟩ | ⟨_, rfl, rfl⟩
  · exact h3
  · have hnew := hq _ rfl _ (find?_addr hk.pfs_nodup
      (List.mem_append_left _ (List.mem_append_right _ (List.mem_singleton_self _))))
    simp [newPfs] at hnew

theorem MountOutcome.unbound {mp : MpId} {ms : List Mount} {r : MountResult}
    (ho : MountOutcome mp ms r) (he : r.error ≠ 0 ∨ r.st.mounts = ms) :
    r.error ≠ 0 ∧ r.st.mounts = ms := by
  rcases ho with ⟨h0, pid, hb⟩ | hf
  · rcases he with he | he
    · exact absurd h0 he
    · rw [hb] at he; simp at he
  · exact hf

theorem hammer2Mount_unbound_eq {mp : MpId} {req : MountReq} {env : MountEnv} {st : State}
    {r : MountResult} (hi : Inv st) (hs : Shape st) (hm : st.mntData mp = none)
    (h : hammer2Mount mp req env st = .ok r) (he : r.error ≠ 0 ∨ r.st.mounts = st.mounts) :
    r.st = { st with nextId := r.st.nextId } ∨
      ∃ d ∈ st.mntlist, d.mountCount = 0 ∧ r.st = { st.teardown d.id with nextId := r.st.nextId } := by
  rcases hammer2Mount_cases h with ⟨e, -⟩ | ⟨_, _, _, _, _, ha, h⟩ |
    ⟨_, _, _, _, ha, _, ho, ⟨_, _, _, rfl, rfl⟩ | ⟨_, _, rfl, h⟩⟩
  · exact .inl (by rw [e])
  · have he' := ((mountLabel_outcome hm h).unbound he).1
    rcases unwindDevice_eq hi hs hm (mountLabel_fail hi (attachDevice_found ha) h he') with
      e | ⟨d, hd, h0, e⟩
    · exact .inl (by rw [e])
    · exact .inr ⟨d, hd, h0, by rw [e]⟩
  all_goals have hv := attachDevice_fresh ha
  · rcases openDevice_registry hi hs hv hm ho with ⟨_, _, _, e, e1, e2, e3⟩ | ⟨_, e, -⟩ <;>
      cases e
    exact .inl (State.eq_of_lists e1 e2 e3 (openDevice_mounts hi hv hm ho))
  · rcases openDevice_registry hi hs hv hm ho with ⟨_, _, _, e, -⟩ | ⟨_, e, hx⟩ <;> cases e
    have hi' := (openDevice_keeps hi hv ho).inv
    have hm' := (State.mntData_congr hx.mounts mp).trans hm
    have he' := ((mountLabel_outcome hm' h).unbound (he.imp id (·.trans hx.mounts.symm))).1
    have hu := mountLabel_fail hi' (fun _ hx => by cases hx) h he'
    obtain ⟨e1, e2, e3⟩ := hx.unwind hi hs hi' (openDevice_shape hs hi hv ho) hm hu
    exact .inl (State.eq_of_lists e1 e2 e3 ((unwindDevice_mounts hu hm').trans hx.mounts))

theorem hammer2Mount_fail {mp : MpId} {req : MountReq} {env : MountEnv} {st : State}
    {r : MountResult} (hi : Inv st) (hs : Shape st) (hm : st.mntData mp = none)
    (h : hammer2Mount mp req env st = .ok r) (he : r.error ≠ 0) : Shrinks st r.st := by
  rcases hammer2Mount_unbound_eq hi hs hm h (.inl he) with e | ⟨d, -, -, e⟩
  · exact .of_eq (by rw [e]) (by rw [e]) (by rw [e])
  · obtain ⟨h1, h2, h3⟩ := hs.teardown_shrinks d.id
    rw [e]
    exact ⟨h1, h2, h3⟩

/-- A mount(2) call that returns an error, from a reachable state, leaves no device and no
PFS behind and changes none that it keeps: each registry list is a sublist of what it
was. -/
theorem mount_error_sublists {st : State} (h : Reachable st) (req : MountReq) (env : MountEnv)
    {r : MountResult}
    (hr : hammer2Mount st.nextId req env { st with nextId := st.nextId + 1 } = .ok r)
    (he : r.error ≠ 0) :
    r.st.mntlist.Sublist st.mntlist ∧ r.st.pfslist.Sublist st.pfslist ∧
      r.st.spmplist.Sublist st.spmplist :=
  have hi := reachable_inv h
  let ⟨h1, h2, h3⟩ := hammer2Mount_fail hi.bumpNextId ((reachable_shape h).congr rfl rfl rfl)
    hi.mntData_nextId hr he
  ⟨h1, h2, h3⟩

/-- After A, a mount of the label B, which `/dev/da0` does not have, returns ENOENT, and
its unwind tears the idle device down. -/
theorem mount_error_sublists_mountA :
    ∃ r, hammer2Mount mountAState.nextId (localMount "/dev/da0@B")
        { da0Env "B" [] with labelScan := [] } { mountAState with nextId := mountAState.nextId + 1 } =
          .ok r ∧ r.error ≠ 0 ∧
      r.st.mntlist.Sublist mountAState.mntlist ∧ r.st.pfslist.Sublist mountAState.pfslist ∧
        r.st.spmplist.Sublist mountAState.spmplist :=
  ⟨_, rfl, by decide, mount_error_sublists mountA_reachable (localMount "/dev/da0@B")
    { da0Env "B" [] with labelScan := [] } rfl (by decide)⟩

/-- A mount(2) call that returns an error, from a reachable state, undoes all it did: the
state after it is the state before it but for the address counter, or that state with one
device torn down whose mount_count was 0 (lines 885-890, 1058-1093). -/
theorem mount_error_restores {st : State} (h : Reachable st) (req : MountReq) (env : MountEnv)
    {r : MountResult}
    (hr : hammer2Mount st.nextId req env { st with nextId := st.nextId + 1 } = .ok r)
    (he : r.error ≠ 0) :
    r.st = { st with nextId := r.st.nextId } ∨
      ∃ d ∈ st.mntlist, d.mountCount = 0 ∧ r.st = { st.teardown d.id with nextId := r.st.nextId } := by
  have hi := reachable_inv h
  have e := hammer2Mount_unbound_eq hi.bumpNextId ((reachable_shape h).congr rfl rfl rfl)
    hi.mntData_nextId hr (.inl he)
  exact e

/-- The same failed mount of B after A: its unwind reaps the idle device of A. -/
theorem mount_error_restores_mountA :
    ∃ r, hammer2Mount mountAState.nextId (localMount "/dev/da0@B")
        { da0Env "B" [] with labelScan := [] } { mountAState with nextId := mountAState.nextId + 1 } =
          .ok r ∧ r.error ≠ 0 ∧
      (r.st = { mountAState with nextId := r.st.nextId } ∨ ∃ d ∈ mountAState.mntlist,
        d.mountCount = 0 ∧ r.st = { mountAState.teardown d.id with nextId := r.st.nextId }) :=
  ⟨_, rfl, by decide, mount_error_restores mountA_reachable (localMount "/dev/da0@B")
    { da0Env "B" [] with labelScan := [] } rfl (by decide)⟩

theorem map_update_of {α β : Type} {addr : α → Nat} {a : Nat} {f : α → α} {g : α → β}
    (hg : ∀ x, g (f x) = g x) (l : List α) : (update addr a f l).map g = l.map g := by
  simp only [update, List.map_map]
  exact List.map_congr_left fun x _ => by simp only [Function.comp_apply]; split <;> simp [hg]

/-- The addresses of each registry list of `st`, with the force_local and the slots of
each PFS, are a prefix of those of `st'`: nothing is freed or moved, and what is new is at
the tails. -/
structure Grows (st st' : State) : Prop where
  mntlist : (st.mntlist.map Dev.id) <+: (st'.mntlist.map Dev.id)
  pfslist : (st.pfslist.map fun p => (p.id, p.forceLocal, p.slots)) <+:
    (st'.pfslist.map fun p => (p.id, p.forceLocal, p.slots))
  spmplist : (st.spmplist.map Pfs.id) <+: (st'.spmplist.map Pfs.id)

theorem Grows.refl (st : State) : Grows st st :=
  ⟨List.prefix_refl _, List.prefix_refl _, List.prefix_refl _⟩

theorem Grows.trans {a b c : State} (h₁ : Grows a b) (h₂ : Grows b c) : Grows a c :=
  ⟨h₁.mntlist.trans h₂.mntlist, h₁.pfslist.trans h₂.pfslist, h₁.spmplist.trans h₂.spmplist⟩

theorem Grows.of_eq {st st' : State} (h1 : st'.mntlist.map Dev.id = st.mntlist.map Dev.id)
    (h2 : (st'.pfslist.map fun p => (p.id, p.forceLocal, p.slots)) =
      st.pfslist.map fun p => (p.id, p.forceLocal, p.slots))
    (h3 : st'.spmplist.map Pfs.id = st.spmplist.map Pfs.id) : Grows st st' :=
  ⟨h1 ▸ List.prefix_refl _, h2 ▸ List.prefix_refl _, h3 ▸ List.prefix_refl _⟩

theorem Grows.pfs_mem {st st' : State} (hg : Grows st st') {p : Pfs} (hp : p ∈ st.pfslist) :
    ∃ q ∈ st'.pfslist, q.id = p.id ∧ q.forceLocal = p.forceLocal ∧ q.slots = p.slots := by
  obtain ⟨q, hq, e⟩ := List.mem_map.1 (hg.pfslist.subset (List.mem_map_of_mem _ hp))
  simp only [Prod.mk.injEq] at e
  exact ⟨q, hq, e.1, e.2.1, e.2.2⟩

theorem Extends.grows {st st' : State} {hmp : DevId} (he : Extends st hmp st') : Grows st st' := by
  obtain ⟨-, ⟨d, -, -, e1⟩, ⟨p, -, e2⟩, ⟨news, e3, -⟩, -⟩ := he
  refine ⟨?_, ?_, ?_⟩ <;> simp only [e1, e2, e3, List.map_append] <;> exact List.prefix_append _ _

theorem acquirePmp_grows {d : Dev} {c : SrootChain} {pmp pmp' : Option PfsId} {st st' : State}
    (h : acquirePmp d c pmp st = .ok (pmp', st')) : Grows st st' := by
  rcases acquirePmp_cases h with ⟨rfl, -⟩ | ⟨_, -, rfl⟩
  · exact .refl _
  · exact ⟨List.prefix_refl _, by simp only [List.map_append]; exact List.prefix_append _ _,
      List.prefix_refl _⟩

theorem bindPmp_grows {mp : MpId} {devstr label : String} {hmp : Dev} {pmp : Option PfsId}
    {devvpl : List Devvp} {st : State} {r : MountResult}
    (h : bindPmp mp devstr label hmp pmp devvpl st = .ok r) (h0 : r.error = 0) : Grows st r.st := by
  rcases bindPmp_cases h with ⟨he, -⟩ | ⟨p, -, -, -, -, st', h', hr⟩
  · exact absurd h0 he
  · unfold hammer2MountHelper at h'
    rw [hr, adjustMountCounts_ok h']
    exact .of_eq (by simp [State.modifyPfs, List.map_map, Function.comp_def])
      (by simp only [State.modifyPfs]; rw [map_update_of, map_update_of] <;> exact fun _ => rfl)
      (by simp [State.modifyPfs])

theorem mountLabel_grows {mp : MpId} {devstr label : String} {hmp : DevId} {pmp : Option PfsId}
    {devvpl : List Devvp} {env : MountEnv} {st : State} {r : MountResult}
    (h : mountLabel mp devstr label hmp pmp devvpl env st = .ok r) (h0 : r.error = 0) :
    Grows st r.st := by
  obtain ⟨_, -, -, ⟨he, -⟩ | ⟨_, _, _, h1, h2⟩⟩ := mountLabel_cases h
  · exact absurd h0 he
  · exact (acquirePmp_grows h1).trans (bindPmp_grows h2 h0)

theorem hammer2Mount_grows {mp : MpId} {req : MountReq} {env : MountEnv} {st : State}
    {r : MountResult} (hi : Inv st) (hs : Shape st) (hm : st.mntData mp = none)
    (h : hammer2Mount mp req env st = .ok r) (h0 : r.error = 0) : Grows st r.st := by
  rcases hammer2Mount_cases h with ⟨e, -⟩ | ⟨_, _, _, _, _, -, h⟩ |
    ⟨_, _, _, _, ha, _, ho, ⟨_, _, _, rfl, rfl⟩ | ⟨_, _, rfl, h⟩⟩
  · exact e ▸ .refl st
  · exact mountLabel_grows h h0
  all_goals have hv := attachDevice_fresh ha
  · rcases openDevice_registry hi hs hv hm ho with ⟨_, _, _, e, e1, e2, e3⟩ | ⟨_, e, -⟩ <;>
      cases e
    exact .of_eq (by rw [e1]) (by rw [e2]) (by rw [e3])
  · rcases openDevice_registry hi hs hv hm ho with ⟨_, _, _, e, -⟩ | ⟨_, e, hx⟩ <;> cases e
    exact hx.grows.trans (mountLabel_grows h h0)

/-- A mount(2) call that returns 0, from a reachable state, frees and moves nothing: the
devices, PFSs and super-PFSs registered before are still registered, in the same order,
and whatever is new is at the tails of the lists. -/
theorem mount_ok_prefixes {st : State} (h : Reachable st) (req : MountReq) (env : MountEnv)
    {r : MountResult}
    (hr : hammer2Mount st.nextId req env { st with nextId := st.nextId + 1 } = .ok r)
    (h0 : r.error = 0) :
    (st.mntlist.map Dev.id) <+: (r.st.mntlist.map Dev.id) ∧
      (st.pfslist.map Pfs.id) <+: (r.st.pfslist.map Pfs.id) ∧
      (st.spmplist.map Pfs.id) <+: (r.st.spmplist.map Pfs.id) :=
  have hi := reachable_inv h
  let ⟨h1, h2, h3⟩ := hammer2Mount_grows hi.bumpNextId ((reachable_shape h).congr rfl rfl rfl)
    hi.mntData_nextId hr h0
  ⟨h1, by simpa only [List.map_map, Function.comp_def] using h2.map Prod.fst, h3⟩

/-- Mounting A a second time returns 0 and adds a PFS for the same entry. -/
theorem mount_ok_prefixes_mountA :
    ∃ r, hammer2Mount mountAState.nextId (localMount "/dev/da0@A") (da0Env "A" [inode "A" 5])
        { mountAState with nextId := mountAState.nextId + 1 } = .ok r ∧ r.error = 0 ∧
      (mountAState.mntlist.map Dev.id) <+: (r.st.mntlist.map Dev.id) ∧
      (mountAState.pfslist.map Pfs.id) <+: (r.st.pfslist.map Pfs.id) ∧
      (mountAState.spmplist.map Pfs.id) <+: (r.st.spmplist.map Pfs.id) :=
  ⟨_, rfl, rfl, mount_ok_prefixes mountA_reachable (localMount "/dev/da0@A")
    (da0Env "A" [inode "A" 5]) rfl rfl⟩

end Hammer2Vfs
