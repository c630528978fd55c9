import Hammer2Vfs.FreeScan
import Hammer2Vfs.Register

namespace Hammer2Vfs

/-- `p` is the super-PFS of the device `hmp` (lines 659-661 and 709-724): `pfs_hmps[0]`
is `hmp`, no slot names another device, and a chain sits on the device its slot names. -/
structure Pfs.SuperOf (p : Pfs) (hmp : DevId) : Prop where
  slot0 : (p.slots.getD 0 {}).pfsHmp = some hmp
  only : ∀ s ∈ p.slots, ∀ h ∈ s.pfsHmp, h = hmp
  chain : ∀ s ∈ p.slots, ∀ c ∈ s.chain, s.pfsHmp = some c.hmp

/-- How the registry is laid out between two VFS operations: device `i` of
`hammer2_mntlist` and PFS `i` of `hammer2_spmplist` are a device and its super-PFS, and
every PFS of `hammer2_pfslist` has at most one member, on the registered device its
`force_local` names. -/
structure Shape (st : State) : Prop where
  spmp : List.Forall₂ (fun d p => d.spmp = some p.id ∧ p.SuperOf d.id) st.mntlist st.spmplist
  single : ∀ p ∈ st.pfslist, p.nchains ≤ 1
  local_dev : ∀ p ∈ st.pfslist, ∀ s ∈ p.slots, ∀ h ∈ s.pfsHmp,
    p.forceLocal = some h ∧ h ∈ st.mntlist.map Dev.id

theorem Shape.init : Shape State.init := ⟨.nil, by simp [State.init], by simp [State.init]⟩

theorem Pfs.slot0_mem (p : Pfs) : p.slots.getD 0 {} ∈ p.slots := by
  rw [List.getD_eq_getElem?_getD, List.getElem?_eq_getElem (by rw [p.slots_length]; decide)]
  exact List.getElem_mem _

theorem Pfs.SuperOf.congr {p q : Pfs} {hmp : DevId} (hs : p.SuperOf hmp) (h : q.slots = p.slots) :
    q.SuperOf hmp := ⟨h ▸ hs.slot0, h ▸ hs.only, h ▸ hs.chain⟩

theorem Pfs.SuperOf.scanOne_eq {p : Pfs} {hmp h : DevId} (hs : p.SuperOf hmp) :
    scanOne h p = if hmp = h then none else some p := by
  by_cases e : hmp = h
  · subst e
    rw [if_pos rfl, scanOne_eq_none_iff]
    refine ⟨List.any_eq_true.2 ⟨_, p.slot0_mem, by simp only [hs.slot0, beq_self_eq_true]⟩, fun s hs' hh => ?_⟩
    obtain ⟨h', hh'⟩ := Option.isSome_iff_exists.1 hh
    rw [hh', hs.only s hs' h' hh']
  · have hu : p.uses h = false := Pfs.uses_eq_false.2 fun s hs' hh => e (hs.only s hs' h hh).symm
    simp [scanOne, hu, e]

theorem newPfs_superOf (id : PfsId) (h : DevId) :
    ((newPfs id (some h) none).modifySlot0 fun s => { s with pfsHmp := some h }).SuperOf h := by
  refine ⟨rfl, fun s hs h' hh => ?_, fun s hs c hc => ?_⟩ <;>
    simp only [newPfs, Pfs.modifySlot0, HAMMER2_MAXCLUSTER, List.replicate_succ,
      List.modifyHead_cons, List.mem_cons, List.mem_replicate] at hs <;>
    rcases hs with rfl | ⟨-, rfl⟩ <;> simp_all

theorem Pfs.SuperOf.setSuperRoot {p : Pfs} {hmp : DevId} (hs : p.SuperOf hmp) (clid : Nat) :
    (p.setSuperRoot hmp clid).SuperOf hmp := by
  obtain ⟨s0, rest, e⟩ : ∃ s0 rest, p.slots = s0 :: rest :=
    List.exists_cons_of_ne_nil (List.ne_nil_of_length_pos (by rw [p.slots_length]; decide))
  have hrest : ∀ t ∈ rest, ∀ h ∈ t.pfsHmp, h = hmp := fun t ht => hs.only t (by simp [e, ht])
  refine ⟨by simp [Pfs.setSuperRoot, Pfs.modifySlot0, e], fun s hs' h hh => ?_,
    fun s hs' c hc => ?_⟩ <;>
    simp only [Pfs.setSuperRoot, Pfs.modifySlot0, e, List.map_cons, List.modifyHead_cons,
      List.mem_cons, List.mem_map] at hs' <;>
    rcases hs' with rfl | ⟨t, ht, rfl⟩
  · simpa using hh.symm
  · exact hrest t ht h hh
  · simp only [Option.mem_def, Option.some.injEq] at hc; simp [← hc]
  · simp at hc

theorem forall₂_filter_filterMap {α β : Type} {R : α → β → Prop} {P : α → Bool}
    {f : β → Option β} (hf : ∀ a b, R a b → f b = if P a then some b else none) :
    ∀ {l₁ : List α} {l₂ : List β}, List.Forall₂ R l₁ l₂ →
      List.Forall₂ R (l₁.filter P) (l₂.filterMap f)
  | _, _, .nil => .nil
  | a :: _, b :: _, .cons hab h => by
    have ih := forall₂_filter_filterMap hf h
    rw [List.filter_cons, List.filterMap_cons, hf a b hab]
    by_cases hp : P a <;> simp [hp, hab, ih]

theorem forall₂_exists_of_mem {α β : Type} {R : α → β → Prop} :
    ∀ {l₁ : List α} {l₂ : List β}, List.Forall₂ R l₁ l₂ → ∀ a ∈ l₁, ∃ b ∈ l₂, R a b
  | _, _, .nil => fun _ h => absurd h (List.not_mem_nil _)
  | _, _, .cons hab h => fun a ha => by
    rcases List.mem_cons.1 ha with rfl | ha
    · exact ⟨_, List.mem_cons_self _ _, hab⟩
    · obtain ⟨b, hb, r⟩ := forall₂_exists_of_mem h a ha
      exact ⟨b, List.mem_cons_of_mem _ hb, r⟩

theorem forall₂_exists_of_mem_right {α β : Type} {R : α → β → Prop} {l₁ : List α} {l₂ : List β}
    (h : List.Forall₂ R l₁ l₂) : ∀ b ∈ l₂, ∃ a ∈ l₁, R a b :=
  forall₂_exists_of_mem (R := flip R) (List.Forall₂.flip (R := flip R) h)

theorem Shape.congr {st st' : State} (hs : Shape st) (h1 : st'.mntlist = st.mntlist)
    (h2 : st'.pfslist = st.pfslist) (h3 : st'.spmplist = st.spmplist) : Shape st' := by
  obtain ⟨a, b, c⟩ := hs
  exact ⟨by rw [h1, h3]; exact a, by rw [h2]; exact b, by rw [h1, h2]; exact c⟩

section
variable {st : State} (hs : Shape st)
include hs

theorem Shape.spmp_of_mem {d : Dev} (hd : d ∈ st.mntlist) :
    ∃ p ∈ st.spmplist, d.spmp = some p.id ∧ p.SuperOf d.id :=
  forall₂_exists_of_mem hs.spmp d hd

theorem Shape.scanOne_pfslist {p : Pfs} (hp : p ∈ st.pfslist) (h : DevId) :
    scanOne h p = if p.uses h then none else some p := by
  by_cases hu : p.uses h
  · rw [if_pos hu, scanOne_eq_none_iff]
    obtain ⟨s, hs0, e⟩ := List.any_eq_true.1 hu
    have hfl := (hs.local_dev p hp s hs0 h (by simpa using e)).1
    refine ⟨hu, fun s' hs' hh => ?_⟩
    obtain ⟨h', hh'⟩ := Option.isSome_iff_exists.1 hh
    rw [hh', Option.some.inj (hfl.symm.trans (hs.local_dev p hp s' hs' h' hh').1)]
  · simp [scanOne, hu]

theorem Shape.teardown (hmp : DevId) : Shape (st.teardown hmp) where
  spmp := forall₂_filter_filterMap (fun d p hdp => by
    rw [hdp.2.scanOne_eq]; by_cases e : d.id = hmp <;> simp [e]) hs.spmp
  single := List.forall_mem_filterMap.2 fun p hp q hq => by
    rw [hs.scanOne_pfslist hp] at hq
    split at hq
    · cases hq
    · cases hq; exact hs.single p hp
  local_dev := List.forall_mem_filterMap.2 fun p hp q hq => by
    rw [hs.scanOne_pfslist hp] at hq
    split at hq
    · cases hq
    · rename_i hu
      cases hq
      intro s hs' h hh
      obtain ⟨hfl, hm⟩ := hs.local_dev p hp s hs' h hh
      obtain ⟨d, hd, rfl⟩ := List.mem_map.1 hm
      have hne : d.id ≠ hmp := fun e =>
        hu (List.any_eq_true.2 ⟨s, hs', by simp [← e, Option.mem_def.1 hh]⟩)
      exact ⟨hfl, List.mem_map.2 ⟨d, List.mem_filter.2 ⟨hd, by simpa using hne⟩, rfl⟩⟩

theorem Shape.mapDev {f : Dev → Dev} (hf : ∀ d, (f d).id = d.id ∧ (f d).spmp = d.spmp) :
    Shape { st with mntlist := st.mntlist.map f } := by
  have e : (st.mntlist.map f).map Dev.id = st.mntlist.map Dev.id := by
    rw [List.map_map]; exact List.map_congr_left fun d _ => (hf d).1
  refine ⟨List.forall₂_map_left_iff.2 (hs.spmp.imp fun d p h => ?_), hs.single, ?_⟩
  · rw [(hf d).1, (hf d).2]; exact h
  · intro p hp s hs' h hh
    obtain ⟨hfl, hm⟩ := hs.local_dev p hp s hs' h hh
    exact ⟨hfl, by simpa only [e] using hm⟩

theorem Shape.modifyPfs (pid : PfsId) {f : Pfs → Pfs}
    (hf : ∀ p, (f p).id = p.id ∧ (f p).slots = p.slots ∧ (f p).nchains = p.nchains ∧
      (f p).forceLocal = p.forceLocal) : Shape (st.modifyPfs pid f) := by
  have hg : ∀ p, (if p.id = pid then f p else p).id = p.id ∧
      (if p.id = pid then f p else p).slots = p.slots ∧
      (if p.id = pid then f p else p).nchains = p.nchains ∧
      (if p.id = pid then f p else p).forceLocal = p.forceLocal := fun p => by
    split
    · exact hf p
    · exact ⟨rfl, rfl, rfl, rfl⟩
  refine ⟨List.forall₂_map_right_iff.2 (hs.spmp.imp fun d p h => ?_), fun q hq => ?_,
    fun q hq => ?_⟩
  · exact ⟨by rw [(hg p).1]; exact h.1, h.2.congr (hg p).2.1⟩
  · obtain ⟨p, hp, rfl⟩ := mem_update.1 hq
    exact (hg p).2.2.1 ▸ hs.single p hp
  · obtain ⟨p, hp, rfl⟩ := mem_update.1 hq
    rw [(hg p).2.1, (hg p).2.2.2]
    exact hs.local_dev p hp

theorem Shape.addDev (hmp : Dev) (p : Pfs) (hd : hmp.spmp = some p.id) (hsup : p.SuperOf hmp.id)
    (n : Nat) :
    Shape { st with mntlist := st.mntlist ++ [hmp], spmplist := st.spmplist ++ [p], nextId := n } :=
  ⟨List.rel_append hs.spmp (.cons ⟨hd, hsup⟩ .nil), hs.single, fun q hq s hs' h hh =>
    let ⟨hfl, hm⟩ := hs.local_dev q hq s hs' h hh
    ⟨hfl, by rw [List.map_append]; exact List.mem_append_left _ hm⟩⟩

theorem Shape.appendPfs {p : Pfs} (hn : p.nchains ≤ 1)
    (hl : ∀ s ∈ p.slots, ∀ h ∈ s.pfsHmp, p.forceLocal = some h ∧ h ∈ st.mntlist.map Dev.id)
    (n : Nat) : Shape { st with pfslist := st.pfslist ++ [p], nextId := n } :=
  ⟨hs.spmp, List.forall_mem_append.2 ⟨hs.single, List.forall_mem_singleton.2 hn⟩,
    List.forall_mem_append.2 ⟨hs.local_dev, List.forall_mem_singleton.2 hl⟩⟩

theorem Shape.modifySpmp (hi : Inv st) (pid : PfsId) (hp : pid ∈ st.spmplist.map Pfs.id)
    {f : Pfs → Pfs} (hf : ∀ d ∈ st.mntlist, d.spmp = some pid → ∀ p, p.SuperOf d.id →
      (f p).id = p.id ∧ (f p).SuperOf d.id) :
    Shape (st.modifyPfs pid f) := by
  have hp' : pid ∉ st.pfslist.map Pfs.id := fun h =>
    List.disjoint_of_nodup_append (List.map_append Pfs.id _ _ ▸ hi.pfs_nodup) h hp
  have e : st.modifyPfs pid f = { st with spmplist := update Pfs.id pid f st.spmplist } := by
    simp [State.modifyPfs, update_of_not_mem hp']
  rw [e]
  refine ⟨List.forall₂_map_right_iff.2
    (((List.forall₂_and_left _ _).2 ⟨fun _ h => h, hs.spmp⟩).imp fun d p ⟨hd, h⟩ => ?_),
    hs.single, hs.local_dev⟩
  split
  · rename_i e
    obtain ⟨h1, h2⟩ := hf d hd (e ▸ h.1) p h.2
    exact ⟨by rw [h1]; exact h.1, h2⟩
  · exact h

theorem Shape.linkNewDev (hi : Inv st) {hmp : Dev} (hid : hmp.id = st.nextId)
    (devvpl : List Devvp) : Shape (linkDev hmp devvpl { st with nextId := st.nextId + 1 }) := by
  have hf := hi.succ_not_mem
  simp only [List.map_append, List.mem_append, not_or] at hf
  exact (hs.addDev { hmp with devvpList := devvpl, spmp := some (st.nextId + 1) } _ rfl
    (newPfs_superOf (st.nextId + 1) hmp.id) (st.nextId + 2)).congr
    (linkDev_mntlist devvpl (hid ▸ hi.nextId_not_dev)) (linkDev_pfslist _ _ hf.1)
    (linkDev_spmplist _ _ hf.2)

theorem unmountHelperDev_shape (hi : Inv st) {d : Dev} (hd : d ∈ st.mntlist) {st' : State}
    (h : unmountHelperDev d st = .ok st') : Shape st' := by
  by_cases h0 : d.mountCount = 0
  · rw [unmountHelperDev_idle hi hd h0 h]
    exact hs.teardown d.id
  · simp only [unmountHelperDev, h0, ne_eq, not_false_eq_true, ↓reduceIte,
      Except.ok.injEq] at h
    exact h ▸ hs

end

theorem adjustMountCounts_shape {δ : Int} {ss : List Slot} {st st' : State}
    (h : adjustMountCounts δ ss st = .ok st') (hs : Shape st) : Shape st' := by
  rw [adjustMountCounts_ok h]
  exact hs.mapDev fun _ => ⟨rfl, rfl⟩

theorem unmountSweep_shape {fuel : Nat} {st st' : State} (hi : Inv st) (hs : Shape st)
    (h : unmountSweep fuel st = .ok st') : Shape st' :=
  unmountSweep_rel (R := fun a b => Shape a → Shape b) (fun _ => id)
    (fun hab hbc ha => hbc (hab ha)) (fun _ _ _ ha => ha.teardown _) hi h hs

section
variable {st : State} (hs : Shape st)
include hs

theorem hammer2Unmount_shape (hi : Inv st) {mp : MpId} {e r : Nat} {st' : State}
    (h : hammer2Unmount mp e st = .ok (r, st')) : Shape st' := by
  rcases hammer2Unmount_eq h with ⟨rfl, -⟩ | ⟨pmp, hp, hpid, st1, h1, h2⟩
  · exact hs
  · exact unmountSweep_shape (hi.unbind hpid hp h1)
      (adjustMountCounts_shape h1 (hs.congr rfl rfl rfl)) h2

theorem unwindDevice_shape (hi : Inv st) {mp : MpId} {hmp : DevId} {st' : State}
    (h : unwindDevice mp hmp st = .ok st') : Shape st' := by
  unfold unwindDevice at h
  split at h
  · cases h
  rename_i d hd
  have hd' := List.mem_of_find?_eq_some hd
  obtain ⟨st1, h1, h2⟩ := Except.bind_eq_ok.1 h
  obtain ⟨⟨r, st2⟩, h3, h4⟩ := Except.bind_eq_ok.1 h2
  cases h4
  exact hammer2Unmount_shape (unmountHelperDev_shape hs hi hd' h1)
    (unmountHelperDev_keeps hi hd' h1).inv h3

theorem updatePmpsLoop_shape (hi : Inv st) {hmp : DevId} (hd : hmp ∈ st.mntlist.map Dev.id)
    {cs : List SrootChain} {st' : State} (h : updatePmpsLoop hmp (some hmp) cs st = .ok st') :
    Shape st' := by
  induction cs generalizing st with
  | nil => cases h; exact hs
  | cons c cs ih =>
    unfold updatePmpsLoop at h
    split_ifs at h
    · obtain ⟨⟨pid, st1⟩, h1, h2⟩ := Except.bind_eq_ok.1 h
      obtain ⟨-, rfl⟩ := hammer2Pfsalloc_chain hi.wf hi.nextId_not_mem h1
      have hlt : hmp < st.nextId := by
        obtain ⟨d, hdm, e⟩ := List.mem_map.1 hd
        exact e ▸ hi.dev_fresh d hdm
      refine ih (hs.appendPfs (by simp [Pfs.attach]) (fun s hs' h hh => ?_) _)
        (hi.appendChainPfs _ hlt fun h hh => Option.mem_some_iff.1 hh ▸ hlt) hd h2
      rcases List.mem_or_eq_of_mem_set hs' with hs' | rfl
      · simp [newPfs, List.mem_replicate] at hs'; simp [hs'] at hh
      · obtain rfl := Option.mem_some_iff.1 hh
        exact ⟨rfl, hd⟩
    · exact ih hs hi hd h
    · exact ih hs hi hd h

theorem registerDevice_shape (hi : Inv st) {mp : MpId} {hmp : Dev} {env : MountEnv}
    {devvpl : List Devvp} {r : OpenResult} (hid : hmp.id = st.nextId) (h0 : hmp.mountCount = 0)
    (hne : devvpl ≠ [])
    (hv : ∀ e ∈ devvpl, ∀ d ∈ st.mntlist, ∀ e' ∈ d.devvpList, e'.aliases e = false)
    (h : registerDevice mp hmp env devvpl { st with nextId := st.nextId + 1 } = .ok r) :
    Shape r.state := by
  obtain ⟨hl, ⟨st', rfl, h'⟩ | ⟨clid, st', rfl, h'⟩⟩ := registerDevice_cases h
  · exact unwindDevice_shape (hs.linkNewDev hi hid devvpl) (hi.linkDev devvpl hid h0 hl hne hv) h'
  have hi3 := hi.linkDev devvpl hid h0 hl hne hv
  have hf := hi.succ_not_mem
  simp only [List.map_append, List.mem_append, not_or] at hf
  have hml : (linkDev hmp devvpl { st with nextId := st.nextId + 1 }).mntlist = _ :=
    linkDev_mntlist devvpl (hid ▸ hi.nextId_not_dev)
  have hs4 := (hs.linkNewDev hi hid devvpl).modifySpmp hi3 _ (f := fun p => p.setSuperRoot hmp.id clid)
    (linkDev_spmp_mem _ _ _) fun d hd hsp p hp => by
      rw [hml] at hd
      rcases List.mem_append.1 hd with hd | hd
      · obtain ⟨q, hq, hdq, -⟩ := hs.spmp_of_mem hd
        rw [hsp, Option.some.injEq] at hdq
        exact absurd (List.mem_map_of_mem Pfs.id hq) (hdq ▸ hf.2)
      · rw [List.mem_singleton.1 hd] at hp ⊢
        exact ⟨rfl, hp.setSuperRoot _⟩
  rw [hammer2UpdatePmps, show hmp.forceLocal = some hmp.id from if_pos hl] at h'
  exact updatePmpsLoop_shape hs4 (hi.linkSuperRoot devvpl hid h0 hl hne hv clid)
    (by simp [State.modifyPfs, hml]) h'

theorem openDevice_shape (hi : Inv st) {mp : MpId} {args : MountInfo} {env : MountEnv}
    {devvpl : List Devvp} {r : OpenResult} (hv : ∀ e ∈ devvpl, vfsMountedon st env e = 0)
    (h : openDevice mp args env devvpl st = .ok r) : Shape r.state := by
  rcases openDevice_cases hi h with ⟨_, rfl, -⟩ | ⟨_, rfl, -⟩ | ⟨hne, h⟩
  · exact hs
  · exact hs.congr rfl rfl rfl
  · exact registerDevice_shape hs hi rfl rfl hne (fun e he => vfsMountedon_eq_zero (hv e he)) h

theorem acquirePmp_shape {d : Dev} {c : SrootChain} {pmp pmp' : Option PfsId} {st' : State}
    (h : acquirePmp d c pmp st = .ok (pmp', st')) : Shape st' := by
  rcases acquirePmp_cases h with ⟨rfl, -⟩ | ⟨_, -, rfl⟩
  · exact hs
  · refine hs.appendPfs (by simp) (fun s hs' h hh => ?_) _
    simp [newPfs, List.mem_replicate] at hs'
    simp [hs'] at hh

theorem bindPmp_shape (hi : Inv st) {mp : MpId} {devstr label : String} {hmp : Dev}
    {pmp : Option PfsId} {devvpl : List Devvp} {r : MountResult}
    (h : bindPmp mp devstr label hmp pmp devvpl st = .ok r) : Shape r.st := by
  rcases bindPmp_cases h with ⟨-, h', -⟩ | ⟨p, -, -, -, -, st', h', hr⟩
  · exact unwindDevice_shape hs hi h'
  · have hs0 : Shape { st with mounts := st.mounts ++ [{ mp, data := p.id }] } :=
      hs.congr rfl rfl rfl
    rw [hr]
    exact (adjustMountCounts_shape h' (hs0.modifyPfs p.id (f := fun q => { q with mp := some mp })
      fun _ => ⟨rfl, rfl, rfl, rfl⟩)).modifyPfs _ fun _ => ⟨rfl, rfl, rfl, rfl⟩

theorem mountLabel_shape (hi : Inv st) {mp : MpId} {devstr label : String} {hmp : DevId}
    {pmp : Option PfsId} {devvpl : List Devvp} {env : MountEnv} {r : MountResult}
    (hp : ∀ x ∈ pmp, x ∈ st.pfslist.map Pfs.id)
    (h : mountLabel mp devstr label hmp pmp devvpl env st = .ok r) : Shape r.st := by
  obtain ⟨d, hd, -, ⟨-, h'⟩ | ⟨c, pmp', st1, h1, h2⟩⟩ := mountLabel_cases h
  · exact unwindDevice_shape hs hi h'
  · exact bindPmp_shape (acquirePmp_shape hs h1) (acquirePmp_keeps hi hd hp h1).1.inv h2

theorem hammer2Mount_shape (hi : Inv st) {mp : MpId} {req : MountReq} {env : MountEnv}
    {r : MountResult} (h : hammer2Mount mp req env st = .ok r) : Shape r.st := by
  rcases hammer2Mount_cases h with ⟨e, -⟩ | ⟨_, _, _, _, _, ha, h⟩ |
    ⟨_, _, _, _, ha, _, ho, ⟨_, _, _, rfl, rfl⟩ | ⟨_, _, rfl, h⟩⟩
  · exact e ▸ hs
  · exact mountLabel_shape hs hi (attachDevice_found ha) h
  · exact openDevice_shape hs hi (attachDevice_fresh ha) ho
  · exact mountLabel_shape (openDevice_shape hs hi (attachDevice_fresh ha) ho)
      (openDevice_keeps hi (attachDevice_fresh ha) ho).inv (fun _ hx => by cases hx) h

theorem step_shape (hi : Inv st) {op : Op} {st' : State} (h : step op st = .ok st') : Shape st' := by
  cases op with
  | mount req env =>
    obtain ⟨r, hr, rfl⟩ := Except.map_eq_ok.1 h
    have hs' : Shape { st with nextId := st.nextId + 1 } := hs.congr rfl rfl rfl
    exact hammer2Mount_shape hs' hi.bumpNextId hr
  | unmount mp e =>
    obtain ⟨⟨n, st''⟩, hr, rfl⟩ := Except.map_eq_ok.1 h
    exact hammer2Unmount_shape hs hi hr

end

theorem reachable_shape {st : State} (h : Reachable st) : Shape st := by
  induction h with
  | init => exact Shape.init
  | step op hr hs ih => exact step_shape ih (reachable_inv hr) hs

/-- The state that mounting DATA and ROOT of `/dev/da0` leaves. -/
def twoLabelsState : State := (run twoLabels State.init).toOption.getD State.init

theorem twoLabels_reachable : Reachable twoLabelsState :=
  run_reachable .init (rfl : run twoLabels State.init = .ok twoLabelsState)

/-- The state that mounting DATA of `/dev/da0` and of `/dev/da1` leaves. -/
def twoDevicesState : State := (run twoDevices State.init).toOption.getD State.init

theorem twoDevices_reachable : Reachable twoDevicesState :=
  run_reachable .init (rfl : run twoDevices State.init = .ok twoDevicesState)

/-- The state that mounting A leaves: its device registered with mount_count 0. -/
def mountAState : State := (run [mountA] State.init).toOption.getD State.init

theorem mountA_reachable : Reachable mountAState :=
  run_reachable .init (rfl : run [mountA] State.init = .ok mountAState)

/-- In every reachable state device `i` of `hammer2_mntlist` and PFS `i` of
`hammer2_spmplist` are a device and its super-PFS: `hmp->spmp` names the PFS, whose
`pfs_hmps[0]` is the device and whose other slots name no other device. -/
theorem reachable_spmp_pairing {st : State} (h : Reachable st) :
    List.Forall₂ (fun d p => d.spmp = some p.id ∧ p.SuperOf d.id) st.mntlist st.spmplist :=
  (reachable_shape h).spmp

theorem reachable_spmp_pairing_twoLabels :
    List.Forall₂ (fun d p => d.spmp = some p.id ∧ p.SuperOf d.id)
      twoLabelsState.mntlist twoLabelsState.spmplist :=
  reachable_spmp_pairing twoLabels_reachable

/-- In every reachable state a PFS of `hammer2_pfslist` has at most one member, and a
slot of it names only the device its `force_local` names, which is registered. -/
theorem reachable_pfs_local {st : State} (h : Reachable st) :
    ∀ p ∈ st.pfslist, p.nchains ≤ 1 ∧ ∀ s ∈ p.slots, ∀ hmp ∈ s.pfsHmp,
      p.forceLocal = some hmp ∧ hmp ∈ st.mntlist.map Dev.id :=
  fun p hp => ⟨(reachable_shape h).single p hp, (reachable_shape h).local_dev p hp⟩

theorem reachable_pfs_local_twoLabels :
    twoLabelsState.pfslist.length = 2 ∧
      ∀ p ∈ twoLabelsState.pfslist, p.nchains ≤ 1 ∧ ∀ s ∈ p.slots, ∀ hmp ∈ s.pfsHmp,
        p.forceLocal = some hmp ∧ hmp ∈ twoLabelsState.mntlist.map Dev.id :=
  ⟨rfl, reachable_pfs_local twoLabels_reachable⟩

end Hammer2Vfs
