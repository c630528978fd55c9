import Hammer2Vfs.Basic

namespace Hammer2Vfs

/-- The fields of a PFS root's `hammer2_inode_data_t` that hammer2_pfsalloc reads. -/
structure Ripdata where
  filename : String
  pfsClid : Nat
deriving DecidableEq, Repr

/-- `pmp->pfs_names[0]`. -/
def Pfs.name0 (p : Pfs) : Option String := (p.slots.headD {}).pfsName

/-- The test of lines 176-185 by which hammer2_pfsalloc reuses a PFS. -/
def pfsMatches (forceLocal : Option DevId) (ripdata : Ripdata) (pmp : Pfs) : Bool :=
  if forceLocal != pmp.forceLocal then false
  else if forceLocal.isNone && pmp.pfsClid == ripdata.pfsClid then true
  else forceLocal.isSome && pmp.name0.any (strcmpEq · ripdata.filename)

/-- Lines 190-210: a zeroed PFS with no member and no mount. -/
def newPfs (id : PfsId) (forceLocal : Option DevId) (ripdata : Option Ripdata) : Pfs where
  id := id
  forceLocal := forceLocal
  pfsClid := (ripdata.map (·.pfsClid)).getD 0
  spmp := ripdata.isNone
  mp := none
  nchains := 0
  slots := List.replicate HAMMER2_MAXCLUSTER {}
  slots_length := List.length_replicate _ _
  fspec := none

@[simp] theorem newPfs_id (id : PfsId) (fl : Option DevId) (r : Option Ripdata) :
    (newPfs id fl r).id = id := rfl
@[simp] theorem newPfs_nchains (id : PfsId) (fl : Option DevId) (r : Option Ripdata) :
    (newPfs id fl r).nchains = 0 := rfl
@[simp] theorem newPfs_mp (id : PfsId) (fl : Option DevId) (r : Option Ripdata) :
    (newPfs id fl r).mp = none := rfl

/-- Lines 235-257: `chain` becomes member `j = nchains` of `pmp`. -/
def Pfs.attach (p : Pfs) (chain : Chain) (filename : String) : Pfs :=
  { p with
    slots := p.slots.set p.nchains
      { chain := some { chain with pmp := some p.id }, pfsName := some filename,
        pfsHmp := some chain.hmp }
    slots_length := by rw [List.length_set, p.slots_length]
    nchains := p.nchains + 1 }

/-- Lines 174-211: the PFS that `ripdata` matches, or a new one put at the tail of
`hammer2_pfslist` (of `hammer2_spmplist` for a super-PFS). -/
def pfsFindOrCreate (ripdata : Option Ripdata) (forceLocal : Option DevId) (st : State) :
    Pfs × State :=
  match ripdata.bind fun r => st.pfslist.find? (pfsMatches forceLocal r) with
  | some p => (p, st)
  | none =>
    let p := newPfs st.nextId forceLocal ripdata
    if ripdata.isSome then (p, { st with pfslist := st.pfslist ++ [p], nextId := st.nextId + 1 })
    else (p, { st with spmplist := st.spmplist ++ [p], nextId := st.nextId + 1 })

theorem pfsFindOrCreate_found {r : Ripdata} {fl : Option DevId} {st : State} {p : Pfs}
    (h : st.pfslist.find? (pfsMatches fl r) = some p) : pfsFindOrCreate (some r) fl st = (p, st) := by
  simp [pfsFindOrCreate, h]

theorem pfsFindOrCreate_new {r : Ripdata} {fl : Option DevId} {st : State}
    (h : st.pfslist.find? (pfsMatches fl r) = none) :
    pfsFindOrCreate (some r) fl st =
      (newPfs st.nextId fl (some r), { st with pfslist := st.pfslist ++ [newPfs st.nextId fl (some r)],
                                               nextId := st.nextId + 1 }) := by
  simp [pfsFindOrCreate, h]

/-- hammer2_pfsalloc: find or create the PFS for `ripdata` (the super-PFS when it is
`none`), then attach `chain` to it. Returns the PFS's address. -/
def hammer2Pfsalloc (chain : Option Chain) (ripdata : Option Ripdata)
    (forceLocal : Option DevId) (st : State) : Except Fault (PfsId × State) :=
  if forceLocal.isNone then .error (.kassert "only local mount allowed") else
  match pfsFindOrCreate ripdata forceLocal st, chain with
  | (p, st), none => .ok (p.id, st)
  | (p, st), some c =>
    if p.nchains ≠ 0 then .error (.kassert "nchains %d not 0")
    else if c.pmp.isSome then .error (.kassert "chain->pmp == NULL")
    else match ripdata with
      | none => .error .deref
      | some r =>
        let st := st.modifyPfs p.id fun q => q.attach c (cstr r.filename)
        if p.mp.isSome then (st.bumpMountCount c.hmp 1).map (p.id, ·) else .ok (p.id, st)

/-- A write to member 0 of `pmp`. -/
def Pfs.modifySlot0 (p : Pfs) (f : Slot → Slot) : Pfs :=
  { p with
    slots := p.slots.modifyHead f
    slots_length := by rw [List.length_modifyHead, p.slots_length] }

@[simp] theorem Pfs.modifySlot0_id (p : Pfs) (f : Slot → Slot) : (p.modifySlot0 f).id = p.id := rfl

/-- Lines 709-724: take the super-root's clid, and replace the root inode by one whose
cluster is the super-root chain alone; `pfs_hmps[0]` is the device. -/
def Pfs.setSuperRoot (p : Pfs) (hmp : DevId) (clid : Nat) : Pfs :=
  Pfs.modifySlot0
    { p with
      pfsClid := clid
      nchains := 1
      slots := p.slots.map fun s => { s with chain := none }
      slots_length := by rw [List.length_map, p.slots_length] }
    fun s => { s with chain := some ⟨hmp, none⟩, pfsHmp := some hmp }

@[simp] theorem Pfs.setSuperRoot_id (p : Pfs) (hmp : DevId) (clid : Nat) :
    (p.setSuperRoot hmp clid).id = p.id := rfl

/-- hammer2_pfsfree: unlink `pmp` from the list its flags name. -/
def hammer2Pfsfree (pmp : Pfs) (st : State) : Except Fault State :=
  if pmp.spmp then (tailqRemove Pfs.id pmp.id st.spmplist).map fun l => { st with spmplist := l }
  else (tailqRemove Pfs.id pmp.id st.pfslist).map fun l => { st with pfslist := l }

/-- Lines 354-358: some member of `pmp` is on `hmp`. -/
def Pfs.uses (hmp : DevId) (p : Pfs) : Bool := p.slots.any (·.pfsHmp == some hmp)

/-- Lines 370-387: clear every member on `hmp`. -/
def clearSlots (hmp : DevId) (slots : List Slot) : List Slot :=
  slots.map fun s => if s.pfsHmp = some hmp then {} else s

/-- Lines 391-393 started at `i = k - 1`: one past the first `i` downwards whose
`pfs_hmps[i]` is set, or 0. -/
def topSlotFrom (slots : List Slot) : Nat → Nat
  | 0 => 0
  | k + 1 => if (slots.getD k {}).pfsHmp.isSome then k + 1 else topSlotFrom slots k

/-- Lines 367-394: detach `hmp` from `pmp`; gaps below the last member remain. -/
def Pfs.detach (hmp : DevId) (p : Pfs) : Pfs :=
  { p with
    slots := clearSlots hmp p.slots
    slots_length := by rw [clearSlots, List.length_map, p.slots_length]
    nchains := topSlotFrom (clearSlots hmp p.slots) HAMMER2_MAXCLUSTER }

@[simp] theorem Pfs.detach_id (hmp : DevId) (p : Pfs) : (p.detach hmp).id = p.id := rfl
@[simp] theorem Pfs.detach_spmp (hmp : DevId) (p : Pfs) : (p.detach hmp).spmp = p.spmp := rfl
@[simp] theorem Pfs.detach_mp (hmp : DevId) (p : Pfs) : (p.detach hmp).mp = p.mp := rfl
@[simp] theorem Pfs.detach_slots (hmp : DevId) (p : Pfs) :
    (p.detach hmp).slots = clearSlots hmp p.slots := rfl

theorem Pfs.uses_eq_false {hmp : DevId} {p : Pfs} :
    p.uses hmp = false ↔ ∀ s ∈ p.slots, s.pfsHmp ≠ some hmp := by
  simp [Pfs.uses]

@[simp] theorem Pfs.uses_detach (hmp : DevId) (p : Pfs) : (p.detach hmp).uses hmp = false := by
  rw [Pfs.uses_eq_false]
  intro s hs
  obtain ⟨t, -, rfl⟩ := List.mem_map.1 (by simpa [clearSlots] using hs)
  split <;> simp_all

/-- What hammer2_pfsfree_scan makes of one PFS: it detaches `hmp`, and frees the PFS when
that leaves no member; a PFS with no member on `hmp` is left alone. -/
def scanOne (hmp : DevId) (p : Pfs) : Option Pfs :=
  if p.uses hmp then if (p.detach hmp).nchains = 0 then none else some (p.detach hmp)
  else some p

theorem scanOne_id {hmp : DevId} {p q : Pfs} (h : scanOne hmp p = some q) : q.id = p.id := by
  unfold scanOne at h; split_ifs at h <;> cases h <;> rfl

theorem scanOne_spmp {hmp : DevId} {p q : Pfs} (h : scanOne hmp p = some q) :
    q.spmp = p.spmp := by
  unfold scanOne at h; split_ifs at h <;> cases h <;> rfl

theorem scanOne_uses {hmp : DevId} {p q : Pfs} (h : scanOne hmp p = some q) :
    q.uses hmp = false := by
  unfold scanOne at h; split_ifs at h with hu <;> cases h <;> simp_all

theorem scanOne_idem {hmp : DevId} {p q : Pfs} (h : scanOne hmp p = some q) :
    scanOne hmp q = some q := by
  simp [scanOne, scanOne_uses h]

theorem filterMap_scanOne_idem (hmp : DevId) (l : List Pfs) :
    (l.filterMap (scanOne hmp)).filterMap (scanOne hmp) = l.filterMap (scanOne hmp) := by
  rw [List.filterMap_filterMap]
  congr 1; funext p
  cases h : scanOne hmp p with
  | none => rfl
  | some q => simp [scanOne_idem h]

theorem map_id_filterMap_scanOne (hmp : DevId) (l : List Pfs) :
    List.Sublist ((l.filterMap (scanOne hmp)).map Pfs.id) (l.map Pfs.id) := by
  rw [List.map_filterMap]
  induction l with
  | nil => simp
  | cons p ps ih =>
    cases h : scanOne hmp p
    · simpa [h] using ih.cons p.id
    · simpa [h, scanOne_id h] using ih

/-- One `TAILQ_FOREACH` of hammer2_pfsfree_scan: the list as the traversal leaves it,
and the PFS it stopped at after detaching its last member. -/
def scanPass (hmp : DevId) : List Pfs → List Pfs × Option Pfs
  | [] => ([], none)
  | p :: ps =>
    if p.uses hmp then
      if (p.detach hmp).nchains = 0 then (p.detach hmp :: ps, some (p.detach hmp))
      else ((p.detach hmp) :: (scanPass hmp ps).1, (scanPass hmp ps).2)
    else (p :: (scanPass hmp ps).1, (scanPass hmp ps).2)

theorem scanPass_none {hmp : DevId} {l l' : List Pfs} (h : scanPass hmp l = (l', none)) :
    l' = l.filterMap (scanOne hmp) := by
  induction l generalizing l' with
  | nil => simp_all [scanPass]
  | cons p ps ih =>
    rcases hr : scanPass hmp ps with ⟨l1, r1⟩
    unfold scanPass at h
    rw [hr] at h
    cases hu : p.uses hmp
    · simp only [hu, Bool.false_eq_true, ↓reduceIte, Prod.mk.injEq] at h
      simp [← h.1, ih (h.2 ▸ hr), scanOne, hu]
    · by_cases h0 : (p.detach hmp).nchains = 0
      · simp [hu, h0] at h
      · simp only [hu, h0, ↓reduceIte, Prod.mk.injEq] at h
        simp [← h.1, ih (h.2 ▸ hr), scanOne, hu, h0]

theorem scanPass_some {hmp : DevId} {l l' : List Pfs} {q : Pfs}
    (h : scanPass hmp l = (l', some q)) :
    ∃ pre p post, l = pre ++ p :: post ∧ (∀ x ∈ pre, scanOne hmp x ≠ none) ∧
      p.uses hmp ∧ q = p.detach hmp ∧ q.nchains = 0 ∧
      l' = pre.filterMap (scanOne hmp) ++ q :: post := by
  induction l generalizing l' with
  | nil => simp [scanPass] at h
  | cons p ps ih =>
    rcases hr : scanPass hmp ps with ⟨l1, r1⟩
    unfold scanPass at h
    rw [hr] at h
    cases hu : p.uses hmp
    · simp only [hu, Bool.false_eq_true, ↓reduceIte, Prod.mk.injEq] at h
      obtain ⟨pre, x, post, rfl, hpre, hx, rfl, hq, hl⟩ := ih (h.2 ▸ hr)
      refine ⟨p :: pre, x, post, rfl, ?_, hx, rfl, hq, ?_⟩
      · simpa [scanOne, hu] using hpre
      · simp [← h.1, hl, scanOne, hu]
    · by_cases h0 : (p.detach hmp).nchains = 0
      · simp only [hu, h0, ↓reduceIte, Prod.mk.injEq, Option.some.injEq] at h
        exact ⟨[], p, ps, rfl, by simp, hu, h.2.symm, h.2 ▸ h0, by simp [← h.1, ← h.2]⟩
      · simp only [hu, h0, ↓reduceIte, Prod.mk.injEq] at h
        obtain ⟨pre, x, post, rfl, hpre, hx, rfl, hq, hl⟩ := ih (h.2 ▸ hr)
        refine ⟨p :: pre, x, post, rfl, ?_, hx, rfl, hq, ?_⟩
        · simpa [scanOne, hu, h0] using hpre
        · simp [← h.1, hl, scanOne, hu, h0]

/-- The list hammer2_pfsfree_scan walks: `hammer2_pfslist` for `which = 0`,
`hammer2_spmplist` otherwise. -/
def State.wlist (st : State) (which : Nat) : List Pfs :=
  if which = 0 then st.pfslist else st.spmplist

def State.setWlist (st : State) (which : Nat) (l : List Pfs) : State :=
  if which = 0 then { st with pfslist := l } else { st with spmplist := l }

@[simp] theorem State.wlist_setWlist (st : State) (which : Nat) (l : List Pfs) :
    (st.setWlist which l).wlist which = l := by
  unfold State.wlist State.setWlist; split <;> rfl

@[simp] theorem State.setWlist_setWlist (st : State) (which : Nat) (l l' : List Pfs) :
    (st.setWlist which l).setWlist which l' = st.setWlist which l' := by
  unfold State.setWlist; split <;> rfl

@[simp] theorem State.setWlist_mntlist (st : State) (which : Nat) (l : List Pfs) :
    (st.setWlist which l).mntlist = st.mntlist := by
  unfold State.setWlist; split <;> rfl

@[simp] theorem State.setWlist_mounts (st : State) (which : Nat) (l : List Pfs) :
    (st.setWlist which l).mounts = st.mounts := by
  unfold State.setWlist; split <;> rfl

@[simp] theorem State.setWlist_nextId (st : State) (which : Nat) (l : List Pfs) :
    (st.setWlist which l).nextId = st.nextId := by
  unfold State.setWlist; split <;> rfl

theorem hammer2Pfsfree_error {q : Pfs} {st : State} {e : Fault}
    (h : hammer2Pfsfree q st = .error e) : e = .tailqRemove := by
  unfold hammer2Pfsfree at h
  split at h <;> cases hx : tailqRemove Pfs.id q.id _ <;> rw [hx] at h <;>
    simp only [Except.map, Except.error.injEq, reduceCtorEq] at h <;> exact h ▸ tailqRemove_error hx

theorem hammer2Pfsfree_sublist {q : Pfs} {st st' : State} (which : Nat)
    (h : hammer2Pfsfree q st = .ok st') :
    List.Sublist (st'.wlist which) (st.wlist which) ∧ st'.mntlist = st.mntlist ∧
      st'.mounts = st.mounts ∧ st'.nextId = st.nextId := by
  unfold hammer2Pfsfree at h
  split at h <;> obtain ⟨l, hl, rfl⟩ := Except.map_eq_ok.1 h <;> unfold State.wlist <;>
    split <;> simp [tailqRemove_sublist hl]

theorem hammer2Pfsfree_wlist {q : Pfs} {st : State} {which : Nat} {pre post : List Pfs}
    (hq : q.spmp = (which != 0)) (hpre : q.id ∉ pre.map Pfs.id) :
    hammer2Pfsfree q (st.setWlist which (pre ++ q :: post)) =
      .ok (st.setWlist which (pre ++ post)) := by
  have hr : tailqRemove Pfs.id q.id (pre ++ q :: post) = .ok (pre ++ post) :=
    tailqRemove_eq_ok.2 ⟨pre, q, post, rfl, rfl, hpre, rfl⟩
  unfold hammer2Pfsfree State.setWlist
  by_cases hw : which = 0 <;> simp_all [Except.map]

/-- hammer2_pfsfree_scan: remove `hmp` from every PFS of the list and free the PFSs
left empty, restarting the traversal after each free. The device record is returned
because the scan clears `hmp->spmp`. -/
def hammer2PfsfreeScan (hmp : Dev) (which : Nat) : State → Nat → Except Fault (Dev × State)
  | _, 0 => .error .fuel
  | st, fuel + 1 =>
    match scanPass hmp.id (st.wlist which) with
    | (l, none) => .ok (hmp, st.setWlist which l)
    | (l, some pmp) => do
      let hmp := if hmp.spmp = some pmp.id then { hmp with spmp := none } else hmp
      let st ← hammer2Pfsfree pmp (st.setWlist which l)
      hammer2PfsfreeScan hmp which st fuel

theorem scanPass_none_kept {hmp : DevId} {l l' : List Pfs} (h : scanPass hmp l = (l', none)) :
    ∀ p ∈ l, scanOne hmp p ≠ none := by
  induction l generalizing l' with
  | nil => simp
  | cons p ps ih =>
    rcases hr : scanPass hmp ps with ⟨l1, r1⟩
    unfold scanPass at h
    rw [hr] at h
    by_cases hu : p.uses hmp <;> by_cases h0 : (p.detach hmp).nchains = 0 <;>
      simp only [hu, h0, Bool.false_eq_true, ↓reduceIte, Prod.mk.injEq, reduceCtorEq,
        and_false] at h <;>
      exact List.forall_mem_cons.2 ⟨by simp [scanOne, hu, h0], ih (h.2 ▸ hr)⟩

theorem restart_wlist {hmp : DevId} {which : Nat} {pre post : List Pfs} {p : Pfs}
    (hn : ((pre ++ p :: post).map Pfs.id).Nodup)
    (hf : ∀ x ∈ pre ++ p :: post, x.spmp = (which != 0)) :
    ((pre.filterMap (scanOne hmp) ++ post).map Pfs.id).Nodup ∧
      ∀ x ∈ pre.filterMap (scanOne hmp) ++ post, x.spmp = (which != 0) := by
  have hsub : List.Sublist ((pre.filterMap (scanOne hmp) ++ post).map Pfs.id)
      ((pre ++ p :: post).map Pfs.id) := by
    simpa using (map_id_filterMap_scanOne hmp pre).append (List.sublist_cons_self _ _)
  refine ⟨hn.sublist hsub, fun x hx => ?_⟩
  rcases List.mem_append.1 hx with hx | hx
  · obtain ⟨y, hy, hxy⟩ := List.mem_filterMap.1 hx
    rw [scanOne_spmp hxy]; exact hf y (by simp [hy])
  · exact hf x (by simp [hx])

theorem hammer2PfsfreeScan_restart {hmp : Dev} {which fuel : Nat} {st : State}
    {l : List Pfs} {q : Pfs} (hn : ((st.wlist which).map Pfs.id).Nodup)
    (hf : ∀ p ∈ st.wlist which, p.spmp = (which != 0))
    (hs : scanPass hmp.id (st.wlist which) = (l, some q)) :
    ∃ pre p post, st.wlist which = pre ++ p :: post ∧ (∀ x ∈ pre, scanOne hmp.id x ≠ none) ∧
      scanOne hmp.id p = none ∧
      hammer2PfsfreeScan hmp which st (fuel + 1) =
        hammer2PfsfreeScan { hmp with spmp := if hmp.spmp = some p.id then none else hmp.spmp }
          which (st.setWlist which (pre.filterMap (scanOne hmp.id) ++ post)) fuel := by
  obtain ⟨pre, p, post, hw, hpre, hu, rfl, h0, rfl⟩ := scanPass_some hs
  rw [hw] at hn hf
  have hpn : p.id ∉ pre.map Pfs.id := by
    have := List.nodup_middle.1 (by simpa using hn)
    simp only [List.map_append, List.map_cons, List.nodup_cons, List.mem_append, not_or] at this
    exact this.1.1
  have hpre' : (p.detach hmp.id).id ∉ (pre.filterMap (scanOne hmp.id)).map Pfs.id :=
    fun hm => hpn ((map_id_filterMap_scanOne _ _).subset hm)
  have e1 : (if hmp.spmp = some p.id then { hmp with spmp := none } else hmp) =
      { hmp with spmp := if hmp.spmp = some p.id then none else hmp.spmp } := by
    split <;> rfl
  refine ⟨pre, p, post, hw, hpre, by simp [scanOne, hu, h0], ?_⟩
  conv_lhs => unfold hammer2PfsfreeScan
  rw [hs]
  simp only [bind, Except.bind, Pfs.detach_id,
    hammer2Pfsfree_wlist (by simpa using hf p (by simp)) hpre', State.setWlist_setWlist, e1]

theorem hammer2PfsfreeScan_ok {hmp hmp' : Dev} {which fuel : Nat} {st st' : State}
    (hn : ((st.wlist which).map Pfs.id).Nodup)
    (hf : ∀ p ∈ st.wlist which, p.spmp = (which != 0))
    (h : hammer2PfsfreeScan hmp which st fuel = .ok (hmp', st')) :
    st' = st.setWlist which ((st.wlist which).filterMap (scanOne hmp.id)) ∧
      hmp' = { hmp with spmp := hmp'.spmp } := by
  induction fuel generalizing hmp st with
  | zero => simp [hammer2PfsfreeScan] at h
  | succ fuel ih =>
    rcases hs : scanPass hmp.id (st.wlist which) with ⟨l, _ | q⟩
    · unfold hammer2PfsfreeScan at h
      rw [hs] at h
      simp only [Except.ok.injEq, Prod.mk.injEq] at h
      obtain ⟨rfl, rfl⟩ := h
      exact ⟨by rw [scanPass_none hs], rfl⟩
    · obtain ⟨pre, p, post, hw, -, hp, he⟩ := hammer2PfsfreeScan_restart hn hf hs
      rw [he] at h
      rw [hw] at hn hf
      obtain ⟨hn', hf'⟩ := restart_wlist hn hf
      obtain ⟨hst, hh⟩ := ih (by simpa using hn') (by simpa using hf') h
      refine ⟨?_, hh⟩
      simp [hst, hw, List.filterMap_append, filterMap_scanOne_idem, hp]

theorem hammer2PfsfreeScan_frame {hmp hmp' : Dev} {which fuel : Nat} {st st' : State}
    (h : hammer2PfsfreeScan hmp which st fuel = .ok (hmp', st')) :
    st'.mntlist = st.mntlist ∧ st'.mounts = st.mounts ∧ st'.nextId = st.nextId ∧
      hmp' = { hmp with spmp := hmp'.spmp } := by
  induction fuel generalizing hmp st with
  | zero => simp [hammer2PfsfreeScan] at h
  | succ fuel ih =>
    unfold hammer2PfsfreeScan at h
    rcases hs : scanPass hmp.id (st.wlist which) with ⟨l, _ | q⟩ <;> rw [hs] at h
    · simp only [Except.ok.injEq, Prod.mk.injEq] at h
      obtain ⟨rfl, rfl⟩ := h
      simp
    · obtain ⟨st1, h1, h2⟩ := Except.bind_eq_ok.1 h
      obtain ⟨-, e1, e2, e3⟩ := hammer2Pfsfree_sublist which h1
      obtain ⟨f1, f2, f3, f4⟩ := ih h2
      refine ⟨by simp [f1, e1], by simp [f2, e2], by simp [f3, e3], ?_⟩
      split at f4 <;> rw [f4]

theorem hammer2PfsfreeScan_error {hmp : Dev} {which fuel : Nat} {st : State} {e : Fault}
    (h : hammer2PfsfreeScan hmp which st fuel = .error e) : e = .fuel ∨ e = .tailqRemove := by
  induction fuel generalizing hmp st with
  | zero => cases h; exact .inl rfl
  | succ fuel ih =>
    unfold hammer2PfsfreeScan at h
    rcases hs : scanPass hmp.id (st.wlist which) with ⟨l, _ | q⟩ <;> rw [hs] at h
    · cases h
    · cases hf : hammer2Pfsfree q (st.setWlist which l) with
      | error e' =>
        simp only [hf, bind, Except.bind, Except.error.injEq] at h
        exact .inr (h ▸ hammer2Pfsfree_error hf)
      | ok st1 => simp only [hf, bind, Except.bind] at h; exact ih h

theorem hammer2PfsfreeScan_spmp {hmp hmp' : Dev} {which fuel : Nat} {st st' : State}
    (hs : hmp.spmp = none) (h : hammer2PfsfreeScan hmp which st fuel = .ok (hmp', st')) :
    hmp'.spmp = none := by
  induction fuel generalizing hmp st with
  | zero => cases h
  | succ fuel ih =>
    unfold hammer2PfsfreeScan at h
    rcases hscan : scanPass hmp.id (st.wlist which) with ⟨l, _ | q⟩ <;> rw [hscan] at h
    · cases h; exact hs
    · obtain ⟨st1, -, h2⟩ := Except.bind_eq_ok.1 h
      exact ih (by split <;> simp [hs]) h2

/-- The number of PFSs of a list with a member on `hmp`; each restart lowers it. -/
def usersOf (hmp : DevId) (l : List Pfs) : Nat := (l.filter (Pfs.uses hmp)).length

theorem hammer2PfsfreeScan_ne_fuel (hmp : Dev) (which : Nat) (st : State) (fuel : Nat)
    (h : usersOf hmp.id (st.wlist which) < fuel) :
    hammer2PfsfreeScan hmp which st fuel ≠ .error .fuel := by
  induction fuel generalizing hmp st with
  | zero => omega
  | succ fuel ih =>
    unfold hammer2PfsfreeScan
    rcases hs : scanPass hmp.id (st.wlist which) with ⟨l, _ | q⟩
    · simp
    · obtain ⟨pre, p, post, hw, -, hu, rfl, -, rfl⟩ := scanPass_some hs
      have hl : usersOf hmp.id (pre.filterMap (scanOne hmp.id) ++ p.detach hmp.id :: post) <
          usersOf hmp.id (st.wlist which) := by
        have h0 : usersOf hmp.id (pre.filterMap (scanOne hmp.id)) = 0 := by
          simp only [usersOf, List.length_eq_zero, List.filter_eq_nil_iff]
          intro x hx
          obtain ⟨y, -, hxy⟩ := List.mem_filterMap.1 hx
          simp [scanOne_uses hxy]
        simp only [usersOf, hw, List.filter_append, List.length_append] at h0 ⊢
        simp [List.filter_cons, hu, h0]
        omega
      cases hf : hammer2Pfsfree (p.detach hmp.id) (st.setWlist which
          (pre.filterMap (scanOne hmp.id) ++ p.detach hmp.id :: post)) with
      | error e => simp [hf, bind, Except.bind, hammer2Pfsfree_error hf]
      | ok st1 =>
        simp only [hf, bind, Except.bind]
        refine ih _ _ (Nat.lt_of_le_of_lt ?_ (Nat.lt_of_lt_of_le hl (Nat.lt_succ_iff.1 h)))
        have e1 : (if hmp.spmp = some p.id then { hmp with spmp := none }
            else hmp).id = hmp.id := by split <;> rfl
        have := ((hammer2Pfsfree_sublist which hf).1.filter (Pfs.uses hmp.id)).length_le
        simp only [Pfs.detach_id, e1]
        simpa [usersOf] using this

end Hammer2Vfs
