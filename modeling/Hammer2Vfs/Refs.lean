import Hammer2Vfs.Sweep
import Mathlib.Tactic.Ring
import Mathlib.Algebra.Order.BigOperators.Group.List

namespace Hammer2Vfs

/-- The members among `ss` whose chain is on `hmp`. -/
def chainCount (hmp : DevId) (ss : List Slot) : Nat :=
  (ss.filter fun s => s.chain.any (·.hmp == hmp)).length

/-- The members `i < nchains` of `p` whose chain is on `hmp`. -/
def Pfs.chainsOn (hmp : DevId) (p : Pfs) : Nat := chainCount hmp p.members

/-- `p` is the `mnt_data` of a live mount. -/
def State.bound (st : State) (p : Pfs) : Bool := st.mounts.any (·.data == p.id)

/-- The pairs `(pmp, i)` with `pmp` the `mnt_data` of a live mount and member `i` of
`pmp` a chain on `hmp`. -/
def State.mountRefs (st : State) (hmp : DevId) : Nat :=
  (((st.pfslist ++ st.spmplist).filter st.bound).map (Pfs.chainsOn hmp)).sum

theorem State.bound_congr {st st' : State} (h : st'.mounts = st.mounts) : st'.bound = st.bound := by
  funext p; simp [State.bound, h]

theorem State.bound_eq_of_id {st : State} {p q : Pfs} (h : p.id = q.id) : st.bound p = st.bound q := by
  simp [State.bound, h]

theorem adjustMountCounts_ok {δ : Int} {ss : List Slot} {st st' : State}
    (h : adjustMountCounts δ ss st = .ok st') :
    st' = { st with mntlist := st.mntlist.map fun d =>
      { d with mountCount := d.mountCount + δ * chainCount d.id ss } } := by
  induction ss generalizing st with
  | nil => cases h; simp [chainCount]
  | cons s ss ih =>
    unfold adjustMountCounts at h
    cases hc : s.chain with
    | none => rw [hc] at h; rw [ih h]; simp [chainCount, List.filter_cons, hc]
    | some c =>
      rw [hc] at h
      obtain ⟨st1, h1, h2⟩ := Except.bind_eq_ok.1 h
      unfold State.bumpMountCount at h1
      split at h1
      · cases h1
        rw [ih h2]
        simp only [State.modifyDev, update, List.map_map, State.mk.injEq, and_true, true_and]
        refine List.map_congr_left fun d _ => ?_
        by_cases hd : d.id = c.hmp
        · simp [chainCount, List.filter_cons, hc, hd]; ring
        · simp [chainCount, List.filter_cons, hc, hd, Ne.symm hd]
      · cases h1

theorem sum_chainsOn_bind {L : List Pfs} {b : Pfs → Bool} {p : Pfs} (hmp : DevId)
    (hn : (L.map Pfs.id).Nodup) (hp : p ∈ L) (hb : b p = false) :
    ((L.filter fun x => b x || p.id == x.id).map (Pfs.chainsOn hmp)).sum =
      ((L.filter b).map (Pfs.chainsOn hmp)).sum + p.chainsOn hmp := by
  induction L with
  | nil => simp at hp
  | cons x xs ih =>
    simp only [List.map_cons, List.nodup_cons, List.mem_map] at hn
    by_cases hx : x.id = p.id
    · have hxp : x = p := by
        rcases List.mem_cons.1 hp with rfl | hp'
        · rfl
        · exact absurd ⟨p, hp', hx.symm⟩ hn.1
      subst hxp
      have hxs : ∀ y ∈ xs, x.id ≠ y.id := fun y hy e => hn.1 ⟨y, hy, e.symm⟩
      simp [List.filter_cons, hb, List.filter_congr (fun y hy => by simp [hxs y hy] :
        ∀ y ∈ xs, (b y || x.id == y.id) = b y)]
      omega
    · have hp' : p ∈ xs := by
        rcases List.mem_cons.1 hp with rfl | hp'
        · exact absurd rfl hx
        · exact hp'
      have := ih hn.2 hp'
      cases hbx : b x <;> simp [List.filter_cons, hbx, Ne.symm hx] <;> omega

theorem mountRefs_modifyPfs {st : State} {pid : PfsId} {f : Pfs → Pfs}
    (hid : ∀ p, (f p).id = p.id) (hm : ∀ p, (f p).members = p.members) (hmp : DevId) :
    (st.modifyPfs pid f).mountRefs hmp = st.mountRefs hmp := by
  have e1 : (st.modifyPfs pid f).bound ∘ (fun p => if p.id = pid then f p else p) = st.bound := by
    funext p; simp only [Function.comp]; split <;> simp [State.modifyPfs, State.bound, hid]
  have e2 : Pfs.chainsOn hmp ∘ (fun p => if p.id = pid then f p else p) = Pfs.chainsOn hmp := by
    funext p; simp only [Function.comp]; split <;> simp [Pfs.chainsOn, hm]
  unfold State.mountRefs
  rw [show (st.modifyPfs pid f).pfslist ++ (st.modifyPfs pid f).spmplist =
    (st.pfslist ++ st.spmplist).map fun p => if p.id = pid then f p else p by
      simp [State.modifyPfs, update], List.filter_map, List.map_map, e1, e2]

theorem filter_filterMap_scanOne {L : List Pfs} {b : Pfs → Bool} {hmp : DevId}
    (hb : ∀ x y, x.id = y.id → b x = b y) (hk : ∀ x ∈ L, b x → scanOne hmp x = some x) :
    (L.filterMap (scanOne hmp)).filter b = L.filter b := by
  induction L with
  | nil => rfl
  | cons x xs ih =>
    have ih := ih fun y hy => hk y (List.mem_cons_of_mem _ hy)
    cases hs : scanOne hmp x with
    | none =>
      have : b x = false := by
        by_contra hbx; simp [hk x (List.mem_cons_self _ _) (by simpa using hbx)] at hs
      simp [List.filter_cons, hs, this, ih]
    | some y =>
      cases hbx : b x
      · simp [List.filter_cons, hs, hbx, hb y x (scanOne_id hs), ih]
      · have := hk x (List.mem_cons_self _ _) hbx
        rw [hs] at this; cases this
        simp [List.filter_cons, hs, hbx, ih]

theorem chainsOn_le_mountRefs {st : State} {p : Pfs} (hmp : DevId)
    (hp : p ∈ st.pfslist ++ st.spmplist) (hb : st.bound p) : p.chainsOn hmp ≤ st.mountRefs hmp :=
  List.le_sum_of_mem (List.mem_map_of_mem _ (List.mem_filter.2 ⟨hp, hb⟩))

/-- The members of a PFS as hammer2_pfsalloc and hammer2_pfsfree_scan leave them: a
member's device is its chain's, a named member has a device, and no member lies at or
above `nchains`. -/
structure Pfs.WF (p : Pfs) : Prop where
  hmp_chain : ∀ s ∈ p.slots, s.pfsHmp = s.chain.map (·.hmp)
  name_hmp : ∀ s ∈ p.slots, s.pfsName.isSome → s.pfsHmp.isSome
  above : ∀ i, p.nchains ≤ i → (p.slots.getD i {}).pfsHmp = none

theorem Pfs.WF.mem_members {p : Pfs} (hw : p.WF) {s : Slot} (hs : s ∈ p.slots)
    (hh : s.pfsHmp.isSome) : s ∈ p.members := by
  obtain ⟨i, hi, rfl⟩ := List.mem_iff_getElem.1 hs
  by_cases hn : p.nchains ≤ i
  · have := hw.above i hn
    simp [List.getD_eq_getElem?_getD, List.getElem?_eq_getElem hi] at this
    simp [this] at hh
  · exact List.mem_take_iff_getElem.2 ⟨i, by simp; omega, rfl⟩

theorem Pfs.WF.chainsOn_pos {p : Pfs} (hw : p.WF) {hmp : DevId} (hu : p.uses hmp) :
    0 < p.chainsOn hmp := by
  obtain ⟨s, hs, he⟩ : ∃ s ∈ p.slots, s.pfsHmp = some hmp := by simpa [Pfs.uses] using hu
  have hm := hw.mem_members hs (by simp [he])
  rw [hw.hmp_chain s hs] at he
  obtain ⟨c, hc, rfl⟩ := Option.map_eq_some'.1 he
  exact List.length_pos.2 (List.ne_nil_of_mem (List.mem_filter.2 ⟨hm, by simp [hc]⟩))

theorem Pfs.WF.nchains_pos {p : Pfs} (hw : p.WF) (hn : p.name0.isSome) : 0 < p.nchains := by
  obtain ⟨s, l, hs⟩ := List.exists_cons_of_ne_nil
    (List.ne_nil_of_length_pos (by rw [p.slots_length]; decide))
  have h1 := hw.name_hmp s (by simp [hs]) (by simpa [Pfs.name0, hs] using hn)
  refine Nat.pos_of_ne_zero fun h0 => ?_
  have := hw.above 0 (by omega)
  simp [hs] at this
  simp [this] at h1

theorem Pfs.WF.congr {p q : Pfs} (hw : p.WF) (hs : q.slots = p.slots)
    (hn : q.nchains = p.nchains) : q.WF where
  hmp_chain := hs ▸ hw.hmp_chain
  name_hmp := hs ▸ hw.name_hmp
  above := hs ▸ hn ▸ hw.above

theorem newPfs_wf (id : PfsId) (forceLocal : Option DevId) (ripdata : Option Ripdata) :
    (newPfs id forceLocal ripdata).WF where
  hmp_chain s hs := by simp [newPfs, List.mem_replicate] at hs; simp [hs]
  name_hmp s hs := by simp [newPfs, List.mem_replicate] at hs; simp [hs]
  above i _ := by
    simp only [newPfs, List.getD_eq_getElem?_getD, List.getElem?_replicate]
    split <;> rfl

theorem Pfs.WF.attach {p : Pfs} (hw : p.WF) (c : Chain) (filename : String) :
    (p.attach c filename).WF where
  hmp_chain s hs := by
    rcases List.mem_or_eq_of_mem_set hs with hs | rfl
    · exact hw.hmp_chain s hs
    · rfl
  name_hmp s hs := by
    rcases List.mem_or_eq_of_mem_set hs with hs | rfl
    · exact hw.name_hmp s hs
    · simp
  above i hi := by
    have := hw.above i (by simp [Pfs.attach] at hi; omega)
    simp only [Pfs.attach] at hi
    simp only [Pfs.attach, List.getD_eq_getElem?_getD, List.getElem?_set] at this ⊢
    rw [if_neg (by omega)]
    exact this

theorem topSlotFrom_above (slots : List Slot) (k i : Nat) (h1 : topSlotFrom slots k ≤ i)
    (h2 : i < k) : (slots.getD i {}).pfsHmp = none := by
  induction k with
  | zero => omega
  | succ k ih =>
    unfold topSlotFrom at h1
    split at h1
    · omega
    · rename_i hk
      rcases Nat.lt_succ_iff_lt_or_eq.1 h2 with h | rfl
      · exact ih h1 h
      · exact Option.not_isSome_iff_eq_none.1 hk

theorem Pfs.WF.detach {p : Pfs} (hw : p.WF) (hmp : DevId) : (p.detach hmp).WF where
  hmp_chain s hs := by
    obtain ⟨t, ht, rfl⟩ := List.mem_map.1 (by simpa [clearSlots] using hs)
    split
    · rfl
    · exact hw.hmp_chain t ht
  name_hmp s hs := by
    obtain ⟨t, ht, rfl⟩ := List.mem_map.1 (by simpa [clearSlots] using hs)
    split
    · simp
    · exact hw.name_hmp t ht
  above i hi := by
    by_cases hl : i < HAMMER2_MAXCLUSTER
    · exact topSlotFrom_above _ _ _ hi hl
    · rw [List.getD_eq_getElem?_getD, List.getElem?_eq_none (by
        simp only [Pfs.detach_slots, clearSlots, List.length_map, p.slots_length]; omega)]
      rfl

theorem scanOne_wf {hmp : DevId} {p q : Pfs} (hw : p.WF) (h : scanOne hmp p = some q) : q.WF := by
  unfold scanOne at h
  split_ifs at h <;> cases h
  · exact hw.detach hmp
  · exact hw

theorem scanOne_mp {hmp : DevId} {p q : Pfs} (h : scanOne hmp p = some q) : q.mp = p.mp := by
  unfold scanOne at h; split_ifs at h <;> cases h <;> rfl

theorem scanOne_forceLocal {hmp : DevId} {p q : Pfs} (h : scanOne hmp p = some q) :
    q.forceLocal = p.forceLocal := by
  unfold scanOne at h; split_ifs at h <;> cases h <;> rfl

theorem scanOne_slots {hmp : DevId} {p q : Pfs} (h : scanOne hmp p = some q) {s : Slot}
    (hs : s ∈ q.slots) : s = {} ∨ s ∈ p.slots := by
  unfold scanOne at h
  split_ifs at h <;> cases h
  · obtain ⟨t, ht, rfl⟩ := List.mem_map.1 (by simpa [clearSlots] using hs)
    split
    · exact .inl rfl
    · exact .inr ht
  · exact .inr hs

end Hammer2Vfs
