import Hammer2Vfs.Registry
import Hammer2Vfs.Owner

namespace Hammer2Vfs

/-- The PFS at `pid` is on `hammer2_pfslist` with no member, and no mount has it as
`mnt_data`. -/
def State.Stranded (st : State) (pid : PfsId) : Prop :=
  (∃ p ∈ st.pfslist, p.id = pid ∧ ∀ s ∈ p.slots, s.pfsHmp = none) ∧
    pid ∉ st.mounts.map Mount.data

theorem step_stranded {st st' : State} (hi : Inv st) (hs : Shape st) {pid : PfsId}
    (hp : st.Stranded pid) {op : Op} (h : step op st = .ok st') : st'.Stranded pid := by
  obtain ⟨⟨p, hp, rfl, hm⟩, hu⟩ := hp
  cases op with
  | mount req env =>
    obtain ⟨r, hr, rfl⟩ := Except.map_eq_ok.1 h
    have hs' : Shape { st with nextId := st.nextId + 1 } := hs.congr rfl rfl rfl
    rcases hammer2Mount_mounts hi.bumpNextId hi.mntData_nextId hr with ⟨x, hb⟩ | hb
    · obtain ⟨-, hg, -, -, -, hpop⟩ := hammer2Mount_binds hi.bumpNextId hs' hi.mntData_nextId hr hb
      obtain ⟨q, hq, hqid, -, hqs⟩ := hg.pfs_mem hp
      refine ⟨⟨q, hq, hqid, hqs ▸ hm⟩, ?_⟩
      rw [hb, List.map_append, List.mem_append, not_or]
      refine ⟨hu, fun hx => ?_⟩
      obtain ⟨s, hs'', hsome⟩ := hpop p hp (by simpa using hx)
      simp [hm s hs''] at hsome
    · rcases hammer2Mount_unbound_eq hi.bumpNextId hs' hi.mntData_nextId hr (.inr hb) with
        e | ⟨d, -, -, e⟩ <;> rw [e]
      · exact ⟨⟨p, hp, rfl, hm⟩, hu⟩
      · exact ⟨⟨p, List.mem_filterMap.2 ⟨p, hp, scanOne_memberless hm⟩, rfl, hm⟩, hu⟩
  | unmount mp e =>
    obtain ⟨⟨n, st''⟩, hr, rfl⟩ := Except.map_eq_ok.1 h
    exact ⟨⟨p, hammer2Unmount_memberless hi hr hp hm, rfl, hm⟩,
      fun hx => hu (List.map_subset _ (hammer2Unmount_keeps hi hr).mounts hx)⟩

theorem run_stranded {ops : List Op} {st st' : State} (h : Reachable st) {pid : PfsId}
    (hp : st.Stranded pid) (hr : run ops st = .ok st') : st'.Stranded pid := by
  induction ops generalizing st with
  | nil => cases hr; exact hp
  | cons op ops ih =>
    obtain ⟨st1, h1, h2⟩ := Except.bind_eq_ok.1 hr
    exact ih (.step op h h1) (step_stranded (reachable_inv h) (reachable_shape h) hp h1) h2

/-- A PFS with no member that no mount has is never reclaimed and never mounted again:
along every run from a reachable state it stays on hammer2_pfslist with no member, and no
mount takes it as `mnt_data`. hammer2_pfsfree frees only PFSs with a member on the device
torn down, and hammer2_pfsalloc and the label search of lines 558-568 find only PFSs with
a member. -/
theorem memberless_stranded {st : State} (h : Reachable st) {p : Pfs} (hp : p ∈ st.pfslist)
    (hm : ∀ s ∈ p.slots, s.pfsHmp = none) (hu : p.id ∉ st.mounts.map Mount.data)
    {ops : List Op} {st' : State} (hr : run ops st = .ok st') :
    (∃ q ∈ st'.pfslist, q.id = p.id ∧ ∀ s ∈ q.slots, s.pfsHmp = none) ∧
      p.id ∉ st'.mounts.map Mount.data :=
  run_stranded h ⟨⟨p, hp, rfl, hm⟩, hu⟩ hr

/-- Mounting DATA of `/dev/da0`, whose super-root also holds A, read with EIO in the scan;
then A, which binds a PFS with no member; then unmounting A, whose device DATA keeps. -/
def strandedOps : List Op :=
  [.mount (localMount "/dev/da0@DATA") (da0Env "DATA" [inode "DATA" 0, inode "A" 5]), mountA,
    .unmount 4 0]

/-- The state `strandedOps` leaves: the PFS of A, with no member, is unmounted. -/
def strandedState : State := (run strandedOps State.init).toOption.getD State.init

theorem strandedState_reachable : Reachable strandedState :=
  run_reachable .init (rfl : run strandedOps State.init = .ok strandedState)

/-- Mounting A again after that makes another PFS and leaves the first one stranded. -/
theorem memberless_stranded_mountA :
    ∃ p ∈ strandedState.pfslist, (∀ s ∈ p.slots, s.pfsHmp = none) ∧
      p.id ∉ strandedState.mounts.map Mount.data ∧ ∃ st', run [mountA] strandedState = .ok st' ∧
        (∃ q ∈ st'.pfslist, q.id = p.id ∧ ∀ s ∈ q.slots, s.pfsHmp = none) ∧
        p.id ∉ st'.mounts.map Mount.data := by
  obtain ⟨p, hp, hm, hu⟩ : ∃ p ∈ strandedState.pfslist, (∀ s ∈ p.slots, s.pfsHmp = none) ∧
      p.id ∉ strandedState.mounts.map Mount.data := by decide
  exact ⟨p, hp, hm, hu, _, rfl,
    @memberless_stranded strandedState strandedState_reachable p hp hm hu [mountA] _ rfl⟩

end Hammer2Vfs
