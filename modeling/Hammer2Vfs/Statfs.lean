import Hammer2Vfs.Footprint

namespace Hammer2Vfs

/-- The two fields of `mp->mnt_stat` hammer2_statfs reads; lines 850-851 set both before
the statfs of line 857. -/
structure MntStat where
  fBsize : Nat
  fIosize : Nat
deriving DecidableEq, Repr

/-- The fields of `hmp->voldata` hammer2_statfs reads. -/
structure Voldata where
  allocatorSize : Nat
  allocatorFree : Nat
deriving DecidableEq, Repr

/-- The fields of `struct statfs` hammer2_statfs fills in before copy_statfs_info. -/
structure Statfs where
  fBsize : Nat
  fIosize : Nat
  fBlocks : Nat
  fBfree : Nat
  fBavail : Nat
  fFiles : Nat
  fFfree : Nat
  fFavail : Nat
deriving DecidableEq, Repr

/-- hammer2_statfs, with the volume header of each device and the inode count of each root
chain (`chain->bref.embed.stats.inode_count`) as the media has them. -/
def hammer2Statfs (mp : MpId) (stat : MntStat) (voldata : DevId → Voldata)
    (inodeCount : Chain → Nat) (st : State) : Except Fault (Nat × Option Statfs) :=
  match st.mntData mp with
  | none => .error .deref
  | some pid =>
    match st.findPfs pid with
    | none => .error .deref
    | some pmp =>
      if stat.fIosize = 0 then .error (.kassert "mp->mnt_stat.f_iosize > 0")
      else if stat.fBsize = 0 then .error (.kassert "mp->mnt_stat.f_bsize > 0")
      else match (pmp.slots.getD 0 {}).pfsHmp with
        | none => .ok (EINVAL, none)
        | some hmp =>
          if hmp ∉ st.mntlist.map Dev.id then .error .deref else
          let bfree := (voldata hmp).allocatorFree / stat.fBsize
          .ok (0, some ⟨stat.fBsize, stat.fIosize, (voldata hmp).allocatorSize / stat.fBsize,
            bfree, bfree, ((pmp.slots.getD 0 {}).chain.map inodeCount).getD 0, 0, 0⟩)

/-- In every reachable state hammer2_statfs of a live mount, with positive block sizes,
never faults: it returns EINVAL, as it does for every PFS with no member, or 0 with the
counts of the volume header of the registered device that the PFS's `force_local` names. -/
theorem hammer2Statfs_mounted {st : State} (h : Reachable st) {mp : MpId} {pid : PfsId}
    (hm : st.mntData mp = some pid) {stat : MntStat} (hb : 0 < stat.fBsize)
    (hio : 0 < stat.fIosize) (voldata : DevId → Voldata) (inodeCount : Chain → Nat) :
    ∃ p ∈ st.pfslist, p.id = pid ∧
      (p.nchains = 0 → hammer2Statfs mp stat voldata inodeCount st = .ok (EINVAL, none)) ∧
      (hammer2Statfs mp stat voldata inodeCount st = .ok (EINVAL, none) ∨
        ∃ hmp ∈ st.mntlist.map Dev.id, p.forceLocal = some hmp ∧ ∃ sb,
          hammer2Statfs mp stat voldata inodeCount st = .ok (0, some sb) ∧
          sb.fBlocks = (voldata hmp).allocatorSize / stat.fBsize ∧
          sb.fBfree = (voldata hmp).allocatorFree / stat.fBsize) := by
  have hi := reachable_inv h
  obtain ⟨m, hmf, rfl⟩ := Option.map_eq_some'.1 hm
  obtain ⟨p, hp, hpd, -⟩ := hi.bound m (List.mem_of_find?_eq_some hmf)
  have hf : st.findPfs m.data = some p :=
    hpd ▸ find?_addr hi.pfs_nodup (List.mem_append_left _ hp)
  refine ⟨p, hp, hpd, fun h0 => ?_, ?_⟩
  · have h0' : (p.slots.getD 0 {}).pfsHmp = none := (hi.wf p hp).above 0 h0.le
    simp only [hammer2Statfs, hm, hf, hb.ne', hio.ne', h0', ↓reduceIte]
  cases hh : (p.slots.getD 0 {}).pfsHmp with
  | none => exact .inl (by simp only [hammer2Statfs, hm, hf, hb.ne', hio.ne', hh, ↓reduceIte])
  | some hmp =>
    obtain ⟨hfl, hreg⟩ := (reachable_shape h).local_dev p hp _ p.slot0_mem hmp hh
    refine .inr ⟨hmp, hreg, hfl, ?_⟩
    simp only [hammer2Statfs, hm, hf, hb.ne', hio.ne', hh, hreg, not_true_eq_false, ↓reduceIte,
      Except.ok.injEq, Prod.mk.injEq, Option.some.injEq, true_and, exists_eq_left', and_self]

/-- The mount of A, whose PFS has no member, answers every statfs with EINVAL. -/
theorem hammer2Statfs_mountA :
    mountAState.mntData 0 = some 3 ∧ 0 < (⟨65536, 65536⟩ : MntStat).fBsize ∧
      0 < (⟨65536, 65536⟩ : MntStat).fIosize ∧
      ∃ p ∈ mountAState.pfslist, p.id = 3 ∧
        (p.nchains = 0 → hammer2Statfs 0 ⟨65536, 65536⟩ (fun _ => ⟨0, 0⟩) (fun _ => 0)
          mountAState = .ok (EINVAL, none)) ∧
        (hammer2Statfs 0 ⟨65536, 65536⟩ (fun _ => ⟨0, 0⟩) (fun _ => 0) mountAState =
            .ok (EINVAL, none) ∨
          ∃ hmp ∈ mountAState.mntlist.map Dev.id, p.forceLocal = some hmp ∧ ∃ sb,
            hammer2Statfs 0 ⟨65536, 65536⟩ (fun _ => ⟨0, 0⟩) (fun _ => 0) mountAState =
              .ok (0, some sb) ∧
            sb.fBlocks = (⟨0, 0⟩ : Voldata).allocatorSize / 65536 ∧
            sb.fBfree = (⟨0, 0⟩ : Voldata).allocatorFree / 65536) :=
  ⟨rfl, by decide, by decide,
    hammer2Statfs_mounted mountA_reachable (rfl : mountAState.mntData 0 = some 3) (by decide)
      (by decide) _ _⟩

end Hammer2Vfs
