import Hammer2Vfs.Footprint

namespace Hammer2Vfs

/-- A call on the mount table: mount(2) on the `struct mount` at `mp`, or unmount(2) of
it. -/
inductive TableOp
  | mount (mp : MpId)
  | unmount (mp : MpId)
deriving DecidableEq, Repr

/-- A VFS call as a call on the mount table: a mount is made on the `struct mount` the VFS
allocates for it. -/
def Op.tableOp (st : State) : Op → TableOp
  | .mount _ _ => .mount st.nextId
  | .unmount mp _ => .unmount mp

/-- What the mount table is for: a call changes nothing, a mount binds its `struct mount`,
which no mount has, to a PFS no mount has, or an unmount takes its mount off the table. -/
inductive TableStep : TableOp → List Mount → List Mount → Prop
  | stay {o : TableOp} {ms : List Mount} : TableStep o ms ms
  | bind {mp : MpId} {ms : List Mount} (pid : PfsId) (hmp : mp ∉ ms.map Mount.mp)
      (hpid : pid ∉ ms.map Mount.data) : TableStep (.mount mp) ms (ms ++ [⟨mp, pid⟩])
  | unbind {mp : MpId} {ms : List Mount} (hmp : mp ∈ ms.map Mount.mp) :
      TableStep (.unmount mp) ms (ms.filter (·.mp ≠ mp))

/-- No two mounts of the table share a `struct mount` or a PFS. -/
def TableOk (ms : List Mount) : Prop :=
  (ms.map Mount.mp).Nodup ∧ (ms.map Mount.data).Nodup

theorem TableStep.ok {o : TableOp} {ms ms' : List Mount} (h : TableStep o ms ms')
    (hok : TableOk ms) : TableOk ms' := by
  cases h with
  | stay => exact hok
  | bind pid hmp hpid =>
    simp only [TableOk, List.map_append, List.map_cons, List.map_nil]
    exact ⟨hok.1.append (List.nodup_singleton _) (List.disjoint_singleton.2 hmp),
      hok.2.append (List.nodup_singleton _) (List.disjoint_singleton.2 hpid)⟩
  | unbind _ =>
    exact ⟨hok.1.sublist ((List.filter_sublist _).map _),
      hok.2.sublist ((List.filter_sublist _).map _)⟩

theorem table_ok {ms : List Mount}
    (h : Relation.ReflTransGen (fun a b => ∃ o, TableStep o a b) [] ms) : TableOk ms := by
  induction h with
  | refl => exact ⟨List.nodup_nil, List.nodup_nil⟩
  | tail _ hs ih => exact hs.choose_spec.ok ih

theorem State.mp_mem_of_mntData {st : State} {mp : MpId} {pid : PfsId}
    (h : st.mntData mp = some pid) : mp ∈ st.mounts.map Mount.mp := by
  obtain ⟨m, hm, -⟩ := Option.map_eq_some'.1 h
  exact List.mem_map.2 ⟨m, List.mem_of_find?_eq_some hm, by simpa using List.find?_some hm⟩

theorem hammer2Mount_mounts {mp : MpId} {req : MountReq} {env : MountEnv} {st : State}
    {r : MountResult} (hi : Inv st) (hm : st.mntData mp = none)
    (h : hammer2Mount mp req env st = .ok r) :
    (∃ pid, r.st.mounts = st.mounts ++ [⟨mp, pid⟩]) ∨ r.st.mounts = st.mounts := by
  rcases hammer2Mount_cases h with ⟨e, -⟩ | ⟨_, _, _, _, _, -, h⟩ |
    ⟨_, _, _, _, ha, _, ho, ⟨_, _, _, rfl, rfl⟩ | ⟨_, _, rfl, h⟩⟩
  · exact .inr (by rw [e])
  · exact (mountLabel_outcome hm h).imp (·.2) (·.2)
  · exact .inr (openDevice_mounts hi (attachDevice_fresh ha) hm ho)
  · have hmo := openDevice_mounts hi (attachDevice_fresh ha) hm ho
    rw [← hmo]
    exact (mountLabel_outcome ((State.mntData_congr hmo mp).trans hm) h).imp (·.2) (·.2)

theorem hammer2Unmount_table {mp : MpId} {e n : Nat} {st st' : State} (hi : Inv st)
    (h : hammer2Unmount mp e st = .ok (n, st')) : TableStep (.unmount mp) st.mounts st'.mounts := by
  rcases hammer2Unmount_eq h with ⟨rfl, -⟩ | ⟨pmp, hp, hpid, st1, h1, h2⟩
  · exact .stay
  · rw [(unmountSweep_mountRefs (hi.unbind hpid hp h1) h2).1, adjustMountCounts_ok h1]
    exact .unbind (State.mp_mem_of_mntData hpid)

theorem step_refines_table {st st' : State} (hi : Inv st) {op : Op} (hs : step op st = .ok st') :
    TableStep (op.tableOp st) st.mounts st'.mounts := by
  cases op with
  | mount req env =>
    obtain ⟨r, hr, rfl⟩ := Except.map_eq_ok.1 hs
    rcases hammer2Mount_mounts hi.bumpNextId hi.mntData_nextId hr with ⟨pid, hms⟩ | hms
    · have hd := (hammer2Mount_inv hi.bumpNextId hi.nextId_not_mp (Nat.lt_succ_self _) hr).data_nodup
      rw [hms, List.map_append] at hd
      rw [hms]
      exact .bind pid hi.nextId_not_mp fun hp =>
        List.disjoint_of_nodup_append hd hp (List.mem_singleton_self _)
    · rw [hms]; exact .stay
  | unmount mp e =>
    obtain ⟨⟨n, st''⟩, hr, rfl⟩ := Except.map_eq_ok.1 hs
    exact hammer2Unmount_table hi hr

/-- In every reachable state each VFS call that returns is one call on the mount table: a
mount binds the new `struct mount` to a PFS no mount has, or changes no mount; an unmount
takes only its own mount off, or changes no mount. -/
theorem step_table {st st' : State} (h : Reachable st) {op : Op} (hs : step op st = .ok st') :
    TableStep (op.tableOp st) st.mounts st'.mounts :=
  step_refines_table (reachable_inv h) hs

theorem step_table_twoLabels :
    ∃ st', step (.unmount 0 0) twoLabelsState = .ok st' ∧
      TableStep ((Op.unmount 0 0).tableOp twoLabelsState) twoLabelsState.mounts st'.mounts :=
  ⟨_, rfl, step_table twoLabels_reachable rfl⟩

theorem reachable_table {st : State} (h : Reachable st) :
    Relation.ReflTransGen (fun a b => ∃ o, TableStep o a b) State.init.mounts st.mounts := by
  induction h with
  | init => exact .refl
  | step op hr hs ih => exact ih.tail ⟨_, step_refines_table (reachable_inv hr) hs⟩

/-- In every reachable state no PFS is the `mnt_data` of two mounts: every call is a step of
the mount table, which binds only a PFS no mount has (lines 817-823). -/
theorem reachable_data_nodup {st : State} (h : Reachable st) : (st.mounts.map Mount.data).Nodup :=
  (table_ok (reachable_table h)).2

theorem reachable_data_nodup_twoLabels : (twoLabelsState.mounts.map Mount.data).Nodup :=
  reachable_data_nodup twoLabels_reachable

end Hammer2Vfs
