import Hammer2Vfs.MountInv

namespace Hammer2Vfs

/-- The assertions a mount's arguments and media reach: line 613 of hammer2_mount and
lines 165, 236 and 238 of hammer2_pfsalloc. -/
def Fault.isMountAssert : Fault → Bool
  | .kassert msg =>
    msg = "hmp->hflags & HMNT2_LOCAL" || msg = "only local mount allowed" ||
      msg = "nchains %d not 0" || msg = "chain->pmp == NULL"
  | _ => false

/-- A computation each of whose failures on those assertions satisfies `P`. -/
def AssertsWithin {α : Type} (P : Fault → Prop) (x : Except Fault α) : Prop :=
  ∀ e, x = .error e → e.isMountAssert = true → P e

namespace AssertsWithin

variable {α β : Type} {P Q : Fault → Prop}

theorem ok (a : α) : AssertsWithin P (.ok a : Except Fault α) := fun _ h => by cases h

theorem error {e : Fault} (he : e.isMountAssert = false) :
    AssertsWithin P (.error e : Except Fault α) := fun _ h h' => by cases h; simp [he] at h'

theorem assert {e : Fault} (he : P e) : AssertsWithin P (.error e : Except Fault α) :=
  fun _ h _ => by cases h; exact he

theorem bind {x : Except Fault α} {f : α → Except Fault β} (hx : AssertsWithin P x)
    (hf : ∀ a, x = .ok a → AssertsWithin P (f a)) : AssertsWithin P (x >>= f) := fun e h => by
  cases hx' : x with
  | error e' => rw [hx'] at h; cases h; exact hx _ hx'
  | ok a => rw [hx'] at h; exact hf a hx' e h

theorem map {x : Except Fault α} {f : α → β} (hx : AssertsWithin P x) :
    AssertsWithin P (x.map f) := fun e h => by
  cases hx' : x with
  | error e' => rw [hx'] at h; cases h; exact hx _ hx'
  | ok a => rw [hx'] at h; cases h

theorem mono {x : Except Fault α} (hx : AssertsWithin P x) (h : ∀ e, P e → Q e) :
    AssertsWithin Q x := fun e he ha => h e (hx e he ha)

end AssertsWithin

section
variable {P : Fault → Prop}

theorem tailqRemove_noMountAssert {α : Type} (addr : α → Nat) (a : Nat) (l : List α) :
    AssertsWithin P (tailqRemove addr a l) := fun _ h h' => by
  rw [tailqRemove_error h] at h'; cases h'

theorem bumpMountCount_noMountAssert (st : State) (hmp : DevId) (δ : Int) :
    AssertsWithin P (st.bumpMountCount hmp δ) := by
  unfold State.bumpMountCount
  split
  · exact .ok _
  · exact .error rfl

theorem adjustMountCounts_noMountAssert (δ : Int) (ss : List Slot) (st : State) :
    AssertsWithin P (adjustMountCounts δ ss st) := by
  induction ss generalizing st with
  | nil => exact .ok _
  | cons s ss ih =>
    unfold adjustMountCounts
    split
    · exact ih st
    · exact .bind (bumpMountCount_noMountAssert _ _ _) fun st' _ => ih st'

theorem hammer2PfsfreeScan_noMountAssert (hmp : Dev) (which : Nat) (st : State) (fuel : Nat) :
    AssertsWithin P (hammer2PfsfreeScan hmp which st fuel) := fun _ h h' => by
  rcases hammer2PfsfreeScan_error h with rfl | rfl <;> cases h'

theorem unmountHelperDev_noMountAssert (d : Dev) (st : State) :
    AssertsWithin P (unmountHelperDev d st) := by
  unfold unmountHelperDev
  split
  · exact .ok _
  refine .bind (hammer2PfsfreeScan_noMountAssert _ _ _ _) fun ⟨d1, st1⟩ _ =>
    .bind (hammer2PfsfreeScan_noMountAssert _ _ _ _) fun ⟨d2, st2⟩ _ => ?_
  dsimp only
  split
  · exact .error rfl
  · exact .map (tailqRemove_noMountAssert _ _ _)

theorem unmountSweep_noMountAssert (fuel : Nat) (st : State) :
    AssertsWithin P (unmountSweep fuel st) := by
  induction fuel generalizing st with
  | zero => exact .error rfl
  | succ fuel ih =>
    unfold unmountSweep
    split
    · exact .ok _
    · exact .bind (unmountHelperDev_noMountAssert _ _) fun st' _ => ih st'

theorem unmountFinish_noMountAssert (e : Nat) (st : State) :
    AssertsWithin P (unmountFinish e st) := by
  rw [unmountFinish_eq]
  split_ifs
  · exact .error rfl
  · exact .ok _

theorem hammer2Unmount_noMountAssert (mp : MpId) (e : Nat) (st : State) :
    AssertsWithin P (hammer2Unmount mp e st) := by
  unfold hammer2Unmount
  split
  · exact .ok _
  split
  · exact .error rfl
  split_ifs
  · exact .error rfl
  · exact .bind (.ok _) fun st' _ => unmountFinish_noMountAssert _ _
  refine .bind ?_ fun st' _ => unmountFinish_noMountAssert _ _
  unfold unmountHelperPfs
  split_ifs
  · exact .error rfl
  · exact .bind (adjustMountCounts_noMountAssert _ _ _) fun st' _ => unmountSweep_noMountAssert _ _

theorem unwindDevice_noMountAssert (mp : MpId) (hmp : DevId) (st : State) :
    AssertsWithin P (unwindDevice mp hmp st) := by
  unfold unwindDevice
  split
  · exact .error rfl
  · exact .bind (unmountHelperDev_noMountAssert _ _) fun st' _ =>
      .bind (hammer2Unmount_noMountAssert _ _ _) fun _ _ => .ok _

theorem findLabelChain_noMountAssert (label : String) (cs : List SrootChain) :
    AssertsWithin P (findLabelChain label cs) := by
  induction cs with
  | nil => exact .ok _
  | cons c cs ih =>
    unfold findLabelChain
    split
    · split
      · exact .error rfl
      · split
        · exact .ok _
        · exact ih
    · exact ih

theorem bindPmp_noMountAssert (mp : MpId) (devstr label : String) (hmp : Dev)
    (pmp : Option PfsId) (devvpl : List Devvp) (st : State) :
    AssertsWithin P (bindPmp mp devstr label hmp pmp devvpl st) := by
  unfold bindPmp
  split
  · exact .map (unwindDevice_noMountAssert _ _ _)
  split
  · exact .error rfl
  split_ifs
  · exact .map (unwindDevice_noMountAssert _ _ _)
  · exact .error rfl
  · exact .map (adjustMountCounts_noMountAssert _ _ _)

theorem acquirePmp_noMountAssert {d : Dev} (hl : d.hflags &&& HMNT2_LOCAL ≠ 0)
    (c : SrootChain) (pmp : Option PfsId) (st : State) :
    AssertsWithin P (acquirePmp d c pmp st) := by
  unfold acquirePmp
  split
  · have hfl : d.forceLocal = some d.id := if_pos hl
    simp only [hammer2Pfsalloc, hfl, Option.isNone_some, Bool.false_eq_true, ↓reduceIte]
    exact .map (.ok _)
  · exact .ok _

theorem mountLabel_noMountAssert {mp : MpId} {devstr label : String} {hmp : DevId}
    {pmp : Option PfsId} {devvpl : List Devvp} {env : MountEnv} {st : State}
    (hl : ∀ d ∈ st.mntlist, d.hflags &&& HMNT2_LOCAL ≠ 0) :
    AssertsWithin P (mountLabel mp devstr label hmp pmp devvpl env st) := by
  unfold mountLabel
  split
  · exact .error rfl
  rename_i d hd
  split
  · exact .error rfl
  refine .bind (findLabelChain_noMountAssert _ _) fun oc _ => ?_
  split
  · exact .map (unwindDevice_noMountAssert _ _ _)
  · exact .bind (acquirePmp_noMountAssert (hl d (List.mem_of_find?_eq_some hd)) _ _ _)
      fun _ _ => bindPmp_noMountAssert _ _ _ _ _ _ _

end

/-- The names, as strcmp reads them, of the inodes a super-root scan reads without error,
in the order hammer2_update_pmps visits them. -/
def scanNames : List SrootChain → List String
  | [] => []
  | c :: cs =>
    if h : c.error = 0 then
      if c.isInode then cstr (c.ripdata.get (c.data_of_ok h)).filename :: scanNames cs
      else scanNames cs
    else scanNames cs

/-- Whether hammer2_mount, from `st`, goes on to open `req`'s devices as a new device
(line 580): a read-only mount, not an update, whose fspec copies in, whose devices
hammer2_init_devvp finds and whose vnodes belong to no registered device and to no other
mount. Only on that path do line 613 test the flags and hammer2_update_pmps read the
super-root. -/
def opensDevice (req : MountReq) (env : MountEnv) (st : State) : Bool :=
  match req.args.bind (·.fspec) with
  | none => false
  | some fspec =>
    let s := splitLabel (copyinstr fspec)
    let v := env.initDevvp s.1
    req.rdonly && !req.update && env.copyinstrError == 0 && v.2 == 0 &&
      attachDevice st env v.1 s.2 matches .fresh

/-- Why a mount with flags `hflags`, on media whose super-root hammer2_update_pmps reads
as `scan`, may fail an assertion: line 613 when the flags lack HMNT2_LOCAL, and line 236
when the scan reads two inodes whose names strcmp finds equal. -/
def MountAssertCause (hflags : Nat) (scan : List SrootChain) (e : Fault) : Prop :=
  (e = .kassert "hmp->hflags & HMNT2_LOCAL" ∧ hflags &&& HMNT2_LOCAL = 0) ∨
    (e = .kassert "nchains %d not 0" ∧ ¬(scanNames scan).Nodup)

theorem hammer2Pfsalloc_asserts (hmp : DevId) (r : Option Ripdata) (h : DevId) (st : State) :
    AssertsWithin (· = .kassert "nchains %d not 0")
      (hammer2Pfsalloc (some ⟨hmp, none⟩) r (some h) st) := by
  unfold hammer2Pfsalloc
  obtain ⟨p, st1⟩ := pfsFindOrCreate r (some h) st
  simp only [Option.isNone_some, Bool.false_eq_true, ↓reduceIte, Option.isSome_none]
  split_ifs
  · exact .assert rfl
  · cases r
    · exact .error rfl
    · exact .map (bumpMountCount_noMountAssert _ _ _)
  · cases r
    · exact .error rfl
    · exact .ok _

theorem updatePmpsLoop_asserts (hmp : DevId) (cs : List SrootChain) (st : State) :
    AssertsWithin (· = .kassert "nchains %d not 0") (updatePmpsLoop hmp (some hmp) cs st) := by
  induction cs generalizing st with
  | nil => exact .ok _
  | cons c cs ih =>
    unfold updatePmpsLoop
    split_ifs
    · exact .bind (hammer2Pfsalloc_asserts _ _ _ _) fun ⟨_, st'⟩ _ => ih st'
    · exact ih st
    · exact ih st

theorem attach_newPfs_name0 (id : PfsId) (fl : Option DevId) (r : Option Ripdata) (c : Chain)
    (n : String) : ((newPfs id fl r).attach c n).name0 = some n := rfl

theorem updatePmpsLoop_noMountAssert {P : Fault → Prop} {hmp : DevId} {cs : List SrootChain}
    {st : State} (hi : Inv st) (hd : hmp < st.nextId) (hn : (scanNames cs).Nodup)
    (hf : ∀ p ∈ st.pfslist, p.forceLocal = some hmp → ∀ n ∈ p.name0, cstr n ∉ scanNames cs) :
    AssertsWithin P (updatePmpsLoop hmp (some hmp) cs st) := by
  induction cs generalizing st with
  | nil => exact .ok _
  | cons c cs ih =>
    unfold updatePmpsLoop
    split_ifs with h0 hc
    · set r := c.ripdata.get (c.data_of_ok h0)
      have hs : scanNames (c :: cs) = cstr r.filename :: scanNames cs := by
        simp [scanNames, h0, hc, r]
      rw [hs] at hn hf
      have hfd : st.pfslist.find? (pfsMatches (some hmp) r) = none :=
        List.find?_eq_none.2 fun p hp hm => by
          obtain ⟨n, hn', he⟩ := pfsMatches_name0 hm
          exact hf p hp (pfsMatches_forceLocal hm) n hn'
            (by rw [show cstr n = cstr r.filename by simpa [strcmpEq] using he]
                exact List.mem_cons_self _ _)
      rw [hammer2Pfsalloc_new_chain Option.isNone_some hfd hi.nextId_not_mem]
      refine .bind (.ok _) fun _ he => ?_
      cases he
      refine ih (hi.appendChainPfs r hd fun h hh => Option.mem_some_iff.1 hh ▸ hd)
        (Nat.lt_succ_of_lt hd) (List.nodup_cons.1 hn).2 fun p hp hfl n hn' => ?_
      rcases List.mem_append.1 hp with hp | hp
      · exact fun h => hf p hp hfl n hn' (List.mem_cons_of_mem _ h)
      · rw [List.mem_singleton.1 hp, attach_newPfs_name0] at hn'
        rw [← Option.mem_some_iff.1 hn', cstr_cstr]
        exact (List.nodup_cons.1 hn).1
    all_goals
      have hs : scanNames (c :: cs) = scanNames cs := by simp [scanNames, *]
      exact ih hi hd (hs ▸ hn) (hs ▸ hf)

theorem registerDevice_asserts {mp : MpId} {hmp : Dev} {env : MountEnv}
    {devvpl : List Devvp} {st : State} (hi : Inv st) (hid : hmp.id = st.nextId)
    (h0 : hmp.mountCount = 0)
    (hne : devvpl ≠ [])
    (hv : ∀ e ∈ devvpl, ∀ d ∈ st.mntlist, ∀ e' ∈ d.devvpList, e'.aliases e = false) :
    AssertsWithin (MountAssertCause hmp.hflags env.pmpsScan)
      (registerDevice mp hmp env devvpl { st with nextId := st.nextId + 1 }) := by
  unfold registerDevice
  split_ifs with hl
  · exact .assert (.inl ⟨rfl, hl⟩)
  dsimp only
  rw [hammer2Pfsalloc_spmp]
  refine .bind (.ok _) fun _ he => ?_
  cases he
  have hi3 := ((hi.insertDev devvpl hid h0 hl hne hv).appendSpmp (some hmp.id)).linkSpmp hmp.id
    (st.nextId + 1) (by simp [State.modifyDev])
  split
  · exact .map (unwindDevice_noMountAssert _ _ _)
  split
  · rename_i sc _ he
    have hfl : hmp.forceLocal = some hmp.id := if_pos hl
    refine .map ?_
    rw [hammer2UpdatePmps, hfl]
    by_cases hn : (scanNames env.pmpsScan).Nodup
    · have hi4 := hi3.modifySpmp (st.nextId + 1)
        (f := fun p => p.setSuperRoot hmp.id (sc.ripdata.get (sc.data_of_ok he)).pfsClid)
        (by simp [State.modifyDev, State.modifyPfs]) fun _ => ⟨rfl, rfl⟩
      have hns : st.nextId + 1 ∉ st.pfslist.map Pfs.id := fun h => by
        obtain ⟨p, hp, e⟩ := List.mem_map.1 h
        exact Nat.not_succ_lt_self (e ▸ hi.pfs_fresh p (List.mem_append_left _ hp))
      have hd : hmp.id < st.nextId + 1 + 1 := by
        rw [hid]; exact Nat.lt_succ_of_lt (Nat.lt_succ_self _)
      refine updatePmpsLoop_noMountAssert hi4 hd hn fun p hp hpl => ?_
      simp only [State.modifyPfs, State.modifyDev, update_of_not_mem hns] at hp
      exact absurd (hi.fl_fresh p hp hmp.id (by rw [hpl]; rfl)) (by rw [hid]; exact Nat.lt_irrefl _)
    · exact (updatePmpsLoop_asserts _ _ _).mono fun e he => .inr ⟨he, hn⟩
  · exact .map (unwindDevice_noMountAssert _ _ _)

theorem openDevice_asserts {mp : MpId} {args : MountInfo} {env : MountEnv}
    {devvpl : List Devvp} {st : State} (hi : Inv st) (hv : ∀ e ∈ devvpl, vfsMountedon st env e = 0) :
    AssertsWithin (MountAssertCause args.hflags env.pmpsScan) (openDevice mp args env devvpl st) := by
  unfold openDevice
  split_ifs with hne
  · exact .error rfl
  · exact .ok _
  split
  · exact .ok _
  · exact .bind (unmountHelperDev_noMountAssert _ _) fun _ _ =>
      .bind (hammer2Unmount_noMountAssert _ _ _) fun _ _ => .ok _
  · refine (registerDevice_asserts hi rfl rfl (by simpa using hne)
      fun e he => vfsMountedon_eq_zero (hv e he)).mono ?_
    rintro e (⟨rfl, hl⟩ | h)
    · refine .inl ⟨rfl, ?_⟩
      rwa [show args.hflags &&& HMNT2_DEVFLAGS &&& HMNT2_LOCAL = args.hflags &&& HMNT2_LOCAL by
        rw [Nat.and_assoc, HMNT2_DEVFLAGS, Nat.and_self]] at hl
    · exact .inr h

theorem hammer2Mount_asserts {mp : MpId} {req : MountReq} {env : MountEnv} {st : State}
    (hi : Inv st) :
    AssertsWithin (fun e => opensDevice req env st = true ∧
        ∃ args ∈ req.args, MountAssertCause args.hflags env.pmpsScan e)
      (hammer2Mount mp req env st) := by
  unfold hammer2Mount
  split
  · exact .ok _
  rename_i args hargs
  split
  · exact .ok _
  rename_i hro
  split
  · split
    · exact .error rfl
    · exact .ok _
  rename_i hup
  split
  · exact .ok _
  rename_i fspec hfs
  split
  · exact .ok _
  rename_i hcp
  split
  rename_i devstr label hsp
  split
  rename_i devvpl err hinit
  split
  · exact .ok _
  rename_i herr
  cases ha : attachDevice st env devvpl label with
  | fail e => exact .ok _
  | found hmp pmp => exact mountLabel_noMountAssert hi.local_flag
  | fresh =>
    have hv := attachDevice_fresh ha
    have hopen : opensDevice req env st = true := by
      simp only [opensDevice, hargs, Option.some_bind, hfs, hsp, hinit]
      simp_all
    refine .bind ((openDevice_asserts hi hv).mono fun e he => ⟨hopen, args, hargs, he⟩)
      fun o ho => ?_
    cases o with
    | fail e devvpl st' => exact .ok _
    | ok hmp st' => exact mountLabel_noMountAssert (openDevice_keeps hi hv ho).inv.local_flag

/-- From every reachable state, a mount fails an assertion only when it opens a new
device, and then only that of line 613, when its flags lack HMNT2_LOCAL, or that of line
236, when hammer2_update_pmps reads two inodes of the super-root whose names agree up to
their first NUL. -/
theorem mount_assert_cause {st : State} (h : Reachable st) (req : MountReq) (env : MountEnv)
    {e : Fault} (hf : step (.mount req env) st = .error e) (he : e.isMountAssert = true) :
    opensDevice req env st = true ∧
      ∃ args ∈ req.args, MountAssertCause args.hflags env.pmpsScan e :=
  (hammer2Mount_asserts (reachable_inv h).bumpNextId).map e hf he

theorem mount_assert_cause_nul :
    step (.mount (localMount "/dev/da0@A") (da0Env "A" [inode "A" 0, inode "A\x00B" 0]))
        State.init = .error (.kassert "nchains %d not 0") ∧
      opensDevice (localMount "/dev/da0@A") (da0Env "A" [inode "A" 0, inode "A\x00B" 0])
        State.init = true ∧
      ∃ args ∈ (localMount "/dev/da0@A").args,
        MountAssertCause args.hflags [inode "A" 0, inode "A\x00B" 0] (.kassert "nchains %d not 0") :=
  have hf : step (.mount (localMount "/dev/da0@A") (da0Env "A" [inode "A" 0, inode "A\x00B" 0]))
      State.init = .error (.kassert "nchains %d not 0") := rfl
  ⟨hf, mount_assert_cause .init _ _ hf rfl⟩

/-- A first mount whose flags lack HMNT2_LOCAL fails the assertion of line 613, and one
whose super-root holds inodes named A and A\0B, which strcmp reads as one name, fails that
of line 236. -/
theorem mount_asserts_reached :
    step (.mount ⟨some ⟨some "/dev/da0@DATA", 0⟩, true, false⟩ (da0Env "DATA" [inode "DATA" 0]))
        State.init = .error (.kassert "hmp->hflags & HMNT2_LOCAL") ∧
      step (.mount (localMount "/dev/da0@A") (da0Env "A" [inode "A" 0, inode "A\x00B" 0]))
        State.init = .error (.kassert "nchains %d not 0") :=
  ⟨rfl, rfl⟩

end Hammer2Vfs
