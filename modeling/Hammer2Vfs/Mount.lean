import Hammer2Vfs.Pfs

namespace Hammer2Vfs

/-- A chain that hammer2_chain_lookup or hammer2_chain_next returns under the super-root:
its `error`, whether its type is HAMMER2_BREF_TYPE_INODE, and its inode data, which a
read without error always leaves in place. -/
structure SrootChain where
  error : Nat
  isInode : Bool
  ripdata : Option Ripdata
  data_of_ok : error = 0 → ripdata.isSome
deriving DecidableEq

/-- The outcome of hammer2_init_volumes. -/
inductive InitVolumes
  | error (e : Nat)
  /-- It returns 0 but leaves `hmp->devvp` NULL. -/
  | noRoot
  | ok
deriving DecidableEq, Repr

/-- What the rest of the kernel and the media answer during one hammer2_mount call. -/
structure MountEnv where
  copyinstrError : Nat
  /-- hammer2_init_devvp: the entries it put on `devvpl`, and its error. -/
  initDevvp : String → List Devvp × Nat
  /-- vfs_mountedon for a reason outside this file: another file system holds the vnode. -/
  mountedElsewhere : Devvp → Bool
  openDevvp : Nat
  initVolumes : InitVolumes
  /-- The chain at HAMMER2_SROOT_KEY, NULL when the lookup finds none. -/
  schain : Option SrootChain
  /-- The chains hammer2_update_pmps visits, in key order. -/
  pmpsScan : List SrootChain
  /-- The chains of the label's hash range, in key order, and the `error` the lookup
  leaves when it runs out of them. -/
  labelScan : List SrootChain
  labelError : Nat
  vfsExport : Nat

/-- `struct hammer2_mount_info`. -/
structure MountInfo where
  fspec : Option String
  hflags : Nat
deriving DecidableEq, Repr

/-- The arguments of hammer2_mount: `data`, MNT_RDONLY and MNT_UPDATE. -/
structure MountReq where
  args : Option MountInfo
  rdonly : Bool
  update : Bool
deriving DecidableEq, Repr

/-- What hammer2_mount returns, the state it leaves, and its local `devvpl` at return. -/
structure MountResult where
  error : Nat
  st : State
  devvpl : List Devvp

/-- copyinstr: the user string up to its terminating NUL. -/
def copyinstr (s : String) : String := cstr s

/-- Lines 482-492: cut the device string at its first '@'. With no '@', or nothing after
it, the label is "DATA" and the string is left whole. -/
def splitLabel (devstr : String) : String × String :=
  match devstr.toList.span (· ≠ '@') with
  | (pre, _ :: c :: l) => (String.mk pre, String.mk (c :: l))
  | _ => (devstr, "DATA")

/-- Lines 518-537: the first registered device each of whose vnodes aliases one of the
requested entries. -/
def matchDevice (devvpl : List Devvp) (mntlist : List Dev) : Option Dev :=
  mntlist.find? fun hmp => hmp.devvpList.all fun e' => devvpl.any e'.aliases

/-- vfs_mountedon (line 546), under the comment of lines 539-542: "make sure the device is
not mounted on anything else". The spec says "else validate not already mounted by another
subsystem". vfs_mountedon and hammer2_open_devvp are not in this file: the model assumes
that the open marks the vnodes a registered device holds, so that vfs_mountedon refuses a
vnode aliasing one of them, as well as a vnode another file system holds. -/
def vfsMountedon (st : State) (env : MountEnv) (e : Devvp) : Nat :=
  if env.mountedElsewhere e || st.mntlist.any (·.devvpList.any (·.aliases e)) then EBUSY
  else 0

/-- Lines 558-568: the first PFS with a member named `label`, and that member's device.
The inner loop stops at the first matching name even when its device is NULL. -/
def findLabel (label : String) : List Pfs → Option Pfs × Option DevId
  | [] => (none, none)
  | p :: ps =>
    match (p.slots.find? (·.pfsName.any (strcmpEq · label))).bind (·.pfsHmp) with
    | some h => (some p, some h)
    | none => findLabel label ps

/-- Where lines 511-575 leave the mount. -/
inductive Attach
  /-- Return this error after hammer2_cleanup_devvp. -/
  | fail (e : Nat)
  /-- Open the requested devices as a new device. -/
  | fresh
  /-- Mount from a registered device; `pmp` is what the label search left in `pmp`. -/
  | found (hmp : DevId) (pmp : Option PfsId)

def attachDevice (st : State) (env : MountEnv) (devvpl : List Devvp) (label : String) :
    Attach :=
  if devvpl.isEmpty then
    match findLabel label st.pfslist with
    | (p, some h) => .found h (p.map (·.id))
    | (_, none) => .fail ENOENT
  else match matchDevice devvpl st.mntlist with
    | some hmp => .found hmp.id none
    | none => match devvpl.find? (vfsMountedon st env · ≠ 0) with
      | some e => .fail (vfsMountedon st env e)
      | none => .fresh

/-- The loop of hammer2_update_pmps: a PFS for every inode chain read without error,
each taking the chain as its first member. -/
def updatePmpsLoop (hmp : DevId) (forceLocal : Option DevId) :
    List SrootChain → State → Except Fault State
  | [], st => .ok st
  | c :: cs, st =>
    if h : c.error = 0 then
      if c.isInode then do
        let (_, st) ← hammer2Pfsalloc (some ⟨hmp, none⟩)
          (some (c.ripdata.get (c.data_of_ok h))) forceLocal st
        updatePmpsLoop hmp forceLocal cs st
      else updatePmpsLoop hmp forceLocal cs st
    else updatePmpsLoop hmp forceLocal cs st

/-- `force_local`: the device itself when HMNT2_LOCAL is set. -/
def Dev.forceLocal (hmp : Dev) : Option DevId :=
  if hmp.hflags &&& HMNT2_LOCAL ≠ 0 then some hmp.id else none

/-- hammer2_update_pmps. -/
def hammer2UpdatePmps (hmp : Dev) (scan : List SrootChain) (st : State) :
    Except Fault State :=
  updatePmpsLoop hmp.id hmp.forceLocal scan st

/-- The loops of lines 991-996 and 1037-1043: add `δ` to the mount_count of the device
of every member chain. -/
def adjustMountCounts (δ : Int) : List Slot → State → Except Fault State
  | [], st => .ok st
  | s :: ss, st =>
    match s.chain with
    | none => adjustMountCounts δ ss st
    | some c => do adjustMountCounts δ ss (← st.bumpMountCount c.hmp δ)

/-- The members below `nchains`, which the mount_count loops visit. -/
def Pfs.members (p : Pfs) : List Slot := p.slots.take p.nchains

/-- hammer2_mount_helper. -/
def hammer2MountHelper (mp : MpId) (pmp : Pfs) (st : State) : Except Fault State :=
  adjustMountCounts 1 pmp.members
    (State.modifyPfs { st with mounts := st.mounts ++ [{ mp, data := pmp.id }] } pmp.id
      fun p => { p with mp := some mp })

/-- Lines 1054-1092 of hammer2_unmount_helper: tear down `hmp` once no mount uses it. -/
def unmountHelperDev (hmp : Dev) (st : State) : Except Fault State :=
  if hmp.mountCount ≠ 0 then .ok st else do
  let (hmp, st) ← hammer2PfsfreeScan hmp 0 st (st.pfslist.length + 1)
  let (hmp, st) ← hammer2PfsfreeScan hmp 1 st (st.spmplist.length + 1)
  if hmp.spmp.isSome then .error (.kassert "hmp->spmp == NULL") else
  (tailqRemove Dev.id hmp.id st.mntlist).map fun l => { st with mntlist := l }

/-- The `again:` loop of lines 1044-1050: tear down the first device whose mount_count
is 0 and rescan the list from its head. -/
def unmountSweep : Nat → State → Except Fault State
  | 0, _ => .error .fuel
  | fuel + 1, st =>
    match st.mntlist.find? (·.mountCount == 0) with
    | none => .ok st
    | some hmp => (unmountHelperDev hmp st).bind (unmountSweep fuel)

/-- Lines 1025-1051 of hammer2_unmount_helper: unhook `mp` from `pmp`. -/
def unmountHelperPfs (mp : MpId) (pmp : Pfs) (st : State) : Except Fault State :=
  if st.mntData mp ≠ some pmp.id then .error (.kassert "MPTOPMP(mp) == pmp") else
  (adjustMountCounts (-1) pmp.members { st with mounts := st.mounts.filter (·.mp ≠ mp) }).bind
    fun st => unmountSweep (st.mntlist.length + 1) st

/-- hammer2_assert_clean (lines 92-116): no inode, chain or dio may be left. Each PFS on
the two lists holds its root inode from hammer2_pfsalloc until hammer2_pfsfree drops it,
so an inode is left while a PFS is. -/
def hammer2AssertClean (st : State) : Except Fault Unit :=
  if st.pfslist.isEmpty && st.spmplist.isEmpty then .ok ()
  else .error (.kassert "hammer2_inode_allocs == 0")

/-- Lines 964-970, from `failed:` on: hammer2_assert_clean once `hammer2_mntlist` is empty,
then return `error`. -/
def unmountFinish (error : Nat) (st : State) : Except Fault (Nat × State) :=
  (if st.mntlist.isEmpty then hammer2AssertClean st else .ok ()).map fun _ => (error, st)

/-- hammer2_unmount, with the result of vflush. -/
def hammer2Unmount (mp : MpId) (vflushError : Nat) (st : State) :
    Except Fault (Nat × State) :=
  match st.mntData mp with
  | none => .ok (0, st)
  | some pmpId =>
    match st.findPfs pmpId with
    | none => .error .deref
    | some pmp =>
      if pmp.mp.isNone then .error (.kassert "pmp->mp")
      else (if vflushError ≠ 0 then .ok st else unmountHelperPfs mp pmp st).bind
        (unmountFinish vflushError)

/-- `hammer2_unmount_helper(mp, NULL, hmp)` and the `hammer2_unmount(mp, MNT_FORCE)`
that follows it on every error exit of hammer2_mount. -/
def unwindDevice (mp : MpId) (hmp : DevId) (st : State) : Except Fault State :=
  match st.findDev hmp with
  | none => .error .deref
  | some d => do
    let st ← unmountHelperDev d st
    return (← hammer2Unmount mp 0 st).2

/-- How lines 581-749 end for a new device. -/
inductive OpenResult
  | fail (e : Nat) (devvpl : List Devvp) (st : State)
  | ok (hmp : DevId) (st : State)

/-- Lines 612-749 once the volumes are read: register `hmp` with its super-PFS and
scan its super-root. -/
def registerDevice (mp : MpId) (hmp : Dev) (env : MountEnv) (devvpl : List Devvp)
    (st : State) : Except Fault OpenResult :=
  if hmp.hflags &&& HMNT2_LOCAL = 0 then .error (.kassert "hmp->hflags & HMNT2_LOCAL") else
  let st := State.modifyDev { st with mntlist := st.mntlist ++ [hmp] } hmp.id
    fun d => { d with devvpList := devvpl }
  do
  let (spmp, st) ← hammer2Pfsalloc none none (some hmp.id) st
  let st := (st.modifyDev hmp.id fun d => { d with spmp := some spmp }).modifyPfs spmp
    fun p => p.modifySlot0 fun s => { s with pfsHmp := some hmp.id }
  match env.schain with
  | none => (unwindDevice mp hmp.id st).map (.fail EINVAL [])
  | some sc =>
    if h : sc.error = 0 then
      let st := st.modifyPfs spmp fun p =>
        p.setSuperRoot hmp.id (sc.ripdata.get (sc.data_of_ok h)).pfsClid
      (hammer2UpdatePmps hmp env.pmpsScan st).map (.ok hmp.id)
    else (unwindDevice mp hmp.id st).map (.fail EINVAL [])

/-- Lines 581-749: open the requested devices as a new device. -/
def openDevice (mp : MpId) (args : MountInfo) (env : MountEnv) (devvpl : List Devvp)
    (st : State) : Except Fault OpenResult :=
  if devvpl.isEmpty then .error (.kassert "!TAILQ_EMPTY(&devvpl)")
  else if env.openDevvp ≠ 0 then .ok (.fail env.openDevvp [] st)
  else
    let hmp : Dev := ⟨st.nextId, 0, [], none, 0⟩
    let st := { st with nextId := st.nextId + 1 }
    match env.initVolumes with
    | .error e => .ok (.fail e [] st)
    | .noRoot => do
      let st ← unmountHelperDev hmp st
      return .fail EINVAL devvpl (← hammer2Unmount mp 0 st).2
    | .ok => registerDevice mp { hmp with hflags := args.hflags &&& HMNT2_DEVFLAGS } env devvpl st

/-- Lines 775-783: the first inode chain of the label's range named `label`. Reading
the name of a chain whose read failed follows a NULL `chain->data`. -/
def findLabelChain (label : String) : List SrootChain → Except Fault (Option SrootChain)
  | [] => .ok none
  | c :: cs =>
    if c.isInode then
      match c.ripdata with
      | none => .error .deref
      | some r => if strcmpEq label r.filename then .ok (some c) else findLabelChain label cs
    else findLabelChain label cs

/-- Lines 805-812: acquire the pmp structure, or leave `pmp` as it is when the chain
reads with an error. -/
def acquirePmp (hmp : Dev) (c : SrootChain) (pmp : Option PfsId) (st : State) :
    Except Fault (Option PfsId × State) :=
  if h : c.error = 0 then
    (hammer2Pfsalloc none (some (c.ripdata.get (c.data_of_ok h))) hmp.forceLocal st).map
      fun r => (some r.1, r.2)
  else .ok (pmp, st)

/-- Lines 816-890: bind `mp` to `pmp`, or unwind. -/
def bindPmp (mp : MpId) (devstr label : String) (hmp : Dev) (pmp : Option PfsId)
    (devvpl : List Devvp) (st : State) : Except Fault MountResult :=
  match pmp with
  | none => (unwindDevice mp hmp.id st).map (⟨EINVAL, ·, devvpl⟩)
  | some pmp =>
    match st.findPfs pmp with
    | none => .error .deref
    | some p =>
      if p.mp.isSome then (unwindDevice mp hmp.id st).map (⟨EBUSY, ·, devvpl⟩)
      else if hmp.devvpList.isEmpty then .error (.kassert "!TAILQ_EMPTY(&hmp->devvp_list)")
      else (hammer2MountHelper mp p st).map fun st =>
        ⟨0, st.modifyPfs pmp fun p => { p with fspec := some (devstr ++ "@" ++ label) }, devvpl⟩

/-- Lines 761-890: find the label under the super-root of the registered device `hmp`
and bind `mp` to its PFS. `pmp` is the value the variable has on entry. -/
def mountLabel (mp : MpId) (devstr label : String) (hmp : DevId) (pmp : Option PfsId)
    (devvpl : List Devvp) (env : MountEnv) (st : State) : Except Fault MountResult :=
  match st.findDev hmp with
  | none => .error .deref
  | some d =>
    match d.spmp.bind st.findPfs with
    | none => .error .deref
    | some _ => do
      match ← findLabelChain label env.labelScan with
      | none =>
        (unwindDevice mp hmp st).map
          (⟨if env.labelError ≠ 0 then EINVAL else ENOENT, ·, devvpl⟩)
      | some c =>
        let (pmp, st) ← acquirePmp d c pmp st
        bindPmp mp devstr label d pmp devvpl st

/-- hammer2_mount of a `struct mount` at address `mp`. -/
def hammer2Mount (mp : MpId) (req : MountReq) (env : MountEnv) (st : State) :
    Except Fault MountResult :=
  match req.args with
  | none => .ok ⟨EINVAL, st, []⟩
  | some args =>
    if !req.rdonly then .ok ⟨EINVAL, st, []⟩
    else if req.update then
      if (st.mntData mp).isNone then .error (.kassert "pmp")
      else .ok ⟨if args.fspec.isNone then env.vfsExport else 0, st, []⟩
    else match args.fspec with
    | none => .ok ⟨EFAULT, st, []⟩
    | some fspec =>
      if env.copyinstrError ≠ 0 then .ok ⟨env.copyinstrError, st, []⟩ else
      let (devstr, label) := splitLabel (copyinstr fspec)
      let (devvpl, error) := env.initDevvp devstr
      if error ≠ 0 then .ok ⟨error, st, []⟩ else
      match attachDevice st env devvpl label with
      | .fail e => .ok ⟨e, st, []⟩
      | .found hmp pmp => mountLabel mp devstr label hmp pmp devvpl env st
      | .fresh => do
        match ← openDevice mp args env devvpl st with
        | .fail e devvpl st => .ok ⟨e, st, devvpl⟩
        | .ok hmp st => mountLabel mp devstr label hmp none [] env st

end Hammer2Vfs
