import Hammer2Vfs.Mount

namespace Hammer2Vfs

/-- A call the VFS makes into this file. -/
inductive Op
  /-- mount(2) on a new `struct mount`. -/
  | mount (req : MountReq) (env : MountEnv)
  /-- unmount(2) of `mp`, with the result of its vflush. -/
  | unmount (mp : MpId) (vflushError : Nat)

/-- One call, successful or not: the VFS allocates the `struct mount` of a mount. -/
def step : Op → State → Except Fault State
  | .mount req env, st =>
    (hammer2Mount st.nextId req env { st with nextId := st.nextId + 1 }).map (·.st)
  | .unmount mp e, st => (hammer2Unmount mp e st).map (·.2)

/-- The states hammer2_init and any sequence of calls that return lead to. -/
inductive Reachable : State → Prop
  | init : Reachable State.init
  | step {st st' : State} (op : Op) : Reachable st → step op st = .ok st' → Reachable st'

/-- A sequence of calls, up to the first that does not return. -/
def run : List Op → State → Except Fault State
  | [], st => .ok st
  | op :: ops, st => (step op st).bind (run ops)

theorem run_reachable {ops : List Op} {st st' : State} (h : Reachable st)
    (hr : run ops st = .ok st') : Reachable st' := by
  induction ops generalizing st with
  | nil => cases hr; exact h
  | cons op ops ih =>
    obtain ⟨st1, h1, h2⟩ := Except.bind_eq_ok.1 hr
    exact ih (h.step op h1) h2

/-- The vnode of `/dev/da0`. -/
def da0 : Devvp := ⟨"/dev/da0", 1, 100⟩

/-- An inode entry named `name` under the super-root, read with `error`. -/
def inode (name : String) (error : Nat) : SrootChain := ⟨error, true, some ⟨name, 7⟩, fun _ => rfl⟩

/-- `/dev/da0` with a readable super-root: hammer2_update_pmps reads `pmps`, and the hash
range of `label` holds that inode, read without error. -/
def da0Env (label : String) (pmps : List SrootChain) : MountEnv where
  copyinstrError := 0
  initDevvp s := if s = "/dev/da0" then ([da0], 0) else ([], 0)
  mountedElsewhere _ := false
  openDevvp := 0
  initVolumes := .ok
  schain := some (inode "" 0)
  pmpsScan := pmps
  labelScan := [inode label 0]
  labelError := 0
  vfsExport := 0

/-- A read-only mount(2) of `fspec` with HMNT2_LOCAL. -/
def localMount (fspec : String) : MountReq := ⟨some ⟨some fspec, HMNT2_LOCAL⟩, true, false⟩

/-- Mounting the labels DATA and ROOT of `/dev/da0`. -/
def twoLabels : List Op :=
  [.mount (localMount "/dev/da0@DATA") (da0Env "DATA" [inode "DATA" 0, inode "ROOT" 0]),
   .mount (localMount "/dev/da0@ROOT") (da0Env "ROOT" [inode "DATA" 0, inode "ROOT" 0])]

/-- Mounting the label A of `/dev/da0`, whose inode reads with EIO in the scan of
hammer2_update_pmps and without error in the lookup of the label. -/
def mountA : Op := .mount (localMount "/dev/da0@A") (da0Env "A" [inode "A" 5])

/-- Mounting the label B of `/dev/da0`, which its super-root does not hold. -/
def mountB : Op := .mount (localMount "/dev/da0@B") { da0Env "B" [] with labelScan := [] }

/-- The vnode of `/dev/da1`, a second disk. -/
def da1 : Devvp := ⟨"/dev/da1", 2, 101⟩

/-- `/dev/da1` with a readable super-root, as `da0Env` has `/dev/da0`. -/
def da1Env (label : String) (pmps : List SrootChain) : MountEnv :=
  { da0Env label pmps with initDevvp := fun s => if s = "/dev/da1" then ([da1], 0) else ([], 0) }

/-- Mounting the label DATA of `/dev/da0` and of `/dev/da1`: two devices. -/
def twoDevices : List Op :=
  [.mount (localMount "/dev/da0@DATA") (da0Env "DATA" [inode "DATA" 0]),
   .mount (localMount "/dev/da1@DATA") (da1Env "DATA" [inode "DATA" 0])]

end Hammer2Vfs
