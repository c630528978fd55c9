import Mathlib.Data.List.Nodup
import Mathlib.Algebra.BigOperators.Group.List

namespace Hammer2Vfs

/-- Addresses of `hammer2_dev_t` objects. -/
abbrev DevId := Nat
/-- Addresses of `hammer2_pfs_t` objects. -/
abbrev PfsId := Nat
/-- Addresses of `struct mount` objects. -/
abbrev MpId := Nat

/-- HAMMER2_MAXCLUSTER of hammer2_disk.h: the length of the member arrays of a PFS. -/
def HAMMER2_MAXCLUSTER : Nat := 8

/-- The device-wide mount flags of hammer2_mount.h. -/
def HMNT2_LOCAL : Nat := 0x2
def HMNT2_DEVFLAGS : Nat := HMNT2_LOCAL

def ENOENT : Nat := 2
def EFAULT : Nat := 14
def EBUSY : Nat := 16
def EINVAL : Nat := 22

/-- A `hammer2_devvp_t`: one device vnode named in the mount's device string. -/
structure Devvp where
  path : String
  devvp : Nat
  rdev : Nat
deriving DecidableEq, Repr

/-- The match of lines 523-526: the same vnode, or the same non-zero `v_rdev`. -/
def Devvp.aliases (e' e : Devvp) : Bool :=
  e'.devvp == e.devvp || (e'.rdev != 0 && e'.rdev == e.rdev)

/-- The C string at a `char *`: its characters before the first NUL, which is all that
strcmp, kstrdup and copyinstr read. -/
def cstr (s : String) : String := String.mk (s.toList.takeWhile (· ≠ '\x00'))

/-- `strcmp(a, b) == 0`. -/
def strcmpEq (a b : String) : Bool := cstr a == cstr b

@[simp] theorem cstr_cstr (s : String) : cstr (cstr s) = cstr s := by
  simp [cstr, List.takeWhile_takeWhile]

/-- The two fields of a `hammer2_chain_t` this file reads and writes. -/
structure Chain where
  hmp : DevId
  pmp : Option PfsId
deriving DecidableEq, Repr

/-- Member `i` of a PFS: `iroot->cluster.array[i].chain` together with
`pmp->pfs_names[i]` and `pmp->pfs_hmps[i]`. -/
structure Slot where
  chain : Option Chain := none
  pfsName : Option String := none
  pfsHmp : Option DevId := none
deriving DecidableEq, Repr

/-- A `hammer2_pfs_t` with the cluster of its root inode. -/
structure Pfs where
  id : PfsId
  forceLocal : Option DevId
  pfsClid : Nat
  /-- `HAMMER2_PMPF_SPMP` in `pmp->flags`. -/
  spmp : Bool
  mp : Option MpId
  /-- `iroot->cluster.nchains`. -/
  nchains : Nat
  slots : List Slot
  slots_length : slots.length = HAMMER2_MAXCLUSTER
  fspec : Option String
deriving DecidableEq

/-- A `hammer2_dev_t`. -/
structure Dev where
  id : DevId
  mountCount : Int
  devvpList : List Devvp
  spmp : Option PfsId
  hflags : Nat
deriving DecidableEq, Repr

/-- A live `struct mount` whose `mnt_data` points at a PFS. -/
structure Mount where
  mp : MpId
  data : PfsId
deriving DecidableEq, Repr

/-- The globals of hammer2_vfsops.c and the mounts of the VFS layer. `nextId` is the
allocator: addresses handed out by `malloc` are never handed out again. -/
structure State where
  mntlist : List Dev
  pfslist : List Pfs
  spmplist : List Pfs
  mounts : List Mount
  nextId : Nat
deriving DecidableEq

/-- The ways a kernel path stops without returning. -/
inductive Fault
  /-- A KKASSERT or KASSERTMSG fails and the kernel panics. -/
  | kassert (msg : String)
  /-- TAILQ_REMOVE of an element that is not on the list. -/
  | tailqRemove
  /-- A NULL pointer, or one to a freed device or PFS, is followed. -/
  | deref
  /-- The model's bound on a `goto again` loop ran out. -/
  | fuel
deriving DecidableEq, Repr

/-- hammer2_init: all three lists empty. -/
def State.init : State := ⟨[], [], [], [], 0⟩

/-- A write through a pointer: apply `f` to the element at address `a`. -/
def update {α : Type} (addr : α → Nat) (a : Nat) (f : α → α) (l : List α) : List α :=
  l.map fun x => if addr x = a then f x else x

/-- TAILQ_REMOVE of the element at address `a`, which must be on the list. -/
def tailqRemove {α : Type} (addr : α → Nat) (a : Nat) : List α → Except Fault (List α)
  | [] => .error .tailqRemove
  | x :: xs => if addr x = a then .ok xs else (tailqRemove addr a xs).map (x :: ·)

theorem Except.bind_eq_ok {ε α β : Type} {x : Except ε α} {f : α → Except ε β} {b : β} :
    x >>= f = .ok b ↔ ∃ a, x = .ok a ∧ f a = .ok b := by
  cases x <;> simp [bind, Except.bind]

theorem Except.map_eq_ok {ε α β : Type} {x : Except ε α} {f : α → β} {b : β} :
    x.map f = .ok b ↔ ∃ a, x = .ok a ∧ f a = b := by
  cases x <;> simp [Except.map]

@[simp] theorem map_update {α : Type} (addr : α → Nat) (a : Nat) (f : α → α) (l : List α)
    (hf : ∀ x, addr (f x) = addr x) : (update addr a f l).map addr = l.map addr := by
  induction l with
  | nil => rfl
  | cons x xs ih => by_cases h : addr x = a <;> simp [update, h, hf] at ih ⊢ <;> exact ih

theorem mem_update {α : Type} {addr : α → Nat} {a : Nat} {f : α → α} {l : List α} {y : α} :
    y ∈ update addr a f l ↔ ∃ x ∈ l, y = if addr x = a then f x else x := by
  simp [update, eq_comm]

theorem update_of_not_mem {α : Type} {addr : α → Nat} {a : Nat} {f : α → α} {l : List α}
    (h : a ∉ l.map addr) : update addr a f l = l := by
  refine (List.map_congr_left fun x hx => if_neg fun e : addr x = a => ?_).trans (List.map_id l)
  exact h (e ▸ List.mem_map_of_mem addr hx)

theorem update_append {α : Type} (addr : α → Nat) (a : Nat) (f : α → α) (l l' : List α) :
    update addr a f (l ++ l') = update addr a f l ++ update addr a f l' :=
  List.map_append _ _ _

theorem update_append_fresh {α : Type} {addr : α → Nat} {a : Nat} {f : α → α} {l : List α}
    {x : α} (hx : addr x = a) (h : a ∉ l.map addr) : update addr a f (l ++ [x]) = l ++ [f x] := by
  rw [update_append, update_of_not_mem h]
  simp [update, hx]

theorem tailqRemove_eq_ok {α : Type} {addr : α → Nat} {a : Nat} {l l' : List α} :
    tailqRemove addr a l = .ok l' ↔
      ∃ pre x post, l = pre ++ x :: post ∧ addr x = a ∧ a ∉ pre.map addr ∧ l' = pre ++ post := by
  induction l generalizing l' with
  | nil => simp [tailqRemove]
  | cons y ys ih =>
    by_cases hy : addr y = a
    · simp only [tailqRemove, hy, if_true, Except.ok.injEq]
      constructor
      · rintro rfl; exact ⟨[], y, ys, by simp, hy, by simp, rfl⟩
      · rintro ⟨_ | ⟨z, pre⟩, x, post, h, hx, hpre, rfl⟩
        · exact (List.cons.inj h).2
        · obtain ⟨rfl, -⟩ := List.cons.inj h
          exact absurd (List.mem_map_of_mem addr (List.mem_cons_self _ _)) (hy ▸ hpre)
    · simp only [tailqRemove, hy, if_false, Except.map_eq_ok, ih]
      constructor
      · rintro ⟨_, ⟨pre, x, post, rfl, hx, hpre, rfl⟩, rfl⟩
        exact ⟨y :: pre, x, post, rfl, hx, by simp [hpre, Ne.symm hy], rfl⟩
      · rintro ⟨_ | ⟨z, pre⟩, x, post, h, hx, hpre, rfl⟩
        · simp only [List.nil_append, List.cons.injEq] at h; exact absurd (h.1 ▸ hx) hy
        · simp only [List.cons_append, List.cons.injEq] at h
          obtain ⟨rfl, rfl⟩ := h
          exact ⟨pre ++ post,
            ⟨pre, x, post, rfl, hx, fun hm => hpre (List.mem_cons_of_mem _ hm), rfl⟩, rfl⟩

theorem tailqRemove_of_nodup {α : Type} {addr : α → Nat} {x : α} {l : List α}
    (hn : (l.map addr).Nodup) (hx : x ∈ l) :
    tailqRemove addr (addr x) l = .ok (l.filter fun y => addr y ≠ addr x) := by
  obtain ⟨pre, post, rfl⟩ := List.append_of_mem hx
  have hd := (List.nodup_middle.1 (by simpa using hn) : _)
  simp only [List.map_append, List.map_cons, List.nodup_cons, List.mem_append, not_or] at hd
  refine tailqRemove_eq_ok.2 ⟨pre, x, post, rfl, rfl, hd.1.1, ?_⟩
  rw [List.filter_append, List.filter_cons_of_neg (by simp), List.filter_eq_self.2,
    List.filter_eq_self.2]
  · intro y hy
    simpa using fun h : addr y = addr x => hd.1.2 (h ▸ List.mem_map_of_mem addr hy)
  · intro y hy
    simpa using fun h : addr y = addr x => hd.1.1 (h ▸ List.mem_map_of_mem addr hy)

theorem length_filter_addr_ne {α : Type} {addr : α → Nat} {x : α} {l : List α}
    (hn : (l.map addr).Nodup) (hx : x ∈ l) :
    (l.filter fun y => addr y ≠ addr x).length + 1 = l.length := by
  induction l with
  | nil => simp at hx
  | cons y ys ih =>
    simp only [List.map_cons, List.nodup_cons, List.mem_map, not_exists, not_and] at hn
    by_cases hy : addr y = addr x
    · simp [List.filter_cons, hy]
      exact fun z hz => by simpa [← hy] using hn.1 z hz
    · have hx' : x ∈ ys := by
        rcases List.mem_cons.1 hx with rfl | h
        · exact absurd rfl hy
        · exact h
      simp [List.filter_cons, hy]
      simpa using ih hn.2 hx'

theorem tailqRemove_of_not_mem {α : Type} {addr : α → Nat} {a : Nat} {l : List α}
    (h : a ∉ l.map addr) : tailqRemove addr a l = .error .tailqRemove := by
  induction l with
  | nil => rfl
  | cons y ys ih =>
    simp only [List.map_cons, List.mem_cons, not_or] at h
    simp [tailqRemove, Ne.symm h.1, ih h.2, Except.map]

theorem tailqRemove_sublist {α : Type} {addr : α → Nat} {a : Nat} {l l' : List α}
    (h : tailqRemove addr a l = .ok l') : List.Sublist l' l := by
  obtain ⟨pre, x, post, rfl, -, -, rfl⟩ := tailqRemove_eq_ok.1 h
  exact (List.sublist_cons_self x post).append_left pre

theorem tailqRemove_error {α : Type} {addr : α → Nat} {a : Nat} {l : List α} {e : Fault}
    (h : tailqRemove addr a l = .error e) : e = .tailqRemove := by
  induction l with
  | nil => simp [tailqRemove] at h; exact h.symm
  | cons x xs ih =>
    unfold tailqRemove at h
    split at h
    · cases h
    · cases hx : tailqRemove addr a xs <;> simp_all [Except.map]

namespace State

def findDev (st : State) (hmp : DevId) : Option Dev :=
  st.mntlist.find? (·.id == hmp)

def modifyDev (st : State) (hmp : DevId) (f : Dev → Dev) : State :=
  { st with mntlist := update Dev.id hmp f st.mntlist }

def findPfs (st : State) (pmp : PfsId) : Option Pfs :=
  (st.pfslist ++ st.spmplist).find? (·.id == pmp)

def modifyPfs (st : State) (pmp : PfsId) (f : Pfs → Pfs) : State :=
  { st with pfslist := update Pfs.id pmp f st.pfslist,
            spmplist := update Pfs.id pmp f st.spmplist }

/-- `MPTOPMP(mp)`, that is `mp->mnt_data`. -/
def mntData (st : State) (mp : MpId) : Option PfsId :=
  (st.mounts.find? (·.mp == mp)).map (·.data)

/-- `++hmp->mount_count` (`δ = 1`) or `--hmp->mount_count` (`δ = -1`). -/
def bumpMountCount (st : State) (hmp : DevId) (δ : Int) : Except Fault State :=
  if st.mntlist.any (·.id == hmp) then
    .ok (st.modifyDev hmp fun d => { d with mountCount := d.mountCount + δ })
  else .error .deref

end State

end Hammer2Vfs
