import Hammer2Vfs.System

namespace Hammer2Vfs

theorem span_at {pre rest : List Char} (h : '@' ∉ pre) (hr : rest = [] ∨ rest.head? = some '@') :
    (pre ++ rest).span (· ≠ '@') = (pre, rest) := by
  have hp : ∀ a ∈ pre, decide (a ≠ '@') = true := fun a ha =>
    decide_eq_true fun e => h (e ▸ ha)
  rw [List.span_eq_take_drop, List.takeWhile_append_of_pos hp, List.dropWhile_append_of_pos hp]
  rcases hr with rfl | hr
  · simp
  · obtain ⟨r, rfl⟩ : ∃ r, rest = '@' :: r := by
      cases rest with
      | nil => cases hr
      | cons c r => exact ⟨r, by simpa using hr⟩
    simp

theorem first_at (l : List Char) : '@' ∉ l ∨ ∃ pre r, '@' ∉ pre ∧ l = pre ++ '@' :: r := by
  induction l with
  | nil => simp
  | cons c l ih =>
    by_cases hc : c = '@'
    · exact .inr ⟨[], l, by simp, by simp [hc]⟩
    · rcases ih with h | ⟨pre, r, hp, rfl⟩
      · exact .inl (by simp [h, Ne.symm hc])
      · exact .inr ⟨c :: pre, r, by simp [hp, Ne.symm hc], rfl⟩

/-- With no '@' the whole string is the device and the label is "DATA". -/
theorem splitLabel_no_at {s : String} (h : '@' ∉ s.toList) : splitLabel s = (s, "DATA") := by
  unfold splitLabel
  rw [show s.toList = s.toList ++ [] by simp, span_at h (.inl rfl)]

/-- A first '@' that ends the string selects "DATA" but stays in the device string. -/
theorem splitLabel_trailing_at {pre : List Char} (h : '@' ∉ pre) :
    splitLabel (String.mk (pre ++ ['@'])) = (String.mk (pre ++ ['@']), "DATA") := by
  have e : (pre ++ ['@']).span (· ≠ '@') = (pre, ['@']) := span_at h (.inr rfl)
  unfold splitLabel
  rw [String.toList, e]

/-- Otherwise the device string is the text before the first '@' and the label the text
after it. -/
theorem splitLabel_at {pre l : List Char} {c : Char} (h : '@' ∉ pre) :
    splitLabel (String.mk (pre ++ '@' :: c :: l)) = (String.mk pre, String.mk (c :: l)) := by
  have e : (pre ++ '@' :: c :: l).span (· ≠ '@') = (pre, '@' :: c :: l) := span_at h (.inr rfl)
  unfold splitLabel
  rw [String.toList, e]

theorem splitLabel_fspec {d l : String} (hd : '@' ∉ d.toList) (hl : l ≠ "") :
    splitLabel (d ++ "@" ++ l) = (d, l) := by
  obtain ⟨c, r, hcr⟩ : ∃ c r, l.toList = c :: r := by
    cases hl' : l.toList with
    | nil => exact absurd (String.ext hl') hl
    | cons c r => exact ⟨c, r, rfl⟩
  have e : d ++ "@" ++ l = String.mk (d.toList ++ '@' :: c :: r) := by
    rw [← hcr]; exact String.ext (List.append_assoc _ _ _)
  rw [e, splitLabel_at hd]
  exact Prod.ext rfl (String.ext hcr.symm)

/-- Every device string other than one whose first '@' is its last character comes back
from the stored fspec as the device and label the mount used. -/
theorem splitLabel_roundtrip {s : String}
    (h : ¬∃ pre, '@' ∉ pre ∧ s.toList = pre ++ ['@']) :
    splitLabel ((splitLabel s).1 ++ "@" ++ (splitLabel s).2) = splitLabel s := by
  rcases first_at s.toList with ha | ⟨pre, r, hp, hs⟩
  · rw [splitLabel_no_at ha]
    exact splitLabel_fspec ha (by decide : "DATA" ≠ "")
  · cases r with
    | nil => exact absurd ⟨pre, hp, hs⟩ h
    | cons c l =>
      have e : s = String.mk (pre ++ '@' :: c :: l) := String.ext hs
      rw [e, splitLabel_at hp]
      exact splitLabel_fspec hp (by simp [String.ext_iff])

/-- `/dev/da0` under the name the device string "/dev/da0@" leaves: hammer2_init_devvp
opens the path it is given, and only that one. -/
def trailingEnv : MountEnv :=
  { da0Env "DATA" [inode "DATA" 0] with
    initDevvp := fun s => if s = "/dev/da0@" then ([da0], 0) else ([], ENOENT) }

/-- Mounting "/dev/da0@" opens "/dev/da0@", and the fspec it stores splits into another
device and label. -/
theorem trailing_at_fspec :
    (run [.mount (localMount "/dev/da0@") trailingEnv] State.init).map
        (fun st => st.pfslist.map (·.fspec)) = .ok [some "/dev/da0@@DATA"] ∧
      splitLabel "/dev/da0@@DATA" = ("/dev/da0", "@DATA") :=
  ⟨rfl, rfl⟩

/-- Lines 511-537 attach a non-empty request to a registered device exactly when some
registered device has each of its vnodes aliased by a requested entry: the requested
entries are never checked against the device's. -/
theorem attachDevice_found_iff {st : State} {env : MountEnv} {devvpl : List Devvp}
    {label : String} (hne : devvpl ≠ []) :
    (∃ h pmp, attachDevice st env devvpl label = .found h pmp) ↔
      ∃ hmp ∈ st.mntlist, ∀ e' ∈ hmp.devvpList, ∃ e ∈ devvpl, e'.aliases e := by
  have hm : (matchDevice devvpl st.mntlist).isSome ↔
      ∃ hmp ∈ st.mntlist, ∀ e' ∈ hmp.devvpList, ∃ e ∈ devvpl, e'.aliases e := by
    simp [matchDevice, List.find?_isSome]
  rw [← hm]
  unfold attachDevice
  rw [if_neg (by simpa using hne)]
  cases matchDevice devvpl st.mntlist with
  | some hmp => simp
  | none => simp only [Option.isSome_none]; split <;> simp

/-- The volumes `/dev/da0` and `/dev/da1` requested together. -/
def da01Env (label : String) (pmps : List SrootChain) : MountEnv :=
  { da0Env label pmps with
    initDevvp := fun s => if s = "/dev/da0:/dev/da1" then ([da0, da1], 0) else ([], 0) }

/-- A request for `/dev/da0` and `/dev/da1` mounts ROOT from the registered device of
`/dev/da0` alone. -/
theorem extra_volume_attached :
    ((run (twoLabels.take 1) State.init).bind fun st =>
      (hammer2Mount st.nextId (localMount "/dev/da0:/dev/da1@ROOT")
          (da01Env "ROOT" [inode "DATA" 0, inode "ROOT" 0]) { st with nextId := st.nextId + 1 }).map
        fun r => (r.error, r.st.mntlist.map (·.devvpList), r.st.mntData st.nextId)) =
      .ok (0, [[da0]], some 4) :=
  rfl

/-- Lines 805-823 when the label's entry reads with an error: hammer2_pfsalloc is skipped
and the mount binds whatever `pmp` held on entry. -/
theorem mountLabel_chain_error {mp : MpId} {devstr label : String} {hmp : DevId}
    {pmp : Option PfsId} {devvpl : List Devvp} {env : MountEnv} {st : State} {d : Dev}
    {c : SrootChain} (hd : st.findDev hmp = some d) (hs : (d.spmp.bind st.findPfs).isSome)
    (hc : findLabelChain label env.labelScan = .ok (some c)) (he : c.error ≠ 0) :
    mountLabel mp devstr label hmp pmp devvpl env st = bindPmp mp devstr label d pmp devvpl st := by
  obtain ⟨sp, hsp⟩ := Option.isSome_iff_exists.1 hs
  simp [mountLabel, hd, hsp, hc, acquirePmp, he, bind, Except.bind]

/-- A label-only mount of ROOT whose entry reads with EIO binds the PFS found for ROOT and
returns 0. -/
theorem label_only_chain_error :
    ((run (twoLabels.take 1) State.init).bind fun st =>
      (hammer2Mount st.nextId (localMount "@ROOT")
          { da0Env "ROOT" [] with labelScan := [inode "ROOT" 5] }
          { st with nextId := st.nextId + 1 }).map
        fun r => (r.error, r.st.mntData st.nextId)) = .ok (0, some 4) :=
  rfl

end Hammer2Vfs
