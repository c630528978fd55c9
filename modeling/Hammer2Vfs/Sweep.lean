import Hammer2Vfs.Mount

namespace Hammer2Vfs

theorem unmountHelperDev_frame {d : Dev} {st st' : State} (h0 : d.mountCount = 0)
    (h : unmountHelperDev d st = .ok st') :
    tailqRemove Dev.id d.id st.mntlist = .ok st'.mntlist ∧ st'.mounts = st.mounts ∧
      st'.nextId = st.nextId := by
  simp only [unmountHelperDev, h0, ne_eq, not_true_eq_false, ↓reduceIte] at h
  obtain ⟨⟨d1, st1⟩, h1, h⟩ := Except.bind_eq_ok.1 h
  obtain ⟨⟨d2, st2⟩, h2, h⟩ := Except.bind_eq_ok.1 h
  obtain ⟨a1, b1, c1, e1⟩ := hammer2PfsfreeScan_frame h1
  obtain ⟨a2, b2, c2, e2⟩ := hammer2PfsfreeScan_frame h2
  have hid : d2.id = d.id := by rw [e2, e1]
  split at h
  · cases h
  · obtain ⟨l, hl, rfl⟩ := Except.map_eq_ok.1 h
    rw [hid, a2, a1] at hl
    exact ⟨hl, by simp [b2, b1], by simp [c2, c1]⟩

theorem unmountHelperDev_ne_fuel (d : Dev) (st : State) :
    unmountHelperDev d st ≠ .error .fuel := by
  unfold unmountHelperDev
  split
  · simp
  have b0 := hammer2PfsfreeScan_ne_fuel d 0 st (st.pfslist.length + 1)
    (Nat.lt_succ_of_le (List.length_filter_le _ _))
  cases h1 : hammer2PfsfreeScan d 0 st (st.pfslist.length + 1) with
  | error e => simp_all [bind, Except.bind]
  | ok r1 =>
    obtain ⟨d1, st1⟩ := r1
    have b1 := hammer2PfsfreeScan_ne_fuel d1 1 st1 (st1.spmplist.length + 1)
      (Nat.lt_succ_of_le (List.length_filter_le _ _))
    cases h2 : hammer2PfsfreeScan d1 1 st1 (st1.spmplist.length + 1) with
    | error e => simp_all [bind, Except.bind]
    | ok r2 =>
      simp only [h2, bind, Except.bind]
      split
      · simp
      · cases h3 : tailqRemove Dev.id r2.1.id r2.2.mntlist with
        | error e => simp [Except.map, tailqRemove_error h3]
        | ok l => simp [Except.map]

theorem unmountHelperDev_error {d : Dev} {st : State} {e : Fault} (hs : d.spmp = none)
    (h : unmountHelperDev d st = .error e) : e = .fuel ∨ e = .tailqRemove := by
  unfold unmountHelperDev at h
  split at h
  · cases h
  cases h1 : hammer2PfsfreeScan d 0 st (st.pfslist.length + 1) with
  | error e1 =>
    simp only [h1, bind, Except.bind, Except.error.injEq] at h
    exact h ▸ hammer2PfsfreeScan_error h1
  | ok r1 =>
    obtain ⟨d1, st1⟩ := r1
    cases h2 : hammer2PfsfreeScan d1 1 st1 (st1.spmplist.length + 1) with
    | error e2 =>
      simp only [h1, h2, bind, Except.bind, Except.error.injEq] at h
      exact h ▸ hammer2PfsfreeScan_error h2
    | ok r2 =>
      obtain ⟨d2, st2⟩ := r2
      simp only [h1, h2, bind, Except.bind, Option.isSome_none, Bool.false_eq_true, ↓reduceIte,
        hammer2PfsfreeScan_spmp (hammer2PfsfreeScan_spmp hs h1) h2] at h
      cases h3 : tailqRemove Dev.id d2.id st2.mntlist with
      | error e3 =>
        simp only [h3, Except.map, Except.error.injEq] at h
        exact .inr (h ▸ tailqRemove_error h3)
      | ok l => simp [h3, Except.map] at h

theorem unmountHelperDev_unlinked {d : Dev} {st : State} (h0 : d.mountCount = 0)
    (hs : d.spmp = none) (hd : d.id ∉ st.mntlist.map Dev.id) :
    unmountHelperDev d st = .error .tailqRemove := by
  cases h : unmountHelperDev d st with
  | ok st' =>
    have := (unmountHelperDev_frame h0 h).1
    rw [tailqRemove_of_not_mem hd] at this
    cases this
  | error e =>
    rcases unmountHelperDev_error hs h with rfl | rfl
    · exact absurd h (unmountHelperDev_ne_fuel d st)
    · rfl

theorem unmountHelperDev_first_idle {st st' : State} {d : Dev}
    (hn : (st.mntlist.map Dev.id).Nodup) (hd : st.mntlist.find? (·.mountCount == 0) = some d)
    (h : unmountHelperDev d st = .ok st') :
    st'.mntlist = st.mntlist.filter (·.id ≠ d.id) ∧ d.mountCount = 0 := by
  have h0 : d.mountCount = 0 := by simpa using List.find?_some hd
  have hr := (unmountHelperDev_frame h0 h).1
  rw [tailqRemove_of_nodup hn (List.mem_of_find?_eq_some hd), Except.ok.injEq] at hr
  exact ⟨hr.symm, h0⟩

theorem unmountSweep_spec (fuel : Nat) (st : State) (hn : (st.mntlist.map Dev.id).Nodup)
    (hf : (st.mntlist.filter (·.mountCount == 0)).length < fuel) :
    unmountSweep fuel st ≠ .error .fuel ∧
      ∀ st', unmountSweep fuel st = .ok st' →
        st'.mntlist = st.mntlist.filter (·.mountCount ≠ 0) := by
  induction fuel generalizing st with
  | zero => omega
  | succ fuel ih =>
    unfold unmountSweep
    split
    · rename_i hd
      refine ⟨by simp, fun st' h => ?_⟩
      cases h
      exact (List.filter_eq_self.2 fun d hd' => by
        simpa using (List.find?_eq_none.1 hd) d hd').symm
    · rename_i d hd
      cases ht : unmountHelperDev d st with
      | error e =>
        have := unmountHelperDev_ne_fuel d st
        rw [ht] at this
        exact ⟨by simpa [Except.bind] using this, by simp [Except.bind]⟩
      | ok st1 =>
        obtain ⟨h1, h0⟩ := unmountHelperDev_first_idle hn hd ht
        have hmem := List.mem_of_find?_eq_some hd
        have hn1 : (st1.mntlist.map Dev.id).Nodup := h1 ▸ hn.sublist ((List.filter_sublist _).map _)
        have hf1 : (st1.mntlist.filter (·.mountCount == 0)).length < fuel := by
          have hz := length_filter_addr_ne
            (hn.sublist ((List.filter_sublist (p := fun x : Dev => x.mountCount == 0) _).map _))
            (List.mem_filter.2 ⟨hmem, by simpa using h0⟩)
          simp only [h1, List.filter_filter, Bool.and_comm] at hz ⊢
          omega
        obtain ⟨ih1, ih2⟩ := ih st1 hn1 hf1
        refine ⟨by simpa [Except.bind] using ih1, fun st' h => ?_⟩
        rw [ih2 st' (by simpa [Except.bind] using h), h1, List.filter_filter]
        refine List.filter_congr fun x hx => ?_
        by_cases hxd : x.id = d.id
        · rw [List.inj_on_of_nodup_map hn hx hmem hxd]; simp [h0]
        · simp [hxd]

end Hammer2Vfs
