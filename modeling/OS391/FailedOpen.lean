/-
# A call of `open` that returns -1

`file_open` and `directory_open` look for a free descriptor before they write anything.
`rtc_open` first sets the rate, the count and the flag of the scheduled terminal, and then
looks for a descriptor; when there is none it returns -1 with the three arrays changed
(`openCall_of_full`).  So a failed `open` leaves no trace unless it names the RTC, the table
of the scheduled process is full, and its terminal is not at the reset values
(`openWithoutTrace_iff`).
-/

import OS391.HaltAtomic

namespace OS391

open Lib

/-- No descriptor from `FD_MIN` to `FD_MAX` is free. -/
def Pcb.TableFull (p : Pcb) : Prop :=
  ∀ fd, fdMin ≤ fd → fd ≤ fdMax → (p.fileDescriptor fd).flags = true

theorem freeDescriptor_eq_none_iff {p : Pcb} : freeDescriptor p = none ↔ p.TableFull := by
  rw [freeDescriptor, List.find?_eq_none]
  constructor
  · intro h fd hmin hmax
    have hmem : fd ∈ ([2, 3, 4, 5, 6, 7] : List ℤ) := by
      simp only [List.mem_cons, List.not_mem_nil, or_false, fdMin, fdMax] at hmin hmax ⊢
      omega
    simpa using h fd hmem
  · intro h fd hmem
    have hbounds : fdMin ≤ fd ∧ fd ≤ fdMax := by
      simp only [List.mem_cons, List.not_mem_nil, or_false, fdMin, fdMax] at hmem ⊢
      omega
    simp [h fd hbounds.1 hbounds.2]

/-- Terminal `t` of the virtual RTC is as `rtc_open` sets it: 2 Hz, nothing counted, and
waiting. -/
structure Rtc.IsReset (r : Rtc) (t : ℕ) : Prop where
  frequency : r.desiredVirtualizedFrequency t = 2
  count : r.interruptCount t = 0
  flag : r.interruptFlag t = 1

namespace Kernel

variable {fs : FileSys} {s : Kernel} {filename : Option CString} {junk : ℤ}

theorem resetRtc_rtc_eq_iff : s.resetRtc.rtc = s.rtc ↔ s.rtc.IsReset s.scheduleIdx := by
  constructor
  · intro h
    refine ⟨?_, ?_, ?_⟩
    · rw [← h]
      exact Function.update_self ..
    · rw [← h]
      exact Function.update_self ..
    · rw [← h]
      exact Function.update_self ..
  · rintro ⟨hfrequency, hcount, hflag⟩
    simp only [resetRtc]
    rw [← hfrequency, ← hcount, ← hflag, Function.update_eq_self, Function.update_eq_self,
      Function.update_eq_self]

section OpenDescriptor

variable {pid : ℤ} {fop : FopTable} {fileType : ℕ} {inodeOf : Dentry → ℕ} {name : CString}

/-- **What the three `open` functions share does nothing when it fails.** -/
theorem openDescriptor_eq_of_failed
    (h : (s.openDescriptor fs pid fop fileType inodeOf name).1 = -1) :
    (s.openDescriptor fs pid fop fileType inodeOf name).2 = s := by
  unfold openDescriptor at h ⊢
  cases hfree : freeDescriptor (s.pcb pid) with
  | none => rfl
  | some fd =>
    rw [hfree] at h
    cases hdentry : readDentryByName fs name with
    | none => rfl
    | some d =>
      rw [hdentry] at h
      dsimp only at h ⊢
      split_ifs at h ⊢
      · rfl
      · -- a free descriptor is none of the numbers below `FD_MIN`
        obtain rfl : fd = -1 := h
        exact absurd (List.mem_of_find?_eq_some hfree) (by decide)
      · rfl

theorem openDescriptor_of_full (h : (s.pcb pid).TableFull) :
    s.openDescriptor fs pid fop fileType inodeOf name = (-1, s) := by
  rw [openDescriptor, freeDescriptor_eq_none_iff.2 h]

/-- With a free slot an entry of the right type is opened. -/
theorem openDescriptor_ne_of_free {d : Dentry} (hfull : ¬ (s.pcb pid).TableFull)
    (hdentry : readDentryByName fs name = some d) (htype : d.fileType = fileType) :
    (s.openDescriptor fs pid fop fileType inodeOf name).1 ≠ -1 := by
  rw [← freeDescriptor_eq_none_iff, ← ne_eq, Option.ne_none_iff_exists'] at hfull
  obtain ⟨fd, hfree⟩ := hfull
  have hflags : ((s.pcb pid).fileDescriptor fd).flags = false := by
    simpa using List.find?_some hfree
  rw [openDescriptor, hfree, hdentry]
  dsimp only
  rw [if_neg (not_not.2 htype), if_pos hflags]
  rintro rfl
  exact absurd (List.mem_of_find?_eq_some hfree) (by decide)

end OpenDescriptor

/-- The name is that of an RTC entry. -/
def OpensRtc (fs : FileSys) (filename : Option CString) : Prop :=
  ∃ name d, filename = some name ∧ readDentryByName fs name = some d ∧ d.fileType = rtcFileType

/-- **A failed `open` leaves no trace** in a descriptor table or in the virtual RTC. -/
def OpenWithoutTrace (fs : FileSys) (s : Kernel) (filename : Option CString) (junk : ℤ) : Prop :=
  (s.openCall fs filename junk).1 = -1 →
    (s.openCall fs filename junk).2.pcb = s.pcb ∧ (s.openCall fs filename junk).2.rtc = s.rtc

/-- `open` for an RTC entry is `rtc_open`. -/
theorem openCall_of_opensRtc {name : CString} {d : Dentry}
    (hdentry : readDentryByName fs name = some d) (htype : d.fileType = rtcFileType) :
    s.openCall fs (some name) junk
      = ((s.cli.rtcOpen fs name).1, (s.cli.rtcOpen fs name).2.sti) := by
  simp only [openCall, hdentry, if_pos htype]

/-- **`rtc_open` without a free descriptor** fails, and the RTC is reset all the same. -/
theorem openCall_of_full (hrtc : OpensRtc fs filename) (hfull : (s.pcb s.scheduledPid).TableFull) :
    s.openCall fs filename junk = (-1, s.cli.cli.resetRtc.sti.sti) := by
  obtain ⟨name, d, rfl, hdentry, htype⟩ := hrtc
  have hopen : s.cli.cli.resetRtc.openDescriptor fs s.scheduledPid .rtc rtcFileType (fun _ => 0)
      name = (-1, s.cli.cli.resetRtc) := openDescriptor_of_full hfull
  rw [openCall_of_opensRtc hdentry htype]
  exact congrArg (fun r : ℤ × Kernel => (r.1, r.2.sti.sti)) hopen

/-- With a free descriptor `rtc_open` does not fail. -/
theorem openCall_ne_of_free (hrtc : OpensRtc fs filename)
    (hfull : ¬ (s.pcb s.scheduledPid).TableFull) : (s.openCall fs filename junk).1 ≠ -1 := by
  obtain ⟨name, d, rfl, hdentry, htype⟩ := hrtc
  rw [openCall_of_opensRtc hdentry htype]
  exact openDescriptor_ne_of_free (s := s.cli.cli.resetRtc) hfull hdentry htype

/-- Every other failure leaves the PCBs and the RTC alone. -/
theorem openWithoutTrace_of_not_opensRtc (hrtc : ¬ OpensRtc fs filename) :
    s.OpenWithoutTrace fs filename junk := by
  unfold OpenWithoutTrace
  cases filename with
  | none => exact fun _ => ⟨rfl, rfl⟩
  | some name =>
    cases hdentry : readDentryByName fs name with
    | none =>
      simp only [openCall, hdentry]
      exact fun _ => ⟨rfl, rfl⟩
    | some d =>
      simp only [openCall, hdentry]
      split_ifs with hrtcType hdirectory hfile
      · exact absurd ⟨name, d, rfl, hdentry, hrtcType⟩ hrtc
      · intro h
        rw [directoryOpen, openDescriptor_eq_of_failed h]
        exact ⟨rfl, rfl⟩
      · intro h
        rw [fileOpen, openDescriptor_eq_of_failed h]
        exact ⟨rfl, rfl⟩
      · exact fun _ => ⟨rfl, rfl⟩

/-- **When a failed `open` leaves no trace:** the name is not that of an RTC entry, or there is
a free descriptor (and `open` does not fail), or the RTC is at the reset values already. -/
theorem openWithoutTrace_iff : s.OpenWithoutTrace fs filename junk ↔
    ¬ OpensRtc fs filename ∨ ¬ (s.pcb s.scheduledPid).TableFull ∨
      s.rtc.IsReset s.scheduleIdx := by
  by_cases hrtc : OpensRtc fs filename
  · by_cases hfull : (s.pcb s.scheduledPid).TableFull
    · rw [OpenWithoutTrace, openCall_of_full hrtc hfull, ← resetRtc_rtc_eq_iff]
      constructor
      · intro h
        exact Or.inr (Or.inr (h rfl).2)
      · intro h _
        exact ⟨rfl, (h.resolve_left (not_not.2 hrtc)).resolve_left (not_not.2 hfull)⟩
    · exact iff_of_true (fun h => absurd h (openCall_ne_of_free hrtc hfull)) (Or.inr (Or.inl hfull))
  · exact iff_of_true (openWithoutTrace_of_not_opensRtc hrtc) (Or.inl hrtc)

end Kernel

/-- The name `rtc` opened in `s`. -/
def openedRtc (s : Kernel) : Kernel := (s.openCall rtcImage (some rtcName) 0).2

/-- The first shell with six descriptors open on the RTC, at 32 Hz. -/
def busyRtcKernel : Kernel :=
  ((openedRtc (openedRtc (openedRtc (openedRtc (openedRtc (openedRtc bootedKernel)))))).rtcWrite
    (fun i => if i = 0 then 32 else 0) 4).2

/-- **A failed `open` of the RTC slows its reader down:** the seventh returns -1, and the rate is
2 Hz from then on. -/
theorem not_openWithoutTrace_rtc :
    ¬ ∀ (fs : FileSys) (s : Kernel) (filename : Option CString) (junk : ℤ),
      s.OpenWithoutTrace fs filename junk := by
  intro h
  have hret : (busyRtcKernel.openCall rtcImage (some rtcName) 0).1 = -1 := by decide +kernel
  have hrate : (busyRtcKernel.openCall rtcImage (some rtcName) 0).2.rtc.desiredVirtualizedFrequency
      0 ≠ busyRtcKernel.rtc.desiredVirtualizedFrequency 0 := by decide +kernel
  exact hrate (by rw [(h rtcImage busyRtcKernel (some rtcName) 0 hret).2])

end OS391
