/-
# Where a process draws

The first entry of `vidmap_page_table` decides where the running process writes when it
draws through `vidmap`: it should be the screen if its terminal is visible, and the page
kept for its terminal otherwise (`MapsScreen`).  A tick sets the entry right
(`mapsScreen_tick`).  Two operations leave it as it is, or set it, without asking which
terminal is visible: a switch of terminals that shows or hides the terminal of the running
process, and a `vidmap` from a background terminal.  Without them the entry stays right
(`MapsScreen.step_iff`, `mapsScreen_of_run`).
-/

import OS391.Consistency
import OS391.Frames

namespace OS391

open Lib

/-- The video mapping of the running process leads to the screen of its terminal. -/
structure MapsScreen (s : Kernel) : Prop where
  present : ptPresent (s.vidmapPageTable 0) = true
  user : ptUser (s.vidmapPageTable 0) = true
  page : ((ptPageBase (s.vidmapPageTable 0)).toNat * 4096 : ℕ) =
    if (s.pcb s.processNum).terminalNum = s.console.terminalNum then 0xB8000
    else 0xB8000 + 4096 * ((s.pcb s.processNum).terminalNum + 1)

/-- The step does not change whether the running process is in the visible terminal, and
does not call `vidmap` from another. -/
def KeepsScreen (s : Kernel) (e : Event) : Prop :=
  match e with
  | .switchTerminals next =>
    (s.pcb s.processNum).terminalNum = s.console.terminalNum ↔
      (s.pcb s.processNum).terminalNum = next
  | .vidmap screenStart =>
    screenStart < 0x8000000 ∨ screenStart > 0x8400000 ∨
      (s.pcb s.processNum).terminalNum = s.console.terminalNum
  | _ => True

section Runs

variable {fs : FileSys} {s t : Kernel} {e : Event} {es : List Event} {frame : Frame}

/-- **The first full tick** ends the boot. -/
theorem Started.running_tick (h : Started s) (hpit : 3 ≤ s.pitCount) {esp ebp : ℕ}
    (hstep : Step fs s (.tick esp ebp frame) t) : Running t := by
  rcases h with hoff | ⟨m, hm⟩
  · rw [hoff.pitCount] at hpit
    omega
  · obtain ⟨m', hm', -⟩ := hstep.represents hm (Or.inr fun hlt => by omega)
    refine ⟨?_, m', hm'⟩
    have hle : s.pitCount = 3 ∨ s.pitCount = 4 := by
      have := hm.sound.started_le
      rcases hm.pitCount with hp | hp <;> simp only [Kernel.book] at hp <;> omega
    cases hstep
    have hbook := Kernel.scheduler_book fs (s.withRegisters esp ebp) frame hpit
    have hcount : ((s.withRegisters esp ebp).scheduler fs frame).pitCount
        = s.book.finishBoot.pitCount := congrArg Book.pitCount hbook
    rw [hcount, Book.finishBoot]
    rcases hle with hthree | hfour
    · rw [if_pos (show s.book.pitCount = 3 from hthree)]
      exact congrArg (· + 1) hthree
    · have hfour' : s.book.pitCount = 4 := hfour
      rw [if_neg (by omega)]
      exact hfour

/-- What the entry for the physical page `base` leads to. -/
theorem mapsScreen_iff {base : ℕ} (hbase : base < 1048576)
    (h : s.vidmapPageTable 0 = (Kernel.vidmapEntry base 0).val) :
    MapsScreen s ↔ base * 4096 =
      if (s.pcb s.processNum).terminalNum = s.console.terminalNum then 0xB8000
      else 0xB8000 + 4096 * ((s.pcb s.processNum).terminalNum + 1) := by
  constructor
  · intro hmaps
    have hpage := hmaps.page
    rwa [h, Kernel.ptPageBase_vidmapEntry hbase] at hpage
  · intro hpage
    refine ⟨?_, ?_, ?_⟩ <;> rw [h]
    · rw [Kernel.ptPresent_vidmapEntry]
      rfl
    · exact Kernel.ptUser_vidmapEntry base 0
    · rwa [Kernel.ptPageBase_vidmapEntry hbase]

/-- **A tick** maps the screen of the process it resumes. -/
theorem mapsScreen_tick (hrun : Running (s.scheduler fs frame)) (hpit : 3 ≤ s.pitCount) :
    MapsScreen (s.scheduler fs frame) := by
  have hidx := hrun.consistent.terminalNum
  have hlt := hrun.consistent.scheduleIdx
  rw [Kernel.scheduler, if_neg (by omega), if_neg (by omega)] at hidx hlt ⊢
  set u := s.saveContext.finishBoot
  set terminal := (u.switchProcess.pcb u.switchProcess.processNum).terminalNum with hterminal
  have htable : u.switchProcess.vidmapPageTable 0
      = (Kernel.vidmapEntry (u.rotate.videoFrame terminal) 0).val :=
    u.rotate.mapVideo_vidmapPageTable _ (by decide)
  have hframe : u.rotate.videoFrame terminal < 1048576 := by
    unfold Kernel.videoFrame
    split_ifs <;> omega
  rw [mapsScreen_iff hframe htable, ← hterminal]
  unfold Kernel.videoFrame
  split_ifs
  · rfl
  · contradiction
  · contradiction
  · omega

/-- The terminal of the running process is the one whose turn it is. -/
theorem Running.terminalNum_eq (h : Running s) :
    (s.pcb s.processNum).terminalNum = s.scheduleIdx :=
  h.consistent.terminalNum

/-- What leaves the screen of the running process leaves the mapping as right, or as wrong,
as it was. -/
theorem Kernel.SameVideo.mapsScreen (hs : Running s) (ht : Running t) (h : s.SameVideo t) :
    MapsScreen t ↔ MapsScreen s := by
  have hterminal : (t.pcb t.processNum).terminalNum = (s.pcb s.processNum).terminalNum := by
    rw [ht.terminalNum_eq, hs.terminalNum_eq, h.scheduleIdx]
  constructor
  · rintro ⟨hpresent, huser, hpage⟩
    rw [h.table] at hpresent huser hpage
    rw [hterminal, h.visible] at hpage
    exact ⟨hpresent, huser, hpage⟩
  · rintro ⟨hpresent, huser, hpage⟩
    refine ⟨?_, ?_, ?_⟩ <;> rw [h.table]
    · exact hpresent
    · exact huser
    · rw [hterminal, h.visible]
      exact hpage

/-- `vidmap` maps the visible screen for whichever process calls it. -/
theorem MapsScreen.vidmap_iff (hrun : Running s) (h : MapsScreen s) {screenStart : ℕ}
    (hrun' : Running (s.vidmap screenStart).2) :
    MapsScreen (s.vidmap screenStart).2 ↔ KeepsScreen s (.vidmap screenStart) := by
  have hsame (hvideo : s.SameVideo (s.vidmap screenStart).2) :
      MapsScreen (s.vidmap screenStart).2 ↔ True := by
    rw [hvideo.mapsScreen hrun hrun']
    exact iff_true_intro h
  unfold Kernel.vidmap at hrun' hsame ⊢
  dsimp only [KeepsScreen] at hrun' hsame ⊢
  split_ifs at hrun' hsame ⊢ with hrange
  · rw [hsame ⟨rfl, rfl, rfl, rfl⟩, ← or_assoc]
    exact iff_of_true trivial (Or.inl hrange)
  · have htable : (s.cli.mapVideo (0xB8000 / 4096)).sti.vidmapPageTable 0
        = (Kernel.vidmapEntry (0xB8000 / 4096) 0).val :=
      s.cli.mapVideo_vidmapPageTable _ (by decide)
    rw [mapsScreen_iff (by decide) htable, ← or_assoc, or_iff_right hrange]
    show _ = (if (s.pcb s.processNum).terminalNum = s.console.terminalNum then 0xB8000 else
      0xB8000 + 4096 * ((s.pcb s.processNum).terminalNum + 1)) ↔ _
    split_ifs with hvisible
    · exact iff_of_true rfl hvisible
    · exact iff_of_false (by omega) hvisible

/-- A switch of terminals maps nothing. -/
theorem MapsScreen.switch_iff (h : MapsScreen s) (next : ℕ) :
    MapsScreen (s.modifyConsole fun c => c.switchTerminals c.terminalNum next) ↔
      KeepsScreen s (.switchTerminals next) := by
  have hpage := h.page
  have hiff : MapsScreen (s.modifyConsole fun c => c.switchTerminals c.terminalNum next) ↔
      ((ptPageBase (s.vidmapPageTable 0)).toNat * 4096 : ℕ) =
        if (s.pcb s.processNum).terminalNum = next then 0xB8000
        else 0xB8000 + 4096 * ((s.pcb s.processNum).terminalNum + 1) :=
    ⟨fun hmaps => hmaps.page, fun hmaps => ⟨h.present, h.user, hmaps⟩⟩
  rw [hiff, hpage]
  dsimp only [KeepsScreen]
  split_ifs with hvisible hnext hnext
  · exact iff_of_true rfl (iff_of_true hvisible hnext)
  · exact iff_of_false (by omega) fun hk => hnext (hk.1 hvisible)
  · exact iff_of_false (by omega) fun hk => hvisible (hk.2 hnext)
  · exact iff_of_true rfl (iff_of_false hvisible hnext)

/-- **A step** keeps the mapping right just when the condition holds. -/
theorem MapsScreen.step_iff (hrun : Running s) (h : MapsScreen s) (hstep : Step fs s e t) :
    MapsScreen t ↔ KeepsScreen s e := by
  have hrun' := hrun.step hstep
  have hsame (hvideo : s.SameVideo t) : MapsScreen t ↔ True := by
    rw [hvideo.mapsScreen hrun hrun']
    exact iff_true_intro h
  cases hstep with
  | tick esp ebp frame =>
    have hpit : 3 ≤ s.pitCount := by
      have := hrun.1
      omega
    exact iff_true_intro (mapsScreen_tick hrun' hpit)
  | execute _ command frame => exact hsame (Kernel.sameVideo_execute fs s command frame)
  | systemHalt _ status frame => exact hsame (s.sameVideo_halt _ frame)
  | exceptionHalt _ status frame => exact hsame (s.sameVideo_halt _ frame)
  | getargs _ buf nbytes => exact hsame (s.sameVideo_getargs buf nbytes)
  | openCall _ filename junk => exact hsame (Kernel.sameVideo_openCall fs s filename junk)
  | close _ fd => exact hsame (s.sameVideo_close fd)
  | vidmap _ screenStart => exact h.vidmap_iff hrun hrun'
  | switchTerminals next => exact h.switch_iff next

/-- **From the first full tick on the mapping is right** in every run without a step that
breaks it. -/
theorem mapsScreen_of_run (hstart : Started s) (hpit : 3 ≤ s.pitCount) (esp ebp : ℕ)
    (hr : Run (Guarded KeepsScreen (Step fs)) ((s.withRegisters esp ebp).scheduler fs frame) es t) :
    MapsScreen t := by
  have hafter : Running ((s.withRegisters esp ebp).scheduler fs frame) :=
    hstart.running_tick hpit (.tick s esp ebp frame)
  have hinv : Running t ∧ MapsScreen t :=
    hr.invariant (I := fun s => Running s ∧ MapsScreen s)
      (fun _ _ _ hs hstep =>
        ⟨hs.1.step hstep.2, (hs.2.step_iff hs.1 hstep.2).2 hstep.1⟩)
      ⟨hafter, mapsScreen_tick (s := s.withRegisters esp ebp) hafter hpit⟩
  exact hinv.2

/-- The kernel after the first tick that follows the boot: the second terminal has its turn,
the first is visible. -/
def secondTurn : Kernel := (bootedKernel.withRegisters 8 16).scheduler default zeroFrame

/-- The mapping is right after a switch to the third terminal and the tick that gives it its
turn. -/
theorem mapsScreen_switch :
    MapsScreen (((secondTurn.modifyConsole fun c => c.switchTerminals c.terminalNum 2).withRegisters
      24 32).scheduler default zeroFrame) :=
  have hhidden : KeepsScreen secondTurn (.switchTerminals 2) :=
    iff_of_false (by decide) (by decide)
  have htick (s : Kernel) : KeepsScreen s (.tick 24 32 zeroFrame) := trivial
  mapsScreen_of_run (Or.inr ⟨_, booted_bootedKernel.represents⟩) (by decide) 8 16
    (.cons ⟨hhidden, .switchTerminals secondTurn 2⟩
      (.cons ⟨htick _, .tick _ 24 32 zeroFrame⟩ (.nil _)))

/-- A process of the second terminal draws on another screen: on the page kept for it when
its terminal has become visible, and on the visible screen of the first terminal when it has
called `vidmap`. -/
theorem not_mapsScreen_secondTurn :
    ¬ MapsScreen (secondTurn.modifyConsole fun c => c.switchTerminals c.terminalNum 1) ∧
      ¬ MapsScreen (secondTurn.vidmap 0x8000000).2 := by
  have hrun : Running secondTurn :=
    booted_bootedKernel.running.step (.tick bootedKernel 8 16 zeroFrame)
  have hmaps : MapsScreen secondTurn := mapsScreen_tick hrun (by decide)
  constructor
  · rw [hmaps.step_iff hrun (Step.switchTerminals secondTurn 1 : Step default _ _ _)]
    intro h
    exact absurd (h.2 (by decide)) (by decide)
  · rw [hmaps.step_iff hrun (Step.vidmap (by decide) 0x8000000 : Step default _ _ _)]
    rintro (h | h | h)
    · exact absurd h (by decide)
    · exact absurd h (by decide)
    · exact absurd h (by decide)

end Runs

end OS391
