import Chip8.Proofs.Standing

/-!
No change of the screen is lost, and no frame is presented twice in a row. What draws on the screen marks it
(`Screen.Marks`): a screen that is not dirty afterwards is the one from before. So a screen that is not dirty is
the frame presented last (`Emulator.Faithful.clean`), whatever was done (`Emulator.faithful_invariant`), and
`Emulator.run_display` states what the window has seen in every state of every run.
-/
namespace Chip8
variable {τ : Type}

/-! ### Pictures -/

theorem Frame.add_blank (f : Frame) : f.add .blank = f := by
  ext y row
  simp [add, blank]

namespace Screen

/-- A picture of empty rows is blank, wherever they are placed. -/
theorem stamp_eq_blank {placed : List (Fin 32 × Row)} (empty : ∀ p ∈ placed, p.2 = 0) : stamp placed = .blank := by
  unfold stamp
  induction placed with
  | nil => rfl
  | cons p placed ih =>
    obtain ⟨j, row⟩ := p
    have zero : row = 0 := empty (j, row) List.mem_cons_self
    have put : Vector.set Frame.blank j row = Frame.blank := by
      ext i inside
      simp [zero, Frame.blank]
    rw [List.foldl_cons]
    dsimp only
    rw [put]
    exact ih fun q later => empty q (List.mem_cons_of_mem _ later)

/-- The first screen became the second; unless that is marked as dirty, nothing changed. -/
def Marks (s t : Screen) : Prop := t.dirty = false → t = s

theorem marks_refl (s : Screen) : s.Marks s := fun _ => rfl

theorem marks_clear (s : Screen) : s.Marks s.clear := by
  unfold Marks clear
  split
  · exact fun _ => rfl
  · nofun

/-- A sprite that leaves the screen clean shows no pixel, so that nothing is added. -/
theorem marks_paint (s : Screen) (wrap : Bool) (x y : Int) (rows : List Byte) : s.Marks (s.paint wrap x y rows).1 := by
  intro clean
  simp only [paint, Bool.or_eq_false_iff] at clean
  obtain ⟨_, none⟩ := clean
  have empty : ∀ p ∈ placements wrap (x % 64).toNat (y % 32).toNat rows, p.2 = 0 := by simpa using none
  simp only [paint, stamp_eq_blank empty, Frame.add_blank, none, Bool.or_false]

end Screen

/-- Whatever an instruction does to the screen it marks. -/
theorem Machine.marks_execute (m : Machine τ) (i : Instruction) : m.screen.Marks (m.execute i).state.screen := by
  cases i with
  | clearScreen => exact m.screen.marks_clear
  | draw x y n =>
    exact m.screen.marks_paint m.dialect.wrapSprites (m.registers.get x).toNat (m.registers.get y).toNat
      (m.core.memory.read m.core.index.addr n)
  | skip c =>
    rw [execute, skip_eq]
    split
    · simp only [Attempt.state_within, screen_tested]
      exact m.screen.marks_refl
    · rw [Attempt.state_done, screen_tested]
      exact m.screen.marks_refl
  | waitKey x =>
    cases found : m.look.awaited? with
    | none =>
      simp only [execute, waitKey_of_none x found, Attempt.state_done, screen_look]
      exact m.screen.marks_refl
    | some key =>
      simp only [execute, waitKey_of_some x found, Attempt.state_done, screen_look]
      exact m.screen.marks_refl
  | _ => exact m.screen.marks_refl

namespace Emulator

/-! ### Frames -/

/-- The frames are counted, the last one is remembered, a clean screen is the last one, and no two in a row are
    the same. -/
structure Faithful (e : Emulator τ) : Prop where
  count : e.frameCount = e.window.frames.size
  shown : e.shown = e.window.frames.back?
  clean : e.machine.screen.dirty = false → e.shown = some e.machine.screen.pixels
  distinct : ∀ i (next : i + 1 < e.window.frames.size), e.window.frames[i] ≠ e.window.frames[i + 1]

namespace Faithful
variable {e : Emulator τ}

theorem follow {after : Emulator τ} (faithful : e.Faithful) (count : after.frameCount = e.frameCount)
    (frames : after.window.frames = e.window.frames) (shown : after.shown = e.shown)
    (marks : e.machine.screen.Marks after.machine.screen) : after.Faithful where
  count := by rw [count, frames]; exact faithful.count
  shown := by rw [shown, frames]; exact faithful.shown
  clean clean := by
    have same := marks clean
    rw [same] at clean
    rw [shown, same]
    exact faithful.clean clean
  distinct := by simp only [frames]; exact faithful.distinct

variable [Time τ]

/-- However a look at the display goes, it keeps all this. -/
theorem display (faithful : e.Faithful) (now : τ) : (e.syncDisplay now).1.Faithful := by
  have looked := e.looked_syncDisplay now
  generalize e.syncDisplay now = after at looked ⊢
  cases looked with
  | early => exact faithful
  | clean => exact faithful.follow rfl rfl rfl (Screen.marks_refl _)
  | same _ _ same => exact ⟨faithful.count, faithful.shown, fun _ => same, faithful.distinct⟩
  | presented _ _ other =>
    refine ⟨by simp [faithful.count], by simp, fun _ => rfl, fun i next => ?_⟩
    simp only [Array.size_push] at next
    rcases Nat.lt_or_ge (i + 1) e.window.frames.size with old | last
    · rw [Array.getElem_push_lt, Array.getElem_push_lt old]
      exact faithful.distinct i old
    · -- The frame before the new one is the one that was remembered.
      have inside : i < e.window.frames.size := by omega
      have back : e.shown = some e.window.frames[i] := by
        have place : e.window.frames.size - 1 = i := by omega
        rw [faithful.shown, Array.back?_eq_getElem?, place, Array.getElem?_eq_getElem]
      have new : (e.window.frames.push e.machine.screen.pixels)[i + 1] = e.machine.screen.pixels := by
        simp [Array.getElem_push, show ¬ i + 1 < e.window.frames.size by omega]
      rw [Array.getElem_push_lt inside, new]
      intro same
      exact other (by rw [back, same])

end Faithful

theorem Started.faithful {m : Machine τ} {e : Emulator τ} (started : Started m e) (fresh : m.screen = .initial) :
    e.Faithful where
  count := by rw [started.frameCount, started.frames]; rfl
  shown := by rw [started.shown, started.frames]; rfl
  clean clean := by
    rw [started.machine] at clean
    simp [fresh, Screen.initial] at clean
  distinct i next := by simp [started.frames] at next

variable [Time τ]

theorem faithful_invariant : Invariant fun e : Emulator τ => e.Faithful where
  timers faithful := faithful.follow rfl rfl rfl (Screen.marks_refl _)
  display now faithful := faithful.display now
  stop faithful := faithful.follow rfl rfl rfl (Screen.marks_refl _)
  pace _ _ _ _ _ _ faithful := faithful.follow rfl rfl rfl (Screen.marks_refl _)
  fetch faithful := faithful.follow rfl rfl rfl (Screen.marks_refl _)
  exec {e} i faithful := by
    have marks := e.machine.marks_execute i
    rw [← machine_exec] at marks
    refine faithful.follow ?_ ?_ ?_ marks
    all_goals simp only [exec]; split <;> rfl
  finish faithful := faithful.follow rfl rfl rfl (Screen.marks_refl _)
  paint {e} x y rows faithful := faithful.follow rfl rfl rfl (e.machine.screen.marks_paint _ x y rows)
  clear {e} faithful := faithful.follow rfl rfl rfl e.machine.screen.marks_clear

/-! ### Presenting -/

/-- A look at the display once it is due leaves the screen as the last frame. -/
theorem back?_syncDisplay {e : Emulator τ} (faithful : e.Faithful) {now : τ}
    (due : ¬ now - e.lastRefresh < Time.sixtieth) :
    (e.syncDisplay now).1.window.frames.back? = some (e.syncDisplay now).1.machine.screen.pixels := by
  have looked := e.looked_syncDisplay now
  generalize e.syncDisplay now = after at looked ⊢
  cases looked with
  | early early => exact absurd early due
  | clean _ clean => rw [← faithful.shown]; exact faithful.clean clean
  | same _ _ same => rw [← faithful.shown]; exact same
  | presented => exact Array.back?_push

/-- What a look at the display answers is whether it presented the screen. -/
theorem frames_syncDisplay (e : Emulator τ) (now : τ) : (e.syncDisplay now).1.window.frames =
    if (e.syncDisplay now).2 then e.window.frames.push e.machine.screen.pixels else e.window.frames := by
  have looked := e.looked_syncDisplay now
  generalize e.syncDisplay now = after at looked ⊢
  cases looked <;> rfl

/-- In every state of every run a clean screen is the frame presented last, and so is any screen after a look at
    the display that was due; no two frames in a row are the same; the frames are counted; and a look at the
    display answers whether it presented one. -/
theorem run_display {machine : Machine τ} {rate : Int} {isOpen : Bool} {speaker : Speaker} {journal : Journal}
    {first e : Emulator τ} {ended : Bool} (fresh : machine.screen = .initial)
    (started : start machine rate ⟨isOpen, #[]⟩ speaker journal = .ok first)
    (run : first.Run (fun _ _ => True) ended e) :
    (e.machine.screen.dirty = false → e.window.frames.back? = some e.machine.screen.pixels) ∧
    (∀ now, ¬ now - e.lastRefresh < Time.sixtieth →
      (e.syncDisplay now).1.window.frames.back? = some (e.syncDisplay now).1.machine.screen.pixels) ∧
    (∀ i (next : i + 1 < e.window.frames.size), e.window.frames[i] ≠ e.window.frames[i + 1]) ∧
    e.frameCount = e.window.frames.size ∧
    ∀ now, (e.syncDisplay now).1.window.frames =
      if (e.syncDisplay now).2 then e.window.frames.push e.machine.screen.pixels else e.window.frames := by
  have faithful := faithful_invariant.of_run run ((started_of_start started).faithful fresh)
  refine ⟨fun clean => ?_, fun now => back?_syncDisplay faithful, faithful.distinct, faithful.count,
    e.frames_syncDisplay⟩
  rw [← faithful.shown]
  exact faithful.clean clean

/-- A pixel is drawn and presented, then the screen is cleared and presented again. -/
theorem run_display_first : ∃ start : Emulator Rat, ofProgram (.plain #[]) = .ok start ∧
    let drawn := (start.act (.paint 0 0 [0x80])).state
    let shown := (drawn.act (.syncDisplay 1)).state
    let cleared := (shown.act .clear).state
    let after := (cleared.act (.syncDisplay 2)).state
    (∃ ended, start.Run (fun _ _ => True) ended after) ∧ after.frameCount = 2 ∧
    after.window.frames[0]? ≠ after.window.frames[1]? ∧ after.window.frames.back? = some .blank := by
  obtain ⟨start, starts, started⟩ := exists_plain #[] (by decide)
  obtain ⟨_, journal, first⟩ := start_of_ofProgram starts
  let dot : Frame := (Screen.initial.paint false 0 0 [0x80]).1.pixels
  have lit : dot ≠ .blank := by decide +kernel
  let drawn := (start.act (.paint 0 0 [0x80])).state
  let shown := (drawn.act (.syncDisplay 1)).state
  let cleared := (shown.act .clear).state
  let after := (cleared.act (.syncDisplay 2)).state
  have screen : drawn.machine.screen = ⟨dot, true⟩ := by
    have fresh : start.machine.screen = .initial := by rw [started.machine]; rfl
    have clips : start.machine.dialect.wrapSprites = false := by rw [started.machine]; rfl
    show (start.machine.screen.paint start.machine.dialect.wrapSprites 0 0 [0x80]).1 = _
    rw [fresh, clips]
    decide +kernel
  -- Both looks are due and find a picture that was touched and is not the one shown.
  have one : drawn.syncDisplay 1 = _ := syncDisplay_of_touched
    (by rw [show drawn.lastRefresh = _ from started.lastRefresh]; decide +kernel)
    (by rw [screen])
    (by rw [show drawn.shown = _ from started.shown]; nofun)
  have looked : shown.lastRefresh = 1 ∧ shown.machine.screen = ⟨dot, false⟩ ∧ shown.shown = some dot ∧
      shown.frameCount = 1 := by
    show (drawn.syncDisplay 1).1.lastRefresh = 1 ∧ (drawn.syncDisplay 1).1.machine.screen = ⟨dot, false⟩ ∧
      (drawn.syncDisplay 1).1.shown = some dot ∧ (drawn.syncDisplay 1).1.frameCount = 1
    rw [one, screen]
    exact ⟨rfl, rfl, rfl, congrArg (· + 1) started.frameCount⟩
  obtain ⟨lastRefresh, picture, frame, count⟩ := looked
  have empty : cleared.machine.screen = ⟨.blank, true⟩ := by
    show shown.machine.screen.clear = _
    rw [picture]
    exact if_neg lit
  have two : cleared.syncDisplay 2 = _ := syncDisplay_of_touched
    (by rw [show cleared.lastRefresh = _ from lastRefresh]; decide +kernel)
    (by rw [empty])
    (by rw [show cleared.shown = _ from frame, empty]; exact fun same => lit (Option.some.inj same))
  have counts : after.frameCount = 2 := by
    show (cleared.syncDisplay 2).1.frameCount = 2
    rw [two]
    exact congrArg (· + 1) count
  have blank : after.machine.screen = ⟨.blank, false⟩ := by
    show (cleared.syncDisplay 2).1.machine.screen = ⟨.blank, false⟩
    rw [two, empty]
  have run : start.Run (fun _ _ => True) _ after := .snoc (.snoc (.snoc (.snoc .nil trivial) trivial) trivial) trivial
  obtain ⟨clean, _, distinct, frames, _⟩ := run_display rfl first run
  have both : 0 + 1 < after.window.frames.size := by rw [← frames, counts]; decide
  refine ⟨start, starts, ⟨_, run⟩, counts, fun same => ?_, ?_⟩
  · rw [Array.getElem?_eq_getElem (Nat.lt_of_succ_lt both), Array.getElem?_eq_getElem both] at same
    exact distinct 0 both (Option.some.inj same)
  · have last := clean (by rw [blank])
    rw [blank] at last
    exact last

end Emulator
end Chip8
