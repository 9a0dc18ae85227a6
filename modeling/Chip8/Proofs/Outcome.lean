import Chip8.Proofs.Course

/-!
All that comes of an act: the states in which its cycles begin, what it answers and the state that it leaves
(`Outcome`). The journal's switch may be moved meanwhile, before an act and at every look at the window's events
(`Hand`); an act during which it rests is the act itself (`Emulator.outcome_still`).
-/
namespace Chip8
variable {τ : Type}

/-- What an act answers, if it is not stopped. -/
inductive Answer where
  | nothing
  | instruction (i : Instruction)
  | flag (b : Bool)
  | ended (finished : Option Bool)

/-- A hand on the switch of the journal: what it makes of its position before an act, and at each look that the loop
    takes at the window's events. -/
structure Hand where
  before : Bool → Bool
  atLook : Nat → Bool → Bool

def Hand.still : Hand := ⟨id, fun _ => id⟩

/-- All that comes of an act. -/
structure Outcome (τ : Type) where
  /-- The states in which its cycles begin. -/
  begun : List (Emulator τ)
  answer : Except Fault Answer
  state : Emulator τ

namespace Emulator

/-- The switch of the journal is moved. -/
def switch (e : Emulator τ) (move : Bool → Bool) : Emulator τ :=
  { e with journal := { e.journal with verbose := move e.journal.verbose } }

variable [Time τ]

/-! ### The loop with other looks -/

/-- The loop if `look n` happens before pass number `n`. -/
def runWith (look : Nat → Emulator τ → Emulator τ) (first : Nat) :
    Nat → Emulator τ → Attempt (Emulator τ) (Option Bool)
  | passes, e =>
    if e.running then
      match passes with
      | 0 => .done e none
      | passes + 1 =>
        let pass := (look first e).runOnce
        match pass.result with
        | .ok _ => runWith look (first + 1) passes pass.state.idle
        | .error f => .stopped pass.state f
    else .done { e with speaker := e.speaker.stop } (some e.finished)

/-- The states in which the passes of that loop begin. A pass that is stopped is the last. -/
def passesWith (look : Nat → Emulator τ → Emulator τ) (first : Nat) : Nat → Emulator τ → List (Emulator τ)
  | 0, _ => []
  | passes + 1, e =>
    if e.running then
      let e := look first e
      e :: match e.runOnce.result with
        | .ok _ => passesWith look (first + 1) passes e.runOnce.state.idle
        | .error _ => []
    else []

section
variable {e after : Emulator τ} (look : Nat → Emulator τ → Emulator τ) (first : Nat)

theorem runWith_of_done {goes : Bool} (running : e.running = true)
    (passed : (look first e).runOnce = .done after goes) (passes : Nat) :
    runWith look first (passes + 1) e = runWith look (first + 1) passes after.idle := by
  rw [runWith, if_pos running]
  simp only [passed, Attempt.result_done, Attempt.state_done]

theorem runWith_of_stopped {f : Fault} (running : e.running = true)
    (passed : (look first e).runOnce = .stopped after f) (passes : Nat) :
    runWith look first (passes + 1) e = .stopped after f := by
  rw [runWith, if_pos running]
  simp only [passed, Attempt.result_stopped, Attempt.state_stopped]

theorem runWith_of_ended (halted : ¬ e.running = true) (passes : Nat) :
    runWith look first passes e = .done { e with speaker := e.speaker.stop } (some e.finished) := by
  unfold runWith
  rw [if_neg halted]

theorem runWith_zero (running : e.running = true) : runWith look first 0 e = .done e none := by
  rw [runWith, if_pos running]

theorem passesWith_of_done {goes : Bool} (running : e.running = true)
    (passed : (look first e).runOnce = .done after goes) (passes : Nat) :
    passesWith look first (passes + 1) e = look first e :: passesWith look (first + 1) passes after.idle := by
  rw [passesWith, if_pos running]
  simp only [passed, Attempt.result_done, Attempt.state_done]

theorem passesWith_of_stopped {f : Fault} (running : e.running = true)
    (passed : (look first e).runOnce = .stopped after f) (passes : Nat) :
    passesWith look first (passes + 1) e = [look first e] := by
  rw [passesWith, if_pos running]
  simp only [passed, Attempt.result_stopped]

theorem passesWith_of_ended (halted : ¬ e.running = true) (passes : Nat) : passesWith look first passes e = [] := by
  cases passes with
  | zero => rfl
  | succ passes => rw [passesWith, if_neg halted]

end

/-- A loop that only looks at the window's events is the loop. -/
theorem runWith_poll (e : Emulator τ) (polls : Nat → Poll) (first passes : Nat) :
    runWith (fun n e => e.poll (polls n)) first passes e = (e.run polls first passes).1 ∧
    passesWith (fun n e => e.poll (polls n)) first passes e = passesLoop polls first passes e := by
  induction passes generalizing first e with
  | zero =>
    by_cases running : e.running = true
    · rw [runWith_zero _ _ running, run, if_pos running]
      exact ⟨rfl, rfl⟩
    · rw [runWith_of_ended _ _ running, run_of_ended _ _ running]
      exact ⟨rfl, rfl⟩
  | succ passes ih =>
    by_cases running : e.running = true
    · cases passed : (e.poll (polls first)).runOnce with | mk after result =>
        cases result with
        | ok goes =>
          rw [runWith_of_done _ _ running passed, run_of_done _ _ running passed,
            passesWith_of_done _ _ running passed, passesLoop_of_done _ _ running passed]
          exact ⟨(ih _ _).1, congrArg _ (ih _ _).2⟩
        | error f =>
          rw [runWith_of_stopped _ _ running passed, run_of_stopped _ _ running passed,
            passesWith_of_stopped _ _ running passed, passesLoop_of_stopped _ _ running passed]
          exact ⟨rfl, rfl⟩
    · rw [runWith_of_ended _ _ running, run_of_ended _ _ running, passesWith_of_ended _ _ running,
        passesLoop_of_ended _ _ running]
      exact ⟨rfl, rfl⟩

/-! ### Outcomes -/

/-- What the act answers, or the fault that stops it. -/
def answer (e : Emulator τ) : Act τ → Except Fault Answer
  | .step => e.step.result.map .instruction
  | .runOnce => e.runOnce.result.map .flag
  | .syncDisplay now => .ok (.flag (e.syncDisplay now).2)
  | .run polls first passes => (e.run polls first passes).1.result.map .ended
  | .paint x y rows => .ok (.flag (e.machine.paint x y rows).2)
  | a => (e.act a).result.map fun _ => .nothing

/-- What comes of an act while a hand moves the switch. -/
def outcome (e : Emulator τ) (hand : Hand) : Act τ → Outcome τ
  | .run polls first passes =>
    let look n e := (e.poll (polls n)).switch (hand.atLook n)
    let loop := runWith look first passes (e.switch hand.before)
    ⟨(passesWith look first passes (e.switch hand.before)).flatMap begunPass, loop.result.map .ended, loop.state⟩
  | a =>
    let e := e.switch hand.before
    ⟨e.begun a, e.answer a, (e.act a).state⟩

/-- While the switch rests, there is nothing but the act. -/
theorem outcome_still (e : Emulator τ) (a : Act τ) : e.outcome .still a = ⟨e.begun a, e.answer a, (e.act a).state⟩ := by
  cases a with
  | run polls first passes =>
    obtain ⟨loop, starts⟩ := e.runWith_poll polls first passes
    exact congrArg₂ (fun loop (passes : List (Emulator τ)) =>
      (⟨passes.flatMap begunPass, loop.result.map .ended, loop.state⟩ : Outcome τ)) loop starts
  | _ => rfl

/-- What comes of the acts of a script, one after the other, each with the hand that moves the switch meanwhile. -/
def outcomes (e : Emulator τ) : List (Act τ × Hand) → List (Outcome τ)
  | [] => []
  | (a, hand) :: script => e.outcome hand a :: (e.outcome hand a).state.outcomes script

/-- The state that a script leads to. -/
def perform (e : Emulator τ) (script : List (Act τ × Hand)) : Emulator τ :=
  script.foldl (fun e p => (e.outcome p.2 p.1).state) e

end Emulator

end Chip8
