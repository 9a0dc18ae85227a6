import Chip8.Text.Hex

/-!
Why a cycle stops, and steps that may stop part of the way. A program that runs past its end has
finished, which is no error; an unbalanced return or a call too deep is one (`Fault.abnormal`). A step
that stops still leaves a state behind (`Attempt`), because a stopped fetch has moved the counter.
-/
namespace Chip8

/-- Why a cycle stops. -/
inductive Fault where
  | finished (pc : Int)
  | stackUnderflow
  | stackOverflow (addr : Int)
deriving DecidableEq

namespace Fault

def message : Fault → String
  | finished pc => "Program finished at 0x" ++ Text.Hex.upper 3 pc
  | stackUnderflow => "Stack underflow on 00EE"
  | stackOverflow addr => "Stack overflow on CALL to 0x" ++ Text.Hex.upper 3 addr

/-- Everything but the end of the program. -/
def abnormal : Fault → Bool
  | finished _ => false
  | stackUnderflow | stackOverflow _ => true

end Fault

/-- The state a step leaves, and its value or the fault that stopped it. -/
structure Attempt (σ α : Type) where
  state : σ
  result : Except Fault α

namespace Attempt
variable {σ τ α : Type}

def done (s : σ) (a : α) : Attempt σ α := ⟨s, .ok a⟩
def stopped (s : σ) (f : Fault) : Attempt σ α := ⟨s, .error f⟩

/-- The attempt as part of a larger state. -/
def within (a : Attempt σ α) (put : σ → τ) : Attempt τ α := ⟨put a.state, a.result⟩

/-- Goes on from the state and the value, unless a fault stopped the first part. -/
def andThen {β : Type} (a : Attempt σ α) (next : σ → α → Attempt σ β) : Attempt σ β :=
  match a.result with
  | .ok v => next a.state v
  | .error f => .stopped a.state f

@[simp] theorem state_done (s : σ) (a : α) : (done s a).state = s := rfl
@[simp] theorem result_done (s : σ) (a : α) : (done s a).result = .ok a := rfl
@[simp] theorem state_stopped (s : σ) (f : Fault) : (stopped s f : Attempt σ α).state = s := rfl
@[simp] theorem result_stopped (s : σ) (f : Fault) : (stopped s f : Attempt σ α).result = .error f := rfl
@[simp] theorem state_within (a : Attempt σ α) (put : σ → τ) : (a.within put).state = put a.state := rfl
@[simp] theorem result_within (a : Attempt σ α) (put : σ → τ) : (a.within put).result = a.result := rfl
@[simp] theorem within_done (s : σ) (a : α) (put : σ → τ) : (done s a).within put = done (put s) a := rfl
@[simp] theorem within_stopped (s : σ) (f : Fault) (put : σ → τ) :
    (stopped s f : Attempt σ α).within put = stopped (put s) f := rfl
@[simp] theorem andThen_done {β : Type} (s : σ) (a : α) (next : σ → α → Attempt σ β) :
    (done s a).andThen next = next s a := rfl
@[simp] theorem andThen_stopped {β : Type} (s : σ) (f : Fault) (next : σ → α → Attempt σ β) :
    (stopped s f).andThen next = stopped s f := rfl

end Attempt

end Chip8
